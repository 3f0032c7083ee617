/-
# Parts that show rows

A draft of a statement shows a listing if its part has the rows of the listing.  As long as nothing
was counted or collected, there is one result for every match, made from the node that was matched,
and it has the cells of that node in the columns of the listing.  So the property that a reference
is resolved to holds what the reference means in the result.
-/
import ObjectGraph.Proofs.Choosing
import ObjectGraph.Proofs.Compile.Folding
import ObjectGraph.Proofs.Cypher.Semantics
import ObjectGraph.Proofs.Rendering

namespace ObjectGraph

open Cypher (Property)

variable {δ : Type}

/-- The type of a property of the nodes of an object type. -/
def ObjectType.propertyType (type : ObjectType) (property : Property) : Option ScalarType :=
  (type.fields.get? property.name).map (·.type)

/-- The nodes of an object type as rows, those with the given identities or all. -/
def Listing.ofNodes (D : Domain δ) (type : ObjectType) (ids : Option (List Int64))
    (nodes : List (Record δ)) : Listing δ where
  header := .ofType type
  rows := match ids with
    | none => nodes
    | some ids => nodes.filter fun node =>
      D.among (node.cell type.idField) (ids.map fun id => some (D.integer id.toInt)) == some true

namespace Cypher

open Compile (TextCondition)

variable {D : Domain δ} {graph : Graph δ} {catalog : Catalog} {name : String} {type : ObjectType}
  {draft result : Draft} {listing : Listing δ} {header : Header}

/-! ### The invariant -/

/-- A draft with one result for every match, made from the node of an object type, that holds the
cells of the node in the columns of a header. -/
structure Plain (D : Domain δ) (name : String) (type : ObjectType) (draft : Draft)
    (header : Header) : Prop where
  typeName : draft.typeName = name
  path : draft.part.path = (Draft.start name type).part.path
  nodup : header.names.Nodup
  fields : ∀ column ∈ header, ∃ field,
    type.fields.get? column.1 = some field ∧ column.2 = some field.type
  sorted : ∀ key ∈ draft.part.orderBy, ∃ property, key.target = .property property
  output : ∃ output : Record δ → Record δ,
    (∀ found, draft.part.returned D found
      = found.map fun found => (found, output (found.node draft.node))) ∧
    ∀ node, ∀ column ∈ header, (output node).cell column.1 = node.cell column.1

/-- A draft whose only part has the rows of a listing. -/
structure Shows (D : Domain δ) (graph : Graph δ) (name : String) (type : ObjectType)
    (draft : Draft) (listing : Listing δ) : Prop where
  single : draft.others = []
  rows : draft.part.rows D type.propertyType graph = listing.rows
  /-- No column was renamed. -/
  unnamed : ∀ item ∈ draft.part.returns.getD [], item.givenName = none
  plain : draft.aggregated = false → Plain D name type draft listing.header

/-! ### References -/

/-- The columns for references hold what these are resolved to, and are called after them. -/
lemma forall₂_propertyItems {references : List String} {items : List ReturnItem}
    (h : draft.propertyItems catalog references = .ok items) :
    List.Forall₂ (fun reference item => ∃ property : Property,
      draft.resolve catalog reference = .ok property ∧
        item = { name := unqualified reference, value := .property property })
      references items := by
  induction references generalizing items with
  | nil =>
    obtain rfl := Compile.pure_eq_ok.1 h
    exact .nil
  | cons reference rest ih =>
    obtain ⟨item, hitem, h⟩ := Compile.bind_eq_ok.1 h
    obtain ⟨others, hothers, h⟩ := Compile.bind_eq_ok.1 h
    obtain rfl := Compile.pure_eq_ok.1 h
    obtain ⟨property, hproperty, hitem⟩ := Compile.bind_eq_ok.1 hitem
    exact .cons ⟨property, hproperty, (Compile.pure_eq_ok.1 hitem).symm⟩ (ih hothers)

namespace Plain

/-- A field of the result is a field of the node, which the mark of the identity is not. -/
lemma ne_idKey (h : Plain D name type draft header) (hi : type.PlainIdentity)
    {column : String × Option ScalarType} (hc : column ∈ header) : column.1 ≠ idKey := by
  obtain ⟨field, hget, -⟩ := h.fields column hc
  intro hkey
  rw [hkey] at hget
  exact hi.marked (List.mem_map_of_mem (Named.mem_of_lookup hget))

/-- A reference is resolved to the property of the column that it means. -/
lemma resolve_eq (h : Plain D name type draft header) (ht : catalog.type? name = some type)
    (hi : type.PlainIdentity) {reference : String} {column : String × Option ScalarType}
    (hc : header.column? reference = some column) :
    draft.resolve catalog reference = .ok ⟨draft.node, column.1⟩ := by
  obtain ⟨hmem, hname⟩ := Header.column?_eq_some hc
  obtain ⟨field, hget, -⟩ := h.fields column hmem
  have hrequire : catalog.requireType draft.typeName = .ok type := by
    rw [h.typeName, Compile.requireType_ok]
    exact ht
  -- Whether the reference is a name or the mark of the identity, the same field is looked up.
  have hlookup : type.lookupField
      (if unqualified reference = "id" ∧ ¬type.fields.contains "id" then idKey
        else unqualified reference) = some (column.1, field) := by
    rcases hname with hname | ⟨hkey, hname⟩
    · have hstored : ¬(column.1 = "id" ∧ ¬type.fields.contains "id") := by
        rintro ⟨hid, hnot⟩
        rw [hid] at hget
        simp [OrderedMap.contains, hget] at hnot
      rw [← hname, if_neg hstored, ObjectType.lookupField, if_neg (h.ne_idKey hi hmem), hget]
      rfl
    · have hnot : ¬(idKey = "id" ∧ ¬type.fields.contains "id") := by
        rintro ⟨hid, -⟩
        exact absurd hid (by decide)
      rw [hkey, if_neg hnot, ObjectType.lookupField, if_pos rfl, hi.idField, ← hname, hget]
      rfl
  rw [Draft.resolve, hrequire]
  simp only [bind, Except.bind, hlookup]
  rfl

/-- The property of a column has the type of the column and, in the node behind a result, its
cell. -/
lemma property_eq (h : Plain D name type draft header) {reference : String} {property : Property}
    (ht : catalog.type? name = some type) (hi : type.PlainIdentity) (hr : header.Has reference)
    (hp : draft.resolve catalog reference = .ok property) :
    ∃ column, header.column? reference = some column ∧ property = ⟨draft.node, column.1⟩ ∧
      type.propertyType property = header.type? reference := by
  obtain ⟨column, hc⟩ := Option.isSome_iff_exists.1 hr
  rw [h.resolve_eq ht hi hc] at hp
  obtain rfl := Except.ok.inj hp
  obtain ⟨field, hget, htype⟩ := h.fields column (Header.column?_eq_some hc).1
  refine ⟨column, hc, rfl, ?_⟩
  rw [ObjectType.propertyType, hget, Header.type?, hc, Option.bind_some, htype]
  rfl

lemma propertyItems_eq (h : Plain D name type draft header) (ht : catalog.type? name = some type)
    (hi : type.PlainIdentity) {references : List String} {items : List ReturnItem}
    (hr : ∀ reference ∈ references, header.Has reference)
    (hp : draft.propertyItems catalog references = .ok items) :
    (∀ item ∈ items, item.givenName = none) ∧
      items.map (fun item => (item.column, item.value))
        = (header.meant references).map fun name => (name, .property ⟨draft.node, name⟩) := by
  replace hp := forall₂_propertyItems hp
  induction hp with
  | nil => exact ⟨List.forall_mem_nil _, rfl⟩
  | cons hitem _ ih =>
    obtain ⟨hfirst, hrest⟩ := List.forall_mem_cons.1 hr
    obtain ⟨property, hproperty, rfl⟩ := hitem
    obtain ⟨column, hc, rfl, -⟩ := h.property_eq ht hi hfirst hproperty
    obtain ⟨hunnamed, hitems⟩ := ih hrest
    refine ⟨List.forall_mem_cons.2 ⟨rfl, hunnamed⟩, ?_⟩
    rw [List.map_cons, hitems, Header.meant_cons hc]
    rfl

end Plain

/-! ### Conditions -/

/-- Whether the properties that references are resolved to stand for the columns that they
mean. -/
def Draft.Means (catalog : Catalog) (draft : Draft) (header : Header) (record : Record δ)
    (types : Property → Option ScalarType) (cells : Property → Cell δ) : Prop :=
  ∀ reference property, header.Has reference → draft.resolve catalog reference = .ok property →
    types property = header.type? reference ∧ cells property = header.cell record reference

/-! ### Rows made from matches -/

/-- The keys of a part that sort by properties, as keys of matches. -/
def Part.matchKeys (part : Part) : List (Direction × (Match δ → Cell δ)) :=
  part.orderBy.map fun key => (key.direction, fun found => key.target.cell found [])

/-- The matches that the clauses of a part leave. -/
def Part.left (D : Domain δ) (types : Property → Option ScalarType) (graph : Graph δ)
    (part : Part) : List (Match δ) :=
  Sql.slice part.limit part.skip
    (arrange D (part.tests D types) part.matchKeys (part.path.found graph))

/-- A part with one result for every match has one row for every match that is left. -/
lemma rows_eq_map {part : Part} {output : Match δ → Record δ}
    (hs : ∀ key ∈ part.orderBy, ∃ property, key.target = .property property)
    (hr : ∀ found, part.returned D found = found.map fun found => (found, output found))
    (types : Property → Option ScalarType) :
    part.rows D types graph = (part.left D types graph).map output := by
  have hkeys : (part.keys (δ := δ)).map (fun key =>
      (key.1, fun found => key.2 (found, output found))) = part.matchKeys := by
    rw [Part.keys, List.map_map]
    refine List.map_congr_left fun key hk => ?_
    obtain ⟨property, hp⟩ := hs key hk
    simp only [Function.comp_apply, hp]
    rfl
  rw [Part.rows, Part.sorted, hr, Stable.sort_map, Domain.orderBy_map, hkeys, Sql.slice_map,
    List.map_map]
  rfl

end Cypher
end ObjectGraph
