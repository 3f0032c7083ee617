/-
# Hops that can be walked

An edge that is nested in itself becomes a hop with a count by its name alone.  The relationship of
the hop is that of the first edge, and the node behind it has the type that this edge leads to, on
which the operations behind the hop resolve their fields.  That is what walking the chain of edges
comes to exactly if the edges after the first one lead back to this type by the same relationship.

The invariant of a draft is that every property it speaks of is a field of the type of its node.
-/
import ObjectGraph.Proofs.Cypher.Paths
import ObjectGraph.Proofs.Rendering

namespace ObjectGraph

/-- Whether following an edge so many times, by relationships of one type, leads from a type to
another one. -/
def Catalog.Leads (catalog : Catalog) (naming : String → String) (name relationship : String) :
    Nat → String → String → Prop
  | 0, type, last => type = last
  | n + 1, type, last =>
    ∃ edge, catalog.edge? type name = some edge ∧ edge.relationshipType name naming = relationship ∧
      catalog.Leads naming name relationship n edge.target last

namespace Cypher

open Compile (TextCondition)
open Draft (Following)

variable {naming : String → String} {catalog : Catalog} {draft result : Draft}
  {operation : Operation} {type last : String} {types : List String} {chains : List Following}
  {hops : List Hop} {query : Query} {part : Part}

/-! ### Walks -/

/-- Whether a node is one for the objects of a type. -/
def Node.Stands (catalog : Catalog) (node : Node) (typeName : String) : Prop :=
  ∃ type, catalog.type? typeName = some type ∧ node.label = type.labelOf typeName

/-- Whether a hop is a chain of edges that are followed from one type to another. -/
structure Hop.Follows (naming : String → String) (catalog : Catalog) (hop : Hop)
    (chain : Following) (type last : String) : Prop where
  count : hop.count = chain.count
  leads : catalog.Leads naming chain.edge hop.relationship chain.count type last
  stands : hop.node.Stands catalog last

/-- Whether the hops of a path are chains of edges that are followed from a type on, each from
the type that the one before it leads to. -/
inductive Walks (naming : String → String) (catalog : Catalog) :
    String → List Following → List Hop → List String → Prop
  | nil (type : String) : Walks naming catalog type [] [] []
  | cons {type last : String} {chain : Following} {chains : List Following} {hop : Hop}
      {hops : List Hop} {types : List String} :
    hop.Follows naming catalog chain type last → Walks naming catalog last chains hops types →
    Walks naming catalog type (chain :: chains) (hop :: hops) (last :: types)

/-- The hops that chains of edges become from a type on, and the types of the nodes behind them.
Only the first edge of each chain is looked at. -/
inductive Arrives (naming : String → String) (catalog : Catalog) :
    String → List Following → List Hop → List String → Prop
  | nil (type : String) : Arrives naming catalog type [] [] []
  | cons {type : String} {chain : Following} {chains : List Following} {hop : Hop}
      {hops : List Hop} {types : List String} {edge : Edge} :
    catalog.edge? type chain.edge = some edge →
    hop.relationship = edge.relationshipType chain.edge naming →
    hop.count = chain.count →
    hop.node.Stands catalog edge.target →
    Arrives naming catalog edge.target chains hops types →
    Arrives naming catalog type (chain :: chains) (hop :: hops) (edge.target :: types)

/-- Whether each chain of edges leads back to the type that its first edge leads to, by the same
relationship all the way. -/
def LeadsBack (naming : String → String) (catalog : Catalog) : String → List Following → Prop
  | _, [] => True
  | type, chain :: chains =>
    ∃ edge, catalog.edge? type chain.edge = some edge ∧
      catalog.Leads naming chain.edge (edge.relationshipType chain.edge naming) (chain.count - 1)
        edge.target edge.target ∧
      LeadsBack naming catalog edge.target chains

/-- Hops can be walked exactly if the edges after the first one of each chain lead back. -/
lemma Arrives.walks_iff (h : Arrives naming catalog type chains hops types)
    (hp : ∀ chain ∈ chains, 0 < chain.count) :
    Walks naming catalog type chains hops types ↔ LeadsBack naming catalog type chains := by
  induction h with
  | nil type => exact ⟨fun _ => trivial, fun _ => .nil type⟩
  | @cons type chain chains hop hops types edge hedge hrelationship hcount hstands _ ih =>
    obtain ⟨hpos, hrest⟩ := List.forall_mem_cons.1 hp
    obtain ⟨again, hagain⟩ : ∃ again, chain.count = again + 1 := ⟨_, (Nat.succ_pred hpos.ne').symm⟩
    -- the first edge of the chain is the one the hop is made of, so the others remain
    rw [LeadsBack, hagain, Nat.add_sub_cancel]
    constructor
    · rintro (_ | ⟨⟨-, hleads, -⟩, hwalks⟩)
      rw [hagain] at hleads
      obtain ⟨first, hfirst, hsame, hback⟩ := hleads
      obtain rfl := Option.some.inj (hedge.symm.trans hfirst)
      rw [← hsame] at hback
      exact ⟨edge, hedge, hback, (ih hrest).1 hwalks⟩
    · rintro ⟨first, hfirst, hback, hleads⟩
      obtain rfl := Option.some.inj (hedge.symm.trans hfirst)
      refine .cons ⟨hcount, ?_, hstands⟩ ((ih hrest).2 hleads)
      rw [hagain, hrelationship]
      exact ⟨edge, hedge, rfl, hback⟩

/-- The types behind some hops are not changed by those that come after them. -/
lemma Arrives.types_prefix {before after : List Following} {first : List Hop}
    {behind : List String} (h : Arrives naming catalog type (before ++ after) hops types)
    (hb : Arrives naming catalog type before first behind) : behind <+: types := by
  induction hb generalizing hops types with
  | nil type => exact List.nil_prefix
  | cons hedge _ _ _ _ ih =>
    cases h with
    | cons hsame _ _ _ hrest =>
      obtain rfl := Option.some.inj (hedge.symm.trans hsame)
      exact List.prefix_cons_inj _ |>.2 (ih hrest)

/-! ### What a part speaks of -/

namespace Value

/-- The properties that a column reads. -/
def properties : Value → List Property
  | property p => [p]
  | collectMaps _ entries => entries.map Entry.property
  | count | collect _ => []

/-- The variable of the nodes that a column collects. -/
def collected? : Value → Option String
  | collect node | collectMaps node _ => some node
  | property _ | count => none

end Value

/-- The property that rows are sorted by. -/
def SortTarget.property? : SortTarget → Option Property
  | property p => some p
  | named _ => none

namespace Part

/-- The columns that a part returns, of which there are none if it returns a node. -/
def columns (part : Part) : List ReturnItem :=
  part.returns.getD []

/-- The properties that the clauses of a part speak of. -/
def properties (part : Part) : List Property :=
  part.conditions.flatMap TextCondition.subjects ++ part.columns.flatMap (·.value.properties) ++
    part.orderBy.filterMap (·.target.property?)

end Part

variable {P P' : Property → Prop} {Q Q' : String → Prop}

/-- Whether a column reads and collects only what satisfies a predicate. -/
def Value.Speaks (P : Property → Prop) (Q : String → Prop) (value : Value) : Prop :=
  (∀ property ∈ value.properties, P property) ∧ ∀ node ∈ value.collected?, Q node

/-- Whether all properties in the clauses of a part satisfy a predicate, and all variables whose
nodes are collected another one. -/
structure Part.Speaks (P : Property → Prop) (Q : String → Prop) (part : Part) : Prop where
  conditions : ∀ c ∈ part.conditions, ∀ property ∈ c.subjects, P property
  columns : ∀ item ∈ part.columns, item.value.Speaks P Q
  orderBy : ∀ key ∈ part.orderBy, ∀ property ∈ key.target.property?, P property

namespace Part.Speaks

lemma mono (h : part.Speaks P Q) (hP : ∀ property, P property → P' property)
    (hQ : ∀ node, Q node → Q' node) : part.Speaks P' Q' where
  conditions c hc property hm := hP property (h.conditions c hc property hm)
  columns item hi :=
    ⟨fun property hm => hP property ((h.columns item hi).1 property hm),
      fun node hm => hQ node ((h.columns item hi).2 node hm)⟩
  orderBy key hk property hm := hP property (h.orderBy key hk property hm)

lemma of_mem_properties (h : part.Speaks P Q) : ∀ property ∈ part.properties, P property := by
  rw [Part.properties, List.forall_mem_append, List.forall_mem_append]
  refine ⟨⟨fun property hm => ?_, fun property hm => ?_⟩, fun property hm => ?_⟩
  · obtain ⟨c, hc, hm⟩ := List.mem_flatMap.1 hm
    exact h.conditions c hc property hm
  · obtain ⟨item, hitem, hm⟩ := List.mem_flatMap.1 hm
    exact (h.columns item hitem).1 property hm
  · obtain ⟨key, hkey, hm⟩ := List.mem_filterMap.1 hm
    exact h.orderBy key hkey property hm

/-- With other columns a part speaks of what they read and collect. -/
lemma returning (h : part.Speaks P Q) {items : List ReturnItem}
    (hi : ∀ item ∈ items, item.value.Speaks P Q) :
    Part.Speaks P Q { part with returns := some items } :=
  { h with columns := hi }

end Part.Speaks

/-! ### What operations make a part speak of -/

/-- A condition speaks of nothing but what references are resolved to. -/
lemma subjects_condition
    (hP : ∀ reference property, draft.resolve catalog reference = .ok property → P property)
    {predicate : Predicate} {c : TextCondition Property}
    (h : draft.condition catalog predicate = .ok c) : ∀ property ∈ c.subjects, P property := by
  intro property hm
  obtain ⟨reference, hr⟩ := (renders_condition h).exists_reference property hm
  exact hP reference property hr

/-- The columns for references hold what these are resolved to, and are given no name. -/
lemma mem_propertyItems {references : List String} {items : List ReturnItem}
    (h : draft.propertyItems catalog references = .ok items) : ∀ item ∈ items,
    item.givenName = none ∧ ∃ reference property,
      draft.resolve catalog reference = .ok property ∧ item.value = .property property := by
  replace h := forall₂_propertyItems h
  induction h with
  | nil => exact List.forall_mem_nil _
  | cons hitem _ ih =>
    obtain ⟨property, hproperty, rfl⟩ := hitem
    exact List.forall_mem_cons.2 ⟨⟨rfl, _, property, hproperty, rfl⟩, ih⟩

/-- The columns are those of the part, or those for all fields of the node reached last. -/
lemma returnItems_ok {items : List ReturnItem} (h : draft.returnItems catalog = .ok items) :
    draft.part.returns = some items ∨ draft.part.returns = none ∧
      ∃ references, draft.propertyItems catalog references = .ok items := by
  rw [Draft.returnItems] at h
  split at h
  · rename_i returned hreturns
    obtain rfl := Except.ok.inj h
    exact .inl hreturns
  · rename_i hreturns
    obtain ⟨type, -, h⟩ := Compile.bind_eq_ok.1 h
    exact .inr ⟨hreturns, _, h⟩

/-- Renaming a column leaves what the columns hold. -/
lemma map_value_renameItem {old new : String} {items renamed : List ReturnItem}
    (h : Draft.renameItem old new items = some renamed) :
    renamed.map ReturnItem.value = items.map ReturnItem.value := by
  induction items generalizing renamed with
  | nil => cases h
  | cons item rest ih =>
    rw [Draft.renameItem] at h
    split at h
    · obtain rfl := Option.some.inj h
      rfl
    · obtain ⟨others, hothers, rfl⟩ := Option.map_eq_some_iff.1 h
      exact congrArg (item.value :: ·) (ih hothers)

/-- A sort target is a column that was given its name, or a property of a node. -/
lemma sortTarget_cases {name : String} {target : SortTarget}
    (h : draft.sortTarget catalog name = .ok target) :
    draft.hasGivenName name = true ∧ target = .named name ∨
      ∃ property, draft.resolve catalog name = .ok property ∧ target = .property property := by
  rw [Draft.sortTarget] at h
  split at h
  · rename_i hgiven
    exact .inl ⟨hgiven, (Except.ok.inj h).symm⟩
  · split at h
    · cases h
    · obtain ⟨property, hproperty, h⟩ := Compile.bind_eq_ok.1 h
      exact .inr ⟨property, hproperty, (Compile.pure_eq_ok.1 h).symm⟩

lemma Part.Speaks.collected (h : draft.part.Speaks P Q) (hQ : Q draft.node) :
    draft.collected.Speaks P Q := by
  rw [Draft.collected]
  split
  · refine ⟨List.forall_mem_nil _, ?_⟩
    rintro _ ⟨⟩
    exact hQ
  · rename_i items hitems
    constructor
    · rw [Value.properties, List.forall_mem_map]
      intro entry hentry
      obtain ⟨item, hitem, hread⟩ := List.mem_filterMap.1 hentry
      have hcolumn : item ∈ draft.part.columns := by
        rw [Part.columns, hitems]
        exact hitem
      rw [Draft.entry?] at hread
      split at hread
      · rename_i property hvalue
        obtain rfl := Option.some.inj hread
        refine (h.columns item hcolumn).1 property ?_
        rw [hvalue]
        exact List.mem_singleton_self _
      · cases hread
    · rintro _ ⟨⟩
      exact hQ

lemma speaks_property {property : Property} (h : P property) :
    (Value.property property).Speaks P Q :=
  ⟨List.forall_mem_singleton.2 h, by rintro _ ⟨⟩⟩

/-- An operation makes a part speak of nothing but what references are resolved to, and collect
nothing but the nodes reached last. -/
lemma Draft.Applied.speaks (ha : draft.Applied naming catalog operation result)
    (hP : ∀ reference property, draft.resolve catalog reference = .ok property → P property)
    (hQ : Q draft.node) (h : draft.part.Speaks P Q) : result.part.Speaks P Q := by
  have hread {references : List String} {items : List ReturnItem}
      (hitems : draft.propertyItems catalog references = .ok items) :
      ∀ item ∈ items, item.value.Speaks P Q := by
    intro item hitem
    obtain ⟨-, reference, property, hproperty, hvalue⟩ := mem_propertyItems hitems item hitem
    rw [hvalue]
    exact speaks_property (hP reference property hproperty)
  cases ha with
  | project _ hitems => exact h.returning (hread hitems)
  | filter _ hc =>
    refine { h with conditions := List.forall_mem_append.2 ⟨h.conditions, ?_⟩ }
    exact List.forall_mem_singleton.2 (subjects_condition hP hc)
  | take n => exact { h with }
  | skip n _ => exact { h with }
  | count _ =>
    refine ⟨h.conditions, List.forall_mem_singleton.2 ?_, List.forall_mem_nil _⟩
    exact ⟨List.forall_mem_nil _, by rintro _ ⟨⟩⟩
  | nest key _ =>
    exact ⟨h.conditions, List.forall_mem_singleton.2 (h.collected hQ), List.forall_mem_nil _⟩
  | groupBy _ hproperty =>
    refine ⟨h.conditions, List.forall_mem_cons.2 ⟨speaks_property (hP _ _ hproperty),
      List.forall_mem_singleton.2 ⟨List.forall_mem_nil _, ?_⟩⟩, List.forall_mem_singleton.2 ?_⟩
    · rintro _ ⟨⟩
      exact hQ
    · rintro _ ⟨⟩
  | @rename old new items renamed hitems hrenamed =>
    have hspeaks : ∀ item ∈ items, item.value.Speaks P Q := by
      rcases returnItems_ok hitems with hreturns | ⟨-, references, hfields⟩
      · have hcolumns := h.columns
        rwa [Part.columns, hreturns] at hcolumns
      · exact hread hfields
    -- Renaming leaves the values, so every new column holds what an old one held.
    refine h.returning fun item hitem => ?_
    have hvalue : item.value ∈ items.map ReturnItem.value := by
      rw [← map_value_renameItem hrenamed]
      exact List.mem_map_of_mem hitem
    obtain ⟨before, hbefore, heq⟩ := List.mem_map.1 hvalue
    rw [← heq]
    exact hspeaks before hbefore
  | orderBy _ htarget =>
    refine { h with orderBy := List.forall_mem_cons.2 ⟨fun property hm => ?_, h.orderBy⟩ }
    rcases sortTarget_cases htarget with ⟨-, rfl⟩ | ⟨meant, hmeant, rfl⟩
    · cases hm
    · obtain rfl := Option.some.inj hm
      exact hP _ _ hmeant
  | edge name inner => exact h
  | union hothers => exact { h with }

/-! ### What is known of a draft -/

/-- The variables of a path with the types of their nodes. -/
def Path.stops (path : Path) (types : List String) : List (String × String) :=
  path.variables.zip types

/-- Whether a property is a field of the type of its node. -/
def Property.IsField (catalog : Catalog) (stops : List (String × String)) (property : Property) :
    Prop :=
  ∃ typeName type, (property.node, typeName) ∈ stops ∧ catalog.type? typeName = some type ∧
    type.fields.contains property.name = true

lemma Property.IsField.mono {stops more : List (String × String)} {property : Property}
    (h : property.IsField catalog stops) (hs : stops ⊆ more) : property.IsField catalog more := by
  obtain ⟨typeName, type, hstop, htype, hfield⟩ := h
  exact ⟨typeName, type, hs hstop, htype, hfield⟩

/-- Whether a draft has come along nodes of some types, and speaks of nothing but their fields. -/
structure Draft.Walked (catalog : Catalog) (types : List String) (draft : Draft) : Prop where
  length_eq : draft.part.path.variables.length = types.length
  here : (draft.part.path.stops types)[draft.part.path.hops.length]?
    = some (draft.node, draft.typeName)
  speaks : draft.part.Speaks (Property.IsField catalog (draft.part.path.stops types))
    (· ∈ draft.part.path.variables)

namespace Draft.Walked

lemma here_mem (h : draft.Walked catalog types) :
    (draft.node, draft.typeName) ∈ draft.part.path.stops types :=
  List.mem_of_getElem? h.here

lemma isField (h : draft.Walked catalog types) (reference : String) (property : Property)
    (hr : draft.resolve catalog reference = .ok property) :
    property.IsField catalog (draft.part.path.stops types) := by
  obtain ⟨found, htype, hr⟩ := Compile.bind_eq_ok.1 hr
  dsimp only at hr
  cases hfield : found.lookupField (if unqualified reference = "id" ∧ ¬found.fields.contains "id"
      then idKey else unqualified reference) with
  | none =>
    rw [hfield] at hr
    cases hr
  | some field =>
    rw [hfield] at hr
    obtain rfl := Compile.pure_eq_ok.1 hr
    obtain ⟨stored, hstored, rfl⟩ := Option.map_eq_some_iff.1 hfield
    refine ⟨draft.typeName, found, h.here_mem, Compile.requireType_ok.1 htype, ?_⟩
    rw [OrderedMap.contains, hstored]
    rfl

lemma node_mem (h : draft.Walked catalog types) : draft.node ∈ draft.part.path.variables :=
  (List.of_mem_zip h.here_mem).1

/-- Operations stay where they are. -/
lemma apply (h : draft.Walked catalog types) (ha : draft.Applied naming catalog operation result) :
    result.Walked catalog types := by
  obtain ⟨hpath, htype⟩ := ha.path_eq
  have hspeaks := ha.speaks h.isField h.node_mem h.speaks
  refine ⟨?_, ?_, ?_⟩
  · rw [hpath]
    exact h.length_eq
  · rw [Draft.node, hpath, htype]
    exact h.here
  · rw [hpath]
    exact hspeaks

/-- Behind a hop the draft has come to one more node. -/
lemma behind (h : draft.Walked catalog types) (hop : Hop) (typeName : String) :
    (draft.behind hop typeName).Walked catalog (types ++ [typeName]) := by
  have hvariables : (draft.behind hop typeName).part.path.variables
      = draft.part.path.variables ++ [hop.node.name] := by
    simp [Draft.behind, Path.variables]
  have hstops : (draft.behind hop typeName).part.path.stops (types ++ [typeName])
      = draft.part.path.stops types ++ [(hop.node.name, typeName)] := by
    rw [Path.stops, hvariables, List.zip_append h.length_eq]
    rfl
  refine ⟨?_, ?_, ?_⟩
  · rw [hvariables, List.length_append, List.length_append, h.length_eq]
    rfl
  · have hlength : (draft.behind hop typeName).part.path.hops.length
        = (draft.part.path.stops types).length := by
      rw [Path.stops, List.length_zip, ← h.length_eq, Nat.min_self]
      simp [Draft.behind, Path.variables]
    rw [hstops, hlength, List.getElem?_concat_length]
    simp [Draft.behind, Draft.node, Path.last]
  · rw [hstops, hvariables]
    -- no columns are left that a hop could take out of their place
    refine Part.Speaks.mono (P := Property.IsField catalog (draft.part.path.stops types))
      (Q := (· ∈ draft.part.path.variables)) ⟨h.speaks.conditions, ?_, h.speaks.orderBy⟩
      (fun property hp => hp.mono (List.subset_append_left _ _))
      (fun node hn => List.mem_append_left _ hn)
    exact List.forall_mem_nil _

end Draft.Walked

/-- Steps extend the path by the hops that their chains become, and the types along it. -/
lemma performAll_walked {steps : List Step} (hd : draft.Walked catalog types)
    (h : draft.performAll naming catalog steps = .ok result) :
    ∃ hops behind, result.part.path
        = { draft.part.path with hops := draft.part.path.hops ++ hops } ∧
      Arrives naming catalog draft.typeName (hopsOf steps) hops behind ∧
      result.Walked catalog (types ++ behind) := by
  induction steps generalizing draft types with
  | nil =>
    obtain rfl := Except.ok.inj h
    exact ⟨[], [], by rw [List.append_nil], .nil _, by rwa [List.append_nil]⟩
  | cons step steps ih =>
    obtain ⟨next, hnext, hrest⟩ := performAll_cons.1 h
    cases step with
    | operation operation =>
      have happlied := (perform_operation_ok hnext).2
      obtain ⟨hops, behind, hpath, harrives, hwalked⟩ := ih (hd.apply happlied) hrest
      obtain ⟨hsame, htype⟩ := happlied.path_eq
      rw [hsame] at hpath
      rw [htype] at harrives
      exact ⟨hops, behind, hpath, harrives, hwalked⟩
    | hop chain =>
      obtain ⟨edge, target, hedge, htarget, rfl⟩ := perform_hop_ok hnext
      obtain ⟨hops, behind, hpath, harrives, hwalked⟩ := ih (hd.behind _ _) hrest
      refine ⟨draft.hopAlong naming chain edge target :: hops, edge.target :: behind, ?_,
        .cons hedge rfl rfl ⟨target, htarget, rfl⟩ harrives, ?_⟩
      · rw [hpath]
        simp only [Draft.behind, List.append_assoc, List.singleton_append]
      · rwa [List.append_assoc] at hwalked

lemma start_walked {typeName : String} {found : ObjectType} :
    (Draft.start typeName found).Walked catalog [typeName] where
  length_eq := rfl
  here := rfl
  speaks := ⟨List.forall_mem_nil _, List.forall_mem_nil _, List.forall_mem_nil _⟩

lemma restrict_walked {ids : Option (List Int64)} (hd : draft.Walked catalog types)
    (h : draft.restrict catalog ids = .ok result) : result.Walked catalog types := by
  rcases restrict_ok h with rfl | ⟨property, values, hproperty, rfl⟩
  · exact hd
  · refine ⟨hd.length_eq, hd.here, ⟨List.forall_mem_append.2 ⟨hd.speaks.conditions, ?_⟩,
      hd.speaks.columns, hd.speaks.orderBy⟩⟩
    refine List.forall_mem_singleton.2 (List.forall_mem_singleton.2 ?_)
    exact hd.isField idKey property hproperty

/-- Hops that come later leave the stops along the path. -/
lemma Draft.Walked.stops_extended {more : List Hop} {behind : List String}
    (h : draft.Walked catalog types)
    (hp : result.part.path = { draft.part.path with hops := draft.part.path.hops ++ more })
    (ht : types <+: behind) :
    (result.part.path.stops behind)[draft.part.path.hops.length]?
      = some (draft.node, draft.typeName) := by
  obtain ⟨rest, rfl⟩ := ht
  have hstops : result.part.path.stops (types ++ rest)
      = draft.part.path.stops types ++ (more.map (·.node.name)).zip rest := by
    rw [Path.stops, hp, Path.stops, ← List.zip_append h.length_eq]
    simp [Path.variables]
  rw [hstops, List.getElem?_append_left (List.getElem?_eq_some_iff.1 h.here).1]
  exact h.here

/-! ### Statements -/

/-- Whether a draft is what the first steps of a query make of its source. -/
def Reaches (naming : String → String) (catalog : Catalog) (query : Query) (before : List Step)
    (draft : Draft) : Prop :=
  ∃ first, Draft.ofSource catalog query.source = .ok first ∧
    first.performAll naming catalog before = .ok draft

/-- Whether every operation of a query is applied to the node behind the hops that come before
it, as one of the type along the path. -/
def AppliesAt (naming : String → String) (catalog : Catalog) (query : Query)
    (stops : List (String × String)) : Prop :=
  ∀ before operation after, steps none query.operations = before ++ .operation operation :: after →
    ∃ draft next, Reaches naming catalog query before draft ∧
      draft.perform naming catalog (.operation operation) = .ok next ∧
      stops[(hopsOf before).length]? = some (draft.node, draft.typeName)

/-- The draft of a query is reached from its source. -/
lemma Part.IsOf.reached (h : part.IsOf naming catalog query) :
    ∃ first draft, Draft.ofSource catalog query.source = .ok first ∧
      first.typeName = query.source.objectType ∧ first.part.path.hops = [] ∧
      first.part.path.start.Stands catalog query.source.objectType ∧
      first.Walked catalog [query.source.objectType] ∧
      first.performAll naming catalog (steps none query.operations) = .ok draft ∧
      draft.part = part := by
  obtain ⟨draft, hdraft, rfl⟩ := h
  obtain ⟨found, first, hfound, hfirst, hsteps⟩ := ofQuery_ok hdraft
  obtain ⟨hpath, htype⟩ := restrict_path hfirst
  refine ⟨first, draft, ofSource_eq_ok hfound hfirst, htype, ?_, ?_,
    restrict_walked start_walked hfirst, hsteps, rfl⟩
  · rw [hpath]
    rfl
  · rw [hpath]
    exact ⟨found, hfound, rfl⟩

/-- A part is that of a draft that has come along the hops of its query. -/
lemma Part.IsOf.walked (h : part.IsOf naming catalog query) :
    ∃ (draft : Draft) (behind : List String), draft.part = part ∧
      part.path.start.Stands catalog query.source.objectType ∧
      Arrives naming catalog query.source.objectType (chainsOf query) part.path.hops behind ∧
      AppliesAt naming catalog query (part.path.stops (query.source.objectType :: behind)) ∧
      draft.Walked catalog (query.source.objectType :: behind) := by
  obtain ⟨first, draft, hfirst, htype, hnone, hstart, hwalked, hsteps, rfl⟩ := h.reached
  obtain ⟨hops, behind, hpath, harrives, hlast⟩ := performAll_walked hwalked hsteps
  rw [htype] at harrives
  refine ⟨draft, behind, rfl, ?_, ?_, fun before operation after hsplit => ?_, hlast⟩
  · rw [hpath]
    exact hstart
  · rw [hpath, hnone]
    exact harrives
  · -- the stop is that of the draft before the operation, and later hops leave it
    rw [hsplit] at hsteps
    obtain ⟨there, hbefore, hrest⟩ := performAll_append.1 hsteps
    obtain ⟨next, hnext, -⟩ := performAll_cons.1 hrest
    obtain ⟨near, types, hnear, hreached, hhere⟩ := performAll_walked hwalked hbefore
    obtain ⟨far, -, hfar, -, -⟩ := performAll_walked hhere hrest
    rw [htype] at hreached
    have hprefix : types <+: behind := by
      rw [hsplit, hopsOf_append] at harrives
      exact harrives.types_prefix hreached
    have hcount : there.part.path.hops.length = (hopsOf before).length := by
      have hcounts := congrArg List.length (performAll_counts hbefore)
      rw [hnone] at hcounts
      simpa using hcounts
    refine ⟨there, next, ⟨first, hfirst, hbefore⟩, hnext, ?_⟩
    rw [← hcount]
    exact hhere.stops_extended hfar (List.prefix_cons_inj _ |>.2 hprefix)

/-- Each chain of edges of a query is a hop with the relationship and the target of the first edge.
Operations are applied to the targets along the path, and what a part speaks of are fields of these.
The hops can be walked to the targets edge by edge exactly if every chain leads back to the target
of its first edge. -/
theorem hops_walked_iff (naming : String → String) (catalog : Catalog) (query : Query)
    (statement : Statement) (h : compile catalog query naming = .ok statement) :
    List.Forall₂ (fun query part => ∃ behind,
      part.path.start.Stands catalog query.source.objectType ∧
        Arrives naming catalog query.source.objectType (chainsOf query) part.path.hops behind ∧
        AppliesAt naming catalog query (part.path.stops (query.source.objectType :: behind)) ∧
        (∀ property ∈ part.properties,
          property.IsField catalog (part.path.stops (query.source.objectType :: behind))) ∧
        (Walks naming catalog query.source.objectType (chainsOf query) part.path.hops behind ↔
          LeadsBack naming catalog query.source.objectType (chainsOf query)))
      query.united statement := by
  refine (isOf_of_compile h).imp fun query part hpart => ?_
  obtain ⟨draft, behind, rfl, hstart, harrives, happlies, hwalked⟩ := hpart.walked
  exact ⟨behind, hstart, harrives, happlies, hwalked.speaks.of_mem_properties,
    harrives.walks_iff count_pos_of_mem_chains⟩

/-- The path to the reviews that friends of friends wrote can be walked. -/
theorem hops_walked_iff_circles :
    ∃ part rest behind,
      compile SocialGraph.catalog circles = .ok (part :: rest) ∧
      part.path.hops.map Hop.count = [2, 1] ∧
      Walks Text.upperSnakeCase SocialGraph.catalog "User" (chainsOf circles) part.path.hops
        behind := by
  have hback : LeadsBack Text.upperSnakeCase SocialGraph.catalog "User" (chainsOf circles) :=
    ⟨_, rfl, ⟨_, rfl, rfl, rfl⟩, _, rfl, rfl, trivial⟩
  have hall := hops_walked_iff Text.upperSnakeCase SocialGraph.catalog circles _ rfl
  rw [Query.united, List.forall₂_cons_left_iff] at hall
  obtain ⟨part, rest, ⟨behind, -, -, -, -, hwalks⟩, -, heq⟩ := hall
  refine ⟨part, rest, behind, congrArg Except.ok heq, ?_, hwalks.2 hback⟩
  rw [← (List.cons.inj heq).1]
  rfl

/-- Employees whose boss is a manager, whom nobody is the boss of. -/
def staff : Catalog :=
  Catalog.empty
    |>.withType "Employee" (ObjectType.named "Employee"
      |>.withField "id" .bigint false
      |>.withField "boss_id" .bigint true
      |>.withEdge "boss"
        { target := "Manager", cardinality := .one,
          join := .columns (.ofList [("boss_id", "id")]) })
    |>.withType "Manager" (ObjectType.named "Manager" |>.withField "id" .bigint false)

/-- The bosses of the bosses of all employees. -/
def bossesOfBosses : Query :=
  ⟨{ objectType := "Employee" }, [.edge "boss" [.edge "boss" []]]⟩

/-- No boss of a manager can be walked to, but a hop with the count two leads to one. -/
theorem hops_walked_iff_staff :
    ∃ part, compile staff bossesOfBosses = .ok [part] ∧
      part.path.text = "(e:Employee)-[:BOSS*2..2]->(n1:Manager)" ∧
      staff.edge? "Manager" "boss" = none ∧
      ¬∃ behind, Walks Text.upperSnakeCase staff "Employee" (chainsOf bossesOfBosses)
        part.path.hops behind := by
  have hnone : staff.edge? "Manager" "boss" = none := by decide +kernel
  refine ⟨_, rfl, by decide +kernel, hnone, ?_⟩
  rintro ⟨_, _ | ⟨⟨-, hleads, -⟩, -⟩⟩
  obtain ⟨first, hfirst, -, second, hsecond, -⟩ := hleads
  obtain rfl : first = _ := (Option.some.inj hfirst).symm
  rw [hnone] at hsecond
  cases hsecond

end Cypher
end ObjectGraph
