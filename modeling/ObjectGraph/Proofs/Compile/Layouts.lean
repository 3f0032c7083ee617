/-
# Layouts of columns

Which columns a query has after each of its operations, and under which names, depends on the
catalog and the operations alone.  A column is named after its field, but that of the identity
is always called `id`.  The names differ at first unless another field of the type is called so;
of the operations, only renaming a column and following an edge can give a column the name of
another one.
-/
import ObjectGraph.Compile.Select
import Mathlib.Data.List.Nodup
import Mathlib.Tactic.Lemma

namespace ObjectGraph

namespace Compile

/-! ### Labels -/

/-- What a query calls a column by, and whether the column holds the identity. -/
structure Label where
  field : String
  isIdentity : Bool := false
deriving DecidableEq

namespace Label

/-- The name of the column in a select list. -/
def name (label : Label) : String :=
  if label.isIdentity then identityColumn else label.field

/-- Whether a reference means the column. -/
def answersTo (label : Label) (reference : String) : Bool :=
  label.field == reference
    || (label.isIdentity && (reference == idKey || reference == identityColumn))

/-- The label of a column that is given a name. -/
def called (new : String) : Label := ⟨new, new == idKey || new == identityColumn⟩

/-- The labels after the first column that a reference means was given a name. -/
def renameFirst (old new : String) : List Label → List Label
  | [] => []
  | label :: rest =>
    if label.answersTo old then called new :: rest else label :: renameFirst old new rest

/-- The labels of the columns that references mean, those of each name once. -/
def pick (labels picked : List Label) : List String → List Label
  | [] => picked
  | reference :: rest =>
    match labels.find? (·.answersTo (unqualified reference)) with
    | none => pick labels picked rest
    | some label =>
      if picked.any (·.name == label.name) then pick labels picked rest
      else pick labels (picked ++ [label]) rest

end Label

/-! ### Layouts -/

/-- The labels of the columns of a query, and the type of its rows. -/
structure Layout where
  labels : List Label
  type : Option String
deriving DecidableEq

namespace Layout

/-- The names of the columns. -/
def names (layout : Layout) : List String := layout.labels.map Label.name

/-- The layout of the objects of a type. -/
def ofType (catalog : Catalog) (name : String) : Layout where
  labels :=
    match catalog.type? name with
    | none => []
    | some type => type.fields.keys.map fun field => ⟨field, field == type.idField⟩
  type := some name

/-- An edge that leads from the rows. -/
def edge? (catalog : Catalog) (layout : Layout) (name : String) : Option Edge :=
  layout.type.bind fun type => catalog.edge? type name

mutual

/-- The layout after an operation. -/
def after (catalog : Catalog) (layout : Layout) : Operation → Layout
  | .project fields => { layout with labels := Label.pick layout.labels [] fields }
  | .filter _ | .take _ | .skip _ | .orderBy _ _ => layout
  | .count => ⟨[⟨"count", false⟩], none⟩
  | .nest key => ⟨[⟨key, false⟩], none⟩
  | .groupBy _ => ⟨[⟨"key", false⟩, ⟨"items", false⟩], none⟩
  | .rename old new =>
    { layout with
      labels := Label.renameFirst (unqualified old) (unqualified new) layout.labels }
  | .edge name _ =>
    { layout with labels := layout.labels.filter (·.field != name) ++ [⟨name, false⟩] }
  | .union queries =>
    { layout with type := if allOfType catalog layout.type queries then layout.type else none }

/-- The layout behind all of the operations. -/
def afterAll (catalog : Catalog) (layout : Layout) : List Operation → Layout
  | [] => layout
  | step :: rest => afterAll catalog (after catalog layout step) rest

/-- Whether the rows of all queries are of the given type. -/
def allOfType (catalog : Catalog) (type : Option String) : List Query → Bool
  | [] => true
  | ⟨source, operations⟩ :: rest =>
    (afterAll catalog (ofType catalog source.objectType) operations).type == type
      && allOfType catalog type rest

end

/-- The layout of the rows of a query. -/
def ofQuery (catalog : Catalog) (query : Query) : Layout :=
  afterAll catalog (ofType catalog query.source.objectType) query.operations

/-- Whether an operation gives no column the name of another one.  The column of an edge takes the
place of the one for the same field, so that only the column of the identity, which need not be
named after its field, can be in its way. -/
def KeepsApart (layout : Layout) : Operation → Prop
  | .rename old new =>
    (∃ label ∈ layout.labels, label.answersTo (unqualified old) = true) →
      ∀ label ∈ layout.labels.eraseP (·.answersTo (unqualified old)),
        label.name ≠ (Label.called (unqualified new)).name
  | .edge name _ => ∀ label ∈ layout.labels, label.name = name → label.field = name
  | _ => True

end Layout
end Compile

/-! ### Names that stay apart -/

open Compile (Layout identityColumn)

/-- Whether no field but that of the identity is called like the column of the identity. -/
def ObjectType.NamesApart (type : ObjectType) : Prop :=
  type.idField ∈ type.fields.keys → type.idField ≠ identityColumn →
    identityColumn ∉ type.fields.keys

/-- Whether the objects of a type of that name, if there is one, have columns of different
names. -/
def Catalog.NamesApart (catalog : Catalog) (name : String) : Prop :=
  ∀ type, catalog.type? name = some type → type.NamesApart

mutual

/-- Whether an operation, and those on the objects of its edge or in its queries, give no column
the name of another one. -/
def Operation.NamesApart (catalog : Catalog) (layout : Layout) : Operation → Prop
  | .edge name inner =>
    layout.KeepsApart (.edge name inner) ∧
      ∀ edge, layout.edge? catalog name = some edge → catalog.NamesApart edge.target ∧
        stepsNamesApart catalog (.ofType catalog edge.target) inner
  | .union queries => queriesNamesApart catalog queries
  | step => layout.KeepsApart step

/-- Whether each of the operations keeps the names of columns apart. -/
def stepsNamesApart (catalog : Catalog) (layout : Layout) : List Operation → Prop
  | [] => True
  | step :: rest =>
    step.NamesApart catalog layout ∧ stepsNamesApart catalog (layout.after catalog step) rest

/-- Whether the operations of all queries keep the names of columns apart. -/
def queriesNamesApart (catalog : Catalog) : List Query → Prop
  | [] => True
  | ⟨source, operations⟩ :: rest =>
    (catalog.NamesApart source.objectType ∧
      stepsNamesApart catalog (.ofType catalog source.objectType) operations) ∧
      queriesNamesApart catalog rest

end

/-- Whether the columns of the types that a query reads have different names, and none of its
operations gives a column the name of another one. -/
def Query.NamesApart (catalog : Catalog) (query : Query) : Prop :=
  catalog.NamesApart query.source.objectType ∧
    stepsNamesApart catalog (.ofType catalog query.source.objectType) query.operations

mutual

/-- The layouts on the way through the operations on the objects of an edge, or in queries. -/
def Operation.layouts (catalog : Catalog) (layout : Layout) : Operation → List Layout
  | .edge name inner =>
    match layout.edge? catalog name with
    | none => []
    | some edge => stepsLayouts catalog (.ofType catalog edge.target) inner
  | .union queries => queriesLayouts catalog queries
  | _ => []

/-- The layouts in front of each of the operations and behind the last one, with those inside
them. -/
def stepsLayouts (catalog : Catalog) (layout : Layout) : List Operation → List Layout
  | [] => [layout]
  | step :: rest =>
    layout :: (step.layouts catalog layout ++
      stepsLayouts catalog (layout.after catalog step) rest)

/-- The layouts in all queries. -/
def queriesLayouts (catalog : Catalog) : List Query → List Layout
  | [] => []
  | ⟨source, operations⟩ :: rest =>
    stepsLayouts catalog (.ofType catalog source.objectType) operations
      ++ queriesLayouts catalog rest

end

/-- The layouts that a query has before, between and after its operations, those on the objects
of edges and in unions included. -/
def Query.layouts (catalog : Catalog) (query : Query) : List Layout :=
  stepsLayouts catalog (.ofType catalog query.source.objectType) query.operations

namespace Compile

/-! ### Where names may meet -/

namespace Label

variable {labels : List Label} {old new : String}

lemma nodup_pick {references : List String} {picked : List Label}
    (h : (picked.map name).Nodup) : ((pick labels picked references).map name).Nodup := by
  induction references generalizing picked with
  | nil => exact h
  | cons reference rest ih =>
    simp only [pick]
    split
    · exact ih h
    · rename_i label _
      split
      · exact ih h
      · rename_i hany
        refine ih ?_
        rw [List.map_append, List.map_singleton, ← List.concat_eq_append, List.nodup_concat]
        refine ⟨fun hm => hany ?_, h⟩
        obtain ⟨other, ho, heq⟩ := List.mem_map.1 hm
        exact List.any_eq_true.2 ⟨other, ho, beq_iff_eq.2 heq⟩

/-- The first label that a reference means, among the others. -/
lemma renameFirst_split (new : String) (h : ∃ label ∈ labels, label.answersTo old = true) :
    ∃ before label behind, labels = before ++ label :: behind ∧
      labels.eraseP (·.answersTo old) = before ++ behind ∧
      renameFirst old new labels = before ++ called new :: behind := by
  induction labels with
  | nil => simp at h
  | cons first rest ih =>
    by_cases hfirst : first.answersTo old = true
    · exact ⟨[], first, rest, rfl, List.eraseP_cons_of_pos hfirst, if_pos hfirst⟩
    · have hrest : ∃ label ∈ rest, label.answersTo old = true := by
        obtain ⟨label, hm, ha⟩ := h
        rcases List.mem_cons.1 hm with rfl | hm
        · exact absurd ha hfirst
        · exact ⟨label, hm, ha⟩
      obtain ⟨before, label, behind, rfl, herase, hrename⟩ := ih hrest
      refine ⟨first :: before, label, behind, rfl, ?_, ?_⟩
      · rw [List.eraseP_cons, eq_false_of_ne_true hfirst, herase]
        rfl
      · rw [renameFirst, if_neg hfirst, hrename, List.cons_append]

lemma renameFirst_eq_self (h : ∀ label ∈ labels, label.answersTo old ≠ true) :
    renameFirst old new labels = labels := by
  induction labels with
  | nil => rfl
  | cons first rest ih =>
    obtain ⟨hfirst, hrest⟩ := List.forall_mem_cons.1 h
    rw [renameFirst, if_neg hfirst, ih hrest]

lemma nodup_renameFirst_iff (hn : (labels.map name).Nodup) :
    ((renameFirst old new labels).map name).Nodup ↔
      ((∃ label ∈ labels, label.answersTo old = true) →
        ∀ label ∈ labels.eraseP (·.answersTo old), label.name ≠ (called new).name) := by
  by_cases h : ∃ label ∈ labels, label.answersTo old = true
  · obtain ⟨before, label, behind, rfl, herase, hrename⟩ := renameFirst_split new h
    have hothers : ((before ++ behind).map name).Nodup := by
      rw [List.map_append, List.map_cons, List.nodup_middle, ← List.map_append] at hn
      exact hn.of_cons
    have hnew : (called new).name ∉ (before ++ behind).map name ↔
        ∀ label ∈ before ++ behind, label.name ≠ (called new).name := by
      simp only [List.mem_map, not_exists, not_and, ne_eq]
    rw [hrename, List.map_append, List.map_cons, List.nodup_middle, ← List.map_append,
      List.nodup_cons, herase, hnew, and_iff_left hothers, forall_prop_of_true h]
  · have hself : renameFirst old new labels = labels :=
      renameFirst_eq_self fun label hm ha => h ⟨label, hm, ha⟩
    rw [hself]
    exact iff_of_true hn fun hex => absurd hex h

end Label

namespace Layout

variable {catalog : Catalog} {layout : Layout}

lemma nodup_names_ofType_iff (catalog : Catalog) (name : String) :
    (ofType catalog name).names.Nodup ↔ catalog.NamesApart name := by
  cases ht : catalog.type? name with
  | none => simp [names, ofType, ht, Catalog.NamesApart]
  | some type =>
    have hnames : (ofType catalog name).names
        = type.fields.keys.map fun k => if k == type.idField then identityColumn else k := by
      simp only [names, ofType, ht, List.map_map]
      rfl
    have hnamed : catalog.NamesApart name ↔ type.NamesApart := by simp [Catalog.NamesApart, ht]
    have hkeys : type.fields.keys.Nodup := type.fields.nodup
    rw [hnames, List.nodup_map_iff_inj_on hkeys, hnamed]
    constructor
    · intro hinj hid hne hm
      have heq := hinj _ hid _ hm (by simp [Ne.symm hne])
      exact hne heq
    · intro h x hx y hy heq
      have hother : type.idField ∈ type.fields.keys → ∀ k ∈ type.fields.keys,
          k ≠ type.idField → k ≠ identityColumn := fun hid k hk hne hcalled =>
        h hid (fun hplain => hne (hcalled.trans hplain.symm)) (hcalled ▸ hk)
      by_cases hxid : x = type.idField <;> by_cases hyid : y = type.idField
      · rw [hxid, hyid]
      · exact absurd (by simpa [hxid, hyid] using heq.symm) (hother (hxid ▸ hx) y hy hyid)
      · exact absurd (by simpa [hxid, hyid] using heq) (hother (hyid ▸ hy) x hx hxid)
      · simpa [hxid, hyid] using heq

/-- Where columns have different names, the operations that keep them apart are those after which
they have different names again. -/
theorem nodup_names_after_iff (h : layout.names.Nodup) (step : Operation) :
    (layout.after catalog step).names.Nodup ↔ layout.KeepsApart step := by
  cases step with
  | project fields => exact iff_of_true (Label.nodup_pick List.nodup_nil) trivial
  | filter predicate | take n | skip n | orderBy key direction | union queries =>
    exact iff_of_true h trivial
  | count | nest key | groupBy key => exact iff_of_true (by simp [names, after, Label.name]) trivial
  | rename old new => exact Label.nodup_renameFirst_iff h
  | edge name inner =>
    have hkept : ((layout.labels.filter (·.field != name)).map Label.name).Nodup :=
      h.sublist (List.filter_sublist.map Label.name)
    simp only [names, after, List.map_append, List.map_singleton, KeepsApart]
    rw [← List.concat_eq_append, List.nodup_concat, and_iff_left hkept]
    have hplain : Label.name ⟨name, false⟩ = name := rfl
    simp only [hplain, List.mem_map, List.mem_filter, bne_iff_ne, not_exists, not_and, ne_eq]
    exact forall_congr' fun label =>
      ⟨fun hl hm hn => by_contra fun hf => hl ⟨hm, hf⟩ hn, fun hl hm hn => hm.2 (hl hm.1 hn)⟩

end Layout

end Compile

/-! ### Layouts on the way -/

lemma Operation.NamesApart.keepsApart {catalog : Catalog} {layout : Layout} {step : Operation}
    (h : step.NamesApart catalog layout) : layout.KeepsApart step := by
  cases step with
  | edge name inner => exact h.1
  | rename old new => exact h
  | _ => trivial

mutual

lemma Operation.namesApart_iff {catalog : Catalog} : ∀ (step : Operation) {layout : Layout},
    step.NamesApart catalog layout ↔ layout.KeepsApart step ∧
      ∀ nested ∈ step.layouts catalog layout, nested.names.Nodup
  | .edge name inner, layout => by
    simp only [Operation.NamesApart, Operation.layouts]
    cases layout.edge? catalog name with
    | none => simp
    | some edge => simp [← stepsNamesApart_iff inner, Layout.nodup_names_ofType_iff]
  | .union queries, _ => by
    simp only [Operation.NamesApart, Operation.layouts, Layout.KeepsApart, true_and]
    exact queriesNamesApart_iff queries
  | .project _, _ | .filter _, _ | .take _, _ | .skip _, _ | .count, _ | .nest _, _
  | .rename _ _, _ | .orderBy _ _, _ | .groupBy _, _ => by
    simp [Operation.NamesApart, Operation.layouts]

lemma stepsNamesApart_iff {catalog : Catalog} : ∀ (steps : List Operation) {layout : Layout},
    layout.names.Nodup ∧ stepsNamesApart catalog layout steps ↔
      ∀ nested ∈ stepsLayouts catalog layout steps, nested.names.Nodup
  | [], _ => by simp [stepsNamesApart, stepsLayouts]
  | step :: rest, layout => by
    simp only [stepsNamesApart, stepsLayouts, List.forall_mem_cons, List.forall_mem_append,
      ← stepsNamesApart_iff rest, step.namesApart_iff]
    refine and_congr_right fun h => ?_
    rw [Layout.nodup_names_after_iff h]
    tauto

lemma queriesNamesApart_iff {catalog : Catalog} : ∀ (queries : List Query),
    queriesNamesApart catalog queries ↔
      ∀ nested ∈ queriesLayouts catalog queries, nested.names.Nodup
  | [] => by simp [queriesNamesApart, queriesLayouts]
  | ⟨source, operations⟩ :: rest => by
    simp only [queriesNamesApart, queriesLayouts, List.forall_mem_append,
      ← stepsNamesApart_iff operations, ← queriesNamesApart_iff rest,
      Layout.nodup_names_ofType_iff]

end

/-- Names are kept apart if and only if they differ at every point of a query. -/
theorem Query.namesApart_iff {catalog : Catalog} {query : Query} :
    query.NamesApart catalog ↔ ∀ layout ∈ query.layouts catalog, layout.names.Nodup := by
  rw [NamesApart, layouts, ← stepsNamesApart_iff, Layout.nodup_names_ofType_iff]

end ObjectGraph
