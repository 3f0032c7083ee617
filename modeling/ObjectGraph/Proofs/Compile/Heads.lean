/-
# Columns under a header

The columns of a draft that a header describes: a reference that means one of them means the
column of that name in the header.  Choosing among the columns, giving one of them a new name and
reading them through an alias changes both in the same way.
-/
import ObjectGraph.Proofs.Compile.Rows
import Mathlib.Data.List.Nodup

namespace ObjectGraph.Compile

open Sql (Context TableAlias)

variable {δ : Type} {D : Domain δ} {db : Database δ}

/-! ### Renamed columns -/

namespace Column

/-- The column under a new name, if it has the given one. -/
def renamedIf (name new : String) (column : Column) : Column :=
  if column.name = name then column.renamed new else column

lemma expression_renamedIf (name new : String) (column : Column) :
    (column.renamedIf name new).expression = column.expression := by
  unfold renamedIf
  split <;> rfl

lemma type_renamedIf (name new : String) (column : Column) :
    (column.renamedIf name new).type = column.type := by
  unfold renamedIf
  split <;> rfl

/-- The first column that a reference means, renamed among the others. -/
lemma renameFirst_split {old new : String} {columns renamed : List Column}
    (h : Column.renameFirst old new columns = some renamed) :
    ∃ before column behind, columns = before ++ column :: behind ∧
      column.answersTo old = true ∧ (∀ other ∈ before, other.answersTo old = false) ∧
      renamed = before ++ column.renamed new :: behind := by
  induction columns generalizing renamed with
  | nil => cases h
  | cons first rest ih =>
    simp only [Column.renameFirst] at h
    split at h
    · rename_i ha
      cases h
      exact ⟨[], first, rest, rfl, ha, List.forall_mem_nil _, rfl⟩
    · rename_i ha
      obtain ⟨others, ho, rfl⟩ := Option.map_eq_some_iff.1 h
      obtain ⟨before, column, behind, rfl, hc, hb, rfl⟩ := ih ho
      refine ⟨first :: before, column, behind, rfl, hc, ?_, rfl⟩
      exact List.forall_mem_cons.2 ⟨eq_false_of_ne_true ha, hb⟩

/-- Renaming the first column that a reference means renames the only one of its name. -/
lemma renameFirst_eq {old new : String} {columns renamed : List Column}
    (hn : (columns.map (·.name)).Nodup)
    (h : Column.renameFirst old new columns = some renamed) :
    ∃ column ∈ columns, column.answersTo old = true ∧
      renamed = columns.map (renamedIf column.name new) := by
  induction columns generalizing renamed with
  | nil => cases h
  | cons first rest ih =>
    obtain ⟨hfirst, hrest⟩ := List.nodup_cons.1 hn
    simp only [Column.renameFirst] at h
    split at h
    · rename_i ha
      cases h
      refine ⟨first, List.mem_cons_self, ha, ?_⟩
      rw [List.map_cons, renamedIf, if_pos rfl]
      refine congrArg _ ((List.map_id rest).symm.trans (List.map_congr_left fun other ho => ?_))
      have hne : other.name ≠ first.name := fun he => hfirst (List.mem_map.2 ⟨other, ho, he⟩)
      rw [renamedIf, if_neg hne]
      rfl
    · obtain ⟨others, ho, rfl⟩ := Option.map_eq_some_iff.1 h
      obtain ⟨column, hm, ha, rfl⟩ := ih hrest ho
      have hne : first.name ≠ column.name := fun he =>
        hfirst (List.mem_map.2 ⟨column, hm, he.symm⟩)
      refine ⟨column, List.mem_cons_of_mem _ hm, ha, ?_⟩
      rw [List.map_cons, renamedIf, if_neg hne]

variable {new : String} (hid : new ∉ ["id", idKey])
include hid

lemma renamed_eq (column : Column) :
    column.renamed new = { column with field := new, name := new, isIdentity := false } := by
  obtain ⟨hid, hkey⟩ : new ≠ "id" ∧ new ≠ idKey := by simpa using hid
  have hkey' : (new == idKey) = false := beq_false_of_ne hkey
  have hid' : (new == identityColumn) = false := beq_false_of_ne hid
  simp [renamed, hkey', hid']

lemma name_renamedIf (name : String) (column : Column) :
    (column.renamedIf name new).name = if column.name = name then new else column.name := by
  unfold renamedIf
  split
  · rw [renamed_eq hid]
  · rfl

end Column

/-! ### Columns under a header -/

/-- Columns that a header describes: each has a name of its own and is meant by that name, and
only the identity has a second one. -/
structure Heads (header : Header) (columns : List Column) : Prop where
  header_eq : header = columns.map fun column => (column.name, column.type)
  nodup : (columns.map (·.name)).Nodup
  named : ∀ column ∈ columns, column.field = column.name
  identity : ∀ column ∈ columns, column.isIdentity = true → column.name = "id"
  marked : idKey ∈ columns.map (·.name) → ∀ column ∈ columns, column.isIdentity = false

namespace Heads

variable {header : Header} {columns : List Column} {column : Column}

lemma names_eq (h : Heads header columns) : header.names = columns.map (·.name) := by
  rw [h.header_eq, Header.names, List.map_map]
  rfl

lemma find?_name (h : Heads header columns) (hc : column ∈ columns) :
    header.find? (·.1 == column.name) = some (column.name, column.type) := by
  have hn := h.nodup
  rw [h.header_eq]
  clear h
  induction columns with
  | nil => cases hc
  | cons first rest ih =>
    obtain ⟨hfirst, hrest⟩ := List.nodup_cons.1 hn
    rcases List.mem_cons.1 hc with rfl | hc
    · simp
    · have hne : first.name ≠ column.name := fun he =>
        hfirst (List.mem_map.2 ⟨column, hc, he.symm⟩)
      rw [List.map_cons, List.find?_cons_of_neg (by simpa using hne)]
      exact ih hc hrest

/-- A reference that means a column of a draft means the one of that name in the header. -/
lemma column?_of_answersTo (h : Heads header columns) {reference : String}
    (hc : column ∈ columns) (ha : column.answersTo (unqualified reference) = true) :
    header.column? reference = some (column.name, column.type) := by
  have hname := h.find?_name hc
  simp only [Column.answersTo, Bool.or_eq_true, Bool.and_eq_true, beq_iff_eq] at ha
  rw [Header.column?]
  rcases ha with ha | ⟨hidentity, ha | ha⟩
  · rw [← ha, h.named column hc, hname, Option.some_or]
  · -- No column is named `:id` itself, as there is an identity.
    have hnone : header.find? (·.1 == unqualified reference) = none := by
      refine List.find?_eq_none.2 fun entry he hk => ?_
      have hmem : idKey ∈ columns.map (·.name) := by
        rw [← h.names_eq, ← ha, ← beq_iff_eq.1 hk]
        exact List.mem_map_of_mem he
      rw [h.marked hmem column hc] at hidentity
      cases hidentity
    rw [hnone, Option.none_or, if_pos ha, ← h.identity column hc hidentity, hname]
  · have hid : unqualified reference = column.name := by
      rw [ha, h.identity column hc hidentity]
      rfl
    rw [hid, hname, Option.some_or]

/-- The cell that a reference means is what its column evaluates to. -/
lemma cell_record (h : Heads header columns) {reference : String} (hc : column ∈ columns)
    (hr : header.column? reference = some (column.name, column.type)) (context : Context δ) :
    header.cell (Draft.record D db columns context) reference
      = column.expression.eval D db context.row context.group := by
  rw [Header.cell, hr]
  exact Record.cell_map h.nodup hc

lemma type?_eq {reference : String}
    (hr : header.column? reference = some (column.name, column.type)) :
    header.type? reference = column.type := by
  rw [Header.type?, hr]
  rfl

lemma through (h : Heads header columns) (handle : TableAlias) :
    Heads header (columns.map (·.through handle)) := by
  have hnames : (columns.map (·.through handle)).map (·.name) = columns.map (·.name) := by
    rw [List.map_map]
    rfl
  refine ⟨?_, hnames ▸ h.nodup, ?_, ?_, ?_⟩
  · rw [h.header_eq, List.map_map]
    rfl
  · exact List.forall_mem_map.2 h.named
  · exact List.forall_mem_map.2 h.identity
  · rw [hnames]
    exact fun hm => List.forall_mem_map.2 (h.marked hm)

/-- Columns that are named after what they are, none of them the identity. -/
lemma of_computed (hh : header = columns.map fun column => (column.name, column.type))
    (hn : (columns.map (·.name)).Nodup)
    (hc : ∀ column ∈ columns, column.field = column.name ∧ column.isIdentity = false) :
    Heads header columns where
  header_eq := hh
  nodup := hn
  named column hm := (hc column hm).1
  identity column hm hi := by simp [(hc column hm).2] at hi
  marked _ column hm := (hc column hm).2

/-- Fewer columns, each one once. -/
lemma of_subset (h : Heads header columns) {picked : List Column}
    (hn : (picked.map (·.name)).Nodup) (hs : picked ⊆ columns) :
    Heads (picked.map fun column => (column.name, column.type)) picked where
  header_eq := rfl
  nodup := hn
  named column hm := h.named column (hs hm)
  identity column hm := h.identity column (hs hm)
  marked hm column hc := h.marked (List.map_subset _ hs hm) column (hs hc)

/-- The column that a new name is for becomes that name and nothing else. -/
lemma renamed (h : Heads header columns) (name : String) {new : String}
    (hid : new ∉ ["id", idKey]) (hnew : new ∉ header.names) :
    Heads (header.rename name new) (columns.map (Column.renamedIf name new)) := by
  have hnames : (columns.map (Column.renamedIf name new)).map (·.name)
      = (columns.map (·.name)).map fun k => if k = name then new else k := by
    simp only [List.map_map, Function.comp_def, Column.name_renamedIf hid]
  rw [h.names_eq] at hnew
  refine ⟨?_, ?_, List.forall_mem_map.2 fun column hc => ?_,
    List.forall_mem_map.2 fun column hc => ?_, fun hm => List.forall_mem_map.2 fun column hc => ?_⟩
  · rw [h.header_eq, Header.rename, List.map_map, List.map_map]
    refine List.map_congr_left fun column _ => ?_
    simp only [Function.comp_apply, Column.name_renamedIf hid, Column.type_renamedIf]
  · -- Two names can only become one if the new name was there before.
    rw [hnames]
    refine h.nodup.map_on fun a ha b hb hab => ?_
    by_cases hac : a = name <;> by_cases hbc : b = name
    · rw [hac, hbc]
    · rw [if_pos hac, if_neg hbc] at hab
      exact absurd (hab ▸ hb) hnew
    · rw [if_neg hac, if_pos hbc] at hab
      exact absurd (hab ▸ ha) hnew
    · rwa [if_neg hac, if_neg hbc] at hab
  · unfold Column.renamedIf
    split
    · rw [Column.renamed_eq hid]
    · exact h.named column hc
  · unfold Column.renamedIf
    split
    · rw [Column.renamed_eq hid]
      simp
    · exact h.identity column hc
  · unfold Column.renamedIf
    split
    · rw [Column.renamed_eq hid]
    · refine h.marked ?_ column hc
      rw [hnames] at hm
      obtain ⟨k, hmem, he⟩ := List.mem_map.1 hm
      split at he
      · exact absurd he fun hkey => hid (by simp [hkey])
      · exact he ▸ hmem

/-! ### Chosen columns -/

lemma pick_header {draft : Draft} (h : Heads header draft.columns) {fields : List String}
    {picked columns : List Column} (hp : draft.pick picked fields = .ok columns) :
    header.pick (picked.map fun column => (column.name, column.type)) fields
      = columns.map fun column => (column.name, column.type) := by
  have hnames (picked : List Column) :
      Header.names (picked.map fun column => (column.name, column.type)) = picked.map (·.name) := by
    rw [Header.names, List.map_map]
    rfl
  have hmeans {reference : String} {column : Column}
      (hc : draft.column? (unqualified reference) = some column) :
      header.column? reference = some (column.name, column.type) :=
    h.column?_of_answersTo (Draft.column?_mem hc) (Draft.answersTo_of_column? hc)
  replace hp := Draft.picks_of_pick hp
  induction hp with
  | done => rfl
  | again hc hin _ ih =>
    simp only [Header.pick, hmeans hc, hnames, if_pos hin]
    exact ih
  | new hc hin _ ih =>
    simp only [Header.pick, hmeans hc, hnames, if_neg hin]
    rw [← ih, List.map_append]
    rfl

end Heads

namespace Draft

variable {draft : Draft}

lemma pick_nodup {fields : List String} {picked columns : List Column}
    (hn : (picked.map (·.name)).Nodup) (hp : draft.pick picked fields = .ok columns) :
    (columns.map (·.name)).Nodup := by
  replace hp := picks_of_pick hp
  induction hp with
  | done => exact hn
  | again _ _ _ ih => exact ih hn
  | new _ hin _ ih =>
    refine ih ?_
    rw [List.map_append, List.map_singleton, ← List.concat_eq_append]
    exact hn.concat hin

lemma pick_ne_nil {fields : List String} {picked columns : List Column}
    (hne : picked ≠ [] ∨ fields ≠ []) (hp : draft.pick picked fields = .ok columns) :
    columns ≠ [] := by
  replace hp := picks_of_pick hp
  induction hp with
  | done => exact hne.resolve_right fun h => h rfl
  | again _ hin _ ih =>
    refine ih (.inl ?_)
    rintro rfl
    cases hin
  | new _ _ _ ih => exact ih (.inl (List.append_ne_nil_of_right_ne_nil _ (List.cons_ne_nil _ _)))

end Draft

/-! ### Columns of fields -/

lemma heads_ofType {type : ObjectType} (ht : type.PlainIdentity) (table : TableAlias) :
    Heads (.ofType type) (Column.ofType type table) := by
  have hname (entry : String × Field) :
      (if (entry.1 == type.idField) = true then identityColumn else entry.1) = entry.1 := by
    split
    · rename_i h
      rw [beq_iff_eq.1 h, ht.idField]
      rfl
    · rfl
  have hnames : (Column.ofType type table).map (·.name) = type.fields.keys := by
    simp only [Column.ofType, List.map_map, Function.comp_def, hname]
    rfl
  refine ⟨?_, hnames ▸ type.fields.nodup, List.forall_mem_map.2 fun entry _ => (hname entry).symm,
    List.forall_mem_map.2 fun entry _ hi => ?_, fun hm => absurd (hnames ▸ hm) ht.marked⟩
  · simp only [Header.ofType, Column.ofType, List.map_map, Function.comp_def, hname]
  · exact if_pos hi

end ObjectGraph.Compile
