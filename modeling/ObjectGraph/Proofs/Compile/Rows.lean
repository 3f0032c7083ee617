/-
# The rows of drafts

The select that a draft stands for is taken apart here: the rows it reads, those its clauses
leave, and the columns that are read off each of them.  A draft that reads all the columns of
another one through an alias has the same rows.
-/
import ObjectGraph.Proofs.Compile.Build
import ObjectGraph.Proofs.Listing
import ObjectGraph.Proofs.Sql.Semantics

namespace ObjectGraph

open Std (TransCmp)

variable {δ : Type} {D : Domain δ} {db : Database δ}

/-! ### Records -/

namespace Record

variable {α : Type} {name : α → String} {cell : α → Cell δ} {l : List α}

lemma cell_cons_self (k : String) (c : Cell δ) (rest : Record δ) :
    Record.cell ((k, c) :: rest) k = c := by
  simp [Record.cell]

lemma cell_cons_of_ne {k n : String} (h : n ≠ k) (c : Cell δ) (rest : Record δ) :
    Record.cell ((k, c) :: rest) n = Record.cell rest n := by
  simp [Record.cell, List.lookup_cons, beq_false_of_ne h]

/-- Each cell is found under its name if no two have the same. -/
lemma cell_map (hn : (l.map name).Nodup) {a : α} (ha : a ∈ l) :
    Record.cell (l.map fun a => (name a, cell a)) (name a) = cell a := by
  induction l with
  | nil => cases ha
  | cons b rest ih =>
    obtain ⟨hb, hrest⟩ := List.nodup_cons.1 hn
    rcases List.mem_cons.1 ha with rfl | ha
    · exact cell_cons_self _ _ _
    · have hne : name a ≠ name b := fun he => hb (he ▸ List.mem_map_of_mem ha)
      rw [List.map_cons, cell_cons_of_ne hne]
      exact ih hrest ha

/-- A record is made of its cells. -/
lemma map_cell (record : Record δ) (hn : (record.map Prod.fst).Nodup) :
    ((record.map Prod.fst).map fun name => (name, record.cell name)) = record := by
  rw [List.map_map]
  conv_rhs => rw [← List.map_id record]
  refine List.map_congr_left fun entry he => ?_
  have h : Record.cell (record.map fun e => (e.1, e.2)) entry.1 = entry.2 := cell_map hn he
  rw [show (record.map fun e => (e.1, e.2)) = record from List.map_id record] at h
  rw [Function.comp_apply, h]
  rfl

end Record

namespace Sql

/-! ### Clauses without effect -/

/-- An order of what is read off elements is one of the elements. -/
lemma trans_on {α β : Type} {order : α → α → Ordering} [TransCmp order] (f : β → α) :
    TransCmp fun a b => order (f a) (f b) where
  eq_swap := Std.OrientedCmp.eq_swap
  isLE_trans := TransCmp.isLE_trans

instance orderKeys_trans (keys : List SortKey) : TransCmp (orderKeys D db keys) := by
  induction keys with
  | nil =>
    have h : orderKeys D db [] = fun _ _ => Ordering.eq := by
      funext a b
      rw [orderKeys]
    rw [h]
    exact { eq_swap := rfl, isLE_trans := fun h _ => h }
  | cons key rest ih =>
    obtain ⟨target, direction⟩ := key
    have h : orderKeys D db (⟨target, direction⟩ :: rest) = compareLex
        (fun a b => D.directed direction (target.eval D db a []) (target.eval D db b []))
        (orderKeys D db rest) := by
      funext a b
      rw [orderKeys, compareLex]
    have hfirst : TransCmp fun a b : RowEnvironment δ =>
        D.directed direction (target.eval D db a []) (target.eval D db b []) :=
      trans_on fun rows => target.eval D db rows []
    rw [h]
    infer_instance

/-- Sorting by no key changes nothing. -/
lemma sort_orderKeys_nil (l : List (RowEnvironment δ)) :
    Stable.sort (orderKeys D db []) l = l := by
  refine Stable.sort_of_inOrder (List.pairwise_of_forall_mem_list fun a _ b _ => ?_)
  rw [orderKeys]
  rfl

lemma evalOutputs_eq (list : List Output) (rows : RowEnvironment δ)
    (group : List (RowEnvironment δ)) :
    evalOutputs D db list rows group
      = list.map fun output => (output.name, output.expression.eval D db rows group) := by
  induction list with
  | nil => simp [evalOutputs]
  | cons output rest ih =>
    obtain ⟨name, e⟩ := output
    simp [evalOutputs, ih]

lemma evalList_eq (list : List Expression) (rows : RowEnvironment δ)
    (group : List (RowEnvironment δ)) :
    evalList D db list rows group = list.map fun e => e.eval D db rows group := by
  induction list with
  | nil => simp [evalList]
  | cons e rest ih => simp [evalList, ih]

@[simp] lemma truth_true (rows : RowEnvironment δ) (group : List (RowEnvironment δ)) :
    D.toTruth (Expression.true.eval D db rows group) = some true := by
  simp [Expression.true, Expression.eval, Value.cell, Domain.toTruth, D.truth_boolean]

@[simp] lemma truth_false (rows : RowEnvironment δ) (group : List (RowEnvironment δ)) :
    D.toTruth (Expression.false.eval D db rows group) = some false := by
  simp [Expression.false, Expression.eval, Value.cell, Domain.toTruth, D.truth_boolean]

/-- Leaving out the constant `true` does not change what a conjunction says. -/
lemma truth_both (left right : Expression) (rows : RowEnvironment δ)
    (group : List (RowEnvironment δ)) :
    D.toTruth ((left.both right).eval D db rows group)
      = Truth.and (D.toTruth (left.eval D db rows group))
          (D.toTruth (right.eval D db rows group)) := by
  have htrue : ∀ e : Expression, e.isTrue = true →
      D.toTruth (e.eval D db rows group) = some true := by
    intro e he
    unfold Expression.isTrue at he
    split at he
    · subst he
      exact truth_true rows group
    · cases he
  unfold Expression.both
  split
  · rename_i h
    rw [htrue left h, Truth.true_and]
  · split
    · rename_i h
      rw [htrue right h, Truth.and_true]
    · rw [Expression.eval, Domain.toTruth_ofTruth]

@[simp] lemma slice_none {α : Type} (rows : List α) : slice none none rows = rows := rfl

lemma slice_map {α β : Type} (f : α → β) (limit offset : Option UInt32) (rows : List α) :
    slice limit offset (rows.map f) = (slice limit offset rows).map f := by
  cases limit <;> simp [slice, List.map_drop, List.map_take]

lemma mem_of_mem_slice {α : Type} {limit offset : Option UInt32} {rows : List α} {a : α}
    (h : a ∈ slice limit offset rows) : a ∈ rows := by
  cases limit with
  | none => exact List.mem_of_mem_drop h
  | some n => exact List.mem_of_mem_drop (List.mem_of_mem_take h)

lemma row?_cons_self (handle : TableAlias) (record : Record δ) (around : RowEnvironment δ) :
    RowEnvironment.row? ((handle, record) :: around) handle = some record := by
  simp [RowEnvironment.row?]

lemma cell_cons_self (handle : TableAlias) (record : Record δ) (around : RowEnvironment δ)
    (name : String) :
    RowEnvironment.cell ((handle, record) :: around) handle name = record.cell name := by
  rw [RowEnvironment.cell, row?_cons_self]
  rfl

end Sql

/-! ### The rows of a draft -/

namespace Compile.Draft

open Sql (Context Expression Relation RowEnvironment TableAlias)

variable (D db) (around : RowEnvironment δ) (draft : Draft)

/-- The environments in which the clauses of a draft are evaluated, one for every row it
reads. -/
def environments : List (RowEnvironment δ) :=
  (draft.relation.rows D db around).map fun record => (draft.handle, record) :: around

/-- The environments of the rows that satisfy the condition, in order. -/
def sorted : List (RowEnvironment δ) :=
  Stable.sort (Sql.orderKeys D db draft.orderBy)
    ((draft.environments D db around).filter fun rows =>
      D.toTruth (draft.condition.eval D db rows []) == some true)

/-- Whether some column counts or collects rows. -/
def aggregates : Bool := draft.columns.any (·.expression.aggregates)

/-- What the columns are evaluated for. -/
def contexts : List (Context δ) :=
  Sql.contexts D draft.aggregates
    (if draft.groupBy.isEmpty then none
      else some fun rows => Sql.evalList D db draft.groupBy rows [])
    around (Sql.slice draft.limit draft.offset (draft.sorted D db around))

/-- The row of columns in a context. -/
def record (columns : List Column) (context : Context δ) : Record δ :=
  columns.map fun column =>
    (column.name, column.expression.eval D db context.row context.group)

lemma rows_finish :
    draft.finish.rows D db around
      = (draft.contexts D db around).map (record D db draft.columns) := by
  have haggregates : draft.finish.list.aggregates = draft.aggregates := by
    simp only [finish, Sql.SelectList.aggregates, aggregates, List.any_map]
    rfl
  rw [contexts, ← haggregates]
  simp only [finish, Sql.Select.rows, Sql.SelectList.eval, Sql.evalOutputs_eq, List.map_map]
  rfl

variable {D db around draft}

lemma names_of_mem_rows {row : Record δ} (h : row ∈ draft.finish.rows D db around) :
    row.map Prod.fst = draft.names := by
  rw [rows_finish] at h
  obtain ⟨context, -, rfl⟩ := List.mem_map.1 h
  simp only [record, List.map_map, names]
  rfl

/-- One row for every row that the clauses leave, if no rows are counted or collected. -/
lemma rows_plain (hg : draft.groupBy = []) (ha : draft.aggregates = false) :
    draft.finish.rows D db around
      = (Sql.slice draft.limit draft.offset (draft.sorted D db around)).map fun rows =>
          record D db draft.columns ⟨rows, []⟩ := by
  rw [rows_finish, contexts, hg, ha]
  simp only [List.isEmpty_nil, if_true, Sql.contexts, Bool.false_eq_true, if_false, List.map_map]
  rfl

/-- One row for all rows that the clauses leave, if they are counted or collected as a whole. -/
lemma rows_aggregated (hg : draft.groupBy = []) (ha : draft.aggregates = true) :
    draft.finish.rows D db around
      = [record D db draft.columns
          ⟨(Sql.slice draft.limit draft.offset (draft.sorted D db around)).headD around,
            Sql.slice draft.limit draft.offset (draft.sorted D db around)⟩] := by
  rw [rows_finish, contexts, hg, ha]
  simp only [List.isEmpty_nil, if_true, Sql.contexts, List.map_cons, List.map_nil]

lemma any_of_forall {α : Type} {p : α → Bool} {b : Bool} {l : List α} (hne : l ≠ [])
    (h : ∀ a ∈ l, p a = b) : l.any p = b := by
  obtain ⟨first, rest, rfl⟩ := List.exists_cons_of_ne_nil hne
  cases b with
  | true => exact List.any_eq_true.2 ⟨first, List.mem_cons_self, h first List.mem_cons_self⟩
  | false => exact List.any_eq_false.2 fun a ha => by simp [h a ha]

/-- Other columns are evaluated for the same rows or groups, if as many of them are counted or
collected. -/
lemma contexts_withColumns {columns : List Column} {isSealed : Bool}
    (h : draft.groupBy = [] → columns.any (·.expression.aggregates) = draft.aggregates) :
    { draft with columns, isSealed }.contexts D db around = draft.contexts D db around := by
  cases hg : draft.groupBy with
  | nil =>
    have hsame : { draft with columns, isSealed }.aggregates = draft.aggregates := h hg
    simp only [contexts, ← hsame, hg]
    rfl
  | cons e rest =>
    simp only [contexts, Sql.contexts, hg]
    rfl

/-- A draft that reads the columns of a relation through its alias, without clauses. -/
def reading (relation : Relation) (columns : List Column) (type : Option String) : Draft where
  relation
  columns := columns.map (·.through relation.handle)
  type

lemma sorted_of_true (hc : draft.condition = .true) :
    draft.sorted D db around
      = Stable.sort (Sql.orderKeys D db draft.orderBy) (draft.environments D db around) := by
  rw [sorted, hc]
  simp

lemma sorted_of_open (hc : draft.condition = .true) (ho : draft.orderBy = []) :
    draft.sorted D db around = draft.environments D db around := by
  rw [sorted_of_true hc, ho, Sql.sort_orderKeys_nil]

/-- A draft without clauses that reads all columns of a relation has the rows of it. -/
lemma rows_reading {relation : Relation} {columns : List Column} {type : Option String}
    (hn : (columns.map (·.name)).Nodup)
    (hr : ∀ row ∈ relation.rows D db around, row.map Prod.fst = columns.map (·.name)) :
    (reading relation columns type).finish.rows D db around = relation.rows D db around := by
  have hplain : (reading relation columns type).aggregates = false := by
    simp [aggregates, reading, Column.through, Expression.aggregates]
  rw [rows_plain rfl hplain, sorted_of_open rfl rfl]
  have hrecord : ∀ row ∈ relation.rows D db around,
      record D db (reading relation columns type).columns
        ⟨(relation.handle, row) :: around, []⟩ = row := by
    intro row hrow
    have hcells := Record.map_cell row (by rwa [hr row hrow])
    rw [hr row hrow] at hcells
    conv_rhs => rw [← hcells]
    simp only [record, reading, Column.through, List.map_map, Function.comp_def, Expression.eval,
      Sql.cell_cons_self]
  have hslice : Sql.slice (reading relation columns type).limit
      (reading relation columns type).offset
      ((reading relation columns type).environments D db around)
        = (relation.rows D db around).map fun row => (relation.handle, row) :: around := rfl
  rw [hslice, List.map_map]
  exact (List.map_congr_left hrecord).trans (List.map_id _)

end Compile.Draft
end ObjectGraph
