/-
# Where rows come from

A select that neither groups nor aggregates makes each of its rows from one row it reads, and so
in the end from one row of a stored table.  Here the rows of a select are evaluated together with
the stored rows they are made from; the clauses see the same rows as before.
-/
import ObjectGraph.Proofs.Compile.Rows

namespace ObjectGraph

variable {δ : Type} {D : Domain δ} {db : Database δ}

namespace Sql

/-! ### Rows with the stored rows behind them -/

mutual

/-- The rows of a relation, each with the stored row it was made from. -/
def Relation.traced (D : Domain δ) (db : Database δ) :
    Relation → RowEnvironment δ → List (Record δ × Record δ)
  | .table reference _, _ => (db reference.tableName).map fun row => (row, row)
  | .derived select _, around => select.traced D db around
  | .union selects _, around => unionTraced D db (unionNames selects) selects around

/-- The rows of selects one after the other, each with the stored row it was made from. -/
def unionTraced (D : Domain δ) (db : Database δ) (names : List String) :
    List Select → RowEnvironment δ → List (Record δ × Record δ)
  | [], _ => []
  | select :: rest, around =>
    (select.traced D db around).map (fun row => (relabel names row.1, row.2))
      ++ unionTraced D db names rest around

/-- The environments of the rows that a select reads, each with the stored row it was made from;
without a relation there is none. -/
def fromTraced (D : Domain δ) (db : Database δ) :
    Option Relation → RowEnvironment δ → List (RowEnvironment δ × Record δ)
  | none, _ => []
  | some relation, around =>
    (relation.traced D db around).map fun row => ((relation.handle, row.1) :: around, row.2)

/-- The rows of a select, each with the stored row it was made from.  Rows that are taken together
are not made from a single one. -/
def Select.traced (D : Domain δ) (db : Database δ) :
    Select → RowEnvironment δ → List (Record δ × Record δ)
  | ⟨list, relation, condition, groupBy, orderBy, limit, offset⟩, around =>
    let kept := (fromTraced D db relation around).filter fun rows =>
      D.toTruth (condition.eval D db rows.1 []) == some true
    let sorted := Stable.sort (fun a b => orderKeys D db orderBy a.1 b.1) kept
    if groupBy.isEmpty && !list.aggregates then
      (slice limit offset sorted).map fun rows => (list.eval D db rows.1 [], rows.2)
    else []

end

/-! ### Environments -/

/-- Below other aliases a row is found as before. -/
lemma cell_append {inner around : RowEnvironment δ} {handle : TableAlias} {record : Record δ}
    {name : String} (h : ∀ entry ∈ inner, entry.1 ≠ handle) :
    RowEnvironment.cell (inner ++ (handle, record) :: around) handle name = record.cell name := by
  induction inner with
  | nil => exact cell_cons_self handle record around name
  | cons entry rest ih =>
    obtain ⟨hentry, hrest⟩ := List.forall_mem_cons.1 h
    obtain ⟨other, row⟩ := entry
    have hne : (handle == other) = false := beq_false_of_ne hentry.symm
    rw [← ih hrest]
    simp only [RowEnvironment.cell, RowEnvironment.row?, List.cons_append, List.lookup_cons, hne]

end Sql

/-! ### Drafts -/

namespace Compile.Draft

open Sql (RowEnvironment)

variable {around : RowEnvironment δ} {draft : Draft}

/-- The stored rows behind the rows of a draft, in front of its select list. -/
lemma traced_finish (hg : draft.groupBy = []) (ha : draft.aggregates = false) :
    draft.finish.traced D db around
      = (Sql.slice draft.limit draft.offset
          (Stable.sort (fun a b => Sql.orderKeys D db draft.orderBy a.1 b.1)
            (((draft.relation.traced D db around).map fun row =>
                ((draft.handle, row.1) :: around, row.2)).filter fun rows =>
              D.toTruth (draft.condition.eval D db rows.1 []) == some true))).map fun rows =>
          (record D db draft.columns ⟨rows.1, []⟩, rows.2) := by
  have haggregates : draft.finish.list.aggregates = false := by
    rw [← ha]
    simp only [finish, Sql.SelectList.aggregates, aggregates, List.any_map]
    rfl
  simp only [finish] at haggregates
  simp only [finish, Sql.Select.traced, hg, haggregates, List.isEmpty_nil, Bool.not_false,
    Bool.and_self, if_true, Sql.SelectList.eval, Sql.evalOutputs_eq, List.map_map]
  rfl

/-- Every row of a draft has a stored row behind it, if every row it reads has. -/
lemma fst_traced_finish (hg : draft.groupBy = []) (ha : draft.aggregates = false)
    (hr : (draft.relation.traced D db around).map Prod.fst = draft.relation.rows D db around) :
    (draft.finish.traced D db around).map Prod.fst = draft.finish.rows D db around := by
  have henvironments : draft.environments D db around
      = ((draft.relation.traced D db around).map fun row =>
          ((draft.handle, row.1) :: around, row.2)).map Prod.fst := by
    rw [environments, ← hr, List.map_map, List.map_map]
    rfl
  rw [traced_finish hg ha, rows_plain hg ha, sorted, henvironments,
    List.filter_map (f := Prod.fst), Stable.sort_map Prod.fst, Sql.slice_map Prod.fst,
    List.map_map, List.map_map]
  rfl

/-- A row of a draft is the record of its columns for a row it reads, and comes from where that
row comes from. -/
lemma mem_traced_finish (hg : draft.groupBy = []) (ha : draft.aggregates = false)
    {row : Record δ × Record δ} (h : row ∈ draft.finish.traced D db around) :
    ∃ read ∈ draft.relation.traced D db around,
      row = (record D db draft.columns ⟨(draft.handle, read.1) :: around, []⟩, read.2) := by
  rw [traced_finish hg ha] at h
  obtain ⟨rows, hrows, rfl⟩ := List.mem_map.1 h
  have hkept := List.mem_of_mem_filter (Stable.mem_sort.1 (Sql.mem_of_mem_slice hrows))
  obtain ⟨read, hread, rfl⟩ := List.mem_map.1 hkept
  exact ⟨read, hread, rfl⟩

end Compile.Draft
end ObjectGraph
