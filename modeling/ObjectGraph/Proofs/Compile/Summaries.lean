/-
# Queries that end in a single row

A count and a nest put one column in place of all others, which is read off all rows at once, so
that one row is left.  Projecting and renaming columns only edit the list of them.  Nothing but
this list says that the rows are taken together: once a projection leaves no column, the select
has as many rows as it reads.
-/
import ObjectGraph.Proofs.Compile.Regular

namespace ObjectGraph

/-- Whether an operation puts one row in place of all rows. -/
def Operation.isSummary : Operation → Bool
  | count | nest _ => true
  | _ => false

/-- Whether an operation chooses or renames columns. -/
def Operation.editsColumns : Operation → Bool
  | project _ | rename _ _ => true
  | _ => false

namespace Compile

open Sql (RowEnvironment)

variable {δ : Type} {D : Domain δ} {db : Database δ} {around : RowEnvironment δ}
  {counts last : AliasCounts} {catalog : Catalog} {draft result : Draft}

/-! ### Drafts that take rows together -/

/-- A draft whose columns are all read off the given number of rows at once. -/
structure Summarizes (D : Domain δ) (db : Database δ) (around : RowEnvironment δ) (count : Nat)
    (draft : Draft) : Prop where
  unlimited : draft.limit = none ∧ draft.offset = none
  ungrouped : draft.groupBy = []
  collected : ∀ column ∈ draft.columns, column.expression.aggregates = true
  length_sorted : (draft.sorted D db around).length = count

/-- One row as long as there is a column, and otherwise all that are read. -/
lemma Summarizes.length_rows {count : Nat} (h : Summarizes D db around count draft) :
    (draft.finish.rows D db around).length = if draft.columns.isEmpty then count else 1 := by
  cases hc : draft.columns with
  | nil =>
    have hplain : draft.aggregates = false := by simp [Draft.aggregates, hc]
    rw [Draft.rows_plain h.ungrouped hplain, h.unlimited.1, h.unlimited.2, List.length_map]
    exact h.length_sorted
  | cons first rest =>
    have hcollected : draft.aggregates = true :=
      Draft.any_of_forall (by simp [hc]) h.collected
    rw [Draft.rows_aggregated h.ungrouped hcollected]
    rfl

/-- Columns may be exchanged for others that are read off all rows. -/
lemma Summarizes.withColumns {count : Nat} (h : Summarizes D db around count draft)
    {columns : List Column} {isSealed : Bool}
    (hc : ∀ column ∈ columns, ∃ original ∈ draft.columns,
      original.expression = column.expression) :
    Summarizes D db around count { draft with columns, isSealed } where
  unlimited := h.unlimited
  ungrouped := h.ungrouped
  collected column hm := by
    obtain ⟨original, ho, he⟩ := hc column hm
    exact he ▸ h.collected original ho
  length_sorted := h.length_sorted

/-- A count and a nest take the rows of the draft before them together, as one column. -/
lemma summary_summarizes {summary : Operation} (h : draft.Regular)
    (hs : summary.isSummary = true)
    (ho : (operation catalog draft summary).run counts = .ok (result, last)) :
    Summarizes D db around (draft.finish.rows D db around).length result ∧
      result.columns ≠ [] := by
  cases operation_ok ho with
  | count hw =>
    obtain ⟨hl, hf, hopen⟩ := hw.opened
    have hbase := hw.regular h
    refine ⟨⟨⟨hl, hf⟩, (hbase.plain hopen).1, List.forall_mem_singleton.2 rfl, ?_⟩, by simp⟩
    rw [← hw.length_rows, hbase.rows_open hopen, hl, hf, Sql.slice_none, List.length_map]
    simp only [Draft.sorted, Stable.length_sort]
    rfl
  | nest =>
    refine ⟨⟨⟨rfl, rfl⟩, rfl, List.forall_mem_singleton.2 rfl, ?_⟩, by simp⟩
    rw [Draft.sorted_of_open rfl rfl]
    exact (congrArg List.length (draft.environments_around _)).trans (List.length_map _)
  | _ => cases hs

/-! ### Columns that are edited -/

/-- A projection or a renaming exchanges columns for such with the same expressions, and leaves
none only if it is a projection on nothing. -/
lemma edit_ok {step : Operation} (he : step.editsColumns = true)
    (ho : (operation catalog draft step).run counts = .ok (result, last)) :
    ∃ columns isSealed, result = { draft with columns, isSealed } ∧
      (∀ column ∈ columns, ∃ original ∈ draft.columns,
        original.expression = column.expression) ∧
      (columns = [] ↔ draft.columns = [] ∨ step = .project []) := by
  cases operation_ok ho with
  | @project fields columns hc =>
    have hsubset : columns ⊆ draft.columns := Draft.pick_subset hc
    refine ⟨columns, draft.isSealed, rfl, fun column hm => ⟨column, hsubset hm, rfl⟩, ?_⟩
    cases fields with
    | nil =>
      cases hc
      simp
    | cons field rest =>
      have hne : columns ≠ [] := Draft.pick_ne_nil (.inr (by simp)) hc
      have hdraft : draft.columns ≠ [] := fun hnil => hne (by simpa [hnil] using hsubset)
      simp [hne, hdraft]
  | rename hc =>
    refine ⟨_, true, rfl, Draft.renameFirst_expression hc, ?_⟩
    obtain ⟨before, column, behind, hcolumns, -, -, rfl⟩ := Column.renameFirst_split hc
    simp [hcolumns]
  | _ => cases he

lemma edits_summarize {count : Nat} {edits : List Operation}
    (he : ∀ step ∈ edits, step.editsColumns = true) (h : Summarizes D db around count draft)
    (hp : (pipeline catalog draft edits).run counts = .ok (result, last)) :
    Summarizes D db around count result ∧
      (result.columns = [] ↔ draft.columns = [] ∨ .project [] ∈ edits) := by
  induction edits generalizing draft counts with
  | nil =>
    obtain ⟨rfl, -⟩ := run_pure_eq_ok.1 hp
    exact ⟨h, by simp⟩
  | cons step rest ih =>
    obtain ⟨hstep, hrest⟩ := List.forall_mem_cons.1 he
    obtain ⟨next, between, ho, hp⟩ := pipeline_cons_ok hp
    obtain ⟨columns, isSealed, rfl, hexpressions, hnil⟩ := edit_ok hstep ho
    obtain ⟨hresult, hempty⟩ := ih hrest (h.withColumns hexpressions) hp
    refine ⟨hresult, hempty.trans ?_⟩
    rw [hnil, List.mem_cons, or_assoc, eq_comm (a := step)]

/-! ### Whole queries -/

/-- After a count or a nest, and however its columns are chosen and renamed, a query has one row,
unless a projection leaves no column: then it has as many as before the count or the nest. -/
theorem length_rows_summary (D : Domain δ) (db : Database δ) (catalog : Catalog)
    (source : Source) (before edits : List Operation) (summary : Operation)
    (hs : summary.isSummary = true) (he : ∀ step ∈ edits, step.editsColumns = true)
    (select : Sql.Select)
    (h : Compile.select catalog ⟨source, before ++ summary :: edits⟩ = .ok select) :
    (.project [] ∉ edits → (select.rows D db []).length = 1) ∧
      (.project [] ∈ edits → ∃ rows, Compile.select catalog ⟨source, before⟩ = .ok rows ∧
        (select.rows D db []).length = (rows.rows D db []).length) := by
  obtain ⟨first, started, middle, between, result, last, hstart, hbefore, hbehind, hrows, rfl⟩ :=
    select_append_ok h
  obtain ⟨next, _, hsummary, hedits⟩ := pipeline_cons_ok hbehind
  have hmiddle : middle.Regular := pipeline_regular (start_regular hstart) hbefore
  obtain ⟨hnext, hne⟩ : Summarizes D db [] (middle.finish.rows D db []).length next ∧
      next.columns ≠ [] := summary_summarizes hmiddle hs hsummary
  obtain ⟨hresult, hempty⟩ := edits_summarize he hnext hedits
  have hlength := hresult.length_rows
  constructor
  · intro hnone
    have hcolumns : result.columns ≠ [] := fun hnil => by simpa [hne, hnone] using hempty.1 hnil
    simpa [hcolumns] using hlength
  · intro hsome
    have hcolumns : result.columns = [] := hempty.2 (.inr hsome)
    refine ⟨middle.finish, hrows, ?_⟩
    simpa [hcolumns] using hlength

/-- A table with two users. -/
def twoUsers : Database Datum :=
  tableOf [[("id", some (.integer 1))], [("id", some (.integer 2))]]

/-- The number of users is one row under any name. -/
theorem length_rows_summary_users :
    ∃ select, Compile.select SocialGraph.catalog ⟨{ objectType := "User" },
        [.count, .project ["count"], .rename "count" "users"]⟩ = .ok select ∧
      (select.rows Datum.domain twoUsers []).length = 1 := by
  have hok : (Compile.select SocialGraph.catalog ⟨{ objectType := "User" },
      [.count, .project ["count"], .rename "count" "users"]⟩).isOk = true := by decide +kernel
  obtain ⟨select, h⟩ := exists_of_isOk hok
  have hone := (length_rows_summary Datum.domain twoUsers SocialGraph.catalog
    { objectType := "User" } [] [.project ["count"], .rename "count" "users"] .count rfl
    (by simp [Operation.editsColumns]) select h).1
  exact ⟨select, h, hone (by simp)⟩

/-- Without the column of the number there is a row for every user. -/
theorem length_rows_count_nothing :
    ∃ select, Compile.select SocialGraph.catalog
        ⟨{ objectType := "User" }, [.count, .project []]⟩ = .ok select ∧
      (select.rows Datum.domain twoUsers []).length ≠ 1 :=
  ⟨_, rfl, by decide +kernel⟩

end Compile
end ObjectGraph
