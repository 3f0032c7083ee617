/-
# Which rows columns are read off

A column is read off every row that the clauses of a draft leave, or off all of them at once if it
counts or collects rows.  The two kinds never meet in one draft: columns that count or collect
rows replace all others, and a draft is sealed from then on.  This holds of every draft, whatever
its operations are called with, so that an open draft has one row for every row its clauses leave.
-/
import ObjectGraph.Proofs.Compile.Folding
import ObjectGraph.Proofs.Compile.Scope

namespace ObjectGraph

/-- Lists of cells are in their own place. -/
lemma Domain.orderList_self {δ : Type} (D : Domain δ) (cells : List (Cell δ)) :
    D.orderList cells cells = .eq := by
  induction cells with
  | nil => rfl
  | cons cell rest ih =>
    have hcell : D.order cell cell = .eq := Std.ReflCmp.compare_self
    rw [Domain.orderList, ih, hcell, Ordering.then_eq]

namespace Compile

open Sql (RowEnvironment TableAlias)

variable {δ : Type} {D : Domain δ} {db : Database δ} {around : RowEnvironment δ}
  {counts last : AliasCounts} {catalog : Catalog}

namespace Draft

variable {draft base result : Draft}

/-! ### The invariant -/

/-- A draft whose columns are all read off rows in the same way. -/
structure Regular (draft : Draft) : Prop where
  /-- The columns of an open draft are read off single rows. -/
  plain : draft.isSealed = false → draft.groupBy = [] ∧
    ∀ column ∈ draft.columns, column.expression.aggregates = false
  /-- Without groups, all columns are read off single rows or all are read off all rows. -/
  uniform : draft.groupBy = [] →
    ∃ b, ∀ column ∈ draft.columns, column.expression.aggregates = b

/-- Columns that are read off single rows. -/
lemma Regular.of_plain (hg : draft.groupBy = [])
    (hc : ∀ column ∈ draft.columns, column.expression.aggregates = false) : draft.Regular where
  plain _ := ⟨hg, hc⟩
  uniform _ := ⟨false, hc⟩

/-- Other columns, all of which are read off rows like one that was there. -/
lemma Regular.withColumns (h : draft.Regular) {columns : List Column} {isSealed : Bool}
    (hs : isSealed = false → draft.isSealed = false)
    (hc : ∀ column ∈ columns, ∃ original ∈ draft.columns,
      original.expression = column.expression) :
    { draft with columns, isSealed }.Regular where
  plain ho := by
    refine ⟨(h.plain (hs ho)).1, fun column hm => ?_⟩
    obtain ⟨original, horiginal, he⟩ := hc column hm
    exact he ▸ (h.plain (hs ho)).2 original horiginal
  uniform hg := by
    refine (h.uniform hg).imp fun b hb column hm => ?_
    obtain ⟨original, horiginal, he⟩ := hc column hm
    exact he ▸ hb original horiginal

lemma regular_wrapped (draft : Draft) (handle : TableAlias) : (draft.wrapped handle).Regular :=
  .of_plain rfl (List.forall_mem_map.2 fun _ _ => rfl)

lemma Wraps.regular {condition : Bool} (hw : Wraps counts draft condition base last)
    (h : draft.Regular) : base.Regular := by
  cases hw with
  | kept => exact h
  | wrapped => exact regular_wrapped draft _

end Draft

lemma start_regular {name : String} {ids : Option (List Int64)} {tied : Option Tie}
    {result : Draft} (h : (start catalog name ids tied).run counts = .ok (result, last)) :
    result.Regular := by
  obtain ⟨type, condition, chosen, -, -, -, rfl⟩ := start_ok h
  exact .of_plain rfl (aggregates_ofType _)

/-! ### Operations -/

/-- An edge is a column that is read off single rows, whatever its select collects. -/
lemma aggregates_edgeColumn {name : String} {cardinality : Cardinality} {reached : Draft}
    {column : Column} (h : (edgeColumn name cardinality reached).run counts = .ok (column, last)) :
    column.expression.aggregates = false := by
  rcases edgeColumn_ok h with ⟨-, -, rfl⟩ | ⟨-, _, -, rfl⟩ <;> rfl

lemma operation_regular {step : Operation} {draft result : Draft} (h : draft.Regular)
    (ho : (operation catalog draft step).run counts = .ok (result, last)) : result.Regular := by
  cases operation_ok ho with
  | project hc =>
    exact h.withColumns id fun column hm => ⟨column, Draft.pick_subset hc hm, rfl⟩
  | rename hc => exact h.withColumns (by simp) (Draft.renameFirst_expression hc)
  | filter hw | take hw | skip hw | orderBy hw => exact { hw.regular h with }
  | count | nest => exact ⟨by simp, fun _ => ⟨true, List.forall_mem_singleton.2 rfl⟩⟩
  | groupBy => exact ⟨by simp [Draft.gathered], by simp [Draft.gathered]⟩
  | edge hw _ _ _ hcolumn =>
    -- the draft was wrapped if it was sealed, so that none of its columns collects rows
    obtain ⟨hg, hc⟩ := (hw.regular h).plain hw.isOpen
    refine .of_plain hg (List.forall_mem_append.2 ⟨fun other hm => ?_, ?_⟩)
    · exact hc other (List.mem_of_mem_filter hm)
    · exact List.forall_mem_singleton.2 (aggregates_edgeColumn hcolumn)
  | union => exact .of_plain rfl (List.forall_mem_map.2 fun _ _ => rfl)

lemma pipeline_regular {steps : List Operation} {draft result : Draft} (h : draft.Regular)
    (hp : (pipeline catalog draft steps).run counts = .ok (result, last)) : result.Regular := by
  induction steps generalizing draft counts with
  | nil =>
    obtain ⟨rfl, -⟩ := run_pure_eq_ok.1 hp
    exact h
  | cons step rest ih =>
    obtain ⟨next, between, ho, hp⟩ := pipeline_cons_ok hp
    exact ih (operation_regular h ho) hp

/-! ### Rows -/

namespace Draft

variable {draft base : Draft}

/-- An open draft has one row for every row its clauses leave. -/
lemma Regular.rows_open (h : draft.Regular) (ho : draft.isSealed = false) :
    draft.finish.rows D db around
      = (Sql.slice draft.limit draft.offset (draft.sorted D db around)).map fun rows =>
          record D db draft.columns ⟨rows, []⟩ := by
  refine rows_plain (h.plain ho).1 ?_
  simpa [aggregates] using (h.plain ho).2

lemma mem_environments_of_mem_sorted {rows : RowEnvironment δ}
    (h : rows ∈ draft.sorted D db around) : rows ∈ draft.environments D db around :=
  List.mem_of_mem_filter (Stable.mem_sort.1 h)

/-- The row that columns are read off is one that is read, unless they are all read off all rows. -/
lemma Regular.row_mem (h : draft.Regular) {context : Sql.Context δ}
    (hc : context ∈ draft.contexts D db around) :
    (∀ column ∈ draft.columns, column.expression.aggregates = true) ∨
      context.row ∈ draft.environments D db around := by
  cases hg : draft.groupBy with
  | nil =>
    obtain ⟨b, hb⟩ := h.uniform hg
    cases b with
    | true => exact .inl hb
    | false =>
      have hplain : draft.aggregates = false := by simpa [aggregates] using hb
      simp only [contexts, hg, hplain, List.isEmpty_nil, if_true, Sql.contexts,
        Bool.false_eq_true, if_false] at hc
      obtain ⟨rows, hrows, rfl⟩ := List.mem_map.1 hc
      exact .inr (mem_environments_of_mem_sorted (Sql.mem_of_mem_slice hrows))
  | cons key rest =>
    simp only [contexts, hg, List.isEmpty_cons, Bool.false_eq_true, if_false, Sql.contexts] at hc
    obtain ⟨group, hgroup, rfl⟩ := List.mem_map.1 hc
    obtain ⟨first, others, rfl, hfirst⟩ := Stable.exists_cons_of_mem_classes
      (fun rows => by simp only [Stable.same, D.orderList_self]; rfl) hgroup
    exact .inr (mem_environments_of_mem_sorted (Sql.mem_of_mem_slice hfirst))

/-- A draft around another one reads one row for every row of it. -/
lemma environments_around (draft : Draft) (handle : TableAlias) :
    (draft.wrapped handle).environments D db around
      = (draft.finish.rows D db around).map fun row => (handle, row) :: around := by
  rw [environments, wrapped, Sql.Relation.rows]
  rfl

/-- Wrapping keeps the number of rows, whatever the columns are called. -/
lemma Wraps.length_rows {condition : Bool} (hw : Wraps counts draft condition base last) :
    (base.finish.rows D db around).length = (draft.finish.rows D db around).length := by
  cases hw with
  | kept => rfl
  | wrapped =>
    rw [(regular_wrapped draft _).rows_open rfl, sorted_of_open rfl rfl, environments_around,
      List.length_map]
    exact List.length_map _

end Draft
end Compile
end ObjectGraph
