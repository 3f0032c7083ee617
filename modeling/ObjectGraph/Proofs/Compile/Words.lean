/-
# The words of compiled selects

Operators and the types of casts are texts that a select is written with as they are.  Those that
a query is compiled to are the spellings of comparisons and the names of types, whatever the query
is, so nothing in them can be taken for the start of a name or of a parameter.
-/
import ObjectGraph.Proofs.Compile.Identifiers
import ObjectGraph.Proofs.Compile.Scope
import ObjectGraph.Proofs.Sql.Legible
import ObjectGraph.Proofs.Sql.Nested

namespace ObjectGraph

namespace Sql

/-- Whether a text is the spelling of a comparison or the name of a type. -/
def IsWord (text : String) : Prop :=
  (∃ operator, text = operatorText operator) ∨ ∃ type : ScalarType, text = type.sqlName

lemma IsWord.unmarked {text : String} (h : IsWord text) : Unmarked text := by
  rcases h with ⟨operator, rfl⟩ | ⟨type, rfl⟩
  · cases operator <;> decide
  · cases type <;> decide

/-- Whether the texts that are written as they are in an expression are words. -/
def Expression.Worded (e : Expression) : Prop := ∀ text ∈ e.words, IsWord text

/-- Whether the texts that are written as they are in a select are words. -/
def Select.Worded (select : Select) : Prop := ∀ text ∈ select.words, IsWord text

lemma wordsList_eq (list : List Expression) : wordsList list = list.flatMap Expression.words := by
  induction list with
  | nil => rfl
  | cons e rest ih => rw [wordsList, ih, List.flatMap_cons]

lemma wordsOutputs_eq (list : List Output) :
    wordsOutputs list = list.flatMap (·.expression.words) := by
  induction list with
  | nil => rfl
  | cons output rest ih =>
    obtain ⟨name, e⟩ := output
    rw [wordsOutputs, ih, List.flatMap_cons]

lemma wordsKeys_eq (keys : List SortKey) : wordsKeys keys = keys.flatMap (·.target.words) := by
  induction keys with
  | nil => rfl
  | cons key rest ih =>
    obtain ⟨target, direction⟩ := key
    rw [wordsKeys, ih, List.flatMap_cons]

lemma wordsSelects_eq (selects : List Select) :
    wordsSelects selects = selects.flatMap Select.words := by
  induction selects with
  | nil => rfl
  | cons select rest ih => rw [wordsSelects, ih, List.flatMap_cons]

namespace Expression

variable {left right e : Expression}

/-- What is written without operators and types. -/
lemma worded_of_wordless (h : e.words = []) : e.Worded := by
  rw [Worded, h]
  exact List.forall_mem_nil _

lemma Worded.and (hl : left.Worded) (hr : right.Worded) : (Expression.and left right).Worded :=
  List.forall_mem_append.2 ⟨hl, hr⟩

lemma Worded.both (hl : left.Worded) (hr : right.Worded) : (left.both right).Worded := by
  unfold Expression.both
  split
  · exact hr
  · split
    · exact hl
    · exact hl.and hr

end Expression

/-- A select is written in words if all its clauses are. -/
lemma Select.Worded.of_clauses {select : Select} (hl : ∀ e ∈ select.list.expressions, e.Worded)
    (hr : ∀ text ∈ wordsFrom select.relation, IsWord text) (hc : select.condition.Worded)
    (hg : ∀ e ∈ select.groupBy, e.Worded) (ho : ∀ key ∈ select.orderBy, key.target.Worded) :
    select.Worded := by
  obtain ⟨list, relation, condition, groupBy, orderBy, limit, offset⟩ := select
  have hlist : ∀ text ∈ list.words, IsWord text := by
    cases list with
    | one => exact List.forall_mem_nil _
    | outputs outputs =>
      rw [SelectList.words, wordsOutputs_eq, List.forall_mem_flatMap]
      exact List.forall_mem_map.1 hl
  simp only [Worded, Select.words, List.forall_mem_append, wordsList_eq, wordsKeys_eq,
    List.forall_mem_flatMap]
  exact ⟨⟨⟨⟨hlist, hr⟩, hc⟩, hg⟩, ho⟩

end Sql

namespace Compile

open Sql (Expression Select TableAlias IsWord)

variable {counts last : AliasCounts} {catalog : Catalog}

lemma compositional_worded : Compositional Expression.Worded where
  value _ := Expression.worded_of_wordless rfl
  cast h := List.forall_mem_cons.2 ⟨.inr ⟨_, rfl⟩, h⟩
  isNull h := h
  not h := h
  or hl hr := List.forall_mem_append.2 ⟨hl, hr⟩
  both := Expression.Worded.both
  comparison hl hr :=
    List.forall_mem_cons.2 ⟨.inl ⟨_, rfl⟩, List.forall_mem_append.2 ⟨hl, hr⟩⟩
  isIn hl hi := List.forall_mem_append.2 ⟨hl, by
    rw [Sql.wordsList_eq, List.forall_mem_flatMap]
    exact hi⟩

/-! ### Drafts that are written in words -/

namespace Draft

variable {draft base : Draft}

/-- All clauses of a draft are written in words. -/
structure Worded (draft : Draft) : Prop where
  relation : ∀ text ∈ draft.relation.words, IsWord text
  columns : ∀ column ∈ draft.columns, column.expression.Worded
  condition : draft.condition.Worded
  groupBy : ∀ e ∈ draft.groupBy, e.Worded
  orderBy : ∀ key ∈ draft.orderBy, key.target.Worded

lemma Worded.finish (h : draft.Worded) : draft.finish.Worded :=
  .of_clauses (List.forall_mem_map.2 (List.forall_mem_map.2 h.columns)) h.relation h.condition
    h.groupBy h.orderBy

lemma Worded.wrapped (h : draft.Worded) (handle : TableAlias) : (draft.wrapped handle).Worded where
  relation := h.finish
  columns := List.forall_mem_map.2 fun _ _ => Expression.worded_of_wordless rfl
  condition := Expression.worded_of_wordless rfl
  groupBy := List.forall_mem_nil _
  orderBy := List.forall_mem_nil _

lemma Wraps.worded {condition : Bool} (hw : Wraps counts draft condition base last)
    (h : draft.Worded) : base.Worded := by
  cases hw with
  | kept => exact h
  | wrapped => exact h.wrapped _

lemma Worded.resolvesTo (h : draft.Worded) : draft.ResolvesTo catalog Expression.Worded := by
  intro reference target hr
  rcases resolve_ok hr with ⟨column, hc, rfl⟩ | ⟨-, -, field, rfl⟩
  · exact h.columns column (column?_mem hc)
  · exact Expression.worded_of_wordless rfl

end Draft

/-! ### Where rows come from -/

section Sources

variable {name : String} {handle : TableAlias} {reached : Draft}

lemma start_worded {ids : Option (List Int64)} {tied : Option Tie} {result : Draft}
    (ht : ∀ tie ∈ tied, ∀ e ∈ tie.expressions, e.Worded)
    (h : (start catalog name ids tied).run counts = .ok (result, last)) : result.Worded := by
  have hexistence : OfExistence Expression.Worded := fun hcondition =>
    Select.Worded.of_clauses (List.forall_mem_nil _) (List.forall_mem_nil _) hcondition
      (List.forall_mem_nil _) (List.forall_mem_nil _)
  obtain ⟨type, handle, condition, rfl, hcondition⟩ :=
    compositional_worded.start (Expression.worded_of_wordless rfl) hexistence ht h
  exact {
    relation := List.forall_mem_nil _
    columns := List.forall_mem_map.2 fun _ _ => Expression.worded_of_wordless rfl
    condition := hcondition
    groupBy := List.forall_mem_nil _
    orderBy := List.forall_mem_nil _ }

lemma valueColumn_worded {value : Expression} (hr : reached.Worded) (hv : value.Worded) :
    (valueColumn name value reached handle).expression.Worded :=
  Select.Worded.of_clauses (List.forall_mem_singleton.2 hv) hr.finish
    (Expression.worded_of_wordless rfl) (List.forall_mem_nil _) (List.forall_mem_nil _)

lemma edgeColumn_worded {cardinality : Cardinality} {column : Column} (hr : reached.Worded)
    (h : (edgeColumn name cardinality reached).run counts = .ok (column, last)) :
    column.expression.Worded := by
  rcases edgeColumn_ok h with ⟨-, -, rfl⟩ | ⟨-, first, hfirst, rfl⟩
  · exact valueColumn_worded hr (Expression.worded_of_wordless rfl)
  · obtain ⟨base, hw, rfl⟩ := Draft.take_ok hfirst
    exact valueColumn_worded { hw.worded hr with } (Expression.worded_of_wordless rfl)

end Sources

/-! ### Whole queries -/

mutual

lemma operation_worded (step : Operation) {draft result : Draft} {counts last : AliasCounts}
    (h : draft.Worded) (ho : (operation catalog draft step).run counts = .ok (result, last)) :
    result.Worded := by
  cases operation_ok ho with
  | project hc =>
    exact { h with columns := fun column hm => h.columns column (Draft.pick_subset hc hm) }
  | rename hc =>
    refine { h with columns := fun column hm => ?_ }
    obtain ⟨original, hm, he⟩ := Draft.renameFirst_expression hc column hm
    exact he ▸ h.columns original hm
  | filter hw he =>
    have hb := hw.worded h
    have hcondition := compositional_worded.condition hb.resolvesTo he
    exact { hb with condition := hb.condition.both hcondition }
  | take hw | skip hw => exact { hw.worded h with }
  | count hw =>
    exact { hw.worded h with
      columns := List.forall_mem_singleton.2 (Expression.worded_of_wordless rfl)
      orderBy := List.forall_mem_nil _ }
  | nest =>
    exact { h.wrapped _ with
      columns := List.forall_mem_singleton.2 (Expression.worded_of_wordless rfl) }
  | orderBy hw ht =>
    have hb := hw.worded h
    exact { hb with orderBy := List.forall_mem_cons.2 ⟨hb.resolvesTo ht, hb.orderBy⟩ }
  | groupBy ht =>
    have hkey : Expression.Worded _ := (h.wrapped _).resolvesTo ht
    exact { h.wrapped _ with
      columns := List.forall_mem_cons.2 ⟨hkey,
        List.forall_mem_singleton.2 (Expression.worded_of_wordless rfl)⟩
      groupBy := List.forall_mem_singleton.2 hkey
      orderBy := List.forall_mem_singleton.2 hkey }
  | @edge _ _ _ _ _ found _ _ _ _ _ hw hfollow hstart hp hcolumn =>
    have hb := hw.worded h
    obtain ⟨_, _, -, -, -, htie⟩ := follow_ok hfollow
    have hties : ∀ tie ∈ some found.2, ∀ e ∈ tie.expressions, e.Worded := by
      rintro _ ⟨⟩
      exact Draft.ResolvesTo.tie hb.resolvesTo htie
    have hreached := pipeline_worded _ (start_worded hties hstart) hp
    exact { hb with
      columns := List.forall_mem_append.2 ⟨fun other hm =>
        hb.columns other (List.mem_of_mem_filter hm),
        List.forall_mem_singleton.2 (edgeColumn_worded hreached hcolumn)⟩ }
  | union hb =>
    exact {
      relation := by
        rw [Draft.united, Sql.Relation.words, Sql.wordsSelects_eq, List.forall_mem_flatMap]
        exact List.forall_mem_cons.2 ⟨h.finish,
          List.forall_mem_map.2 fun branch hm => (branches_worded _ hb branch hm).finish⟩
      columns := List.forall_mem_map.2 fun _ _ => Expression.worded_of_wordless rfl
      condition := Expression.worded_of_wordless rfl
      groupBy := List.forall_mem_nil _
      orderBy := List.forall_mem_nil _ }

lemma pipeline_worded : ∀ (steps : List Operation) {draft result : Draft}
    {counts last : AliasCounts}, draft.Worded →
    (pipeline catalog draft steps).run counts = .ok (result, last) → result.Worded
  | [], _, _, _, _, h, hp => by
    obtain ⟨rfl, -⟩ := run_pure_eq_ok.1 hp
    exact h
  | step :: rest, _, _, _, _, h, hp => by
    obtain ⟨next, _, ho, hp⟩ := pipeline_cons_ok hp
    exact pipeline_worded rest (operation_worded step h ho) hp

lemma branches_worded : ∀ (queries : List Query) {expected : List String} {drafts : List Draft}
    {counts last : AliasCounts},
    (branches catalog expected queries).run counts = .ok (drafts, last) →
    ∀ branch ∈ drafts, branch.Worded
  | [], _, _, _, _, hb => by
    obtain ⟨rfl, -⟩ := run_pure_eq_ok.1 hb
    exact List.forall_mem_nil _
  | ⟨source, operations⟩ :: rest, _, _, _, _, hb => by
    obtain ⟨first, _, branch, _, others, hstart, hp, -, ho, rfl⟩ := branches_cons_ok hb
    have hfirst : first.Worded := start_worded (by simp) hstart
    exact List.forall_mem_cons.2 ⟨pipeline_worded operations hfirst hp, branches_worded rest ho⟩

end

/-- The operators and types in the select of a plan are spellings of comparisons and names of
types. -/
theorem plan_worded {query : Query} {p : Plan} (h : plan catalog query = .ok p) :
    p.select.Worded := by
  obtain ⟨result, last, hd, hselect⟩ := plan_ok h
  obtain ⟨first, started, hstart, hp⟩ := draft_ok hd
  have hresult : result.Worded :=
    pipeline_worded query.operations (start_worded (by simp) hstart) hp
  rw [hselect]
  exact .of_clauses (List.forall_mem_singleton.2 (Expression.worded_of_wordless rfl)) hresult.finish
    (Expression.worded_of_wordless rfl) (List.forall_mem_nil _) (List.forall_mem_nil _)

end Compile
end ObjectGraph
