/-
# Scopes of selects

What a select reads is known to it and to the subselects in its clauses under an alias.  A select
in the place of a table does not see the aliases of the select that reads from it, only those
around it.  A select is well scoped if every column is one of an alias in scope that has such a
column, and no alias hides another one.  Aliases and the names of stored tables are kept apart:
only stored tables are read from, and only through aliases.

A well scoped expression may be moved below further aliases that it does not bind itself.
-/
import ObjectGraph.Sql.Syntax
import Mathlib.Tactic.Lemma

namespace ObjectGraph.Sql

/-- The names of the outputs of a select list. -/
def SelectList.names : SelectList → List String
  | outputs list => list.map Output.name
  | one => []

/-- What an alias stands for: a stored table, or the rows of selects with outputs of the given
names. -/
inductive Binding
  | stored (handle : TableAlias)
  | derived (handle : TableAlias) (outputs : List (List String))

/-- The alias of a binding. -/
def Binding.handle : Binding → TableAlias
  | stored handle | derived handle _ => handle

/-- The bindings around an expression, the innermost one first. -/
abbrev Bindings := List Binding

/-- What a relation binds its alias to. -/
def Relation.binding : Relation → Binding
  | table _ handle => .stored handle
  | derived select handle => .derived handle [select.list.names]
  | union selects handle => .derived handle (selects.map fun select => select.list.names)

/-- What the clauses of a select see: the alias of what it reads, if it reads anything, in front of
the scope around the select. -/
def Bindings.reading (scope : Bindings) : Option Relation → Bindings
  | none => scope
  | some relation => relation.binding :: scope

/-- Whether no binding of a scope has the alias. -/
def Bindings.Free (scope : Bindings) (handle : TableAlias) : Prop :=
  ∀ binding ∈ scope, binding.handle ≠ handle

/-! ### Well scoped expressions and selects -/

mutual

/-- Every alias in an expression is in scope where it is used, has the output that is read
through it, and is bound where no other binding of it is in scope. -/
def Expression.Scoped (scope : Bindings) : Expression → Prop
  | .and left right | .or left right | .comparison left _ right =>
    left.Scoped scope ∧ right.Scoped scope
  | .not e | .isNull e | .cast e _ => e.Scoped scope
  | .isIn left items => left.Scoped scope ∧ scopedList scope items
  | .call _ arguments => scopedList scope arguments
  | .exists select | .subselect select => select.Scoped scope
  | .rowToJson table => ∃ binding ∈ scope, table = .aliased binding.handle
  | .column table _ => ∃ handle, table = .aliased handle ∧ .stored handle ∈ scope
  | .output table name =>
    ∃ handle outputs, table = .aliased handle ∧ .derived handle outputs ∈ scope ∧
      ∀ names ∈ outputs, name ∈ names
  | .value _ | .countRows => True

/-- Whether all expressions of a list are well scoped. -/
def scopedList (scope : Bindings) : List Expression → Prop
  | [] => True
  | e :: rest => e.Scoped scope ∧ scopedList scope rest

/-- Whether all outputs are well scoped; their names are of no concern. -/
def scopedOutputs (scope : Bindings) : List Output → Prop
  | [] => True
  | ⟨_, e⟩ :: rest => e.Scoped scope ∧ scopedOutputs scope rest

/-- Whether a select list is well scoped. -/
def SelectList.Scoped (scope : Bindings) : SelectList → Prop
  | .outputs list => scopedOutputs scope list
  | .one => True

/-- Whether the targets of all sort keys are well scoped. -/
def scopedKeys (scope : Bindings) : List SortKey → Prop
  | [] => True
  | ⟨target, _⟩ :: rest => target.Scoped scope ∧ scopedKeys scope rest

/-- The selects in a relation see nothing but the scope around the relation. -/
def Relation.Scoped (scope : Bindings) : Relation → Prop
  | .table reference _ => ∃ name, reference = .stored name
  | .derived select _ => select.Scoped scope
  | .union selects _ => scopedSelects scope selects

/-- Whether all selects of a union are well scoped. -/
def scopedSelects (scope : Bindings) : List Select → Prop
  | [] => True
  | select :: rest => select.Scoped scope ∧ scopedSelects scope rest

/-- Whether what a select reads is well scoped, under an alias that is free. -/
def scopedFrom (scope : Bindings) : Option Relation → Prop
  | none => True
  | some relation => relation.Scoped scope ∧ scope.Free relation.handle

/-- All clauses of a select see what it reads. -/
def Select.Scoped (scope : Bindings) : Select → Prop
  | ⟨list, relation, condition, groupBy, orderBy, _, _⟩ =>
    scopedFrom scope relation ∧ list.Scoped (scope.reading relation) ∧
      condition.Scoped (scope.reading relation) ∧ scopedList (scope.reading relation) groupBy ∧
      scopedKeys (scope.reading relation) orderBy

end

/-! ### Aliases that are bound -/

mutual

/-- The aliases that the selects in an expression bind. -/
def Expression.bound : Expression → List TableAlias
  | .and left right | .or left right | .comparison left _ right => left.bound ++ right.bound
  | .not e | .isNull e | .cast e _ => e.bound
  | .isIn left items => left.bound ++ boundList items
  | .call _ arguments => boundList arguments
  | .exists select | .subselect select => select.bound
  | .rowToJson _ | .column _ _ | .output _ _ | .value _ | .countRows => []

/-- The aliases that the expressions of a list bind. -/
def boundList : List Expression → List TableAlias
  | [] => []
  | e :: rest => e.bound ++ boundList rest

/-- The aliases that outputs bind. -/
def boundOutputs : List Output → List TableAlias
  | [] => []
  | ⟨_, e⟩ :: rest => e.bound ++ boundOutputs rest

/-- The aliases that a select list binds. -/
def SelectList.bound : SelectList → List TableAlias
  | .outputs list => boundOutputs list
  | .one => []

/-- The aliases that sort keys bind. -/
def boundKeys : List SortKey → List TableAlias
  | [] => []
  | ⟨target, _⟩ :: rest => target.bound ++ boundKeys rest

/-- The alias of a relation, and those bound inside of it. -/
def Relation.bound : Relation → List TableAlias
  | .table _ handle => [handle]
  | .derived select handle => handle :: select.bound
  | .union selects handle => handle :: boundSelects selects

/-- The aliases that the selects of a union bind. -/
def boundSelects : List Select → List TableAlias
  | [] => []
  | select :: rest => select.bound ++ boundSelects rest

/-- The aliases bound by what a select reads, if it reads anything. -/
def boundFrom : Option Relation → List TableAlias
  | none => []
  | some relation => relation.bound

/-- The aliases that a select binds, those of the selects in it included. -/
def Select.bound : Select → List TableAlias
  | ⟨list, relation, condition, groupBy, orderBy, _, _⟩ =>
    boundFrom relation ++ list.bound ++ condition.bound ++ boundList groupBy ++ boundKeys orderBy

end

section Lists

variable {scope : Bindings}

lemma scopedList_iff {list : List Expression} :
    scopedList scope list ↔ ∀ e ∈ list, e.Scoped scope := by
  induction list with
  | nil => simp [scopedList]
  | cons e rest ih => simp [scopedList, ih]

lemma scopedOutputs_iff {list : List Output} :
    scopedOutputs scope list ↔ ∀ output ∈ list, output.expression.Scoped scope := by
  induction list with
  | nil => simp [scopedOutputs]
  | cons output rest ih =>
    obtain ⟨name, e⟩ := output
    simp [scopedOutputs, ih]

lemma scopedKeys_iff {keys : List SortKey} :
    scopedKeys scope keys ↔ ∀ key ∈ keys, key.target.Scoped scope := by
  induction keys with
  | nil => simp [scopedKeys]
  | cons key rest ih =>
    obtain ⟨target, direction⟩ := key
    simp [scopedKeys, ih]

lemma scopedSelects_iff {selects : List Select} :
    scopedSelects scope selects ↔ ∀ select ∈ selects, select.Scoped scope := by
  induction selects with
  | nil => simp [scopedSelects]
  | cons select rest ih => simp [scopedSelects, ih]

lemma mem_boundList {handle : TableAlias} {list : List Expression} :
    handle ∈ boundList list ↔ ∃ e ∈ list, handle ∈ e.bound := by
  induction list with
  | nil => simp [boundList]
  | cons e rest ih => simp [boundList, ih]

lemma mem_boundOutputs {handle : TableAlias} {list : List Output} :
    handle ∈ boundOutputs list ↔ ∃ output ∈ list, handle ∈ output.expression.bound := by
  induction list with
  | nil => simp [boundOutputs]
  | cons output rest ih =>
    obtain ⟨name, e⟩ := output
    simp [boundOutputs, ih]

lemma mem_boundKeys {handle : TableAlias} {keys : List SortKey} :
    handle ∈ boundKeys keys ↔ ∃ key ∈ keys, handle ∈ key.target.bound := by
  induction keys with
  | nil => simp [boundKeys]
  | cons key rest ih =>
    obtain ⟨target, direction⟩ := key
    simp [boundKeys, ih]

lemma mem_boundSelects {handle : TableAlias} {selects : List Select} :
    handle ∈ boundSelects selects ↔ ∃ select ∈ selects, handle ∈ select.bound := by
  induction selects with
  | nil => simp [boundSelects]
  | cons select rest ih => simp [boundSelects, ih]

lemma Relation.handle_binding (relation : Relation) :
    relation.binding.handle = relation.handle := by
  cases relation <;> rfl

lemma Relation.handle_mem_bound (relation : Relation) : relation.handle ∈ relation.bound := by
  cases relation <;> simp [Relation.handle, Relation.bound]

end Lists

/-! ### Moving expressions below further aliases -/

/-- A scope with further bindings, none of which has one of the given aliases. -/
structure Bindings.Widens (bound : List TableAlias) (scope wider : Bindings) : Prop where
  subset : scope ⊆ wider
  apart : ∀ binding ∈ wider, binding ∈ scope ∨ binding.handle ∉ bound

namespace Bindings.Widens

variable {bound fewer : List TableAlias} {scope wider : Bindings}

lemma mono (h : Widens bound scope wider) (hb : fewer ⊆ bound) : Widens fewer scope wider :=
  ⟨h.subset, fun binding hm => (h.apart binding hm).imp id fun hn hf => hn (hb hf)⟩

lemma cons (h : Widens bound scope wider) (binding : Binding) :
    Widens bound (binding :: scope) (binding :: wider) := by
  refine ⟨List.cons_subset_cons binding h.subset, fun b hb => ?_⟩
  rcases List.mem_cons.1 hb with rfl | hb
  · exact .inl List.mem_cons_self
  · exact (h.apart b hb).imp (List.mem_cons_of_mem _) id

/-- Both scopes see the same of what a select reads. -/
lemma reading (h : Widens bound scope wider) (relation : Option Relation) :
    Widens bound (scope.reading relation) (wider.reading relation) := by
  cases relation with
  | none => exact h
  | some relation => exact h.cons relation.binding

lemma free {handle : TableAlias} (h : Widens bound scope wider) (hf : scope.Free handle)
    (hb : handle ∈ bound) : wider.Free handle := by
  intro binding hm he
  rcases h.apart binding hm with hs | hn
  · exact hf binding hs he
  · exact hn (he ▸ hb)

end Bindings.Widens

section Widening

open Bindings (Widens)

mutual

lemma Expression.Scoped.widen : ∀ {e : Expression} {scope wider : Bindings},
    e.Scoped scope → Widens e.bound scope wider → e.Scoped wider
  | .and left right, _, _, h, hw | .or left right, _, _, h, hw
  | .comparison left _ right, _, _, h, hw => by
    simp only [Expression.Scoped, Expression.bound] at h hw ⊢
    exact ⟨h.1.widen (hw.mono (List.subset_append_left _ _)),
      h.2.widen (hw.mono (List.subset_append_right _ _))⟩
  | .not e, _, _, h, hw | .isNull e, _, _, h, hw | .cast e _, _, _, h, hw => by
    simp only [Expression.Scoped, Expression.bound] at h hw ⊢
    exact h.widen hw
  | .isIn left items, _, _, h, hw => by
    simp only [Expression.Scoped, Expression.bound] at h hw ⊢
    exact ⟨h.1.widen (hw.mono (List.subset_append_left _ _)),
      scopedList_widen items h.2 (hw.mono (List.subset_append_right _ _))⟩
  | .call _ arguments, _, _, h, hw => by
    simp only [Expression.Scoped, Expression.bound] at h hw ⊢
    exact scopedList_widen arguments h hw
  | .exists select, _, _, h, hw | .subselect select, _, _, h, hw => by
    simp only [Expression.Scoped, Expression.bound] at h hw ⊢
    exact h.widen hw
  | .rowToJson table, _, _, h, hw => by
    simp only [Expression.Scoped] at h ⊢
    obtain ⟨binding, hb, ht⟩ := h
    exact ⟨binding, hw.subset hb, ht⟩
  | .column table _, _, _, h, hw => by
    simp only [Expression.Scoped] at h ⊢
    obtain ⟨handle, ht, hb⟩ := h
    exact ⟨handle, ht, hw.subset hb⟩
  | .output table name, _, _, h, hw => by
    simp only [Expression.Scoped] at h ⊢
    obtain ⟨handle, outputs, ht, ho, hn⟩ := h
    exact ⟨handle, outputs, ht, hw.subset ho, hn⟩
  | .value _, _, _, _, _ | .countRows, _, _, _, _ => by
    simp only [Expression.Scoped]

lemma scopedList_widen : ∀ (list : List Expression) {scope wider : Bindings},
    scopedList scope list → Widens (boundList list) scope wider → scopedList wider list
  | [], _, _, _, _ => trivial
  | e :: rest, _, _, h, hw => by
    simp only [scopedList, boundList] at h hw ⊢
    exact ⟨h.1.widen (hw.mono (List.subset_append_left _ _)),
      scopedList_widen rest h.2 (hw.mono (List.subset_append_right _ _))⟩

lemma scopedOutputs_widen : ∀ (list : List Output) {scope wider : Bindings},
    scopedOutputs scope list → Widens (boundOutputs list) scope wider → scopedOutputs wider list
  | [], _, _, _, _ => trivial
  | ⟨_, e⟩ :: rest, _, _, h, hw => by
    simp only [scopedOutputs, boundOutputs] at h hw ⊢
    exact ⟨h.1.widen (hw.mono (List.subset_append_left _ _)),
      scopedOutputs_widen rest h.2 (hw.mono (List.subset_append_right _ _))⟩

lemma SelectList.Scoped.widen : ∀ {list : SelectList} {scope wider : Bindings},
    list.Scoped scope → Widens list.bound scope wider → list.Scoped wider
  | .outputs list, _, _, h, hw => by
    simp only [SelectList.Scoped, SelectList.bound] at h hw ⊢
    exact scopedOutputs_widen list h hw
  | .one, _, _, _, _ => trivial

lemma scopedKeys_widen : ∀ (keys : List SortKey) {scope wider : Bindings},
    scopedKeys scope keys → Widens (boundKeys keys) scope wider → scopedKeys wider keys
  | [], _, _, _, _ => trivial
  | ⟨target, _⟩ :: rest, _, _, h, hw => by
    simp only [scopedKeys, boundKeys] at h hw ⊢
    exact ⟨h.1.widen (hw.mono (List.subset_append_left _ _)),
      scopedKeys_widen rest h.2 (hw.mono (List.subset_append_right _ _))⟩

lemma Relation.Scoped.widen : ∀ {relation : Relation} {scope wider : Bindings},
    relation.Scoped scope → Widens relation.bound scope wider → relation.Scoped wider
  | .table _ _, _, _, h, _ => by
    simp only [Relation.Scoped] at h ⊢
    exact h
  | .derived select handle, _, _, h, hw => by
    simp only [Relation.Scoped, Relation.bound] at h hw ⊢
    exact h.widen (hw.mono (List.subset_cons_self _ _))
  | .union selects handle, _, _, h, hw => by
    simp only [Relation.Scoped, Relation.bound] at h hw ⊢
    exact scopedSelects_widen selects h (hw.mono (List.subset_cons_self _ _))

lemma scopedSelects_widen : ∀ (selects : List Select) {scope wider : Bindings},
    scopedSelects scope selects → Widens (boundSelects selects) scope wider →
      scopedSelects wider selects
  | [], _, _, _, _ => trivial
  | select :: rest, _, _, h, hw => by
    simp only [scopedSelects, boundSelects] at h hw ⊢
    exact ⟨h.1.widen (hw.mono (List.subset_append_left _ _)),
      scopedSelects_widen rest h.2 (hw.mono (List.subset_append_right _ _))⟩

lemma scopedFrom_widen : ∀ (relation : Option Relation) {scope wider : Bindings},
    scopedFrom scope relation → Widens (boundFrom relation) scope wider →
      scopedFrom wider relation
  | none, _, _, _, _ => trivial
  | some relation, _, _, h, hw => by
    simp only [scopedFrom, boundFrom] at h hw ⊢
    exact ⟨h.1.widen hw, hw.free h.2 relation.handle_mem_bound⟩

/-- Both sides bind the alias of the select alike, so the clauses see the same further bindings
as the select itself. -/
lemma Select.Scoped.widen : ∀ {select : Select} {scope wider : Bindings},
    select.Scoped scope → Widens select.bound scope wider → select.Scoped wider
  | ⟨list, relation, condition, groupBy, orderBy, _, _⟩, _, _, h, hw => by
    simp only [Select.Scoped, Select.bound] at h hw ⊢
    obtain ⟨hfrom, hlist, hcondition, hgroup, horder⟩ := h
    have hinner := hw.reading relation
    refine ⟨scopedFrom_widen relation hfrom (hw.mono ?_), hlist.widen (hinner.mono ?_),
      hcondition.widen (hinner.mono ?_), scopedList_widen groupBy hgroup (hinner.mono ?_),
      scopedKeys_widen orderBy horder (hinner.mono ?_)⟩
    all_goals
      intro handle hh
      simp [hh]

end

end Widening

end ObjectGraph.Sql
