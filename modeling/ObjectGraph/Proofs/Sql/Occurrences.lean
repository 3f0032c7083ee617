/-
# Aliases that occur in a select

An alias occurs where it is bound and wherever something is read through it.  A well scoped
select reads only through aliases that it binds itself or that are in scope around it, so nothing
else occurs in it.
-/
import ObjectGraph.Proofs.Sql.Scope

namespace ObjectGraph.Sql

/-- The alias in a reference, if it is one. -/
def TableReference.aliases : TableReference → List TableAlias
  | stored _ => []
  | aliased handle => [handle]

mutual

/-- The aliases that occur in an expression. -/
def Expression.aliases : Expression → List TableAlias
  | .and left right | .or left right | .comparison left _ right => left.aliases ++ right.aliases
  | .not e | .isNull e | .cast e _ => e.aliases
  | .isIn left items => left.aliases ++ aliasesList items
  | .call _ arguments => aliasesList arguments
  | .exists select | .subselect select => select.aliases
  | .rowToJson table | .column table _ | .output table _ => table.aliases
  | .value _ | .countRows => []

/-- The aliases that occur in a list of expressions. -/
def aliasesList : List Expression → List TableAlias
  | [] => []
  | e :: rest => e.aliases ++ aliasesList rest

/-- The aliases that occur in outputs. -/
def aliasesOutputs : List Output → List TableAlias
  | [] => []
  | ⟨_, e⟩ :: rest => e.aliases ++ aliasesOutputs rest

/-- The aliases that occur in a select list. -/
def SelectList.aliases : SelectList → List TableAlias
  | .outputs list => aliasesOutputs list
  | .one => []

/-- The aliases that occur in sort keys. -/
def aliasesKeys : List SortKey → List TableAlias
  | [] => []
  | ⟨target, _⟩ :: rest => target.aliases ++ aliasesKeys rest

/-- The alias of a relation, and those that occur in what it stands for. -/
def Relation.aliases : Relation → List TableAlias
  | .table reference handle => handle :: reference.aliases
  | .derived select handle => handle :: select.aliases
  | .union selects handle => handle :: aliasesSelects selects

/-- The aliases that occur in the selects of a union. -/
def aliasesSelects : List Select → List TableAlias
  | [] => []
  | select :: rest => select.aliases ++ aliasesSelects rest

/-- The aliases that occur in what a select reads, if it reads anything. -/
def aliasesFrom : Option Relation → List TableAlias
  | none => []
  | some relation => relation.aliases

/-- The aliases that occur in a select. -/
def Select.aliases : Select → List TableAlias
  | ⟨list, relation, condition, groupBy, orderBy, _, _⟩ =>
    aliasesFrom relation ++ list.aliases ++ condition.aliases ++ aliasesList groupBy
      ++ aliasesKeys orderBy

end

/-! ### What may occur in well scoped expressions -/

/-- Whether an alias is bound by one of the given or by the scope around. -/
def Known (bound : List TableAlias) (scope : Bindings) (handle : TableAlias) : Prop :=
  handle ∈ bound ∨ ∃ binding ∈ scope, binding.handle = handle

section Known

variable {bound more : List TableAlias} {scope : Bindings} {handle : TableAlias}

lemma Known.mono (h : Known bound scope handle) (hm : bound ⊆ more) : Known more scope handle :=
  h.imp_left fun hb => hm hb

/-- What is known to the clauses of a select is known around it, if the aliases that it reads from
are among those bound. -/
lemma Known.outside {relation : Option Relation} (h : Known bound (scope.reading relation) handle)
    (hb : boundFrom relation ⊆ bound) : Known bound scope handle := by
  cases relation with
  | none => exact h
  | some relation =>
    rcases h with h | ⟨binding, hm, rfl⟩
    · exact .inl h
    · rcases List.mem_cons.1 hm with rfl | hm
      · exact .inl (hb (relation.handle_binding ▸ relation.handle_mem_bound))
      · exact .inr ⟨binding, hm, rfl⟩

mutual

lemma Expression.Scoped.known : ∀ {e : Expression} {scope : Bindings} {handle : TableAlias},
    e.Scoped scope → handle ∈ e.aliases → Known e.bound scope handle
  | .and left right, _, _, h, ha | .or left right, _, _, h, ha
  | .comparison left _ right, _, _, h, ha => by
    simp only [Expression.Scoped, Expression.aliases, Expression.bound, List.mem_append] at h ha ⊢
    rcases ha with ha | ha
    · exact (h.1.known ha).mono (List.subset_append_left _ _)
    · exact (h.2.known ha).mono (List.subset_append_right _ _)
  | .not e, _, _, h, ha | .isNull e, _, _, h, ha | .cast e _, _, _, h, ha => by
    simp only [Expression.Scoped, Expression.aliases, Expression.bound] at h ha ⊢
    exact h.known ha
  | .isIn left items, _, _, h, ha => by
    simp only [Expression.Scoped, Expression.aliases, Expression.bound, List.mem_append] at h ha ⊢
    rcases ha with ha | ha
    · exact (h.1.known ha).mono (List.subset_append_left _ _)
    · exact (scopedList_known items h.2 ha).mono (List.subset_append_right _ _)
  | .call _ arguments, _, _, h, ha => by
    simp only [Expression.Scoped, Expression.aliases, Expression.bound] at h ha ⊢
    exact scopedList_known arguments h ha
  | .exists select, _, _, h, ha | .subselect select, _, _, h, ha => by
    simp only [Expression.Scoped, Expression.aliases, Expression.bound] at h ha ⊢
    exact h.known ha
  | .rowToJson table, _, _, h, ha => by
    simp only [Expression.Scoped, Expression.aliases] at h ha
    obtain ⟨binding, hb, rfl⟩ := h
    exact .inr ⟨binding, hb, (List.mem_singleton.1 ha).symm⟩
  | .column table _, _, _, h, ha => by
    simp only [Expression.Scoped, Expression.aliases] at h ha
    obtain ⟨_, rfl, hb⟩ := h
    exact .inr ⟨_, hb, (List.mem_singleton.1 ha).symm⟩
  | .output table _, _, _, h, ha => by
    simp only [Expression.Scoped, Expression.aliases] at h ha
    obtain ⟨_, _, rfl, hb, -⟩ := h
    exact .inr ⟨_, hb, (List.mem_singleton.1 ha).symm⟩
  | .value _, _, _, _, ha | .countRows, _, _, _, ha => by
    simp only [Expression.aliases, List.not_mem_nil] at ha

lemma scopedList_known : ∀ (list : List Expression) {scope : Bindings} {handle : TableAlias},
    scopedList scope list → handle ∈ aliasesList list → Known (boundList list) scope handle
  | [], _, _, _, ha => nomatch ha
  | e :: rest, _, _, h, ha => by
    simp only [scopedList, aliasesList, boundList, List.mem_append] at h ha ⊢
    rcases ha with ha | ha
    · exact (h.1.known ha).mono (List.subset_append_left _ _)
    · exact (scopedList_known rest h.2 ha).mono (List.subset_append_right _ _)

lemma scopedOutputs_known : ∀ (list : List Output) {scope : Bindings} {handle : TableAlias},
    scopedOutputs scope list → handle ∈ aliasesOutputs list →
      Known (boundOutputs list) scope handle
  | [], _, _, _, ha => nomatch ha
  | ⟨_, e⟩ :: rest, _, _, h, ha => by
    simp only [scopedOutputs, aliasesOutputs, boundOutputs, List.mem_append] at h ha ⊢
    rcases ha with ha | ha
    · exact (h.1.known ha).mono (List.subset_append_left _ _)
    · exact (scopedOutputs_known rest h.2 ha).mono (List.subset_append_right _ _)

lemma SelectList.Scoped.known : ∀ {list : SelectList} {scope : Bindings} {handle : TableAlias},
    list.Scoped scope → handle ∈ list.aliases → Known list.bound scope handle
  | .outputs list, _, _, h, ha => by
    simp only [SelectList.Scoped, SelectList.aliases, SelectList.bound] at h ha ⊢
    exact scopedOutputs_known list h ha
  | .one, _, _, _, ha => nomatch ha

lemma scopedKeys_known : ∀ (keys : List SortKey) {scope : Bindings} {handle : TableAlias},
    scopedKeys scope keys → handle ∈ aliasesKeys keys → Known (boundKeys keys) scope handle
  | [], _, _, _, ha => nomatch ha
  | ⟨target, _⟩ :: rest, _, _, h, ha => by
    simp only [scopedKeys, aliasesKeys, boundKeys, List.mem_append] at h ha ⊢
    rcases ha with ha | ha
    · exact (h.1.known ha).mono (List.subset_append_left _ _)
    · exact (scopedKeys_known rest h.2 ha).mono (List.subset_append_right _ _)

lemma Relation.Scoped.known : ∀ {relation : Relation} {scope : Bindings} {handle : TableAlias},
    relation.Scoped scope → handle ∈ relation.aliases → Known relation.bound scope handle
  | .table _ _, _, _, h, ha => by
    simp only [Relation.Scoped, Relation.aliases, Relation.bound] at h ha ⊢
    obtain ⟨name, rfl⟩ := h
    exact .inl ha
  | .derived select other, _, _, h, ha => by
    simp only [Relation.Scoped, Relation.aliases, Relation.bound, List.mem_cons] at h ha ⊢
    rcases ha with rfl | ha
    · exact .inl List.mem_cons_self
    · exact (h.known ha).mono (List.subset_cons_self _ _)
  | .union selects other, _, _, h, ha => by
    simp only [Relation.Scoped, Relation.aliases, Relation.bound, List.mem_cons] at h ha ⊢
    rcases ha with rfl | ha
    · exact .inl List.mem_cons_self
    · exact (scopedSelects_known selects h ha).mono (List.subset_cons_self _ _)

lemma scopedSelects_known : ∀ (selects : List Select) {scope : Bindings} {handle : TableAlias},
    scopedSelects scope selects → handle ∈ aliasesSelects selects →
      Known (boundSelects selects) scope handle
  | [], _, _, _, ha => nomatch ha
  | select :: rest, _, _, h, ha => by
    simp only [scopedSelects, aliasesSelects, boundSelects, List.mem_append] at h ha ⊢
    rcases ha with ha | ha
    · exact (h.1.known ha).mono (List.subset_append_left _ _)
    · exact (scopedSelects_known rest h.2 ha).mono (List.subset_append_right _ _)

lemma scopedFrom_known : ∀ (relation : Option Relation) {scope : Bindings} {handle : TableAlias},
    scopedFrom scope relation → handle ∈ aliasesFrom relation →
      Known (boundFrom relation) scope handle
  | none, _, _, _, ha => nomatch ha
  | some relation, _, _, h, ha => by
    simp only [scopedFrom, aliasesFrom, boundFrom] at h ha ⊢
    exact h.1.known ha

/-- The clauses of a select see no more aliases than the select itself, but for one that it
binds. -/
lemma Select.Scoped.known : ∀ {select : Select} {scope : Bindings} {handle : TableAlias},
    select.Scoped scope → handle ∈ select.aliases → Known select.bound scope handle
  | ⟨list, relation, condition, groupBy, orderBy, _, _⟩, scope, handle, h, ha => by
    simp only [Select.Scoped, Select.aliases, Select.bound, List.mem_append] at h ha ⊢
    obtain ⟨hfrom, hlist, hcondition, hgroup, horder⟩ := h
    -- the list, the condition and the keys see what the relation binds
    have hclause {bound more : List TableAlias} (hr : boundFrom relation ⊆ more)
        (hk : Known bound (scope.reading relation) handle) (hb : bound ⊆ more) :
        Known more scope handle :=
      (hk.mono hb).outside hr
    rcases ha with (((ha | ha) | ha) | ha) | ha
    · exact (scopedFrom_known relation hfrom ha).mono fun _ hh => by simp [hh]
    · refine hclause ?_ (hlist.known ha) ?_ <;> exact fun _ hh => by simp [hh]
    · refine hclause ?_ (hcondition.known ha) ?_ <;> exact fun _ hh => by simp [hh]
    · refine hclause ?_ (scopedList_known groupBy hgroup ha) ?_ <;> exact fun _ hh => by simp [hh]
    · refine hclause ?_ (scopedKeys_known orderBy horder ha) ?_ <;> exact fun _ hh => by simp [hh]

end

end Known

/-- Every alias that occurs in a well scoped select is bound in it. -/
lemma Select.Scoped.aliases_subset {select : Select} (h : select.Scoped []) :
    select.aliases ⊆ select.bound := by
  intro handle ha
  rcases h.known ha with hb | ⟨binding, hm, -⟩
  · exact hb
  · cases hm

end ObjectGraph.Sql
