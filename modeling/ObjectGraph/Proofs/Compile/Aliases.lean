/-
# Aliases that were handed out

A build counts how often it made an alias out of each name, so an alias it makes next is one that
it has not made before.  An expression fits a build if it is well scoped and all aliases in it
were handed out; it then stays well scoped below aliases that are handed out later.
-/
import ObjectGraph.Proofs.Compile.Build
import ObjectGraph.Proofs.Named
import ObjectGraph.Proofs.Sql.Scope

namespace ObjectGraph.Compile

open Sql (Binding Bindings Expression Select TableAlias)

variable {counts last between : AliasCounts} {scope : Bindings}

/-! ### Aliases that were handed out -/

/-- Whether an alias was handed out already when names were used so often. -/
def Issued (counts : AliasCounts) (handle : TableAlias) : Prop :=
  handle.index < (counts.lookup handle.name).getD 0

/-- Whether all aliases that were handed out at first were handed out at last. -/
def Grows (counts last : AliasCounts) : Prop :=
  ∀ handle, Issued counts handle → Issued last handle

lemma Grows.refl (counts : AliasCounts) : Grows counts counts := fun _ h => h

lemma Grows.trans (h : Grows counts between) (h' : Grows between last) : Grows counts last :=
  fun handle hi => h' handle (h handle hi)

lemma not_issued_nextAlias (counts : AliasCounts) (name : String) :
    ¬ Issued counts (nextAlias counts name) :=
  Nat.lt_irrefl _

lemma issued_countAlias {name : String} {handle : TableAlias} :
    Issued (countAlias counts name) handle ↔
      handle = nextAlias counts name ∨ Issued counts handle := by
  obtain ⟨k, index⟩ := handle
  simp only [Issued, countAlias, Named.lookup_put, nextAlias, TableAlias.mk.injEq]
  by_cases hk : k = name
  · subst hk
    simp only [if_true, Option.getD_some, true_and]
    omega
  · simp [hk]

lemma issued_nextAlias (counts : AliasCounts) (name : String) :
    Issued (countAlias counts name) (nextAlias counts name) :=
  issued_countAlias.2 (.inl rfl)

lemma grows_countAlias (counts : AliasCounts) (name : String) :
    Grows counts (countAlias counts name) :=
  fun _ h => issued_countAlias.2 (.inr h)

/-- Every alias in scope was handed out. -/
def Settled (counts : AliasCounts) (scope : Bindings) : Prop :=
  ∀ binding ∈ scope, Issued counts binding.handle

lemma Settled.grow (h : Settled counts scope) (hg : Grows counts last) : Settled last scope :=
  fun binding hb => hg _ (h binding hb)

lemma Settled.cons {binding : Binding} (h : Settled counts scope)
    (hb : Issued counts binding.handle) : Settled counts (binding :: scope) := by
  intro b hm
  rcases List.mem_cons.1 hm with rfl | hm
  · exact hb
  · exact h b hm

/-- An alias that is handed out next is not in scope yet. -/
lemma Settled.free (h : Settled counts scope) (name : String) :
    scope.Free (nextAlias counts name) := by
  intro binding hb he
  exact not_issued_nextAlias counts name (he ▸ h binding hb)

/-! ### Expressions -/

/-- Whether an expression is well scoped and binds only aliases that were handed out. -/
def Fits (counts : AliasCounts) (scope : Bindings) (e : Expression) : Prop :=
  e.Scoped scope ∧ ∀ handle ∈ e.bound, Issued counts handle

/-- Whether a select is well scoped and binds only aliases that were handed out. -/
def SelectFits (counts : AliasCounts) (scope : Bindings) (select : Select) : Prop :=
  select.Scoped scope ∧ ∀ handle ∈ select.bound, Issued counts handle

section Fits

variable {e left right : Expression}

lemma Fits.grow (h : Fits counts scope e) (hg : Grows counts last) : Fits last scope e :=
  ⟨h.1, fun handle hh => hg handle (h.2 handle hh)⟩

/-- A binding that was handed out after an expression was built may be put around it. -/
lemma Fits.below (h : Fits counts scope e) (binding : Binding)
    (hb : ¬ Issued counts binding.handle) : Fits counts (binding :: scope) e := by
  refine ⟨h.1.widen ⟨List.subset_cons_self _ _, fun b hm => ?_⟩, h.2⟩
  rcases List.mem_cons.1 hm with rfl | hm
  · exact .inr fun hbound => hb (h.2 _ hbound)
  · exact .inl hm

@[simp] lemma fits_value (v : Sql.Value) : Fits counts scope (.value v) := by
  simp [Fits, Expression.Scoped, Expression.bound]

@[simp] lemma fits_countRows : Fits counts scope .countRows := by
  simp [Fits, Expression.Scoped, Expression.bound]

@[simp] lemma fits_true : Fits counts scope .true := fits_value _

@[simp] lemma fits_cast {type : String} :
    Fits counts scope (.cast e type) ↔ Fits counts scope e := by
  simp only [Fits, Expression.Scoped, Expression.bound]

@[simp] lemma fits_isNull : Fits counts scope (.isNull e) ↔ Fits counts scope e := by
  simp only [Fits, Expression.Scoped, Expression.bound]

@[simp] lemma fits_not : Fits counts scope (.not e) ↔ Fits counts scope e := by
  simp only [Fits, Expression.Scoped, Expression.bound]

@[simp] lemma fits_and :
    Fits counts scope (.and left right) ↔ Fits counts scope left ∧ Fits counts scope right := by
  simp only [Fits, Expression.Scoped, Expression.bound, List.forall_mem_append]
  exact and_and_and_comm

@[simp] lemma fits_or :
    Fits counts scope (.or left right) ↔ Fits counts scope left ∧ Fits counts scope right := by
  simp only [Fits, Expression.Scoped, Expression.bound, List.forall_mem_append]
  exact and_and_and_comm

@[simp] lemma fits_comparison {operator : String} :
    Fits counts scope (.comparison left operator right) ↔
      Fits counts scope left ∧ Fits counts scope right := by
  simp only [Fits, Expression.Scoped, Expression.bound, List.forall_mem_append]
  exact and_and_and_comm

lemma fits_list {list : List Expression} :
    (Sql.scopedList scope list ∧ ∀ handle ∈ Sql.boundList list, Issued counts handle) ↔
      ∀ e ∈ list, Fits counts scope e := by
  induction list with
  | nil => simp [Sql.scopedList, Sql.boundList]
  | cons e rest ih =>
    simp only [Sql.scopedList, Sql.boundList, List.forall_mem_append, List.forall_mem_cons, ← ih]
    exact and_and_and_comm

@[simp] lemma fits_isIn {items : List Expression} :
    Fits counts scope (.isIn left items) ↔
      Fits counts scope left ∧ ∀ e ∈ items, Fits counts scope e := by
  simp only [Fits, Expression.Scoped, Expression.bound, List.forall_mem_append]
  rw [and_and_and_comm]
  exact and_congr_right fun _ => fits_list

@[simp] lemma fits_call {function : Sql.Function} {arguments : List Expression} :
    Fits counts scope (.call function arguments) ↔ ∀ e ∈ arguments, Fits counts scope e := by
  simp only [Fits, Expression.Scoped, Expression.bound]
  exact fits_list

@[simp] lemma fits_exists {select : Select} :
    Fits counts scope (.exists select) ↔ SelectFits counts scope select := by
  simp only [Fits, SelectFits, Expression.Scoped, Expression.bound]

@[simp] lemma fits_subselect {select : Select} :
    Fits counts scope (.subselect select) ↔ SelectFits counts scope select := by
  simp only [Fits, SelectFits, Expression.Scoped, Expression.bound]

@[simp] lemma fits_rowToJson {table : TableAlias} :
    Fits counts scope (.rowToJson table) ↔ ∃ binding ∈ scope, binding.handle = table := by
  simp [Fits, Expression.Scoped, Expression.bound, eq_comm]

@[simp] lemma fits_column {table : TableAlias} {name : String} :
    Fits counts scope (.column table name) ↔ .stored table ∈ scope := by
  simp [Fits, Expression.Scoped, Expression.bound]

@[simp] lemma fits_output {table : TableAlias} {name : String} :
    Fits counts scope (.output table name) ↔
      ∃ outputs, .derived table outputs ∈ scope ∧ ∀ names ∈ outputs, name ∈ names := by
  simp [Fits, Expression.Scoped, Expression.bound]

lemma Fits.both (hl : Fits counts scope left) (hr : Fits counts scope right) :
    Fits counts scope (left.both right) := by
  unfold Expression.both
  split
  · exact hr
  · split
    · exact hl
    · exact fits_and.2 ⟨hl, hr⟩

lemma fits_jsonRows {table : TableAlias} (h : ∃ binding ∈ scope, binding.handle = table) :
    Fits counts scope (.jsonRows table) := by
  simpa [Expression.jsonRows] using h

lemma fits_jsonArray {table : TableAlias} (h : ∃ binding ∈ scope, binding.handle = table) :
    Fits counts scope (.jsonArray table) := by
  simp [Expression.jsonArray, fits_jsonRows h]

end Fits

end ObjectGraph.Compile
