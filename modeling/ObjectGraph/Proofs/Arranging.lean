/-
# Rows that are filtered and sorted at once

A language with clauses keeps the rows for which all conditions of a statement hold and sorts them
by its keys, the first of them deciding first.  So a filter may join the conditions although it
comes after a sort, and a sort puts its key in front of the older ones.  What a single condition
says of a row is the same in all languages whose conditions are written as text.
-/
import ObjectGraph.Compile.TextCondition
import ObjectGraph.Proofs.Compile.Rows

namespace ObjectGraph

open Std (TransCmp)

variable {δ ρ τ : Type} (D : Domain δ)

/-! ### Conditions in text -/

namespace Compile.TextCondition

variable {σ : Type}

mutual

/-- Whether a condition holds, given the types and the cells of its subjects. -/
def truth (types : σ → Option ScalarType) (cells : σ → Cell δ) : TextCondition σ → Truth
  | all parts => allTruth types cells parts
  | any parts => anyTruth types cells parts
  | negation part => Truth.not (part.truth types cells)
  | comparison subject operator value =>
    D.holds operator (cells subject) (value.cell D (types subject))
  | oneOf subject values => D.among (cells subject) (values.map (Literal.cell D (types subject)))
  | never => some false
  | isNull subject => some (cells subject).isNone
  | isNotNull subject => some (cells subject).isSome

/-- The truth of a conjunction: all parts hold. -/
def allTruth (types : σ → Option ScalarType) (cells : σ → Cell δ) :
    List (TextCondition σ) → Truth
  | [] => some true
  | part :: rest => Truth.and (part.truth types cells) (allTruth types cells rest)

/-- The truth of a disjunction: some part holds. -/
def anyTruth (types : σ → Option ScalarType) (cells : σ → Cell δ) :
    List (TextCondition σ) → Truth
  | [] => some false
  | part :: rest => Truth.or (part.truth types cells) (anyTruth types cells rest)

end

mutual

/-- What a condition speaks of. -/
def subjects : TextCondition σ → List σ
  | all parts | any parts => partSubjects parts
  | negation part => part.subjects
  | comparison subject _ _ | oneOf subject _ | isNull subject | isNotNull subject => [subject]
  | never => []

/-- What the parts speak of, in order. -/
def partSubjects : List (TextCondition σ) → List σ
  | [] => []
  | part :: rest => part.subjects ++ partSubjects rest

end

end Compile.TextCondition

/-! ### Sort keys -/

/-- The order of rows by keys, the first key deciding first. -/
def Domain.orderBy : List (Direction × (ρ → Cell δ)) → ρ → ρ → Ordering
  | [], _, _ => .eq
  | (direction, cell) :: rest, a, b =>
    (D.directed direction (cell a) (cell b)).then (Domain.orderBy rest a b)

variable {D} {tests : List (ρ → Truth)} {keys : List (Direction × (ρ → Cell δ))} {rows : List ρ}

namespace Domain

lemma orderBy_cons (direction : Direction) (cell : ρ → Cell δ) :
    D.orderBy ((direction, cell) :: keys)
      = compareLex (fun a b => D.directed direction (cell a) (cell b)) (D.orderBy keys) := by
  funext a b
  rw [orderBy, compareLex]

instance orderBy_trans (keys : List (Direction × (ρ → Cell δ))) : TransCmp (D.orderBy keys) := by
  induction keys with
  | nil => exact { eq_swap := rfl, isLE_trans := fun h _ => h }
  | cons key rest ih =>
    obtain ⟨direction, cell⟩ := key
    have hfirst : TransCmp fun a b : ρ => D.directed direction (cell a) (cell b) :=
      Sql.trans_on cell
    rw [orderBy_cons]
    infer_instance

/-- Keys that look at the image of a row. -/
lemma orderBy_map (f : τ → ρ) (keys : List (Direction × (ρ → Cell δ))) :
    (fun a b => D.orderBy keys (f a) (f b))
      = D.orderBy (keys.map fun key => (key.1, fun a => key.2 (f a))) := by
  induction keys with
  | nil => rfl
  | cons key rest ih =>
    funext a b
    have hrest := congrFun (congrFun ih a) b
    rw [List.map_cons, orderBy, orderBy, ← hrest]

end Domain

/-! ### Tests and keys together -/

variable (D tests keys rows) in
/-- The rows for which all tests hold, sorted by the keys. -/
def arrange : List ρ :=
  Stable.sort (D.orderBy keys) (rows.filter fun row => tests.all fun test => test row == some true)

lemma arrange_nil : arrange D [] [] rows = rows := by
  have hall : rows.filter (fun row => ([] : List (ρ → Truth)).all fun test => test row == some true)
      = rows := List.filter_eq_self.2 fun _ _ => rfl
  rw [arrange, hall]
  exact Stable.sort_of_inOrder (List.pairwise_of_forall_mem_list fun _ _ _ _ => rfl)

/-- One more test may be made before rows are sorted. -/
lemma filter_arrange (test : ρ → Truth) :
    (arrange D tests keys rows).filter (fun row => test row == some true)
      = arrange D (tests ++ [test]) keys rows := by
  rw [arrange, arrange, Stable.filter_sort, List.filter_filter]
  refine congrArg _ (List.filter_congr fun row _ => ?_)
  rw [List.all_append, List.all_cons, List.all_nil, Bool.and_true, Bool.and_comm]

/-- Sorting again is sorting by one more key in front of the others. -/
lemma sort_arrange (direction : Direction) (cell : ρ → Cell δ) :
    Stable.sort (fun a b => D.directed direction (cell a) (cell b)) (arrange D tests keys rows)
      = arrange D tests ((direction, cell) :: keys) rows := by
  have hfirst : TransCmp fun a b : ρ => D.directed direction (cell a) (cell b) :=
    Sql.trans_on cell
  rw [arrange, arrange, Stable.sort_sort, Domain.orderBy_cons]

/-- How many rows are left does not depend on their order. -/
lemma length_arrange (keys others : List (Direction × (ρ → Cell δ))) :
    (arrange D tests keys rows).length = (arrange D tests others rows).length := by
  rw [arrange, arrange, Stable.length_sort, Stable.length_sort]

end ObjectGraph
