/-
# Formulas

What a condition says apart from what its tests say.  A test is left open: it holds, it does not, or
it is unknown, and a formula has the truth that follows.  Two formulas agree if they make the same
tests in the same order and follow from them alike, whatever the tests come to.
-/
import ObjectGraph.Proofs.Arranging

namespace ObjectGraph

/-- A test of what a text calls by a name. -/
inductive Atom
  /-- The subject equals one of the values; there is at least one of them. -/
  | oneOf (subject : String) (values : List Literal)
  /-- The subject compares with the value, by an operator other than equality. -/
  | compares (subject : String) (operator : ComparisonOperator) (value : Literal)
  | isNull (subject : String)
deriving DecidableEq

/-- Conditions put together by the connectives of logic. -/
inductive Formula
  | constant (b : Bool)
  | atom (a : Atom)
  | not (f : Formula)
  | and (f g : Formula)
  | or (f g : Formula)
deriving DecidableEq

namespace Formula

variable {f f' g g' : Formula} {fs gs : List Formula}

/-- What a formula says, given what its tests say. -/
def truth (tests : Atom → Truth) : Formula → Truth
  | constant b => some b
  | atom a => tests a
  | not f => Truth.not (f.truth tests)
  | and f g => Truth.and (f.truth tests) (g.truth tests)
  | or f g => Truth.or (f.truth tests) (g.truth tests)

/-- The tests of a formula, in order. -/
def atoms : Formula → List Atom
  | constant _ => []
  | atom a => [a]
  | not f => f.atoms
  | and f g | or f g => f.atoms ++ g.atoms

/-- The same tests, and the same truth whatever they say. -/
structure Agrees (f g : Formula) : Prop where
  atoms : f.atoms = g.atoms
  truth : ∀ tests, f.truth tests = g.truth tests

namespace Agrees

lemma refl (f : Formula) : f.Agrees f := ⟨rfl, fun _ => rfl⟩

lemma symm (h : f.Agrees g) : g.Agrees f :=
  ⟨h.atoms.symm, fun tests => (h.truth tests).symm⟩

lemma trans {h : Formula} (hfg : f.Agrees g) (hgh : g.Agrees h) : f.Agrees h :=
  ⟨hfg.atoms.trans hgh.atoms, fun tests => (hfg.truth tests).trans (hgh.truth tests)⟩

lemma not (h : f.Agrees g) : f.not.Agrees g.not :=
  ⟨h.atoms, fun tests => congrArg Truth.not (h.truth tests)⟩

lemma and (hf : f.Agrees f') (hg : g.Agrees g') : (f.and g).Agrees (f'.and g') :=
  ⟨congrArg₂ _ hf.atoms hg.atoms,
    fun tests => congrArg₂ Truth.and (hf.truth tests) (hg.truth tests)⟩

lemma or (hf : f.Agrees f') (hg : g.Agrees g') : (f.or g).Agrees (f'.or g') :=
  ⟨congrArg₂ _ hf.atoms hg.atoms,
    fun tests => congrArg₂ Truth.or (hf.truth tests) (hg.truth tests)⟩

lemma and_true (f : Formula) : f.Agrees (f.and (constant true)) :=
  ⟨(List.append_nil _).symm, fun _ => (Truth.and_true _).symm⟩

lemma or_false (f : Formula) : f.Agrees (f.or (constant false)) :=
  ⟨(List.append_nil _).symm, fun _ => (Truth.or_false _).symm⟩

end Agrees

/-! ### Several formulas -/

/-- All of the formulas hold. -/
def all (fs : List Formula) : Formula := fs.foldr and (constant true)

/-- Some of the formulas holds. -/
def any (fs : List Formula) : Formula := fs.foldr or (constant false)

/-- What formulas with a conjunction between each two say, as they are read. -/
def conjunction : List Formula → Formula
  | [] => constant true
  | [f] => f
  | f :: fs => and f (conjunction fs)

/-- What formulas with a disjunction between each two say, as they are read. -/
def disjunction : List Formula → Formula
  | [] => constant false
  | [f] => f
  | f :: fs => or f (disjunction fs)

lemma agrees_all (h : List.Forall₂ Agrees fs gs) : (all fs).Agrees (all gs) := by
  induction h with
  | nil => exact .refl _
  | cons hfirst hrest ih => exact hfirst.and ih

lemma agrees_conjunction (h : List.Forall₂ Agrees fs gs) : (conjunction fs).Agrees (all gs) := by
  induction h with
  | nil => exact .refl _
  | @cons f g fs gs hfirst hrest ih =>
    cases hrest with
    | nil => exact hfirst.trans (.and_true g)
    | cons hnext hrest => exact hfirst.and ih

lemma agrees_disjunction (h : List.Forall₂ Agrees fs gs) : (disjunction fs).Agrees (any gs) := by
  induction h with
  | nil => exact .refl _
  | @cons f g fs gs hfirst hrest ih =>
    cases hrest with
    | nil => exact hfirst.trans (.or_false g)
    | cons hnext hrest => exact hfirst.or ih

lemma truth_all_append (tests : Atom → Truth) (fs gs : List Formula) :
    (all (fs ++ gs)).truth tests = Truth.and ((all fs).truth tests) ((all gs).truth tests) := by
  induction fs with
  | nil => exact (Truth.true_and _).symm
  | cons f fs ih => exact (congrArg (Truth.and _) ih).trans (Truth.and_assoc _ _ _).symm

lemma atoms_all (fs : List Formula) : (all fs).atoms = fs.flatMap atoms := by
  induction fs with
  | nil => rfl
  | cons f fs ih => exact congrArg (f.atoms ++ ·) ih

/-- Conjunctions of formulas may be put behind each other. -/
lemma agrees_all_flatten (fss : List (List Formula)) :
    (all fss.flatten).Agrees (all (fss.map all)) := by
  induction fss with
  | nil => exact .refl _
  | cons fs fss ih =>
    constructor
    · rw [atoms_all, List.flatten_cons, List.flatMap_append, ← atoms_all, ← atoms_all, ih.atoms]
      rfl
    · intro tests
      rw [List.flatten_cons, truth_all_append, ih.truth]
      rfl

/-! ### Tests -/

/-- The subject equals one of the values, which nothing does if there are none. -/
def among (subject : String) : List Literal → Formula
  | [] => constant false
  | values => atom (.oneOf subject values)

/-- The test of a comparison; an equality is a choice of one value. -/
def compared (subject : String) (operator : ComparisonOperator) (value : Literal) : Formula :=
  if operator = .equals then among subject [value]
  else atom (.compares subject operator value)

/-- A comparison with null asks whether there is a value. -/
def comparison (subject : String) (operator : ComparisonOperator) : Literal → Formula
  | .null =>
    match operator with
    | .equals => atom (.isNull subject)
    | .notEquals => not (atom (.isNull subject))
    | _ => compared subject operator .null
  | value => compared subject operator value

end Formula

open Formula

mutual

/-- The formula of a predicate whose references have names in a text. -/
def Predicate.formula (name : String → String) : Predicate → Formula
  | .all parts => Formula.all (partFormulas name parts)
  | .any parts => Formula.any (partFormulas name parts)
  | .negation part => .not (part.formula name)
  | .comparison field operator value => Formula.comparison (name field) operator value
  | .oneOf field values => among (name field) values
  | .isNull field => .atom (.isNull (name field))

/-- The formulas of the parts. -/
def Predicate.partFormulas (name : String → String) : List Predicate → List Formula
  | [] => []
  | part :: rest => part.formula name :: partFormulas name rest

end

namespace Compile.TextCondition

variable {σ : Type}

mutual

/-- The formula of a condition. -/
def formula (name : σ → String) : TextCondition σ → Formula
  | all parts => Formula.conjunction (partFormulas name parts)
  | any parts => Formula.disjunction (partFormulas name parts)
  | negation part => .not (part.formula name)
  | comparison subject operator value => compared (name subject) operator value
  | oneOf subject values => among (name subject) values
  | never => .constant false
  | isNull subject => .atom (.isNull (name subject))
  | isNotNull subject => .not (.atom (.isNull (name subject)))

/-- The formulas of the parts. -/
def partFormulas (name : σ → String) : List (TextCondition σ) → List Formula
  | [] => []
  | part :: rest => part.formula name :: partFormulas name rest

end

/-- What a part of a conjunction adds to it: the formulas that it conjoins, or its own. -/
def conjuncts (name : σ → String) : TextCondition σ → List Formula
  | all (part :: rest) => partFormulas name (part :: rest)
  | c => [c.formula name]

lemma agrees_conjuncts (name : σ → String) (c : TextCondition σ) :
    (c.formula name).Agrees (Formula.all (c.conjuncts name)) := by
  cases c with
  | all parts =>
    cases parts with
    | nil => exact .and_true _
    | cons part rest => exact agrees_conjunction (List.forall₂_same.2 fun f _ => .refl f)
  | any | negation | comparison | oneOf | never | isNull | isNotNull => exact .and_true _

end Compile.TextCondition
end ObjectGraph
