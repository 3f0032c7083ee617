/-
# Three-valued readings of objects

A predicate is evaluated on an object, where it holds or does not.  Here it is read a second time,
three-valued: what is asked of null stays unknown unless it is whether there is a value.  Where
the reading is known, evaluation gives the same answer.  An answer is lost only where null meets
something else than a question for null, and the loss matters only under a negation, which turns
it into a truth, or where a list of values has null among them.
-/
import ObjectGraph.Memory.Evaluate
import ObjectGraph.Proofs.Domain
import ObjectGraph.Proofs.Named

namespace ObjectGraph

/-- Under a key that it does not have an object has no value. -/
lemma Item.get?_eq_none {item : Item} {key : String} (h : key ∉ item.keys) :
    item.members.get? key = none :=
  Named.lookup_of_not_mem h

/-! ### Known truth values -/

namespace Truth

@[simp] lemma and_false (t : Truth) : and t (some false) = some false := by
  rcases t with _ | _ | _ <;> rfl

@[simp] lemma false_and (t : Truth) : and (some false) t = some false := by
  rcases t with _ | _ | _ <;> rfl

@[simp] lemma or_true (t : Truth) : or t (some true) = some true := by
  rcases t with _ | _ | _ <;> rfl

@[simp] lemma true_or (t : Truth) : or (some true) t = some true := by
  rcases t with _ | _ | _ <;> rfl

/-- A truth value is the given one, if it is known. -/
def Allows (t : Truth) (b : Bool) : Prop := t = none ∨ t = some b

variable {t u : Truth} {b c : Bool}

lemma Allows.eq (h : t.Allows b) (hc : t = some c) : b = c := by
  rcases h with rfl | rfl
  · cases hc
  · exact Option.some.inj hc

lemma Allows.and (ht : t.Allows b) (hu : u.Allows c) : (t.and u).Allows (b && c) := by
  rcases ht with rfl | rfl <;> rcases hu with rfl | rfl <;> cases b <;> cases c <;>
    simp [Allows, Truth.and]

lemma Allows.or (ht : t.Allows b) (hu : u.Allows c) : (t.or u).Allows (b || c) := by
  rcases ht with rfl | rfl <;> rcases hu with rfl | rfl <;> cases b <;> cases c <;>
    simp [Allows, Truth.or]

lemma Allows.not (ht : t.Allows b) : t.not.Allows !b :=
  ht.imp (congrArg Truth.not) (congrArg Truth.not)

end Truth

namespace Literal

variable {value : Option Json} {literal : Literal} (operator : ComparisonOperator)

/-- What comparing a value with a literal says.  Of what is missing nothing is known but that it is
null. -/
def reading (value : Option Json) (operator : ComparisonOperator) (literal : Literal) : Truth :=
  if literal ≠ null ∧ isNothing value then none
  else some (compareWithLiteral value operator literal)

/-- What asking for a literal among several says; whether a value is null cannot be asked so. -/
def matching (value : Option Json) (literal : Literal) : Truth :=
  if literal = null ∨ isNothing value then none
  else some (compareWithLiteral value .equals literal)

lemma allows_reading (value : Option Json) (literal : Literal) :
    (literal.reading value operator).Allows (compareWithLiteral value operator literal) := by
  unfold reading
  split
  · exact .inl rfl
  · exact .inr rfl

lemma allows_matching (value : Option Json) (literal : Literal) :
    (literal.matching value).Allows (compareWithLiteral value .equals literal) := by
  unfold matching
  split
  · exact .inl rfl
  · exact .inr rfl

lemma reading_of_value (hv : isNothing value = false) (literal : Literal) :
    literal.reading value operator = some (compareWithLiteral value operator literal) := by
  simp [reading, hv]

lemma matching_of_value (hv : isNothing value = false) (hn : literal ≠ null) :
    literal.matching value = some (compareWithLiteral value .equals literal) := by
  simp [matching, hv, hn]

/-- No literal but null holds of what is missing. -/
lemma compare_nothing (hv : isNothing value = true) (hn : literal ≠ null) :
    compareWithLiteral value operator literal = false := by
  have hvalue : value = none ∨ value = some .null := by
    unfold isNothing at hv
    split at hv <;> simp at hv ⊢
  rcases hvalue with rfl | rfl <;> cases literal <;> first | rfl | exact absurd rfl hn

end Literal

namespace Predicate

/-- What asking whether a value is one of several says. -/
def anyMatching (value : Option Json) : List Literal → Truth
  | [] => some false
  | literal :: rest => Truth.or (literal.matching value) (anyMatching value rest)

mutual

/-- What a predicate says of an object, unknown where it asks null for something. -/
def reading (item : Item) : Predicate → Truth
  | all parts => allReading item parts
  | any parts => anyReading item parts
  | negation part => Truth.not (part.reading item)
  | comparison field operator value => value.reading (item.valueOf field) operator
  | oneOf field values => anyMatching (item.valueOf field) values
  | isNull field => some (isNothing (item.valueOf field))

/-- What a conjunction says of an object, its parts taken together. -/
def allReading (item : Item) : List Predicate → Truth
  | [] => some true
  | part :: rest => Truth.and (part.reading item) (allReading item rest)

/-- What a disjunction says of an object, its parts taken together. -/
def anyReading (item : Item) : List Predicate → Truth
  | [] => some false
  | part :: rest => Truth.or (part.reading item) (anyReading item rest)

end

lemma allows_anyMatching (value : Option Json) (values : List Literal) :
    (anyMatching value values).Allows (values.any (compareWithLiteral value .equals)) := by
  induction values with
  | nil => exact .inr rfl
  | cons literal rest ih =>
    rw [List.any_cons]
    exact (literal.allows_matching value).or ih

mutual

/-- Evaluation gives the answer that the reading knows. -/
lemma allows_reading (item : Item) : ∀ p : Predicate, (p.reading item).Allows (p.evaluate item)
  | all parts => by
    rw [reading, evaluate]
    exact allows_allReading item parts
  | any parts => by
    rw [reading, evaluate]
    exact allows_anyReading item parts
  | negation part => by
    rw [reading, evaluate]
    exact (allows_reading item part).not
  | comparison field operator value => by
    rw [reading, evaluate]
    exact value.allows_reading operator _
  | oneOf field values => by
    rw [reading, evaluate]
    exact allows_anyMatching _ values
  | isNull field => by
    rw [reading, evaluate]
    exact .inr rfl

lemma allows_allReading (item : Item) :
    ∀ parts : List Predicate, (allReading item parts).Allows (evaluateAll item parts)
  | [] => by
    rw [allReading, evaluateAll]
    exact .inr rfl
  | part :: rest => by
    rw [allReading, evaluateAll]
    exact (allows_reading item part).and (allows_allReading item rest)

lemma allows_anyReading (item : Item) :
    ∀ parts : List Predicate, (anyReading item parts).Allows (evaluateAny item parts)
  | [] => by
    rw [anyReading, evaluateAny]
    exact .inr rfl
  | part :: rest => by
    rw [anyReading, evaluateAny]
    exact (allows_reading item part).or (allows_anyReading item rest)

end

/-! ### Predicates that null cannot upset -/

mutual

/-- Whether null leaves no answer open that matters: under an even number of negations a list of
values with null among them is not held against null; under an odd number nothing is held
against null but null itself, and no list has null among its values. -/
def Settled (item : Item) (negated : Bool) : Predicate → Prop
  | all parts | any parts => partsSettled item negated parts
  | negation part => part.Settled item !negated
  | comparison field _ value =>
    negated = true → value = .null ∨ isNothing (item.valueOf field) = false
  | oneOf field values =>
    if negated then
      values = [] ∨ isNothing (item.valueOf field) = false ∧ .null ∉ values
    else isNothing (item.valueOf field) = false ∨ .null ∉ values
  | isNull _ => True

/-- Whether all parts are settled. -/
def partsSettled (item : Item) (negated : Bool) : List Predicate → Prop
  | [] => True
  | part :: rest => part.Settled item negated ∧ partsSettled item negated rest

end

lemma anyMatching_of_value {value : Option Json} (hv : isNothing value = false)
    {values : List Literal} (hn : .null ∉ values) :
    anyMatching value values = some (values.any (compareWithLiteral value .equals)) := by
  induction values with
  | nil => rfl
  | cons literal rest ih =>
    obtain ⟨hl, hrest⟩ := List.ne_and_not_mem_of_not_mem_cons hn
    rw [anyMatching, ih hrest, Literal.matching_of_value hv hl.symm, List.any_cons]
    cases compareWithLiteral value .equals literal <;>
      cases rest.any (compareWithLiteral value .equals) <;> rfl

/-- A value that is there is known to be among others as soon as it is, null being passed over. -/
lemma anyMatching_true {value : Option Json} (hv : isNothing value = false)
    {values : List Literal} (h : values.any (compareWithLiteral value .equals) = true) :
    anyMatching value values = some true := by
  induction values with
  | nil => cases h
  | cons literal rest ih =>
    rw [List.any_cons, Bool.or_eq_true] at h
    rw [anyMatching]
    rcases h with h | h
    · have hn : literal ≠ .null := by
        rintro rfl
        rw [compareWithLiteral, hv] at h
        cases h
      rw [Literal.matching_of_value hv hn, h, Truth.true_or]
    · rw [ih h, Truth.or_true]

lemma any_nothing {value : Option Json} (hv : isNothing value = true) {values : List Literal}
    (hn : .null ∉ values) : values.any (compareWithLiteral value .equals) = false := by
  refine List.any_eq_false.2 fun literal hl => ?_
  rw [Literal.compare_nothing _ hv (fun he => hn (he ▸ hl))]
  exact Bool.false_ne_true

lemma reading_oneOf {item : Item} {field : String} {values : List Literal} {negated : Bool}
    (hs : (oneOf field values).Settled item negated)
    (h : (oneOf field values).evaluate item = !negated) :
    (oneOf field values).reading item = some !negated := by
  rw [Settled] at hs
  rw [evaluate] at h
  rw [reading]
  cases negated with
  | true =>
    rcases hs with rfl | ⟨hv, hn⟩
    · rfl
    · rw [anyMatching_of_value hv hn, h]
  | false =>
    have hv : isNothing (item.valueOf field) = false := by
      rcases hs with hv | hn
      · exact hv
      · -- Without null among the values nothing holds of what is missing.
        refine Bool.eq_false_iff.2 fun hnot => ?_
        rw [any_nothing hnot hn] at h
        cases h
    exact anyMatching_true hv h

lemma reading_comparison {item : Item} {field : String} {operator : ComparisonOperator}
    {value : Literal} {negated : Bool} (hs : (comparison field operator value).Settled item negated)
    (h : (comparison field operator value).evaluate item = !negated) :
    (comparison field operator value).reading item = some !negated := by
  rw [Settled] at hs
  rw [evaluate] at h
  rw [reading, ← h]
  by_cases hn : value = .null
  · subst hn
    rfl
  · refine Literal.reading_of_value operator ?_ value
    cases negated with
    | true => exact (hs rfl).resolve_left hn
    | false =>
      -- Nothing but null holds of what is missing.
      refine Bool.eq_false_iff.2 fun hnot => ?_
      rw [Literal.compare_nothing operator hnot hn] at h
      cases h

mutual

/-- A predicate that null cannot upset is known to hold where it does and, under a negation, known
not to hold where it does not. -/
lemma reading_of_settled (item : Item) : ∀ {p : Predicate} {negated : Bool},
    p.Settled item negated → p.evaluate item = (!negated) → p.reading item = some !negated
  | all parts, negated, hs, h => by
    rw [Settled] at hs
    rw [evaluate] at h
    rw [reading]
    exact allReading_of_settled item hs h
  | any parts, negated, hs, h => by
    rw [Settled] at hs
    rw [evaluate] at h
    rw [reading]
    exact anyReading_of_settled item hs h
  | negation part, negated, hs, h => by
    rw [Settled] at hs
    rw [evaluate, Bool.not_inj_iff] at h
    rw [reading, reading_of_settled item hs (by rw [h, Bool.not_not])]
    simp [Truth.not]
  | comparison _ _ _, _, hs, h => reading_comparison hs h
  | oneOf _ _, _, hs, h => reading_oneOf hs h
  | isNull field, negated, _, h => by
    rw [evaluate] at h
    rw [reading, h]

lemma allReading_of_settled (item : Item) : ∀ {parts : List Predicate} {negated : Bool},
    partsSettled item negated parts → evaluateAll item parts = (!negated) →
    allReading item parts = some !negated
  | [], negated, _, h => by
    rw [evaluateAll] at h
    rw [allReading, ← h]
  | part :: rest, negated, hs, h => by
    rw [partsSettled] at hs
    rw [evaluateAll] at h
    rw [allReading]
    cases negated with
    | false =>
      obtain ⟨hp, hr⟩ := Bool.and_eq_true_iff.1 h
      rw [reading_of_settled item hs.1 hp, allReading_of_settled item hs.2 hr]
      rfl
    | true =>
      rcases Bool.and_eq_false_iff.1 h with hp | hr
      · rw [reading_of_settled item hs.1 hp]
        exact Truth.false_and _
      · rw [allReading_of_settled item hs.2 hr]
        exact Truth.and_false _

lemma anyReading_of_settled (item : Item) : ∀ {parts : List Predicate} {negated : Bool},
    partsSettled item negated parts → evaluateAny item parts = (!negated) →
    anyReading item parts = some !negated
  | [], negated, _, h => by
    rw [evaluateAny] at h
    rw [anyReading, ← h]
  | part :: rest, negated, hs, h => by
    rw [partsSettled] at hs
    rw [evaluateAny] at h
    rw [anyReading]
    cases negated with
    | false =>
      rcases Bool.or_eq_true_iff.1 h with hp | hr
      · rw [reading_of_settled item hs.1 hp]
        exact Truth.true_or _
      · rw [anyReading_of_settled item hs.2 hr]
        exact Truth.or_true _
    | true =>
      obtain ⟨hp, hr⟩ := Bool.or_eq_false_iff.1 h
      rw [reading_of_settled item hs.1 hp, anyReading_of_settled item hs.2 hr]
      rfl

end

end Predicate

end ObjectGraph
