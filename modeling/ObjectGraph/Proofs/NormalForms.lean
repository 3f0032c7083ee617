/-
# Normal forms in every language

A predicate that is read from a text is in normal form: the variables of its references are gone,
and null stands in none of its comparisons.  Predicates need not come from a text, so both are seen
to again wherever a predicate is compiled.  The variables are taken off once more, which leaves a
normal form as it is, and null is refused a place in any order, which a normal form never asks for:
whatever it is refused for is something else.
-/
import ObjectGraph.Cypher.Compile
import ObjectGraph.Malloy.Compile
import ObjectGraph.Proofs.Predicate.ReadingBack
import ObjectGraph.Samples.SocialGraph

namespace ObjectGraph

/-! ### References without variables -/

namespace Predicate

mutual

/-- The predicate with the variables taken off its references. -/
def unqualify : Predicate → Predicate
  | all parts => all (unqualifyParts parts)
  | any parts => any (unqualifyParts parts)
  | negation part => negation part.unqualify
  | comparison field op value => comparison (unqualified field) op value
  | oneOf field values => oneOf (unqualified field) values
  | isNull field => isNull (unqualified field)

/-- The parts with their references unqualified. -/
def unqualifyParts : List Predicate → List Predicate
  | [] => []
  | part :: rest => part.unqualify :: unqualifyParts rest

end

lemma IsField.unqualified_eq {field : String} (h : IsField field) : unqualified field = field :=
  unqualified_eq_self h.2

mutual

lemma Normal.unqualify_eq : ∀ {p : Predicate}, p.Normal → p.unqualify = p
  | all parts, ⟨_, h⟩ => by rw [unqualify, partsNormal.unqualify_eq h]
  | any parts, ⟨_, h⟩ => by rw [unqualify, partsNormal.unqualify_eq h]
  | negation part, h => by rw [unqualify, Normal.unqualify_eq (p := part) h]
  | comparison field op value, ⟨h, _⟩ => by rw [unqualify, h.unqualified_eq]
  | oneOf field values, h => by rw [unqualify, IsField.unqualified_eq h]
  | isNull field, h => by rw [unqualify, IsField.unqualified_eq h]

lemma partsNormal.unqualify_eq : ∀ {ps : List Predicate}, partsNormal ps → unqualifyParts ps = ps
  | [], _ => rfl
  | part :: rest, ⟨h, hrest⟩ => by rw [unqualifyParts, h.unqualify_eq, hrest.unqualify_eq]

end

end Predicate

/-! ### Refusing to put null in an order -/

/-- A computation that may be refused, but not for putting null in an order. -/
def SparesNull {α : Type} (result : Except CompileError α) : Prop :=
  ∀ field op, result ≠ .error (.notSupported (.nullOrdering field op))

namespace SparesNull

variable {α β : Type} {x : Except CompileError α} {f : α → Except CompileError β}

lemma ok (a : α) : SparesNull (.ok a : Except CompileError α) := nofun

lemma bind (hx : SparesNull x) (hf : ∀ a, SparesNull (f a)) : SparesNull (x >>= f) := by
  intro field op h
  cases x with
  | ok a => exact hf a field op h
  | error e =>
    cases h
    exact hx field op rfl

end SparesNull

lemma sparesNull_requireType (catalog : Catalog) (name : String) :
    SparesNull (catalog.requireType name) := by
  intro field op h
  rw [Catalog.requireType] at h
  split at h <;> cases h

open Predicate (Normal partsNormal)

/-! ### Selects -/

namespace Compile

variable (catalog : Catalog) (draft : Draft)

lemma sparesNull_storedField? (reference : String) :
    SparesNull (draft.storedField? catalog reference) := by
  rw [Draft.storedField?]
  split
  · exact (sparesNull_requireType catalog _).bind fun _ => .ok _
  · exact .ok _

lemma sparesNull_resolve (reference : String) : SparesNull (draft.resolve catalog reference) := by
  rw [Draft.resolve]
  split
  · exact .ok _
  · refine (sparesNull_storedField? catalog draft _).bind fun field => ?_
    cases field with
    | some field => exact .ok _
    | none => exact nofun

lemma sparesNull_literal (field : String) (type : Option ScalarType) (value : Literal) :
    SparesNull (literal field type value) := by
  intro other op h
  unfold literal at h
  split at h
  · cases h
  · cases h
  · split at h <;> cases h

lemma sparesNull_literals (field : String) (type : Option ScalarType) :
    ∀ values, SparesNull (literals field type values)
  | [] => .ok _
  | value :: rest =>
    (sparesNull_literal field type value).bind fun _ =>
      (sparesNull_literals field type rest).bind fun _ => .ok _

lemma sparesNull_checkOperator (field : String) (op : ComparisonOperator)
    (type : Option ScalarType) : SparesNull (checkOperator field op type) := by
  cases type with
  | none => exact .ok _
  | some type =>
    rw [checkOperator]
    split
    · exact .ok _
    · exact nofun

lemma sparesNull_comparison (field : String) (op : ComparisonOperator) {value : Literal}
    (hv : value ≠ .null) : SparesNull (comparison catalog draft field op value) := by
  refine (sparesNull_resolve catalog draft field).bind fun resolved => ?_
  obtain ⟨e, type⟩ := resolved
  cases value with
  | null => exact absurd rfl hv
  | boolean | integer | float | string =>
    exact (sparesNull_checkOperator field op type).bind fun _ =>
      (sparesNull_literal field type _).bind fun _ => .ok _

lemma sparesNull_membership (field : String) (values : List Literal) :
    SparesNull (membership catalog draft field values) := by
  refine (sparesNull_resolve catalog draft field).bind fun resolved => ?_
  obtain ⟨e, type⟩ := resolved
  refine (sparesNull_checkOperator field .equals type).bind fun _ => ?_
  cases values with
  | nil => exact .ok _
  | cons value rest => exact (sparesNull_literals field type _).bind fun _ => .ok _

mutual

lemma sparesNull_condition : ∀ {p : Predicate}, p.Normal → SparesNull (condition catalog draft p)
  | .all _, ⟨_, h⟩ => sparesNull_conjunction _ h
  | .any [], _ => .ok _
  | .any (_ :: _), ⟨_, h, hrest⟩ =>
    (sparesNull_condition h).bind fun before => sparesNull_disjunction before hrest
  | .negation part, h => (sparesNull_condition (p := part) h).bind fun _ => .ok _
  | .comparison field op _, ⟨_, hv⟩ => sparesNull_comparison catalog draft field op hv
  | .oneOf field values, _ => sparesNull_membership catalog draft field values
  | .isNull field, _ => (sparesNull_resolve catalog draft field).bind fun _ => .ok _

lemma sparesNull_conjunction (before : Sql.Expression) : ∀ {ps : List Predicate}, partsNormal ps →
    SparesNull (conjunction catalog draft before ps)
  | [], _ => .ok _
  | _ :: _, ⟨h, hrest⟩ =>
    (sparesNull_condition h).bind fun _ => sparesNull_conjunction _ hrest

lemma sparesNull_disjunction (before : Sql.Expression) : ∀ {ps : List Predicate}, partsNormal ps →
    SparesNull (disjunction catalog draft before ps)
  | [], _ => .ok _
  | _ :: _, ⟨h, hrest⟩ =>
    (sparesNull_condition h).bind fun _ => sparesNull_disjunction _ hrest

end

end Compile

/-! ### Stages -/

namespace Malloy

variable (draft : Draft)

lemma sparesNull_resolve (reference : String) : SparesNull (draft.resolve reference) := by
  intro field op h
  rw [Draft.resolve] at h
  generalize (if unqualified reference = "id" then idKey else unqualified reference) = name at h
  split at h
  · cases h
  · split at h <;> cases h

lemma sparesNull_comparison (name : String) (op : ComparisonOperator) {value : Literal}
    (hv : value ≠ .null) : SparesNull (Draft.comparison name op value) := by
  cases value with
  | null => exact absurd rfl hv
  | boolean | integer | float | string => exact .ok _

mutual

lemma sparesNull_condition : ∀ {p : Predicate}, p.Normal → SparesNull (draft.condition p)
  | .all _, ⟨_, h⟩ => (sparesNull_conditions h).bind fun _ => .ok _
  | .any _, ⟨_, h⟩ => (sparesNull_conditions h).bind fun _ => .ok _
  | .negation part, h => (sparesNull_condition (p := part) h).bind fun _ => .ok _
  | .comparison field op _, ⟨_, hv⟩ =>
    (sparesNull_resolve draft field).bind fun name => sparesNull_comparison name op hv
  | .oneOf _ [], _ => .ok _
  | .oneOf field (_ :: _), _ => (sparesNull_resolve draft field).bind fun _ => .ok _
  | .isNull field, _ => (sparesNull_resolve draft field).bind fun _ => .ok _

lemma sparesNull_conditions : ∀ {ps : List Predicate}, partsNormal ps →
    SparesNull (draft.conditions ps)
  | [], _ => .ok _
  | _ :: _, ⟨h, hrest⟩ =>
    (sparesNull_condition h).bind fun _ => (sparesNull_conditions hrest).bind fun _ => .ok _

end

end Malloy

/-! ### Statements -/

namespace Cypher

variable (catalog : Catalog) (draft : Draft)

lemma sparesNull_resolve (reference : String) : SparesNull (draft.resolve catalog reference) := by
  refine (sparesNull_requireType catalog _).bind fun type => ?_
  generalize (if unqualified reference = "id" ∧ ¬ type.fields.contains "id" then idKey
    else unqualified reference) = name
  intro field op h
  dsimp only at h
  split at h <;> cases h

lemma sparesNull_comparison (field : String) (property : Property) (op : ComparisonOperator)
    {value : Literal} (hv : value ≠ .null) :
    SparesNull (Draft.comparison field property op value) := by
  cases value with
  | null => exact absurd rfl hv
  | boolean | integer | float | string => exact .ok _

mutual

lemma sparesNull_condition : ∀ {p : Predicate}, p.Normal →
    SparesNull (draft.condition catalog p)
  | .all _, ⟨_, h⟩ => (sparesNull_conditions h).bind fun _ => .ok _
  | .any _, ⟨_, h⟩ => (sparesNull_conditions h).bind fun _ => .ok _
  | .negation part, h => (sparesNull_condition (p := part) h).bind fun _ => .ok _
  | .comparison field op _, ⟨_, hv⟩ =>
    (sparesNull_resolve catalog draft field).bind fun property =>
      sparesNull_comparison field property op hv
  | .oneOf field _, _ => (sparesNull_resolve catalog draft field).bind fun _ => .ok _
  | .isNull field, _ => (sparesNull_resolve catalog draft field).bind fun _ => .ok _

lemma sparesNull_conditions : ∀ {ps : List Predicate}, partsNormal ps →
    SparesNull (draft.conditions catalog ps)
  | [], _ => .ok _
  | _ :: _, ⟨h, hrest⟩ =>
    (sparesNull_condition h).bind fun _ => (sparesNull_conditions hrest).bind fun _ => .ok _

end

end Cypher

/-! ### Predicates from text -/

open Predicate (Says Spells exists_occurs parse spells_and spells_in spells_integer spells_not
  spells_operator spells_or spells_word)

/-- What is read from a text is in normal form: its chains have at least two links, nothing is
compared with null, and its fields are names without dots.  So taking the variables off its
references changes nothing, and no select, stage or statement refuses it for an order in which
null has no place. -/
theorem normal_of_parse {source : String} {p : Predicate} (h : parse source = .ok p) :
    p.Normal ∧ p.unqualify = p ∧
      (∀ catalog draft, SparesNull (Compile.condition catalog draft p)) ∧
      (∀ draft : Malloy.Draft, SparesNull (draft.condition p)) ∧
      ∀ catalog (draft : Cypher.Draft), SparesNull (draft.condition catalog p) := by
  obtain ⟨ts, -, hnormal, -⟩ := exists_occurs h
  refine ⟨hnormal, hnormal.unqualify_eq, ?_, ?_, ?_⟩
  · intro catalog draft
    exact Compile.sparesNull_condition catalog draft hnormal
  · intro draft
    exact Malloy.sparesNull_condition draft hnormal
  · intro catalog draft
    exact Cypher.sparesNull_condition catalog draft hnormal

/-- Neither named nor young, and one of two users. -/
def namelessAdult : Predicate :=
  .all [.negation (.any [.negation (.isNull "name"), .comparison "age" .lessThan (.integer 18)]),
    .oneOf ":id" [.integer 1, .null]]

/-- The check for null and the comparison stand behind their literals, and null may be one of the
values of a list. -/
theorem normal_of_parse_namelessAdult :
    parse "not (null != u.name or 18 > u.age) and u.:id in (1, null)" =
        .ok namelessAdult ∧
      namelessAdult.Normal ∧ namelessAdult.unqualify = namelessAdult ∧
      ∀ (draft : Cypher.Draft), SparesNull (draft.condition SocialGraph.catalog namelessAdult) := by
  have hnull : Spells "null".toList [.literal .null] := spells_word (by decide)
  have hone : Spells "1".toList [.literal (.integer 1)] := spells_integer 1
  have hbound : Spells "18".toList [.literal (.integer 18)] := spells_integer 18
  have hname : Spells "u.name".toList [.identifier "u.name"] := spells_word (by decide)
  have hage : Spells "u.age".toList [.identifier "u.age"] := spells_word (by decide)
  have hid : Spells "u.:id".toList [.identifier "u.:id"] := spells_word (by decide)
  have hnamed := hnull.blank ((spells_operator .notEquals).blank hname)
  have hyoung := hbound.blank ((spells_operator .greaterThan).blank hage)
  have hgroup := ((hnamed.blank (spells_or.blank hyoung)).closeParen).openParen
  have hmember := hid.blank (spells_in.blank ((hone.comma hnull).closeParen).openParen)
  have hspells := (spells_not.blank hgroup).blank (spells_and.blank hmember)
  have hparse : parse "not (null != u.name or 18 > u.age) and u.:id in (1, null)" =
      .ok namelessAdult := by
    refine Says.parse_eq ⟨.last (.more
      (.not (.primary (.group (.more
        (.last (.primary (.atom (.flipped .null .notEquals "u.name"))))
        (.last (.last (.primary (.atom (.flipped (.integer 18) .greaterThan "u.age")))))))))
      (.last (.primary (.atom (.member "u.:id" ⟨false, .more (.integer 1) (.last .null)⟩))))),
      hspells, _, _, ?_, ⟨_, ?_, rfl⟩, rfl⟩
    -- Behind their literals the operators are mirrored, which leaves inequality as it is.
    · refine ⟨_, ⟨_, _, ?_, ⟨_, ?_, rfl⟩, rfl⟩, rfl⟩
      · exact .flipped ⟨by decide, by decide, .inr ⟨"u", by decide, by decide⟩⟩ .isNotNull
      · exact .flipped ⟨by decide, by decide, .inr ⟨"u", by decide, by decide⟩⟩
          (.comparison nofun)
    · exact .member ⟨by decide, by decide, .inr ⟨"u", by decide, by decide⟩⟩
  obtain ⟨hnormal, hsame, -, -, hspared⟩ := normal_of_parse hparse
  exact ⟨hparse, hnormal, hsame, hspared SocialGraph.catalog⟩

/-- A predicate that did not come from a text can be refused for it. -/
example : ¬ SparesNull ((Malloy.Draft.start "User" SocialGraph.user).condition
    (.comparison "user.age" .lessThan .null)) :=
  fun h => h "age" .lessThan rfl

end ObjectGraph
