/-
# Predicates that become conditions

Statements and stages restrict what they list by conditions, which are made of predicates part by
part.  A condition speaks of what the references are resolved to, asks for a value where the
predicate compares with `null`, and looks for a subject among values as the predicate does, save
that a language may have no words for a choice from nothing.

So the languages differ in how references are resolved, and in the choices that they write.  What
follows from this alone is proved here for both of them.
-/
import ObjectGraph.Cypher.Compile
import ObjectGraph.Malloy.Compile
import ObjectGraph.Proofs.Arranging

namespace ObjectGraph

namespace Compile.TextCondition

variable {δ σ : Type} {D : Domain δ} {means : String → σ → Prop} {listed : List Literal → Prop}

/-- A condition is made of a predicate, given what its references may mean and which choices are
written as such. -/
inductive Renders (means : String → σ → Prop) (listed : List Literal → Prop) :
    Predicate → TextCondition σ → Prop
  | all {parts : List Predicate} {cs : List (TextCondition σ)}
      (h : List.Forall₂ (Renders means listed) parts cs) :
      Renders means listed (.all parts) (.all cs)
  | any {parts : List Predicate} {cs : List (TextCondition σ)}
      (h : List.Forall₂ (Renders means listed) parts cs) :
      Renders means listed (.any parts) (.any cs)
  | negation {part : Predicate} {c : TextCondition σ} (h : Renders means listed part c) :
      Renders means listed (.negation part) (.negation c)
  | comparison {field : String} {subject : σ} (operator : ComparisonOperator) {value : Literal}
      (h : means field subject) (hv : value ≠ .null) :
      Renders means listed (.comparison field operator value) (.comparison subject operator value)
  | equalsNull {field : String} {subject : σ} (h : means field subject) :
      Renders means listed (.comparison field .equals .null) (.isNull subject)
  | differsFromNull {field : String} {subject : σ} (h : means field subject) :
      Renders means listed (.comparison field .notEquals .null) (.isNotNull subject)
  | oneOf {field : String} {subject : σ} {values : List Literal} (h : means field subject)
      (hl : listed values) : Renders means listed (.oneOf field values) (.oneOf subject values)
  | never (field : String) (hl : ¬ listed []) : Renders means listed (.oneOf field []) .never
  | isNull {field : String} {subject : σ} (h : means field subject) :
      Renders means listed (.isNull field) (.isNull subject)

section Truth

variable {header : Header} {record : Record δ} {types : σ → Option ScalarType} {cells : σ → Cell δ}

mutual

/-- A condition says what its predicate says, if its subjects stand for what the references
mean. -/
lemma Renders.truth (hm : ∀ reference subject, header.Has reference → means reference subject →
      types subject = header.type? reference ∧ cells subject = header.cell record reference) :
    ∀ {predicate : Predicate} {c : TextCondition σ}, Renders means listed predicate c →
    predicate.Within header → c.truth D types cells = predicate.truth D header record
  | _, _, .all h, hw => (truths hm h hw).1
  | _, _, .any h, hw => (truths hm h hw).2
  | .negation part, _, .negation h, hw => by
    have hpart : part.Within header := hw
    rw [TextCondition.truth, Predicate.truth, h.truth hm hpart]
  | .comparison field _ value, _, .comparison operator h hv, hw => by
    obtain ⟨htype, hcell⟩ := hm field _ hw h
    rw [TextCondition.truth, Predicate.truth, htype, hcell]
    cases value <;> first | rfl | exact absurd rfl hv
  | .comparison field _ _, _, .equalsNull h, hw => by
    rw [TextCondition.truth, Predicate.truth, (hm field _ hw h).2]
    rfl
  | .comparison field _ _, _, .differsFromNull h, hw => by
    rw [TextCondition.truth, Predicate.truth, (hm field _ hw h).2]
    rfl
  | .oneOf field _, _, .oneOf h _, hw => by
    obtain ⟨htype, hcell⟩ := hm field _ hw h
    rw [TextCondition.truth, htype, hcell, Predicate.truth]
  | _, _, .never _ _, _ => rfl
  | .isNull field, _, .isNull h, hw => by
    rw [TextCondition.truth, (hm field _ hw h).2, Predicate.truth]

lemma truths (hm : ∀ reference subject, header.Has reference → means reference subject →
      types subject = header.type? reference ∧ cells subject = header.cell record reference) :
    ∀ {parts : List Predicate} {cs : List (TextCondition σ)},
    List.Forall₂ (Renders means listed) parts cs → Predicate.partsWithin header parts →
    allTruth D types cells cs = Predicate.allTruth D header record parts ∧
      anyTruth D types cells cs = Predicate.anyTruth D header record parts
  | _, _, .nil, _ => ⟨rfl, rfl⟩
  | _, _, .cons h hs, hw => by
    have hfirst := h.truth hm hw.1
    obtain ⟨hall, hany⟩ := truths hm hs hw.2
    constructor
    · rw [allTruth, Predicate.allTruth, hfirst, hall]
    · rw [anyTruth, Predicate.anyTruth, hfirst, hany]

end

end Truth

mutual

/-- A condition speaks of nothing but what references mean. -/
lemma Renders.exists_reference : ∀ {predicate : Predicate} {c : TextCondition σ},
    Renders means listed predicate c → ∀ subject ∈ c.subjects, ∃ reference, means reference subject
  | _, _, .all h | _, _, .any h => exists_references h
  | _, _, .negation h => h.exists_reference
  | .comparison field _ _, _, .comparison _ h _ | .comparison field _ _, _, .equalsNull h
  | .comparison field _ _, _, .differsFromNull h | .oneOf field _, _, .oneOf h _
  | .isNull field, _, .isNull h => List.forall_mem_singleton.2 ⟨field, h⟩
  | _, _, .never _ _ => List.forall_mem_nil _

lemma exists_references : ∀ {parts : List Predicate} {cs : List (TextCondition σ)},
    List.Forall₂ (Renders means listed) parts cs →
    ∀ subject ∈ partSubjects cs, ∃ reference, means reference subject
  | _, _, .nil => List.forall_mem_nil _
  | _, _, .cons h hs => List.forall_mem_append.2 ⟨h.exists_reference, exists_references hs⟩

end

end Compile.TextCondition

open Compile (TextCondition)

/-! ### Conditions of statements -/

namespace Cypher

variable {catalog : Catalog} {draft : Draft}

/-- Whether a reference is resolved to a property. -/
def Draft.Resolves (catalog : Catalog) (draft : Draft) (reference : String)
    (property : Property) : Prop :=
  draft.resolve catalog reference = .ok property

lemma renders_comparison {means : String → Property → Prop} {listed : List Literal → Prop}
    {field : String} {property : Property} {operator : ComparisonOperator} {value : Literal}
    {c : TextCondition Property} (hr : means field property)
    (h : Draft.comparison field property operator value = .ok c) :
    TextCondition.Renders means listed (.comparison field operator value) c := by
  cases value with
  | null =>
    cases operator <;> cases h
    · exact .equalsNull hr
    · exact .differsFromNull hr
  | boolean | integer | float | string =>
    cases h
    exact .comparison operator hr nofun

mutual

/-- In a statement every choice is written as such. -/
lemma renders_condition : ∀ {predicate : Predicate} {c : TextCondition Property},
    draft.condition catalog predicate = .ok c →
    TextCondition.Renders (draft.Resolves catalog) (fun _ => True) predicate c
  | .all _, _, h => by
    obtain ⟨cs, hcs, h⟩ := Compile.bind_eq_ok.1 h
    obtain rfl := Compile.pure_eq_ok.1 h
    exact .all (renders_conditions hcs)
  | .any _, _, h => by
    obtain ⟨cs, hcs, h⟩ := Compile.bind_eq_ok.1 h
    obtain rfl := Compile.pure_eq_ok.1 h
    exact .any (renders_conditions hcs)
  | .negation _, _, h => by
    obtain ⟨c, hc, h⟩ := Compile.bind_eq_ok.1 h
    obtain rfl := Compile.pure_eq_ok.1 h
    exact .negation (renders_condition hc)
  | .comparison _ _ _, _, h => by
    obtain ⟨property, hr, hc⟩ := Compile.bind_eq_ok.1 h
    exact renders_comparison hr hc
  | .oneOf _ _, _, h => by
    obtain ⟨property, hr, h⟩ := Compile.bind_eq_ok.1 h
    obtain rfl := Compile.pure_eq_ok.1 h
    exact .oneOf hr trivial
  | .isNull _, _, h => by
    obtain ⟨property, hr, h⟩ := Compile.bind_eq_ok.1 h
    obtain rfl := Compile.pure_eq_ok.1 h
    exact .isNull hr

lemma renders_conditions : ∀ {parts : List Predicate} {cs : List (TextCondition Property)},
    draft.conditions catalog parts = .ok cs →
    List.Forall₂ (TextCondition.Renders (draft.Resolves catalog) fun _ => True) parts cs
  | [], _, h => by
    obtain rfl := Compile.pure_eq_ok.1 h
    exact .nil
  | _ :: _, _, h => by
    obtain ⟨c, hc, h⟩ := Compile.bind_eq_ok.1 h
    obtain ⟨cs, hcs, h⟩ := Compile.bind_eq_ok.1 h
    obtain rfl := Compile.pure_eq_ok.1 h
    exact .cons (renders_condition hc) (renders_conditions hcs)

end

end Cypher

/-! ### Conditions of stages -/

namespace Malloy

variable {draft : Draft}

/-- Whether a reference is resolved to a field. -/
def Draft.Resolves (draft : Draft) (reference name : String) : Prop :=
  draft.resolve reference = .ok name

lemma renders_comparison {means : String → String → Prop} {listed : List Literal → Prop}
    {field name : String} {operator : ComparisonOperator} {value : Literal}
    {c : TextCondition String} (hr : means field name)
    (h : Draft.comparison name operator value = .ok c) :
    TextCondition.Renders means listed (.comparison field operator value) c := by
  cases value with
  | null =>
    cases operator <;> cases h
    · exact .equalsNull hr
    · exact .differsFromNull hr
  | boolean | integer | float | string =>
    cases h
    exact .comparison operator hr nofun

mutual

/-- A stage has no words for a choice from nothing. -/
lemma renders_condition : ∀ {predicate : Predicate} {c : TextCondition String},
    draft.condition predicate = .ok c →
    TextCondition.Renders draft.Resolves (· ≠ []) predicate c
  | .all _, _, h => by
    obtain ⟨cs, hcs, h⟩ := Compile.bind_eq_ok.1 h
    obtain rfl := Compile.pure_eq_ok.1 h
    exact .all (renders_conditions hcs)
  | .any _, _, h => by
    obtain ⟨cs, hcs, h⟩ := Compile.bind_eq_ok.1 h
    obtain rfl := Compile.pure_eq_ok.1 h
    exact .any (renders_conditions hcs)
  | .negation _, _, h => by
    obtain ⟨c, hc, h⟩ := Compile.bind_eq_ok.1 h
    obtain rfl := Compile.pure_eq_ok.1 h
    exact .negation (renders_condition hc)
  | .comparison _ _ _, _, h => by
    obtain ⟨name, hr, hc⟩ := Compile.bind_eq_ok.1 h
    exact renders_comparison hr hc
  | .oneOf field [], _, h => by
    obtain rfl := Compile.pure_eq_ok.1 h
    exact .never field fun hl => hl rfl
  | .oneOf _ (_ :: _), _, h => by
    obtain ⟨name, hr, h⟩ := Compile.bind_eq_ok.1 h
    obtain rfl := Compile.pure_eq_ok.1 h
    exact .oneOf hr (List.cons_ne_nil _ _)
  | .isNull _, _, h => by
    obtain ⟨name, hr, h⟩ := Compile.bind_eq_ok.1 h
    obtain rfl := Compile.pure_eq_ok.1 h
    exact .isNull hr

lemma renders_conditions : ∀ {parts : List Predicate} {cs : List (TextCondition String)},
    draft.conditions parts = .ok cs →
    List.Forall₂ (TextCondition.Renders draft.Resolves (· ≠ [])) parts cs
  | [], _, h => by
    obtain rfl := Compile.pure_eq_ok.1 h
    exact .nil
  | _ :: _, _, h => by
    obtain ⟨c, hc, h⟩ := Compile.bind_eq_ok.1 h
    obtain ⟨cs, hcs, h⟩ := Compile.bind_eq_ok.1 h
    obtain rfl := Compile.pure_eq_ok.1 h
    exact .cons (renders_condition hc) (renders_conditions hcs)

end

end Malloy
end ObjectGraph
