/-
# Conditions of stages

The text of a condition is read as the formula of the predicate that it was made from, with the
fields that references are resolved to as names.  A choice of several values is written without
brackets, so it cannot be empty; an empty one is left out, and so is its field.
-/
import ObjectGraph.Malloy.Compile
import ObjectGraph.Proofs.Formula.Texts

namespace ObjectGraph.Malloy

open Compile (TextCondition)
open Formula (Agrees IsName)

variable {draft : Draft}

/-! ### The dialect -/

lemma spells_bar {a b : List Char} {s t : List Formula.Token} (ha : Formula.Spells a s)
    (hb : Formula.Spells b t) :
    Formula.Spells (a ++ (" | ".toList ++ b)) (s ++ .bar :: t) :=
  ha.blank (hb.afterBlank.mark rfl)

/-- Alternatives behind an equality are a test. -/
lemma isTest_alternatives {name : String} {values : List Literal} (hn : IsName name)
    (hne : values ≠ []) :
    Formula.IsTest name (dialect.oneOf name (values.map Literal.text))
      (Formula.among name values) := by
  obtain ⟨ts, hspells, hts, hseries⟩ := Formula.exists_series spells_bar Formula.goesOn_bar hne
  have hequals : Formula.Spells ['='] [.operator .equals] :=
    Formula.spells_operator List.mem_cons_self
  refine ⟨.operator .equals :: ts, ?_, ?_, ?_⟩
  · have hall := (Formula.spells_word hn.isWord).blank (hequals.blank hspells)
    simpa [dialect] using hall
  · exact List.forall_mem_cons.2 ⟨⟨nofun, nofun, nofun, nofun⟩, hts⟩
  · have hends := hseries []
    rw [List.append_nil] at hends
    simp [Formula.test?, hends]

lemma readable_dialect : Formula.Readable dialect (· ≠ []) where
  and := by decide
  or := by decide
  not := by decide
  isNull := ⟨"is", "null", by decide, by decide, by decide⟩
  isNotNull := ⟨"is", "not", "null", by decide, by decide, by decide, by decide⟩
  operator op := by cases op <;> decide
  oneOf := isTest_alternatives

/-! ### Conditions -/

/-- The field that a reference is resolved to. -/
def Draft.naming (draft : Draft) (reference : String) : String :=
  match draft.resolve reference with
  | .ok name => name
  | .error _ => reference

lemma naming_eq {reference name : String} (h : draft.Resolves reference name) :
    draft.naming reference = name := by
  have hr : draft.resolve reference = .ok name := h
  rw [Draft.naming, hr]

/-- The formula of a condition agrees with that of its predicate. -/
lemma agrees_condition {predicate : Predicate} {c : TextCondition String}
    (h : draft.condition predicate = .ok c) :
    (c.formula id).Agrees (predicate.formula draft.naming) := by
  refine (renders_condition h).agrees fun reference name hr => ?_
  exact naming_eq hr

end ObjectGraph.Malloy
