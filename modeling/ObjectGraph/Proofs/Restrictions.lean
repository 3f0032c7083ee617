/-
# The logic of conditions

A predicate keeps its logic in the text that it becomes: whoever reads the condition with the usual
precedence finds the tests of the predicate, in its order, and a formula that follows from them as
the predicate does.  The line of a statement that joins several conditions is read as their
conjunction.
-/
import ObjectGraph.Proofs.Cypher.Restrictions
import ObjectGraph.Proofs.Malloy.Restrictions
import ObjectGraph.Samples.SocialGraph

namespace ObjectGraph

open Formula (IsName)

/-- If the fields of a condition are plain identifiers in its text, a condition of a statement and
a condition of a stage are read as formulas that agree with that of the predicate, in the names that
its references are resolved to.  Behind the path of a part comes the line of its conditions, which
is read as the conjunction of the identities and the filters of the query, unless nothing restricts
the matches. -/
theorem conditions_keep_logic (naming : String → String) (catalog : Catalog) :
    (∀ (draft : Cypher.Draft) predicate c, draft.condition catalog predicate = .ok c →
      (∀ property ∈ c.subjects, IsName property.text) →
      ∃ f, Formula.read (c.text Cypher.dialect Cypher.Property.text) = some f ∧
        f.Agrees (predicate.formula (draft.naming catalog))) ∧
    (∀ query statement, Cypher.compile catalog query naming = .ok statement →
      List.Forall₂ (fun query part =>
        (∀ c ∈ part.conditions, ∀ property ∈ c.subjects, IsName property.text) →
        (Cypher.restrictions naming catalog query = [] ∧ part.lines[1]? = some part.returnText) ∨
          ∃ text f, part.lines[1]? = some ("WHERE " ++ text) ∧ Formula.read text = some f ∧
            f.Agrees (.all (Cypher.restrictions naming catalog query))) query.united statement) ∧
    ∀ (draft : Malloy.Draft) predicate c, draft.condition predicate = .ok c →
      (∀ name ∈ c.subjects, IsName name) →
      ∃ f, Formula.read (c.text Malloy.dialect id) = some f ∧
        f.Agrees (predicate.formula draft.naming) := by
  refine ⟨fun draft predicate c hc hn => ?_, fun query statement h => ?_,
    fun draft predicate c hc hn => ?_⟩
  · exact ⟨_, Cypher.readable_dialect.read_text hn fun _ _ => trivial, Cypher.agrees_condition hc⟩
  · exact (Cypher.isOf_of_compile h).imp fun query part hpart hn => hpart.read_line hn
  · have hlisted := (Malloy.renders_condition hc).listed_choices
    exact ⟨_, Malloy.readable_dialect.read_text hn hlisted, Malloy.agrees_condition hc⟩

/-- Of unknown age, or neither young nor called by one of two names. -/
def settled : Predicate :=
  .any [.isNull "age",
    .all [.negation (.any [.comparison "age" .lessThan (.integer 18)]),
      .negation (.oneOf "user.name" [.string "O'Neil", .null]), .all [], .oneOf "name" []]]

/-- Friends, if they have a name, of two settled users. -/
def friendsOfSettled : Query :=
  ⟨{ objectType := "User", ids := some [1, -2] },
    [.filter (.all [.comparison "id" .notEquals (.float (.ofDecimal 15 (-8)))]), .filter settled,
     .edge "friends" [.filter (.comparison "name" .notEquals .null)]]⟩

theorem conditions_keep_logic_friendsOfSettled :
    (∃ part text f,
      Cypher.compile SocialGraph.catalog friendsOfSettled = .ok [part] ∧
      part.lines[1]? = some ("WHERE u.id IN [1, -2] AND u.id <> 1.5e-7 AND (u.age IS NULL OR "
        ++ "(NOT (u.age < 18) AND NOT (u.name IN ['O\\'Neil', null]) AND (true) AND u.name IN [])) "
        ++ "AND n1.name IS NOT NULL") ∧
      part.lines[1]? = some ("WHERE " ++ text) ∧ Formula.read text = some f ∧
      f.Agrees (.all [.among "u.id" [.integer 1, .integer (-2)],
        .all [.atom (.compares "u.id" .notEquals (.float (.ofDecimal 15 (-8))))],
        settled.formula fun field => "u." ++ unqualified field,
        .not (.atom (.isNull "n1.name"))])) ∧
    (∃ c f, (Cypher.Draft.start "User" SocialGraph.user).condition SocialGraph.catalog settled
        = .ok c ∧
      c.text Cypher.dialect Cypher.Property.text = "u.age IS NULL OR (NOT (u.age < 18) "
        ++ "AND NOT (u.name IN ['O\\'Neil', null]) AND (true) AND u.name IN [])" ∧
      Formula.read (c.text Cypher.dialect Cypher.Property.text) = some f ∧
      f.Agrees (settled.formula fun field => "u." ++ unqualified field)) ∧
    ∃ c f, (Malloy.Draft.start "User" SocialGraph.user).condition settled = .ok c ∧
      c.text Malloy.dialect id = "age is null or "
        ++ "(not (age < 18) and not (name = 'O\\'Neil' | null) and (true) and false)" ∧
      Formula.read (c.text Malloy.dialect id) = some f ∧
      f.Agrees (settled.formula unqualified) := by
  obtain ⟨hcondition, hline, hstage⟩ :=
    conditions_keep_logic Text.upperSnakeCase SocialGraph.catalog
  refine ⟨?_, ?_, ?_⟩
  · have hrestrictions : Cypher.restrictions Text.upperSnakeCase SocialGraph.catalog
        friendsOfSettled =
        [.among "u.id" [.integer 1, .integer (-2)],
          .all [.atom (.compares "u.id" .notEquals (.float (.ofDecimal 15 (-8))))],
          settled.formula fun field => "u." ++ unqualified field,
          .not (.atom (.isNull "n1.name"))] := by
      decide +kernel
    obtain ⟨hpart, -⟩ := List.forall₂_cons.1 (hline friendsOfSettled _ rfl)
    obtain ⟨hnone, -⟩ | ⟨text, f, htext, hread, hagrees⟩ := hpart (by decide +kernel)
    · rw [hrestrictions] at hnone
      cases hnone
    · rw [hrestrictions] at hagrees
      exact ⟨_, text, f, rfl, by decide +kernel, htext, hread, hagrees⟩
  · obtain ⟨f, hread, hagrees⟩ :=
      hcondition (.start "User" SocialGraph.user) settled _ rfl (by decide +kernel)
    have hformula : settled.formula
        ((Cypher.Draft.start "User" SocialGraph.user).naming SocialGraph.catalog)
        = settled.formula fun field => "u." ++ unqualified field := by
      decide +kernel
    rw [hformula] at hagrees
    exact ⟨_, f, rfl, by decide +kernel, hread, hagrees⟩
  · obtain ⟨f, hread, hagrees⟩ :=
      hstage (.start "User" SocialGraph.user) settled _ rfl (by decide +kernel)
    have hformula : settled.formula (Malloy.Draft.start "User" SocialGraph.user).naming
        = settled.formula unqualified := by
      decide +kernel
    rw [hformula] at hagrees
    exact ⟨_, f, rfl, by decide +kernel, hread, hagrees⟩

end ObjectGraph
