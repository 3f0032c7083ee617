/-
# Conditions of statements

The text of a condition is read as the formula of the predicate that it was made from, with the
properties that references are resolved to as names.  The conditions of a part are those of its
identities and of its filters, each in the names of the draft that it was put on.  The line of them
is read as their conjunction: only a disjunction would be torn apart between other conjuncts, and it
stands in parentheses.
-/
import ObjectGraph.Proofs.Cypher.Walks
import ObjectGraph.Proofs.Formula.Texts

namespace ObjectGraph.Cypher

open Compile (TextCondition)
open Formula (Agrees IsName Written)

variable {catalog : Catalog} {draft result : Draft} {query : Query}

/-! ### The dialect -/

lemma spells_comma {a b : List Char} {s t : List Formula.Token} (ha : Formula.Spells a s)
    (hb : Formula.Spells b t) :
    Formula.Spells (a ++ (", ".toList ++ b)) (s ++ .comma :: t) :=
  ha.append (hb.afterBlank.mark rfl) (by decide)

/-- A list between brackets is a test, even if it is empty. -/
lemma isTest_list {name : String} (hn : IsName name) (values : List Literal) :
    Formula.IsTest name (dialect.oneOf name (values.map Literal.text))
      (Formula.among name values) := by
  have hclose : Formula.Spells [']'] [.closeList] := Formula.spells_nil.mark rfl
  have hin : Formula.IsWord "IN" := by decide
  have hkeyword : Formula.keyword? "IN" = some .in := by decide
  have hgoes : (Formula.Token.word "IN").GoesOn := by
    refine ⟨nofun, nofun, ?_, ?_⟩ <;> decide
  have hopen : Formula.Token.openList.GoesOn := ⟨nofun, nofun, nofun, nofun⟩
  have hend : Formula.Token.closeList.GoesOn := ⟨nofun, nofun, nofun, nofun⟩
  by_cases hne : values = []
  · subst hne
    refine ⟨[.word "IN", .openList, .closeList], ?_, ?_, ?_⟩
    · have hall := (Formula.spells_word hn.isWord).blank
        ((Formula.spells_word hin).blank (hclose.mark (c := '[') rfl))
      simpa [dialect] using hall
    · simp [hgoes, hopen, hend]
    · simp [Formula.test?, hkeyword, Formula.list?]
  · obtain ⟨ts, hspells, hts, hseries⟩ :=
      Formula.exists_series spells_comma Formula.goesOn_comma hne
    refine ⟨.word "IN" :: .openList :: (ts ++ [.closeList]), ?_, ?_, ?_⟩
    · have hall := (Formula.spells_word hn.isWord).blank ((Formula.spells_word hin).blank
        ((hspells.append hclose (by decide)).mark (c := '[') rfl))
      simpa [dialect] using hall
    · intro token ht
      simp only [List.mem_cons, List.mem_append, List.not_mem_nil, or_false] at ht
      rcases ht with rfl | rfl | ht | rfl
      exacts [hgoes, hopen, hts token ht, hend]
    · cases ts with
      | nil => cases hseries []
      | cons token ts =>
        have hlist := hseries [.closeList]
        simp only [Formula.test?, hkeyword]
        cases ts <;> simp_all [Formula.list?]

lemma readable_dialect : Formula.Readable dialect fun _ => True where
  and := by decide
  or := by decide
  not := by decide
  isNull := ⟨"IS", "NULL", by decide, by decide, by decide⟩
  isNotNull := ⟨"IS", "NOT", "NULL", by decide, by decide, by decide, by decide⟩
  operator op := by cases op <;> decide
  oneOf hn _ := isTest_list hn _

/-! ### Conditions -/

/-- The text of the property that a reference is resolved to. -/
def Draft.naming (catalog : Catalog) (draft : Draft) (reference : String) : String :=
  match draft.resolve catalog reference with
  | .ok property => property.text
  | .error _ => reference

lemma naming_eq {reference : String} {property : Property}
    (h : draft.Resolves catalog reference property) :
    draft.naming catalog reference = property.text := by
  have hr : draft.resolve catalog reference = .ok property := h
  rw [Draft.naming, hr]

/-- The formula of a condition agrees with that of its predicate. -/
lemma agrees_condition {predicate : Predicate} {c : TextCondition Property}
    (h : draft.condition catalog predicate = .ok c) :
    (c.formula Property.text).Agrees (predicate.formula (draft.naming catalog)) := by
  refine (renders_condition h).agrees fun reference property hr => ?_
  exact naming_eq hr

/-! ### The line of conditions -/

/-- Among others that all hold, a condition adds its conjuncts. -/
lemma written_conjunctText {c : TextCondition Property}
    (hn : ∀ property ∈ c.subjects, IsName property.text) :
    Written Formula.AreConjuncts (conjunctText c) (c.conjuncts Property.text) := by
  have hreads := readable_dialect.reads hn fun _ _ => trivial
  cases c with
  | all parts =>
    cases parts with
    | nil => exact Formula.written_true.conjuncts
    | cons part rest =>
      have hwritten := readable_dialect.conjuncts Formula.Readable.partTexts_ne_nil
        (readable_dialect.parts hn fun _ _ => trivial)
      exact hwritten
  | any parts => exact hreads.guarded.conjuncts
  | negation | comparison | oneOf | never | isNull | isNotNull =>
    exact (hreads.operand rfl).conjuncts

/-- Conditions that all hold are read as their conjunction. -/
lemma read_conditions {conditions : List (TextCondition Property)} (hne : conditions ≠ [])
    (hn : ∀ c ∈ conditions, ∀ property ∈ c.subjects, IsName property.text) :
    ∃ f, Formula.read (" AND ".intercalate (conditions.map conjunctText)) = some f ∧
      f.Agrees (Formula.all (conditions.map fun c => c.formula Property.text)) := by
  have hwritten : List.Forall₂ (Written Formula.AreConjuncts) (conditions.map conjunctText)
      (conditions.map fun c => c.conjuncts Property.text) :=
    List.forall₂_map_left_iff.2 (List.forall₂_map_right_iff.2
      (List.forall₂_same.2 fun c hc => written_conjunctText (hn c hc)))
  have hkeyword : Formula.keyword? "AND" = some .and := by decide
  have hall := (Formula.Written.joined (Formula.isWord_of_keyword? hkeyword)
    (fun ht hu => Formula.AreConjuncts.and ht hkeyword hu) (List.map_eq_nil_iff.not.2 hne)
    hwritten).alternative.read
  refine ⟨_, hall, ?_⟩
  -- the conjuncts of all conditions in one chain, then condition by condition
  refine (Formula.agrees_conjunction (List.forall₂_same.2 fun f _ => .refl f)).trans
    ((Formula.agrees_all_flatten _).trans (Formula.agrees_all ?_))
  rw [List.map_map]
  exact List.forall₂_map_left_iff.2 (List.forall₂_map_right_iff.2
    (List.forall₂_same.2 fun c _ => (c.agrees_conjuncts Property.text).symm))

/-! ### The conditions of a part -/

variable {naming : String → String}

/-- The formula that a step adds to the conditions. -/
def Draft.added (catalog : Catalog) (draft : Draft) : Step → List Formula
  | .operation (.filter predicate) => [predicate.formula (draft.naming catalog)]
  | .operation _ | .hop _ => []

/-- The formulas of the filters among steps, each in the names of the draft it is put on. -/
def filtersAmong (naming : String → String) (catalog : Catalog) :
    Draft → List Step → List Formula
  | _, [] => []
  | draft, step :: rest =>
    match draft.perform naming catalog step with
    | .ok next => draft.added catalog step ++ filtersAmong naming catalog next rest
    | .error _ => []

/-- The formulas of what restricts the matches of a query: its identities, then its filters. -/
def restrictions (naming : String → String) (catalog : Catalog) (query : Query) :
    List Formula :=
  match Draft.ofSource catalog query.source with
  | .ok first =>
    (query.source.ids.map fun ids => Predicate.formula (first.naming catalog)
      (.oneOf idKey (ids.map .integer))).toList
      ++ filtersAmong naming catalog first (steps none query.operations)
  | .error _ => []

/-- The conditions of a part agree with formulas. -/
def Part.Says (part : Part) (fs : List Formula) : Prop :=
  List.Forall₂ (fun c f => (c.formula Property.text).Agrees f) part.conditions fs

lemma Part.Says.same {fs : List Formula} (h : draft.part.Says fs)
    (hc : result.part.conditions = draft.part.conditions) : result.part.Says (fs ++ []) := by
  rwa [List.append_nil, Part.Says, hc]

lemma Part.Says.perform {fs : List Formula} {step : Step} (h : draft.part.Says fs)
    (hp : draft.perform naming catalog step = .ok result) :
    result.part.Says (fs ++ draft.added catalog step) := by
  cases step with
  | operation operation =>
    cases (perform_operation_ok hp).2 with
    | filter _ hc => exact List.rel_append h (.cons (agrees_condition hc) .nil)
    | project | take | skip | count | nest | groupBy | rename | orderBy | edge | union =>
      exact h.same rfl
  | hop chain =>
    obtain ⟨edge, target, -, -, rfl⟩ := perform_hop_ok hp
    exact h.same rfl

lemma Part.Says.performAll {fs : List Formula} {steps : List Step} (h : draft.part.Says fs)
    (hp : draft.performAll naming catalog steps = .ok result) :
    result.part.Says (fs ++ filtersAmong naming catalog draft steps) := by
  induction steps generalizing draft fs with
  | nil =>
    obtain rfl := Except.ok.inj hp
    rwa [filtersAmong, List.append_nil]
  | cons step rest ih =>
    obtain ⟨next, hnext, hrest⟩ := performAll_cons.1 hp
    rw [filtersAmong, hnext, ← List.append_assoc]
    exact ih (h.perform hnext) hrest

lemma Part.IsOf.says {part : Part} (h : part.IsOf naming catalog query) :
    part.Says (restrictions naming catalog query) := by
  obtain ⟨draft, hdraft, rfl⟩ := h
  obtain ⟨type, first, htype, hfirst, hsteps⟩ := ofQuery_ok hdraft
  rw [restrictions, ofSource_eq_ok htype hfirst]
  refine Part.Says.performAll ?_ hsteps
  cases hids : query.source.ids with
  | none =>
    rw [hids] at hfirst
    obtain rfl := Compile.pure_eq_ok.1 hfirst
    exact .nil
  | some ids =>
    rw [hids] at hfirst
    obtain ⟨property, hproperty, hfirst⟩ := Compile.bind_eq_ok.1 hfirst
    -- the condition that is added does not change what references are resolved to
    have hname : first.naming catalog idKey = property.text := by
      obtain rfl := Compile.pure_eq_ok.1 hfirst
      exact naming_eq hproperty
    obtain rfl := Compile.pure_eq_ok.1 hfirst
    refine .cons ?_ .nil
    change (Formula.among property.text _).Agrees (Formula.among (Draft.naming catalog _ idKey) _)
    rw [hname]
    exact .refl _

/-- The line of the conditions is read as the conjunction of all restrictions; there is none if
nothing restricts the matches. -/
lemma Part.IsOf.read_line {part : Part} (h : part.IsOf naming catalog query)
    (hn : ∀ c ∈ part.conditions, ∀ property ∈ c.subjects, IsName property.text) :
    (restrictions naming catalog query = [] ∧ part.lines[1]? = some part.returnText) ∨
      ∃ text f, part.lines[1]? = some ("WHERE " ++ text) ∧ Formula.read text = some f ∧
        f.Agrees (Formula.all (restrictions naming catalog query)) := by
  have hsays := h.says
  by_cases hne : part.conditions = []
  · rw [Part.Says, hne] at hsays
    refine .inl ⟨List.forall₂_nil_left_iff.1 hsays, ?_⟩
    rw [Part.lines, hne]
    rfl
  · obtain ⟨f, hread, hagrees⟩ := read_conditions hne hn
    refine .inr ⟨_, f, ?_, hread, hagrees.trans (Formula.agrees_all ?_)⟩
    · rw [Part.lines]
      cases hconditions : part.conditions with
      | nil => exact absurd hconditions hne
      | cons c rest => rfl
    · exact List.forall₂_map_left_iff.2 hsays

end ObjectGraph.Cypher
