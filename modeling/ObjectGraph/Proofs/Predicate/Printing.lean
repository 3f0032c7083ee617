/-
# The texts of predicates

The text of a predicate is a text of its normal form, if its fields and doubles are read as
themselves.  Every part of a chain is printed as something that binds tighter than the chain:
compound parts stand in parentheses, so that the text of a part can be read wherever a negation
can.
-/
import ObjectGraph.Proofs.Predicate.Normal
import ObjectGraph.Proofs.Predicate.Numbers
import ObjectGraph.Proofs.Predicate.Parsing

namespace ObjectGraph.Predicate

variable {p : Predicate} {ps : List Predicate} {field : String}

/-! ### Literals -/

lemma spells_literal (value : Literal) (h : ∀ x, value = .float x → Legible x) :
    Spells value.text.toList [.literal value] := by
  cases value with
  | null => exact spells_word (by decide)
  | boolean b =>
    cases b with
    | false => exact spells_word (by decide)
    | true => exact spells_word (by decide)
  | integer i => exact spells_integer i
  | float x => exact spells_float (h x rfl)
  | string s => exact spells_string s

/-- The tree of a list of values, without a comma after the last one. -/
def Values.ofList : List Literal → Values
  | [] => .none
  | [value] => .last value
  | value :: next :: rest => .more value (ofList (next :: rest))

lemma Values.list_ofList : ∀ values : List Literal, (Values.ofList values).list = values
  | [] => rfl
  | [_] => rfl
  | value :: next :: rest => by rw [ofList, list, list_ofList (next :: rest)]

lemma spells_values {values : List Literal} (h : ∀ x, .float x ∈ values → Legible x) :
    Spells (", ".intercalate (values.map Literal.text)).toList (Values.ofList values).tokens := by
  induction values with
  | nil => exact spells_nil
  | cons value values ih =>
    have hvalue := spells_literal value fun x hx => h x (hx ▸ List.mem_cons_self)
    cases values with
    | nil => simpa [Values.ofList, Values.tokens] using hvalue
    | cons next rest =>
      have := hvalue.comma (ih fun x hx => h x (List.mem_cons_of_mem _ hx))
      simpa [Values.ofList, Values.tokens] using this

/-! ### Atoms -/

/-- A field that is read as itself: a word that is cut nowhere and is neither a keyword nor a
literal. -/
structure Plain (field : String) : Prop where
  word : IsWord field.toList
  uncut : '.' ∉ field.toList
  identifier : wordToken field = .identifier field

/-- What a test consists of is read as itself. -/
structure Printable (test : String × List Literal) : Prop where
  field : Plain test.1
  floats : ∀ x, .float x ∈ test.2 → Legible x

lemma Plain.names (h : Plain field) : Names field field := by
  refine ⟨?_, h.uncut, .inl rfl⟩
  rintro rfl
  obtain ⟨c, cs, hnil, -⟩ := h.word
  cases hnil

lemma Plain.spells (h : Plain field) : Spells field.toList [.identifier field] := by
  have hspells := spells_word h.word
  rwa [h.identifier] at hspells

/-- A text that can stand wherever a negation can, with its predicate. -/
def Stands (text : String) (p : Predicate) : Prop :=
  ∃ n : Negation, Spells text.toList n.tokens ∧ n.Denotes p

lemma stands_atom {text : String} (a : Atom) (hs : Spells text.toList a.tokens)
    (hd : a.Denotes p) : Stands text p :=
  ⟨.primary (.atom a), hs, hd⟩

lemma stands_comparison {op : ComparisonOperator} {value : Literal}
    (h : Printable (field, [value])) (hc : Compares field op value p) :
    Stands (comparison field op value).text p := by
  refine stands_atom (.comparison field op value) ?_ (.comparison h.field.names hc)
  have hvalue := spells_literal value fun x hx => h.floats x (hx ▸ List.mem_cons_self)
  have hspells := h.field.spells.blank ((spells_operator op).blank hvalue)
  simpa [text, Atom.tokens] using hspells

lemma stands_oneOf {values : List Literal} (h : Printable (field, values)) :
    Stands (oneOf field values).text (oneOf field values) := by
  refine stands_atom (.member field ⟨false, Values.ofList values⟩) ?_ ?_
  · have hlist := (spells_values h.floats).closeParen.openParen
    have hspells := h.field.spells.blank (spells_in.blank hlist)
    simpa [text, Atom.tokens, Enclosed.tokens, opening, closing] using hspells
  · have hdenotes : (Atom.member field ⟨false, Values.ofList values⟩).Denotes
        (.oneOf field (Values.ofList values).list) := .member h.field.names
    rwa [Values.list_ofList] at hdenotes

lemma stands_negation {text : String} (h : Stands text p) :
    Stands ("not " ++ text) (negation p) := by
  obtain ⟨n, hs, hd⟩ := h
  have hspells := spells_not.blank hs
  exact ⟨.not n, by simpa [Negation.tokens] using hspells, p, hd, rfl⟩

/-! ### Chains -/

/-- The texts of some parts stand for their normal forms. -/
def PartsStand (ps : List Predicate) : Prop :=
  ∀ p ∈ ps, Stands (p.guarded p.text) p.norm

lemma exists_conjunction (hne : ps ≠ []) (h : PartsStand ps) : ∃ c : Conjunction,
    Spells (all ps).text.toList c.tokens ∧ c.Parts (normParts ps) := by
  induction ps with
  | nil => exact absurd rfl hne
  | cons p ps ih =>
    obtain ⟨⟨n, hs, hd⟩, hrest⟩ := List.forall_mem_cons.1 h
    cases ps with
    | nil =>
      refine ⟨.last n, ?_, p.norm, hd, rfl⟩
      simpa [text, partTexts, Conjunction.tokens] using hs
    | cons q ps =>
      obtain ⟨c, hsc, hdc⟩ := ih (List.cons_ne_nil _ _) hrest
      have hspells := hs.blank (spells_and.blank hsc)
      refine ⟨.more n c, ?_, p.norm, _, hd, hdc, rfl⟩
      simpa [text, partTexts, Conjunction.tokens] using hspells

lemma exists_disjunction (hne : ps ≠ []) (h : PartsStand ps) : ∃ d : Disjunction,
    Spells (any ps).text.toList d.tokens ∧ d.Parts (normParts ps) := by
  induction ps with
  | nil => exact absurd rfl hne
  | cons p ps ih =>
    obtain ⟨⟨n, hs, hd⟩, hrest⟩ := List.forall_mem_cons.1 h
    cases ps with
    | nil =>
      refine ⟨.last (.last n), ?_, p.norm, hd, rfl⟩
      simpa [text, partTexts, Disjunction.tokens, Conjunction.tokens] using hs
    | cons q ps =>
      obtain ⟨d, hsd, hdd⟩ := ih (List.cons_ne_nil _ _) hrest
      have hspells := hs.blank (spells_or.blank hsd)
      refine ⟨.more (.last n) d, ?_, p.norm, _, hd, hdd, rfl⟩
      simpa [text, partTexts, Disjunction.tokens, Conjunction.tokens] using hspells

lemma Conjunction.Parts.denotes {c : Conjunction} (h : c.Parts ps) : c.Denotes (chain all ps) := by
  cases c with
  | last n =>
    obtain ⟨p, hp, rfl⟩ := h
    exact hp
  | more n c =>
    obtain ⟨p, others, hp, hothers, rfl⟩ := h
    obtain ⟨q, qs, rfl⟩ := hothers.exists_cons
    exact ⟨p, q :: qs, hp, hothers, rfl⟩

lemma Disjunction.Parts.denotes {d : Disjunction} (h : d.Parts ps) : d.Denotes (chain any ps) := by
  cases d with
  | last c =>
    obtain ⟨p, hp, rfl⟩ := h
    exact hp
  | more c d =>
    obtain ⟨p, others, hp, hothers, rfl⟩ := h
    obtain ⟨q, qs, rfl⟩ := hothers.exists_cons
    exact ⟨p, q :: qs, hp, hothers, rfl⟩

/-- A text that stands alone for a predicate. -/
def Says (text : String) (p : Predicate) : Prop :=
  ∃ d : Disjunction, Spells text.toList d.tokens ∧ d.Denotes p

lemma Stands.says {text : String} (h : Stands text p) : Says text p := by
  obtain ⟨n, hs, hd⟩ := h
  exact ⟨.last (.last n), by simpa [Disjunction.tokens, Conjunction.tokens] using hs, hd⟩

lemma says_all (hne : ps ≠ []) (h : PartsStand ps) : Says (all ps).text (all ps).norm := by
  obtain ⟨c, hs, hd⟩ := exists_conjunction hne h
  exact ⟨.last c, by simpa [Disjunction.tokens] using hs, by rw [norm]; exact hd.denotes⟩

lemma says_any (hne : ps ≠ []) (h : PartsStand ps) : Says (any ps).text (any ps).norm := by
  obtain ⟨d, hs, hd⟩ := exists_disjunction hne h
  exact ⟨d, hs, by rw [norm]; exact hd.denotes⟩

lemma Says.guarded {text : String} (h : Says text p) : Stands ("(" ++ text ++ ")") p := by
  obtain ⟨d, hs, hd⟩ := h
  have hspells := hs.closeParen.openParen
  exact ⟨.primary (.group d), by simpa [Negation.tokens, Primary.tokens] using hspells, hd⟩

/-! ### Trees -/

lemma guarded_compound {text : String} (h : p.isCompound = true) :
    p.guarded text = "(" ++ text ++ ")" :=
  if_pos h

lemma guarded_simple {text : String} (h : p.isCompound = false) : p.guarded text = text :=
  if_neg (by simp [h])

lemma text_isNull : (isNull field).text = (comparison field .equals .null).text := by
  simp [text, ComparisonOperator.symbol, Literal.text, String.append_assoc]

lemma compares_norm {op : ComparisonOperator} {value : Literal}
    (h : (comparison field op value).Expressible) :
    Compares field op value (comparison field op value).norm := by
  by_cases hnull : value = .null
  · subst hnull
    rcases h rfl with rfl | rfl
    · exact .isNull
    · exact .isNotNull
  · rw [norm_comparison hnull]
    exact .comparison hnull

mutual

/-- The text of a predicate, in parentheses if it is compound, stands for its normal form. -/
lemma stands_guarded : ∀ {p : Predicate}, p.Expressible → (∀ test ∈ p.tests, Printable test) →
    Stands (p.guarded p.text) p.norm
  | all _, he, ht => by
    rw [guarded_compound rfl]
    exact (says_all he.1 (parts_stand he.2 ht)).guarded
  | any _, he, ht => by
    rw [guarded_compound rfl]
    exact (says_any he.1 (parts_stand he.2 ht)).guarded
  | negation part, he, ht => by
    have hp : Stands (part.guarded part.text) part.norm := stands_guarded he ht
    rw [guarded_simple rfl, text, norm]
    exact stands_negation hp
  | comparison field op value, he, ht => by
    rw [guarded_simple rfl]
    exact stands_comparison (ht (field, [value]) List.mem_cons_self) (compares_norm he)
  | oneOf field values, _, ht => by
    rw [guarded_simple rfl, norm]
    exact stands_oneOf (ht (field, values) List.mem_cons_self)
  | isNull field, _, ht => by
    have htest := ht (field, []) List.mem_cons_self
    rw [guarded_simple rfl, text_isNull, norm]
    exact stands_comparison ⟨htest.field, by simp⟩ .isNull

lemma parts_stand : ∀ {ps : List Predicate}, partsExpressible ps →
    (∀ test ∈ partTests ps, Printable test) → PartsStand ps
  | [], _, _ => nofun
  | _ :: _, he, ht => List.forall_mem_cons.2
    ⟨stands_guarded he.1 fun test h => ht test (List.mem_append_left _ h),
      parts_stand he.2 fun test h => ht test (List.mem_append_right _ h)⟩

end

/-- The text of a predicate says its normal form. -/
lemma says_text (he : p.Expressible) (ht : ∀ test ∈ p.tests, Printable test) :
    Says p.text p.norm := by
  cases hp : p.isCompound with
  | false =>
    have hstands := stands_guarded he ht
    rw [guarded_simple hp] at hstands
    exact hstands.says
  | true =>
    cases p with
    | all ps => exact says_all he.1 (parts_stand he.2 ht)
    | any ps => exact says_any he.1 (parts_stand he.2 ht)
    | negation | comparison | oneOf | isNull => cases hp

lemma Says.parse_eq {text : String} (h : Says text p) : parse text = .ok p := by
  obtain ⟨d, hs, hd⟩ := h
  obtain ⟨ts, hts, hbare⟩ := hs.exists_tokens
  have hparse : parse text = ofTokens ts := by
    rw [parse, tokenize, hts]
    rfl
  rw [hparse, ofTokens_eq_ok]
  exact ⟨d, hbare.symm, hd⟩

/-- The tree of a text that is read. -/
lemma exists_tree {text : String} (h : parse text = .ok p) : ∃ (ts : List Placed) (d : Disjunction),
    tokenize text = .ok ts ∧ d.tokens = bare ts ∧ d.Denotes p := by
  cases hts : tokenize text with
  | error e =>
    rw [parse, hts] at h
    cases h
  | ok ts =>
    rw [parse, hts] at h
    obtain ⟨d, hd, hp⟩ := ofTokens_eq_ok.1 h
    exact ⟨ts, d, rfl, hd, hp⟩

/-! ### Reading what was printed -/

/-- Whatever its shape, a predicate that has a text is read from it as its normal form: chains in
chains keep their parentheses, and strings their quotation marks. -/
theorem parse_text_eq_norm (he : p.Expressible) (ht : ∀ test ∈ p.tests, Printable test) :
    parse p.text = .ok p.norm := by
  have hsays : Says p.text p.norm := says_text he ht
  exact hsays.parse_eq

/-- A quarter. -/
def quarter : Double := ⟨false, 0x3fd0000000000000, by decide⟩

/-- A chain of one in a chain, chains below a negation, comparisons with null, and strings and
doubles among the values. -/
def nestedChains : Predicate :=
  all [any [comparison "email" .notEquals .null],
    all [comparison "age" .greaterOrEqual (.integer 16),
      negation (any [comparison ":id" .equals (.string "a \"quoted\" \\ word\n"),
        oneOf "_score" [.null, .boolean true, .float quarter]])]]

theorem parse_text_eq_norm_nestedChains :
    nestedChains.Expressible ∧ (∀ test ∈ nestedChains.tests, Printable test) ∧
      parse nestedChains.text = .ok (all [negation (isNull "email"),
        all [comparison "age" .greaterOrEqual (.integer 16),
          negation (any [comparison ":id" .equals (.string "a \"quoted\" \\ word\n"),
            oneOf "_score" [.null, .boolean true, .float quarter]])]]) := by
  have he : nestedChains.Expressible := by
    simp [nestedChains, Expressible, partsExpressible]
  have hplain : ∀ field ∈ ["email", "age", ":id", "_score"], Plain field := by
    intro field hf
    have hword : IsWord field.toList ∧ '.' ∉ field.toList ∧
        wordToken field = .identifier field := by
      revert field
      decide
    exact ⟨hword.1, hword.2.1, hword.2.2⟩
  have hquarter : Legible quarter := by decide +kernel
  have ht : ∀ test ∈ nestedChains.tests, Printable test := by
    intro test htest
    refine ⟨hplain _ ?_, fun x hx => ?_⟩
    · revert test
      decide
    · have hx : x = quarter := by
        revert x
        revert test
        simp [nestedChains, tests, partTests]
      exact hx ▸ hquarter
  exact ⟨he, ht, parse_text_eq_norm he ht⟩

end ObjectGraph.Predicate
