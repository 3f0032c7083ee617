/-
# Conditions are read back

The text of a condition is read as the formula of the condition.  A compound part stands in
parentheses inside others, so every part of a chain is an operand; the text of a condition by itself
is a chain of operands, or one operand.

What languages differ in is the words of a dialect.  They are given as texts, and a dialect is
readable if its texts are those of the keywords, of the operators and of tests.
-/
import ObjectGraph.Proofs.Formula.Reader
import ObjectGraph.Proofs.Rendering

namespace ObjectGraph

open Compile (Dialect TextCondition joined)

namespace Compile.TextCondition

variable {σ : Type}

mutual

/-- The lists of values that a condition looks for its subjects in. -/
def choices : TextCondition σ → List (List Literal)
  | all parts | any parts => partChoices parts
  | negation part => part.choices
  | oneOf _ values => [values]
  | comparison _ _ _ | never | isNull _ | isNotNull _ => []

/-- The lists of values in all parts, in order. -/
def partChoices : List (TextCondition σ) → List (List Literal)
  | [] => []
  | part :: rest => part.choices ++ partChoices rest

end

variable {means : String → σ → Prop} {listed : List Literal → Prop} {naming : String → String}
  {name : σ → String}

mutual

/-- The formula of a condition agrees with that of its predicate. -/
lemma Renders.agrees (hn : ∀ reference subject, means reference subject →
      naming reference = name subject) : ∀ {predicate : Predicate} {c : TextCondition σ},
    Renders means listed predicate c → (c.formula name).Agrees (predicate.formula naming)
  | _, _, .all h => Formula.agrees_conjunction (agree hn h)
  | _, _, .any h => Formula.agrees_disjunction (agree hn h)
  | _, _, .negation h => (h.agrees hn).not
  | .comparison field _ value, _, .comparison operator h hv => by
    rw [Predicate.formula, hn field _ h]
    cases value <;> first | exact .refl _ | exact absurd rfl hv
  | .comparison field _ _, _, .equalsNull h | .comparison field _ _, _, .differsFromNull h
  | .oneOf field _, _, .oneOf h _ | .isNull field, _, .isNull h => by
    rw [Predicate.formula, hn field _ h]
    exact .refl _
  | _, _, .never _ _ => .refl _

lemma agree (hn : ∀ reference subject, means reference subject →
      naming reference = name subject) : ∀ {parts : List Predicate} {cs : List (TextCondition σ)},
    List.Forall₂ (Renders means listed) parts cs →
    List.Forall₂ Formula.Agrees (partFormulas name cs) (Predicate.partFormulas naming parts)
  | _, _, .nil => .nil
  | _, _, .cons h hs => .cons (h.agrees hn) (agree hn hs)

end

mutual

/-- A condition chooses only as its language can write it. -/
lemma Renders.listed_choices : ∀ {predicate : Predicate} {c : TextCondition σ},
    Renders means listed predicate c → ∀ values ∈ c.choices, listed values
  | _, _, .all h | _, _, .any h => listed_partChoices h
  | _, _, .negation h => h.listed_choices
  | _, _, .oneOf _ hl => List.forall_mem_singleton.2 hl
  | _, _, .comparison _ _ _ | _, _, .equalsNull _ | _, _, .differsFromNull _ | _, _, .never _ _
  | _, _, .isNull _ => List.forall_mem_nil _

lemma listed_partChoices : ∀ {parts : List Predicate} {cs : List (TextCondition σ)},
    List.Forall₂ (Renders means listed) parts cs → ∀ values ∈ partChoices cs, listed values
  | _, _, .nil => List.forall_mem_nil _
  | _, _, .cons h hs => List.forall_mem_append.2 ⟨h.listed_choices, listed_partChoices hs⟩

end

end Compile.TextCondition

namespace Formula

/-! ### Texts -/

/-- The tokens of a text are of a kind. -/
def Written {α : Type} (kind : List Token → α → Prop) (text : String) (value : α) : Prop :=
  ∃ ts, Spells text.toList ts ∧ kind ts value

/-- The text tests what it calls by a name. -/
def IsTest (name text : String) (f : Formula) : Prop :=
  ∃ us, Spells text.toList (.word name :: us) ∧ (∀ token ∈ us, token.GoesOn) ∧
    test? (.word name :: us) = some f

variable {text name : String} {f : Formula} {fs : List Formula}

lemma IsTest.operand (h : IsTest name text f) : Written IsOperand text f := by
  obtain ⟨us, hs, hu, ht⟩ := h
  exact ⟨_, hs, isOperand_of_test? hu ht⟩

lemma isWord_of_keyword? {word : String} {keyword : Keyword} (h : keyword? word = some keyword) :
    IsWord word := by
  have hall : ∀ entry ∈ keywords, IsWord entry.1 := by decide
  exact hall _ (Named.mem_of_lookup h)

/-- A keyword that is a test by itself. -/
lemma written_keyword {word : String} {keyword : Keyword} (hk : keyword? word = some keyword)
    (ht : test? [.word word] = some f) : Written IsOperand word f :=
  ⟨_, spells_word (isWord_of_keyword? hk), isOperand_of_test? (List.forall_mem_nil _) ht⟩

lemma written_true : Written IsOperand "true" (constant true) :=
  have hkeyword : keyword? "true" = some .true := by decide
  written_keyword hkeyword (by decide +kernel)

lemma written_false : Written IsOperand "false" (constant false) :=
  have hkeyword : keyword? "false" = some .false := by decide
  written_keyword hkeyword (by decide +kernel)

lemma Written.conjuncts (h : Written IsOperand text f) : Written AreConjuncts text [f] := by
  obtain ⟨ts, hs, ht⟩ := h
  exact ⟨ts, hs, ht.conjuncts⟩

lemma Written.alternative (h : Written AreConjuncts text fs) :
    Written AreAlternatives text [conjunction fs] := by
  obtain ⟨ts, hs, ht⟩ := h
  exact ⟨ts, hs, ht.alternative⟩

lemma Written.parens (h : Written AreAlternatives text fs) :
    Written IsOperand ("(" ++ text ++ ")") (disjunction fs) := by
  obtain ⟨ts, hs, ht⟩ := h
  exact ⟨_, by simpa using hs.parens, ht.parens⟩

lemma Written.read (h : Written AreAlternatives text fs) : read text = some (disjunction fs) := by
  obtain ⟨ts, hs, ht⟩ := h
  exact read_of_alternatives hs ht

/-- Texts with a connective between each two. -/
lemma Written.joined {kind : List Token → List Formula → Prop} {word : String}
    (hw : IsWord word)
    (hk : ∀ {ts us fs gs}, kind ts fs → kind us gs → kind (ts ++ .word word :: us) (fs ++ gs))
    {texts : List String} {fss : List (List Formula)} (hne : texts ≠ [])
    (h : List.Forall₂ (Written kind) texts fss) :
    Written kind (joined word texts) fss.flatten := by
  induction h with
  | nil => exact absurd rfl hne
  | @cons text fs texts fss hfirst hrest ih =>
    cases hrest with
    | nil => simpa [Compile.joined] using hfirst
    | cons hnext hrest =>
      obtain ⟨ts, hs, ht⟩ := hfirst
      obtain ⟨us, hs', hu⟩ := ih (List.cons_ne_nil _ _)
      refine ⟨_, ?_, hk ht hu⟩
      have hspells := hs.blank ((spells_word hw).blank hs')
      simpa [Compile.joined, String.intercalate_cons_cons] using hspells

/-! ### Values -/

lemma goesOn_comma : Token.comma.GoesOn := ⟨nofun, nofun, nofun, nofun⟩

lemma goesOn_bar : Token.bar.GoesOn := ⟨nofun, nofun, nofun, nofun⟩

/-- Values with a separator between each two, whatever the ending. -/
lemma exists_series {separator : Token} {between : String}
    (hs : ∀ {a b s t}, Spells a s → Spells b t →
      Spells (a ++ (between.toList ++ b)) (s ++ separator :: t))
    (hg : separator.GoesOn) {values : List Literal} (hne : values ≠ []) :
    ∃ ts, Spells (between.intercalate (values.map Literal.text)).toList ts ∧
      (∀ token ∈ ts, token.GoesOn) ∧
      ∀ ending, series? separator ending (ts ++ ending) = some values := by
  induction values with
  | nil => exact absurd rfl hne
  | cons value values ih =>
    obtain ⟨token, hvalue, hspells⟩ := spells_literal value
    have hgoes := goesOn_of_literal? hvalue
    cases values with
    | nil =>
      refine ⟨[token], by simpa using hspells, List.forall_mem_singleton.2 hgoes, fun ending => ?_⟩
      rw [List.singleton_append, series?_last, hvalue]
      rfl
    | cons next values =>
      obtain ⟨ts, hrest, hall, hseries⟩ := ih (List.cons_ne_nil _ _)
      refine ⟨token :: separator :: ts, ?_,
        List.forall_mem_cons.2 ⟨hgoes, List.forall_mem_cons.2 ⟨hg, hall⟩⟩, fun ending => ?_⟩
      · simpa [String.intercalate_cons_cons] using hs hspells hrest
      · -- the ending is shorter than what follows the first value
        have hlonger : separator :: (ts ++ ending) ≠ ending := by
          intro heq
          have hlength := congrArg List.length heq
          simp only [List.length_cons, List.length_append] at hlength
          omega
        rw [List.cons_append, List.cons_append, series?_more hlonger, hvalue, hseries]
        rfl

/-! ### Dialects -/

/-- A dialect has the keywords, the operators and the tests that formulas are read from.  It may be
able to write only some lists of values. -/
structure Readable (dialect : Dialect) (listed : List Literal → Prop) : Prop where
  and : keyword? dialect.and = some .and
  or : keyword? dialect.or = some .or
  not : keyword? dialect.not = some .not
  isNull : ∃ is null, dialect.isNull = is ++ " " ++ null ∧
    keyword? is = some .is ∧ keyword? null = some .null
  isNotNull : ∃ is not null, dialect.isNotNull = is ++ " " ++ not ++ " " ++ null ∧
    keyword? is = some .is ∧ keyword? not = some .not ∧ keyword? null = some .null
  operator : ∀ op, ((dialect.operator op).toList, op) ∈ operators
  oneOf : ∀ {name values}, IsName name → listed values →
    IsTest name (dialect.oneOf name (values.map Literal.text)) (among name values)

lemma goesOn_of_keyword? {word : String} {keyword : Keyword} (h : keyword? word = some keyword)
    (hand : keyword ≠ .and) (hor : keyword ≠ .or) : (Token.word word).GoesOn :=
  ⟨nofun, nofun, fun heq => hand (Option.some.inj (h.symm.trans heq)),
    fun heq => hor (Option.some.inj (h.symm.trans heq))⟩

namespace Readable

variable {dialect : Dialect} {listed : List Literal → Prop} {σ : Type} {nameOf : σ → String}
  {c : TextCondition σ}

/-! ### Tests -/

lemma comparison (h : Readable dialect listed) (hn : IsName name) (op : ComparisonOperator)
    (value : Literal) :
    IsTest name (name ++ " " ++ dialect.operator op ++ " " ++ value.text)
      (compared name op value) := by
  obtain ⟨token, hvalue, hspells⟩ := spells_literal value
  have hgoes : ∀ token' ∈ [Token.operator op, token], token'.GoesOn :=
    List.forall_mem_cons.2 ⟨⟨nofun, nofun, nofun, nofun⟩,
      List.forall_mem_singleton.2 (goesOn_of_literal? hvalue)⟩
  refine ⟨[.operator op, token], ?_, hgoes, ?_⟩
  · have hall := (spells_word hn.isWord).blank ((spells_operator (h.operator op)).blank hspells)
    simpa using hall
  · cases op with
    | equals => simp [test?, series?, hvalue, compared]
    | notEquals | lessThan | lessOrEqual | greaterThan | greaterOrEqual =>
      simp [test?, hvalue, compared]

lemma null (h : Readable dialect listed) (hn : IsName name) :
    IsTest name (name ++ " " ++ dialect.isNull) (atom (.isNull name)) := by
  obtain ⟨is, null, htext, his, hnull⟩ := h.isNull
  refine ⟨[.word is, .word null], ?_, ?_, ?_⟩
  · have hall := (spells_word hn.isWord).blank
      ((spells_word (isWord_of_keyword? his)).blank (spells_word (isWord_of_keyword? hnull)))
    rw [htext]
    simpa using hall
  · exact List.forall_mem_cons.2 ⟨goesOn_of_keyword? his nofun nofun,
      List.forall_mem_singleton.2 (goesOn_of_keyword? hnull nofun nofun)⟩
  · simp [test?, his, nullTest?, Token.keyword?, hnull]

lemma notNull (h : Readable dialect listed) (hn : IsName name) :
    IsTest name (name ++ " " ++ dialect.isNotNull) (.not (atom (.isNull name))) := by
  obtain ⟨is, not, null, htext, his, hnot, hnull⟩ := h.isNotNull
  refine ⟨[.word is, .word not, .word null], ?_, ?_, ?_⟩
  · have hall := (spells_word hn.isWord).blank ((spells_word (isWord_of_keyword? his)).blank
      ((spells_word (isWord_of_keyword? hnot)).blank (spells_word (isWord_of_keyword? hnull))))
    rw [htext]
    simpa using hall
  · exact List.forall_mem_cons.2 ⟨goesOn_of_keyword? his nofun nofun,
      List.forall_mem_cons.2 ⟨goesOn_of_keyword? hnot nofun nofun,
        List.forall_mem_singleton.2 (goesOn_of_keyword? hnull nofun nofun)⟩⟩
  · simp [test?, his, nullTest?, Token.keyword?, hnot, hnull]

/-! ### Conditions -/

/-- A text is read as a condition, wherever an operand may stand if it is not compound. -/
structure Reads (nameOf : σ → String) (text : String) (c : TextCondition σ) : Prop where
  operand : c.isCompound = false → Written IsOperand text (c.formula nameOf)
  alternatives : ∃ fs, disjunction fs = c.formula nameOf ∧ Written AreAlternatives text fs

namespace Reads

lemma of_operand (h : Written IsOperand text (c.formula nameOf)) : Reads nameOf text c :=
  ⟨fun _ => h, [conjunction [c.formula nameOf]], rfl, h.conjuncts.alternative⟩

/-- Inside others a condition is an operand, in parentheses if it is compound. -/
lemma guarded (h : Reads nameOf text c) :
    Written IsOperand (c.guarded text) (c.formula nameOf) := by
  rw [TextCondition.guarded]
  split
  · obtain ⟨fs, hf, hw⟩ := h.alternatives
    rw [← hf]
    exact hw.parens
  · rename_i hc
    exact h.operand (Bool.eq_false_iff.2 hc)

end Reads

/-- Parts that are all to hold are a conjunction. -/
lemma conjuncts (h : Readable dialect listed) {texts : List String} (hne : texts ≠ [])
    (hp : List.Forall₂ (Written IsOperand) texts fs) :
    Written AreConjuncts (joined dialect.and texts) fs := by
  have hparts : List.Forall₂ (Written AreConjuncts) texts (fs.map ([·])) :=
    List.forall₂_map_right_iff.2 (hp.imp fun _ _ hf => hf.conjuncts)
  have hall := Written.joined (isWord_of_keyword? h.and) (fun ht hu => AreConjuncts.and ht h.and hu)
    hne hparts
  rwa [← List.flatMap_def, List.flatMap_singleton'] at hall

/-- Parts of which one is to hold are a disjunction. -/
lemma alternatives (h : Readable dialect listed) {texts : List String} (hne : texts ≠ [])
    (hp : List.Forall₂ (Written IsOperand) texts fs) :
    Written AreAlternatives (joined dialect.or texts) fs := by
  have hparts : List.Forall₂ (Written AreAlternatives) texts (fs.map ([·])) :=
    List.forall₂_map_right_iff.2 (hp.imp fun _ _ hf => hf.conjuncts.alternative)
  have hall := Written.joined (isWord_of_keyword? h.or)
    (fun ht hu => AreAlternatives.or ht h.or hu) hne hparts
  rwa [← List.flatMap_def, List.flatMap_singleton'] at hall

lemma partTexts_ne_nil {part : TextCondition σ} {rest : List (TextCondition σ)} :
    TextCondition.partTexts dialect nameOf (part :: rest) ≠ [] := List.cons_ne_nil _ _

mutual

/-- The text of a condition is read as the condition. -/
lemma reads (h : Readable dialect listed) :
    ∀ {c : TextCondition σ}, (∀ subject ∈ c.subjects, IsName (nameOf subject)) →
      (∀ values ∈ c.choices, listed values) → Reads nameOf (c.text dialect nameOf) c
  | .all [], _, _ => .of_operand (c := .all []) written_true
  | .all (part :: rest), hn, hl =>
    have hwritten := h.conjuncts partTexts_ne_nil (parts h hn hl)
    ⟨nofun, _, rfl, hwritten.alternative⟩
  | .any [], _, _ => .of_operand (c := .any []) written_false
  | .any (part :: rest), hn, hl =>
    have hwritten := h.alternatives partTexts_ne_nil (parts h hn hl)
    ⟨nofun, _, rfl, hwritten⟩
  | .negation part, hn, hl => by
    obtain ⟨fs, hf, ts, hs, ht⟩ := (reads h (c := part) hn hl).alternatives
    refine .of_operand ⟨.word dialect.not :: .openParen :: (ts ++ [.closeParen]), ?_, ?_⟩
    · have hall := (spells_word (isWord_of_keyword? h.not)).blank hs.parens
      simpa [TextCondition.text] using hall
    · rw [TextCondition.formula, ← hf]
      exact ht.negation h.not
  | .comparison subject operator value, hn, _ =>
    .of_operand (h.comparison (hn subject List.mem_cons_self) operator value).operand
  | .oneOf subject values, hn, hl =>
    .of_operand (h.oneOf (hn subject List.mem_cons_self) (hl values List.mem_cons_self)).operand
  | .never, _, _ => .of_operand (c := .never) written_false
  | .isNull subject, hn, _ => .of_operand (h.null (hn subject List.mem_cons_self)).operand
  | .isNotNull subject, hn, _ => .of_operand (h.notNull (hn subject List.mem_cons_self)).operand

lemma parts (h : Readable dialect listed) :
    ∀ {cs : List (TextCondition σ)},
      (∀ subject ∈ TextCondition.partSubjects cs, IsName (nameOf subject)) →
      (∀ values ∈ TextCondition.partChoices cs, listed values) →
      List.Forall₂ (Written IsOperand) (TextCondition.partTexts dialect nameOf cs)
        (TextCondition.partFormulas nameOf cs)
  | [], _, _ => .nil
  | part :: rest, hn, hl => by
    obtain ⟨hn, hns⟩ := List.forall_mem_append.1 hn
    obtain ⟨hl, hls⟩ := List.forall_mem_append.1 hl
    exact .cons (reads h hn hl).guarded (parts h hns hls)

end

/-- The text of a condition is read as its formula. -/
lemma read_text (h : Readable dialect listed)
    (hn : ∀ subject ∈ c.subjects, IsName (nameOf subject))
    (hl : ∀ values ∈ c.choices, listed values) :
    read (c.text dialect nameOf) = some (c.formula nameOf) := by
  obtain ⟨fs, hf, hw⟩ := (h.reads hn hl).alternatives
  rw [hw.read, hf]

end Readable
end Formula
end ObjectGraph
