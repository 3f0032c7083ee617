/-
# Reading formulas

A reader of conditions, with the usual precedence: a negation binds tighter than a conjunction and
a conjunction tighter than a disjunction.  For every parenthesis that is open it keeps what was
read in front of the parenthesis, and in it the alternatives that are complete and the conjuncts of
the one that is being read.  A connective is looked for only behind an operand, and a test in front
of it; so a name that is followed by a comparison is no keyword, whatever it is.

What a piece of text is read as does not depend on what surrounds it, if it stands where its kind
may stand: an operand between any connectives, a conjunction wherever an alternative begins or goes
on, and a disjunction between parentheses or alone.
-/
import ObjectGraph.Proofs.Formula.Logic
import ObjectGraph.Proofs.Formula.Tokens

namespace ObjectGraph.Formula

/-! ### Operands -/

/-- Values with a separator between each two and an ending behind the last one. -/
def series? (separator : Token) (ending : List Token) : List Token → Option (List Literal)
  | [] => none
  | token :: rest =>
    if rest = ending then token.literal?.map ([·])
    else
      match rest with
      | [] => none
      | next :: rest =>
        if next = separator then
          token.literal?.bind fun value => (series? separator ending rest).map (value :: ·)
        else none

lemma series?_last {token : Token} (separator : Token) (ending : List Token) :
    series? separator ending (token :: ending) = token.literal?.map ([·]) := by
  cases ending <;> simp [series?]

lemma series?_more {token separator : Token} {rest ending : List Token}
    (h : separator :: rest ≠ ending) : series? separator ending (token :: separator :: rest)
      = token.literal?.bind fun value => (series? separator ending rest).map (value :: ·) := by
  simp only [series?, if_neg h, if_true]

/-- What follows the name in a test for null. -/
def nullTest? (name : String) : List Token → Option Formula
  | [null] => if null.keyword? = some .null then some (atom (.isNull name)) else none
  | [negation, null] =>
    if negation.keyword? = some .not ∧ null.keyword? = some .null then
      some (not (atom (.isNull name)))
    else none
  | _ => none

/-- What follows the name in a test whether it is one of a list. -/
def list? (name : String) : List Token → Option Formula
  | [.openList, .closeList] => some (among name [])
  | .openList :: rest => (series? .comma [.closeList] rest).map (among name)
  | _ => none

/-- A test, or a constant. -/
def test? : List Token → Option Formula
  | [.word word] =>
    match keyword? word with
    | some .true => some (constant true)
    | some .false => some (constant false)
    | _ => none
  | .word name :: .operator .equals :: rest => (series? .bar [] rest).map (among name)
  | [.word name, .operator op, value] => value.literal?.map fun v => atom (.compares name op v)
  | .word name :: .word word :: rest =>
    match keyword? word with
    | some .is => nullTest? name rest
    | some .in => list? name rest
    | _ => none
  | _ => none

/-- A test, perhaps behind negations. -/
def operand? : List Token → Option Formula
  | [] => none
  | token :: rest =>
    match test? (token :: rest) with
    | some f => some f
    | none => if token.keyword? = some .not then (operand? rest).map not else none

/-- What is being read between connectives. -/
inductive Operand
  /-- The tokens so far. -/
  | tokens (ts : List Token)
  /-- What stood in parentheses. -/
  | closed (f : Formula)

/-- The formula of an operand, if its tokens are those of one. -/
def Operand.formula? : Operand → Option Formula
  | tokens ts => operand? ts
  | closed f => some f

/-! ### The reader -/

/-- What has been read between two parentheses. -/
structure Frame where
  alternatives : List Formula := []
  /-- The conjuncts of the alternative that is being read. -/
  conjuncts : List Formula := []

/-- The formula between two parentheses, from its last operand. -/
def Frame.close (frame : Frame) (f : Formula) : Formula :=
  disjunction (frame.alternatives ++ [conjunction (frame.conjuncts ++ [f])])

/-- The formula behind a number of negations. -/
def negated : Nat → Formula → Formula
  | 0, f => f
  | n + 1, f => not (negated n f)

/-- What has been read of a text, up to some token. -/
structure Reader where
  /-- What has been read in front of the open parentheses, the innermost first, each with the number
  of negations that stand there. -/
  outer : List (Frame × Nat) := []
  frame : Frame := {}
  operand : Operand := .tokens []

namespace Reader

/-- Read a token that is no parenthesis. -/
def join (r : Reader) (token : Token) : Option Reader :=
  match r.operand, token.keyword? with
  | .tokens [], _ => some { r with operand := .tokens [token] }
  | operand, some .and => do
    let f ← operand.formula?
    let frame := { r.frame with conjuncts := r.frame.conjuncts ++ [f] }
    return { r with frame, operand := .tokens [] }
  | operand, some .or => do
    let f ← operand.formula?
    let alternative := conjunction (r.frame.conjuncts ++ [f])
    let frame := { alternatives := r.frame.alternatives ++ [alternative] }
    return { r with frame, operand := .tokens [] }
  | .tokens ts, _ => some { r with operand := .tokens (ts ++ [token]) }
  | .closed _, _ => none

/-- Read a token. -/
def step (r : Reader) : Token → Option Reader
  | .openParen =>
    match r.operand with
    | .tokens ts =>
      if ts.all fun token => token.keyword? = some .not then
        some { outer := (r.frame, ts.length) :: r.outer }
      else none
    | .closed _ => none
  | .closeParen => do
    let f ← r.operand.formula?
    match r.outer with
    | [] => none
    | (frame, negations) :: outer =>
      return { outer, frame, operand := .closed (negated negations (r.frame.close f)) }
  | token => r.join token

/-- The formula that has been read when the text ends. -/
def result? (r : Reader) : Option Formula :=
  match r.outer with
  | [] => r.operand.formula?.map r.frame.close
  | _ => none

end Reader

/-- The formula of a text. -/
def read (text : String) : Option Formula := do
  let tokens ← tokenize text
  let r ← tokens.foldlM Reader.step {}
  r.result?

/-! ### What tokens are read as -/

variable {ts us : List Token} {f g : Formula} {fs gs : List Formula} {operand : Operand}
  {outer : List (Frame × Nat)} {frame : Frame} {token : Token}

/-- The tokens are an operand. -/
def IsOperand (ts : List Token) (f : Formula) : Prop :=
  ∀ outer frame, ∃ operand : Operand, operand.formula? = some f ∧
    ts.foldlM Reader.step ⟨outer, frame, .tokens []⟩ = some ⟨outer, frame, operand⟩

/-- The tokens are a conjunction, and may follow other conjuncts. -/
def AreConjuncts (ts : List Token) (fs : List Formula) : Prop :=
  ∀ outer (frame : Frame), ∃ conjuncts, ∃ operand : Operand, ∃ f, operand.formula? = some f ∧
    conjuncts ++ [f] = frame.conjuncts ++ fs ∧
    ts.foldlM Reader.step ⟨outer, frame, .tokens []⟩
      = some ⟨outer, { frame with conjuncts }, operand⟩

/-- The tokens are a disjunction, and may follow other alternatives. -/
def AreAlternatives (ts : List Token) (fs : List Formula) : Prop :=
  ∀ outer alternatives, ∃ frame : Frame, ∃ operand : Operand, ∃ f, operand.formula? = some f ∧
    frame.alternatives ++ [conjunction (frame.conjuncts ++ [f])] = alternatives ++ fs ∧
    ts.foldlM Reader.step ⟨outer, ⟨alternatives, []⟩, .tokens []⟩ = some ⟨outer, frame, operand⟩

lemma step_eq_join {r : Reader} {keyword : Keyword} (h : token.keyword? = some keyword) :
    r.step token = r.join token := by
  cases token with
  | word => rfl
  | quoted | operator | openParen | closeParen | openList | closeList | comma | bar => cases h

lemma step_and (ho : operand.formula? = some f) (ht : token.keyword? = some .and) :
    Reader.step ⟨outer, frame, operand⟩ token
      = some ⟨outer, { frame with conjuncts := frame.conjuncts ++ [f] }, .tokens []⟩ := by
  rw [step_eq_join ht]
  cases operand with
  | tokens ts =>
    cases ts with
    | nil => cases ho
    | cons first ts => simp [Reader.join, ht, ho]
  | closed g => simp [Reader.join, ht, ho]

lemma step_or (ho : operand.formula? = some f) (ht : token.keyword? = some .or) :
    Reader.step ⟨outer, frame, operand⟩ token
      = some ⟨outer, ⟨frame.alternatives ++ [conjunction (frame.conjuncts ++ [f])], []⟩,
          .tokens []⟩ := by
  rw [step_eq_join ht]
  cases operand with
  | tokens ts =>
    cases ts with
    | nil => cases ho
    | cons first ts => simp [Reader.join, ht, ho]
  | closed g => simp [Reader.join, ht, ho]

lemma foldlM_step_append {r : Reader} :
    (ts ++ us).foldlM Reader.step r = (ts.foldlM Reader.step r).bind (us.foldlM Reader.step) :=
  List.foldlM_append

/-! ### Conjunctions and disjunctions -/

lemma IsOperand.conjuncts (h : IsOperand ts f) : AreConjuncts ts [f] := by
  intro outer frame
  obtain ⟨operand, ho, hrun⟩ := h outer frame
  exact ⟨frame.conjuncts, operand, f, ho, rfl, hrun⟩

lemma AreConjuncts.and (hf : AreConjuncts ts fs) (ht : token.keyword? = some .and)
    (hg : AreConjuncts us gs) : AreConjuncts (ts ++ token :: us) (fs ++ gs) := by
  intro outer frame
  obtain ⟨conjuncts, operand, f, ho, hfs, hrun⟩ := hf outer frame
  obtain ⟨others, last, g, hl, hgs, hrest⟩ := hg outer { frame with conjuncts := conjuncts ++ [f] }
  refine ⟨others, last, g, hl, ?_, ?_⟩
  · rw [hgs, ← List.append_assoc, ← hfs]
  · rw [foldlM_step_append, hrun, Option.bind_some, List.foldlM_cons, step_and ho ht]
    exact hrest

lemma AreConjuncts.alternative (h : AreConjuncts ts fs) :
    AreAlternatives ts [conjunction fs] := by
  intro outer alternatives
  obtain ⟨conjuncts, operand, f, ho, hfs, hrun⟩ := h outer ⟨alternatives, []⟩
  refine ⟨⟨alternatives, conjuncts⟩, operand, f, ho, ?_, hrun⟩
  rw [hfs]
  rfl

lemma AreAlternatives.or (hf : AreAlternatives ts fs) (ht : token.keyword? = some .or)
    (hg : AreAlternatives us gs) : AreAlternatives (ts ++ token :: us) (fs ++ gs) := by
  intro outer alternatives
  obtain ⟨frame, operand, f, ho, hfs, hrun⟩ := hf outer alternatives
  obtain ⟨next, last, g, hl, hgs, hrest⟩ := hg outer (alternatives ++ fs)
  refine ⟨next, last, g, hl, ?_, ?_⟩
  · rw [hgs, List.append_assoc]
  · rw [foldlM_step_append, hrun, Option.bind_some, List.foldlM_cons, step_or ho ht, hfs]
    exact hrest

/-- Behind the first of two parentheses, up to the second one. -/
lemma AreAlternatives.closing (h : AreAlternatives ts fs) (negations : Nat) :
    (ts ++ [Token.closeParen]).foldlM Reader.step
        ⟨(frame, negations) :: outer, ⟨[], []⟩, .tokens []⟩
      = some ⟨outer, frame, .closed (negated negations (disjunction fs))⟩ := by
  obtain ⟨inner, operand, f, ho, hfs, hrun⟩ := h ((frame, negations) :: outer) []
  rw [foldlM_step_append, hrun, Option.bind_some]
  simp [Reader.step, ho, Frame.close, hfs]

/-- What stands between parentheses is an operand. -/
lemma AreAlternatives.parens (h : AreAlternatives ts fs) :
    IsOperand (.openParen :: (ts ++ [.closeParen])) (disjunction fs) := by
  intro outer frame
  refine ⟨.closed (disjunction fs), rfl, ?_⟩
  have hopen : Reader.step ⟨outer, frame, .tokens []⟩ .openParen
      = some ⟨(frame, 0) :: outer, ⟨[], []⟩, .tokens []⟩ := rfl
  rw [List.foldlM_cons, hopen]
  exact h.closing 0

/-- A negation of what stands between parentheses is an operand. -/
lemma AreAlternatives.negation (h : AreAlternatives ts fs) (ht : token.keyword? = some .not) :
    IsOperand (token :: .openParen :: (ts ++ [.closeParen])) (not (disjunction fs)) := by
  intro outer frame
  refine ⟨.closed (not (disjunction fs)), rfl, ?_⟩
  have hnot : Reader.step ⟨outer, frame, .tokens []⟩ token
      = some ⟨outer, frame, .tokens [token]⟩ := by
    rw [step_eq_join ht]
    rfl
  have hopen : Reader.step ⟨outer, frame, .tokens [token]⟩ .openParen
      = some ⟨(frame, 1) :: outer, ⟨[], []⟩, .tokens []⟩ := by
    simp [Reader.step, ht]
  rw [List.foldlM_cons, hnot, Option.bind_eq_bind, Option.bind_some, List.foldlM_cons, hopen]
  exact h.closing 1

lemma read_of_alternatives {text : String} (hs : Spells text.toList ts)
    (h : AreAlternatives ts fs) : read text = some (disjunction fs) := by
  obtain ⟨frame, operand, f, ho, hfs, hrun⟩ := h [] []
  have hread : ts.foldlM Reader.step {} = some ⟨[], frame, operand⟩ := hrun
  rw [read, tokenize_of_spells hs]
  simp [hread, Reader.result?, ho, Frame.close, hfs]

/-- A negation takes the nearest test, and a conjunction is an alternative of a disjunction. -/
example : read "not a is null AND b < 2 or (c = 'x' | 'y' OR d IN [])" =
    some (or (and (not (atom (.isNull "a"))) (atom (.compares "b" .lessThan (.integer 2))))
      (or (atom (.oneOf "c" [.string "x", .string "y"])) (constant false))) := by
  decide +kernel

/-! ### Tests -/

/-- A token that goes on a test: neither a parenthesis nor a connective. -/
def Token.GoesOn (token : Token) : Prop :=
  token ≠ .openParen ∧ token ≠ .closeParen ∧
    token.keyword? ≠ some .and ∧ token.keyword? ≠ some .or

lemma goesOn_of_literal? {value : Literal} (h : token.literal? = some value) : token.GoesOn := by
  cases token with
  | word text =>
    refine ⟨nofun, nofun, fun hand => ?_, fun hor => ?_⟩
    · exact (keyword?_ne_of_literal? h hand).1 rfl
    · exact (keyword?_ne_of_literal? h hor).2 rfl
  | quoted => exact ⟨nofun, nofun, nofun, nofun⟩
  | operator | openParen | closeParen | openList | closeList | comma | bar => cases h

lemma step_goesOn (ht : token.GoesOn) {first : Token} :
    Reader.step ⟨outer, frame, .tokens (first :: ts)⟩ token
      = some ⟨outer, frame, .tokens (first :: ts ++ [token])⟩ := by
  obtain ⟨hopen, hclose, hand, hor⟩ := ht
  have hjoin : Reader.step ⟨outer, frame, .tokens (first :: ts)⟩ token
      = Reader.join ⟨outer, frame, .tokens (first :: ts)⟩ token := by
    cases token with
    | openParen => exact absurd rfl hopen
    | closeParen => exact absurd rfl hclose
    | word | quoted | operator | openList | closeList | comma | bar => rfl
  rw [hjoin]
  cases hkeyword : token.keyword? with
  | none => simp [Reader.join, hkeyword]
  | some keyword =>
    cases keyword with
    | and => exact absurd hkeyword hand
    | or => exact absurd hkeyword hor
    | not | «in» | is | null | true | false => simp [Reader.join, hkeyword]

lemma foldlM_goesOn (hu : ∀ token ∈ us, token.GoesOn) {first : Token} :
    us.foldlM Reader.step ⟨outer, frame, .tokens (first :: ts)⟩
      = some ⟨outer, frame, .tokens (first :: ts ++ us)⟩ := by
  induction us generalizing ts with
  | nil => simp
  | cons token us ih =>
    obtain ⟨ht, hu⟩ := List.forall_mem_cons.1 hu
    rw [List.foldlM_cons, step_goesOn ht, Option.bind_eq_bind, Option.bind_some, List.cons_append,
      ih hu]
    simp

/-- A test is an operand. -/
lemma isOperand_of_test? {word : String} (hu : ∀ token ∈ us, token.GoesOn)
    (h : test? (.word word :: us) = some f) : IsOperand (.word word :: us) f := by
  intro outer frame
  refine ⟨.tokens (.word word :: us), ?_, ?_⟩
  · rw [Operand.formula?, operand?, h]
  · have hfirst : Reader.step ⟨outer, frame, .tokens []⟩ (.word word)
        = some ⟨outer, frame, .tokens [.word word]⟩ := rfl
    rw [List.foldlM_cons, hfirst]
    exact foldlM_goesOn hu

end ObjectGraph.Formula
