/-
# The tokens of a condition

The text of a condition is read character by character, with what was read of the token that has not
ended yet.  A piece of text spells certain tokens if, whatever stops it, a text that begins with it
has these tokens first.
-/
import ObjectGraph.Proofs.Formula.Words

namespace ObjectGraph.Formula

/-- A piece of the text of a condition. -/
inductive Token
  | word (text : String)
  /-- A string, without its quotes and the backslashes in front of characters. -/
  | quoted (text : String)
  | operator (op : ComparisonOperator)
  | openParen
  | closeParen
  | openList
  | closeList
  | comma
  | bar
deriving DecidableEq

namespace Token

/-- The keyword that a token is. -/
def keyword? : Token → Option Keyword
  | word text => Formula.keyword? text
  | _ => none

/-- The value that a token is. -/
def literal? : Token → Option Literal
  | word text => Formula.literal? text
  | quoted text => some (.string text)
  | _ => none

end Token

/-! ### Cutting a text -/

/-- The tokens that are a single character. -/
def mark? : Char → Option Token
  | '(' => some .openParen
  | ')' => some .closeParen
  | '[' => some .openList
  | ']' => some .closeList
  | ',' => some .comma
  | '|' => some .bar
  | _ => none

/-- Whether a character may stand in an operator. -/
def continuesOperator (c : Char) : Bool :=
  c == '=' || c == '!' || c == '<' || c == '>'

/-- The operators of all languages. -/
def operators : List (List Char × ComparisonOperator) :=
  [(['='], .equals), (['<', '>'], .notEquals), (['!', '='], .notEquals), (['<'], .lessThan),
   (['<', '='], .lessOrEqual), (['>'], .greaterThan), (['>', '='], .greaterOrEqual)]

/-- What was read of a token. -/
inductive Partial
  | blank
  | word (cs : List Char)
  | operator (cs : List Char)
  /-- A string whose end has not been found. -/
  | quoted (cs : List Char)
  /-- Such a string, behind a backslash. -/
  | escaped (cs : List Char)
  /-- A token that ends here. -/
  | whole (token : Token)

namespace Partial

/-- What a character begins. -/
def start? (c : Char) : Option Partial :=
  if continuesWord c then some (word [c])
  else if continuesOperator c then some (operator [c])
  else if c = '\'' then some (quoted [])
  else if c = ' ' then some blank
  else (mark? c).map whole

/-- The same token with one more character, if it goes on with it. -/
def next? : Partial → Char → Option Partial
  | word cs, c => if continuesWord c then some (word (cs ++ [c])) else none
  | operator cs, c => if continuesOperator c then some (operator (cs ++ [c])) else none
  | quoted cs, c =>
    if c = '\\' then some (escaped cs)
    else if c = '\'' then some (whole (.quoted (String.ofList cs)))
    else some (quoted (cs ++ [c]))
  | escaped cs, c => some (quoted (cs ++ [c]))
  | blank, _ | whole _, _ => none

/-- The token that ends here, if there is one; strings and unknown operators do not. -/
def tokens? : Partial → Option (List Token)
  | blank => some []
  | word cs => some [.word (String.ofList cs)]
  | operator cs => (operators.lookup cs).map fun op => [.operator op]
  | whole token => some [token]
  | quoted _ | escaped _ => none

/-- The tokens of a text whose beginning has been read. -/
def tokensOf (p : Partial) : List Char → Option (List Token)
  | [] => p.tokens?
  | c :: cs =>
    match p.next? c with
    | some next => next.tokensOf cs
    | none => do
      let tokens ← p.tokens?
      let next ← start? c
      return tokens ++ (← next.tokensOf cs)

end Partial

/-- The tokens of a text. -/
def tokenize (text : String) : Option (List Token) :=
  Partial.blank.tokensOf text.toList

/-! ### Pieces -/

variable {p q : Partial} {c : Char} {cs rest a b : List Char} {token : Token}
  {tokens s t : List Token}

lemma tokensOf_blank :
    Partial.blank.tokensOf (c :: cs) = (Partial.start? c).bind fun p => p.tokensOf cs := by
  simp [Partial.tokensOf, Partial.next?, Partial.tokens?]

/-- A token that has ended is followed by those of the rest. -/
lemma tokensOf_ended (ht : p.tokens? = some tokens)
    (hn : ∀ c ∈ rest.head?, p.next? c = none) :
    p.tokensOf rest = (Partial.blank.tokensOf rest).map (tokens ++ ·) := by
  cases rest with
  | nil => simpa [Partial.tokensOf, Partial.tokens?] using ht
  | cons c cs =>
    rw [tokensOf_blank, Partial.tokensOf, hn c rfl, ht]
    cases Partial.start? c with
    | none => rfl
    | some next => cases hnext : next.tokensOf cs <;> simp [hnext]

lemma tokensOf_append (h : cs.foldlM Partial.next? p = some q) :
    p.tokensOf (cs ++ rest) = q.tokensOf rest := by
  induction cs generalizing p with
  | nil =>
    cases h
    rfl
  | cons c cs ih =>
    obtain ⟨next, hnext, h⟩ := Option.bind_eq_some_iff.1 (List.foldlM_cons.symm.trans h)
    rw [List.cons_append, Partial.tokensOf, hnext]
    exact ih h

/-- The characters that end words and operators. -/
def stopMarks : List Char := [' ', ')', ']', ',']

/-- Words and operators do not go on. -/
def Stops (rest : List Char) : Prop :=
  ∀ c ∈ rest.head?, c ∈ stopMarks

lemma stops_cons (h : c ∈ stopMarks) : Stops (c :: rest) := by
  rintro _ ⟨⟩
  exact h

/-- A text that begins with a piece has the tokens of the piece and then those of the rest. -/
def Spells (piece : List Char) (tokens : List Token) : Prop :=
  ∀ rest, Stops rest →
    Partial.blank.tokensOf (piece ++ rest) = (Partial.blank.tokensOf rest).map (tokens ++ ·)

lemma tokenize_of_spells {text : String} (h : Spells text.toList tokens) :
    tokenize text = some tokens := by
  have hwhole := h [] nofun
  rw [List.append_nil] at hwhole
  rw [tokenize, hwhole]
  simp [Partial.tokensOf, Partial.tokens?]

/-- A piece that is read as one token. -/
lemma spells_token (hs : Partial.start? c = some p) (hr : cs.foldlM Partial.next? p = some q)
    (ht : q.tokens? = some [token]) (hn : ∀ c ∈ stopMarks, q.next? c = none) :
    Spells (c :: cs) [token] := by
  intro rest hrest
  rw [List.cons_append, tokensOf_blank, hs, Option.bind_some, tokensOf_append hr,
    tokensOf_ended ht fun c hc => hn c (hrest c hc)]

namespace Spells

lemma append (ha : Spells a s) (hb : Spells (c :: b) t) (hc : c ∈ stopMarks) :
    Spells (a ++ c :: b) (s ++ t) := by
  intro rest hrest
  rw [List.append_assoc, ha (c :: b ++ rest) (stops_cons hc), hb rest hrest, Option.map_map]
  simp [Function.comp_def]

lemma afterBlank (hb : Spells b t) : Spells (' ' :: b) t := fun rest hrest => by
  have hstart : Partial.start? ' ' = some .blank := rfl
  rw [← hb rest hrest, List.cons_append, tokensOf_blank, hstart, Option.bind_some]

/-- A character that is a token by itself. -/
lemma mark (hb : Spells b t) (hc : Partial.start? c = some (.whole token)) :
    Spells (c :: b) (token :: t) := by
  intro rest hrest
  have hended : (Partial.whole token).tokens? = some [token] := rfl
  rw [List.cons_append, tokensOf_blank, hc, Option.bind_some,
    tokensOf_ended hended fun _ _ => rfl, hb rest hrest, Option.map_map]
  rfl

lemma blank (ha : Spells a s) (hb : Spells b t) : Spells (a ++ ' ' :: b) (s ++ t) :=
  ha.append hb.afterBlank (by decide)

end Spells

lemma spells_nil : Spells [] [] := fun rest _ => by simp

/-- Parentheses around a piece. -/
lemma Spells.parens (ha : Spells a s) :
    Spells ('(' :: (a ++ [')'])) (.openParen :: (s ++ [.closeParen])) := by
  have hclose : Spells [')'] [.closeParen] := spells_nil.mark rfl
  exact (ha.append hclose (by decide)).mark rfl

/-! ### Words, operators and strings -/

lemma foldlM_word (h : ∀ c ∈ cs, continuesWord c = true) (before : List Char) :
    cs.foldlM Partial.next? (.word before) = some (.word (before ++ cs)) := by
  induction cs generalizing before with
  | nil => simp
  | cons c cs ih =>
    obtain ⟨hc, hcs⟩ := List.forall_mem_cons.1 h
    rw [List.foldlM_cons, Partial.next?, if_pos hc]
    simpa using ih hcs (before ++ [c])

lemma spells_word {word : String} (h : IsWord word) : Spells word.toList [.word word] := by
  obtain ⟨hne, hcs⟩ := h
  cases hword : word.toList with
  | nil => exact absurd (String.toList_eq_nil_iff.1 hword) hne
  | cons c cs =>
    rw [hword] at hcs
    obtain ⟨hc, hcs⟩ := List.forall_mem_cons.1 hcs
    have htoken : (Partial.word ([c] ++ cs)).tokens? = some [.word word] := by
      change some [Token.word (String.ofList (c :: cs))] = _
      rw [← hword, String.ofList_toList]
    refine spells_token (by rw [Partial.start?, if_pos hc]) (foldlM_word hcs [c]) htoken ?_
    intro c hc
    have hstop : continuesWord c = false := by
      simp only [stopMarks, List.mem_cons, List.not_mem_nil, or_false] at hc
      rcases hc with rfl | rfl | rfl | rfl <;> decide
    rw [Partial.next?, if_neg (by simp [hstop])]

lemma spells_operator {op : ComparisonOperator} {text : List Char}
    (h : (text, op) ∈ operators) : Spells text [.operator op] := by
  simp only [operators, List.mem_cons, List.not_mem_nil, or_false, Prod.mk.injEq] at h
  rcases h with ⟨rfl, rfl⟩ | ⟨rfl, rfl⟩ | ⟨rfl, rfl⟩ | ⟨rfl, rfl⟩ | ⟨rfl, rfl⟩ | ⟨rfl, rfl⟩
    | ⟨rfl, rfl⟩ <;>
    exact spells_token rfl rfl rfl (by simp [stopMarks, Partial.next?, continuesOperator])

/-- A string is found behind the backslashes in front of its characters. -/
lemma foldlM_quoted (text before : List Char) :
    (Text.escapeSingle text ++ ['\'']).foldlM Partial.next? (.quoted before)
      = some (.whole (.quoted (String.ofList (before ++ text)))) := by
  induction text generalizing before with
  | nil => simp [Text.escapeSingle, Partial.next?]
  | cons c text ih =>
    rw [Text.escapeSingle]
    split
    · simpa [Partial.next?] using ih (before ++ [c])
    · rename_i hc
      obtain ⟨hbackslash, hquote⟩ := not_or.1 hc
      simpa [Partial.next?, hbackslash, hquote] using ih (before ++ [c])

lemma spells_quoted (text : String) : Spells (Text.quoteSingle text).toList [.quoted text] := by
  rw [Text.quoteSingle, String.toList_ofList, List.cons_append]
  refine spells_token rfl (foldlM_quoted text.toList []) ?_ fun _ _ => rfl
  rw [List.nil_append, String.ofList_toList]
  rfl

/-! ### Values -/

/-- A value is written as one token, which is this value. -/
lemma spells_literal (value : Literal) :
    ∃ token : Token, token.literal? = some value ∧ Spells value.text.toList [token] := by
  by_cases h : ∃ s, value = .string s
  · obtain ⟨s, rfl⟩ := h
    exact ⟨.quoted s, rfl, spells_quoted s⟩
  · obtain ⟨hword, hvalue⟩ := literal?_text fun s hs => h ⟨s, hs⟩
    exact ⟨.word value.text, hvalue, spells_word hword⟩

end ObjectGraph.Formula
