/-
# The tokens of a predicate

A predicate's text is cut into tokens, each with the byte at which it begins.  White space
separates tokens and is dropped.
-/
import ObjectGraph.Json.Numeral
import ObjectGraph.Predicate
import ObjectGraph.Text.Class

namespace ObjectGraph.Predicate

/-- Why a text is no predicate. -/
inductive ParseError
  | unexpectedCharacter (c : Char) (position : Nat)
  | unterminatedString (position : Nat)
  | invalidNumber (text : String) (position : Nat)
  | unexpectedToken (found : String) (position : Nat)
  | unexpectedEnd
  | nestedField (reference : String)
  | nullComparison (operator : ComparisonOperator)
deriving DecidableEq

/-- What is said of an error. -/
def ParseError.message : ParseError → String
  | unexpectedCharacter c position =>
    "unexpected character '" ++ String.singleton c ++ "' at position " ++ toString position
  | unterminatedString position =>
    "unterminated string starting at position " ++ toString position
  | invalidNumber text position =>
    "invalid number '" ++ text ++ "' at position " ++ toString position
  | unexpectedToken found position =>
    "unexpected " ++ found ++ " at position " ++ toString position
  | unexpectedEnd => "unexpected end of predicate"
  | nestedField reference => "nested field reference '" ++ reference ++ "' is not supported"
  | nullComparison operator =>
    "operator '" ++ operator.symbol ++ "' cannot compare against null"

/-- A piece of the text of a predicate. -/
inductive Token
  | identifier (name : String)
  | literal (value : Literal)
  | operator (op : ComparisonOperator)
  | and
  | or
  | not
  | in
  | openParen
  | closeParen
  | openBracket
  | closeBracket
  | comma
deriving DecidableEq

/-- A token as messages name it. -/
def Token.describe : Token → String
  | identifier name => "identifier '" ++ name ++ "'"
  | literal value => "literal " ++ value.text
  | operator op => "operator '" ++ op.symbol ++ "'"
  | and => "'and'"
  | or => "'or'"
  | not => "'not'"
  | .in => "'in'"
  | openParen => "'('"
  | closeParen => "')'"
  | openBracket => "'['"
  | closeBracket => "']'"
  | comma => "','"

/-- A token and the byte at which it begins. -/
structure Placed where
  token : Token
  position : Nat
deriving DecidableEq

/-- The number of bytes of a text. -/
def byteLength : List Char → Nat
  | [] => 0
  | c :: cs => c.utf8Size + byteLength cs

/-! ### Words -/

/-- Whether a word may begin with a character. -/
def startsWord (c : Char) : Bool :=
  Text.isAlphabetic c || c == '_' || c == ':'

/-- Whether a word may go on with a character. -/
def continuesWord (c : Char) : Bool :=
  Text.isAlphanumeric c || c == '_' || c == '.' || c == ':'

/-- Keywords and words that are literals; every other word names a field. -/
def wordToken (word : String) : Token :=
  if word = "and" ∨ word = "AND" then .and
  else if word = "or" ∨ word = "OR" then .or
  else if word = "not" ∨ word = "NOT" then .not
  else if word = "in" ∨ word = "IN" then .in
  else if word = "None" ∨ word = "null" ∨ word = "NULL" then .literal .null
  else if word = "True" ∨ word = "true" ∨ word = "TRUE" then .literal (.boolean true)
  else if word = "False" ∨ word = "false" ∨ word = "FALSE" then .literal (.boolean false)
  else .identifier word

/-! ### Numbers -/

/-- Whether what began as a number goes on with a character. -/
def continuesNumber (c : Char) : Bool :=
  Text.isAsciiAlphanumeric c || c == '.'

/-- A non-empty sequence of digits. -/
def allDigits (cs : List Char) : Bool :=
  !cs.isEmpty && cs.all Char.isDigit

/-- A 64-bit integer: digits after an optional sign. -/
def integer? (cs : List Char) : Option Int64 :=
  let (negative, digits) :=
    match cs with
    | '-' :: rest => (true, rest)
    | cs => (false, cs)
  let value : Int := Json.digitsValue digits
  if allDigits digits then Json.int64? (if negative then -value else value) else none

/-- The nearest double: digits with at most one point among or around them, and a power of ten
after `e`. -/
def double? (cs : List Char) : Option Double :=
  let (negative, cs) :=
    match cs with
    | '-' :: rest => (true, rest)
    | cs => (false, cs)
  let isMark := fun c => c == 'e' || c == 'E'
  let mantissa := cs.takeWhile (!isMark ·)
  let exponent :=
    match cs.dropWhile (!isMark ·) with
    | [] => some 0
    | _ :: digits => if allDigits digits then some (Json.digitsValue digits) else none
  let whole := mantissa.takeWhile (· != '.')
  let fraction := (mantissa.dropWhile (· != '.')).drop 1
  match exponent with
  | none => none
  | some exponent =>
    if allDigits (whole ++ fraction) then
      let x := Double.ofDecimal (Json.digitsValue (whole ++ fraction)) (exponent - fraction.length)
      some (if negative then x.neg else x)
    else none

/-- The number a word of digits, letters and points stands for. -/
def number? (cs : List Char) : Option Literal :=
  if cs.any fun c => c == '.' || c == 'e' || c == 'E' then (double? cs).map .float
  else (integer? cs).map .integer

/-! ### Strings -/

/-- The contents of a string up to its closing quote, and what follows; a backslash lets the
next character stand for itself. -/
def readString (quote : Char) : List Char → Option (List Char × List Char)
  | [] => none
  | ['\\'] => none
  | '\\' :: c :: rest => (readString quote rest).map fun (s, rest) => (c :: s, rest)
  | c :: rest =>
    if c = quote then some ([], rest)
    else (readString quote rest).map fun (s, rest) => (c :: s, rest)

/-! ### Operators and punctuation -/

/-- The operator at the beginning of a text, and what follows it. -/
def readOperator : List Char → Option (ComparisonOperator × List Char)
  | '=' :: '=' :: rest => some (.equals, rest)
  | '=' :: rest => some (.equals, rest)
  | '!' :: '=' :: rest => some (.notEquals, rest)
  | '<' :: '>' :: rest => some (.notEquals, rest)
  | '<' :: '=' :: rest => some (.lessOrEqual, rest)
  | '<' :: rest => some (.lessThan, rest)
  | '>' :: '=' :: rest => some (.greaterOrEqual, rest)
  | '>' :: rest => some (.greaterThan, rest)
  | _ => none

/-- The token that is a single character. -/
def punctuation? (c : Char) : Option Token :=
  if c = '(' then some .openParen
  else if c = ')' then some .closeParen
  else if c = '[' then some .openBracket
  else if c = ']' then some .closeBracket
  else if c = ',' then some .comma
  else none

/-! ### Texts -/

/-- The token at the beginning of a text that does not begin with white space, and what follows
it.  The text begins at byte `position`. -/
def readToken (position : Nat) (c : Char) (rest : List Char) :
    Except ParseError (Token × List Char) :=
  match punctuation? c with
  | some token => .ok (token, rest)
  | none =>
    if c = '=' ∨ c = '!' ∨ c = '<' ∨ c = '>' then
      match readOperator (c :: rest) with
      | some (op, rest) => .ok (.operator op, rest)
      | none => .error (.unexpectedCharacter c position)
    else if c = '\'' ∨ c = '"' then
      match readString c rest with
      | some (s, rest) => .ok (.literal (.string (String.ofList s)), rest)
      | none => .error (.unterminatedString position)
    else if c.isDigit || (c == '-' && rest.head?.any Char.isDigit) then
      let word := c :: rest.takeWhile continuesNumber
      match number? word with
      | some value => .ok (.literal value, rest.dropWhile continuesNumber)
      | none => .error (.invalidNumber (String.ofList word) position)
    else if startsWord c then
      .ok (wordToken (String.ofList (c :: rest.takeWhile continuesWord)),
        rest.dropWhile continuesWord)
    else .error (.unexpectedCharacter c position)

theorem length_dropWhile_le {α : Type} (p : α → Bool) (xs : List α) :
    (xs.dropWhile p).length ≤ xs.length := by
  induction xs with
  | nil => simp
  | cons x xs ih =>
    simp only [List.dropWhile_cons]
    split
    · exact Nat.le_succ_of_le ih
    · exact Nat.le_refl _

theorem length_readString {quote : Char} {cs s rest : List Char}
    (h : readString quote cs = some (s, rest)) : rest.length < cs.length := by
  fun_induction readString quote cs generalizing s rest with
  | case1 => simp at h
  | case2 => simp at h
  | case3 c cs ih =>
    obtain ⟨⟨s', rest'⟩, h', heq⟩ := Option.map_eq_some_iff.1 h
    obtain ⟨rfl, rfl⟩ := Prod.mk.inj heq
    have := ih h'
    simp only [List.length_cons]
    omega
  | case4 cs =>
    simp only [Option.some.injEq, Prod.mk.injEq] at h
    rw [← h.2]
    exact Nat.lt_succ_self _
  | case5 c cs _ _ _ ih =>
    obtain ⟨⟨s', rest'⟩, h', heq⟩ := Option.map_eq_some_iff.1 h
    obtain ⟨rfl, rfl⟩ := Prod.mk.inj heq
    have := ih h'
    simp only [List.length_cons]
    omega

theorem length_readOperator {cs rest : List Char} {op : ComparisonOperator}
    (h : readOperator cs = some (op, rest)) : rest.length < cs.length := by
  unfold readOperator at h
  split at h
  case h_9 => simp at h
  all_goals
    simp only [Option.some.injEq, Prod.mk.injEq] at h
    rw [← h.2]
    simp only [List.length_cons]
    omega

theorem length_readToken {position : Nat} {c : Char} {cs rest : List Char} {token : Token}
    (h : readToken position c cs = .ok (token, rest)) : rest.length ≤ cs.length := by
  unfold readToken at h
  split at h
  · simp only [Except.ok.injEq, Prod.mk.injEq] at h
    exact Nat.le_of_eq (congrArg List.length h.2.symm)
  · split at h
    · split at h
      · rename_i heq
        simp only [Except.ok.injEq, Prod.mk.injEq] at h
        rw [← h.2]
        exact Nat.le_of_lt_succ (length_readOperator heq)
      · simp at h
    · split at h
      · split at h
        · rename_i heq
          simp only [Except.ok.injEq, Prod.mk.injEq] at h
          rw [← h.2]
          exact Nat.le_of_lt (length_readString heq)
        · simp at h
      · split at h
        · dsimp only at h
          split at h
          · simp only [Except.ok.injEq, Prod.mk.injEq] at h
            rw [← h.2]
            exact length_dropWhile_le ..
          · simp at h
        · split at h
          · simp only [Except.ok.injEq, Prod.mk.injEq] at h
            rw [← h.2]
            exact length_dropWhile_le ..
          · simp at h

/-- The tokens of a text that begins at byte `position`. -/
def tokensFrom (position : Nat) (cs : List Char) : Except ParseError (List Placed) :=
  match cs with
  | [] => .ok []
  | c :: rest =>
    if Text.isWhitespace c then tokensFrom (position + c.utf8Size) rest
    else
      match h : readToken position c rest with
      | .error e => .error e
      | .ok (token, after) =>
        have := length_readToken h
        let consumed := (c :: rest).take (rest.length + 1 - after.length)
        (tokensFrom (position + byteLength consumed) after).map (⟨token, position⟩ :: ·)
termination_by cs.length

/-- The tokens of a text. -/
def tokenize (text : String) : Except ParseError (List Placed) :=
  tokensFrom 0 text.toList

end ObjectGraph.Predicate
