/-
# Faults in JSON texts

What is wrong with a text that is not JSON, and where.  A value that is wanted is read; one that
nobody asks for is passed over.  Passing over is more lenient than reading, and has other words
for some of the faults that both notice.
-/

namespace ObjectGraph.Json

/-- A place in a text: its line, counted from one, and the bytes before it on that line. -/
structure Position where
  line : Nat := 1
  column : Nat := 0
deriving DecidableEq, Repr

/-- The place after a character. -/
def Position.advance (p : Position) (c : Char) : Position :=
  if c = '\n' then ⟨p.line + 1, 0⟩ else ⟨p.line, p.column + c.utf8Size⟩

/-- The place after the first byte of a character, which is where a fault at that character is
reported. -/
def Position.enter (p : Position) (c : Char) : Position :=
  if c = '\n' then ⟨p.line + 1, 0⟩ else ⟨p.line, p.column + 1⟩

/-- What is wrong. -/
inductive Fault
  | endInValue
  | endInList
  | endInObject
  | endInString
  | expectedValue
  | expectedIdent
  | expectedColon
  | expectedListCommaOrEnd
  | expectedObjectCommaOrEnd
  | keyMustBeString
  | trailingComma
  | trailingCharacters
  | invalidNumber
  | numberOutOfRange
  | invalidEscape
  | loneSurrogate
  | endOfHexEscape
  | controlCharacter
  | recursionLimit
deriving DecidableEq, Repr

/-- What is said of a fault. -/
def Fault.text : Fault → String
  | endInValue => "EOF while parsing a value"
  | endInList => "EOF while parsing a list"
  | endInObject => "EOF while parsing an object"
  | endInString => "EOF while parsing a string"
  | expectedValue => "expected value"
  | expectedIdent => "expected ident"
  | expectedColon => "expected `:`"
  | expectedListCommaOrEnd => "expected `,` or `]`"
  | expectedObjectCommaOrEnd => "expected `,` or `\x7d`"
  | keyMustBeString => "key must be a string"
  | trailingComma => "trailing comma"
  | trailingCharacters => "trailing characters"
  | invalidNumber => "invalid number"
  | numberOutOfRange => "number out of range"
  | invalidEscape => "invalid escape"
  | loneSurrogate => "lone leading surrogate in hex escape"
  | endOfHexEscape => "unexpected end of hex escape"
  | controlCharacter => "control character (\\u0000-\\u001F) found while parsing a string"
  | recursionLimit => "recursion limit exceeded"

/-- A fault and its place. -/
structure SyntaxError where
  fault : Fault
  position : Position
deriving DecidableEq, Repr

/-- What is said of a fault, and where it is. -/
def SyntaxError.message (e : SyntaxError) : String :=
  e.fault.text ++ " at line " ++ toString e.position.line ++ " column "
    ++ toString e.position.column

/-- The place from which on a text makes no sense, as it is reported when the value there is
read, and when it is passed over. -/
structure Break where
  read : SyntaxError
  passed : SyntaxError
deriving DecidableEq, Repr

/-- A break that is reported the same either way. -/
def Break.same (e : SyntaxError) : Break := ⟨e, e⟩

/-- The break at a place after an earlier fault that only those notice who read. -/
def Break.after (flaw : Option SyntaxError) (b : Break) : Break :=
  { b with read := flaw.getD b.read }

end ObjectGraph.Json
