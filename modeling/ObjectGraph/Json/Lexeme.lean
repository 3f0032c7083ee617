/-
# The lexemes of a JSON text

A text is read one character at a time by an automaton whose state says which lexeme is under
way.  A lexeme that cannot be completed is kept with its fault, since where it stands decides
whether that fault or the lexeme itself is the first thing wrong; nothing is read after it.

Some lexemes are complete and still stand for no value: a numeral beyond the doubles, a string
with half of a surrogate pair.  Whoever passes over them does not notice, so reading goes on
after them.
-/
import ObjectGraph.Json.Fault
import ObjectGraph.Json.Numeral

namespace ObjectGraph.Json

/-- The smallest parts of a text. -/
inductive Lexeme
  | openList
  | closeList
  | openObject
  | closeObject
  | comma
  | colon
  | null
  | boolean (b : Bool)
  | number (n : Number)
  | string (s : String)
  /-- A numeral or a string that stands for no value; `quoted` for a string. -/
  | unreadable (quoted : Bool) (e : SyntaxError)
  /-- A lexeme that breaks off; `quoted` for a string. -/
  | broken (quoted : Bool) (b : Break)
  /-- A character that begins no lexeme. -/
  | stray (c : Char)

/-- A lexeme and the place where it begins. -/
structure Located where
  start : Position
  lexeme : Lexeme

/-- How far a numeral has been read. -/
inductive NumeralStage
  | sign
  | zero
  | whole
  | point
  | fraction
  | mark
  | markSign
  | exponent

/-- What a string's next character belongs to. -/
inductive StringStage
  | plain
  | escape
  /-- The bytes of a `\u` escape: how many were read, their value as long as they are digits,
  and the leading surrogate that came before. -/
  | hex (bytes : Nat) (value : Option Nat) (lead : Option Nat)
  /-- After a leading surrogate: the backslash and the `u` of its other half. -/
  | half (backslash : Bool) (lead : Nat)

/-- The lexeme under way. -/
inductive Scan
  | between
  | ident (start : Position) (expected : List Char) (result : Lexeme)
  | numeral (start : Position) (stage : NumeralStage) (parts : Numeral)
  /-- A string, its first fault for those who read it, and its characters in reverse. -/
  | string (start : Position) (stage : StringStage) (flaw : Option SyntaxError)
      (read : List Char)

/-- A scan goes on, perhaps with lexemes completed on the way, or breaks off. -/
inductive Step
  | next (emitted : List Located) (scan : Scan)
  | stop (last : Located)

/-- The value of a hexadecimal digit. -/
def hexValue? (c : Char) : Option Nat :=
  if '0' ≤ c ∧ c ≤ '9' then some (c.toNat - '0'.toNat)
  else if 'a' ≤ c ∧ c ≤ 'f' then some (c.toNat - 'a'.toNat + 10)
  else if 'A' ≤ c ∧ c ≤ 'F' then some (c.toNat - 'A'.toNat + 10)
  else none

/-- Begin a lexeme. -/
def begin (p : Position) (c : Char) : Step :=
  let single := fun lexeme => Step.next [⟨p, lexeme⟩] .between
  let numeral := fun negative stage whole =>
    Step.next [] (.numeral p stage ⟨negative, whole, none, none⟩)
  if c = ' ' ∨ c = '\n' ∨ c = '\r' ∨ c = '\t' then .next [] .between
  else if c = '[' then single .openList
  else if c = ']' then single .closeList
  else if c = '\x7b' then single .openObject
  else if c = '\x7d' then single .closeObject
  else if c = ',' then single .comma
  else if c = ':' then single .colon
  else if c = '"' then .next [] (.string p .plain none [])
  else if c = 'n' then .next [] (.ident p ['u', 'l', 'l'] .null)
  else if c = 't' then .next [] (.ident p ['r', 'u', 'e'] (.boolean true))
  else if c = 'f' then .next [] (.ident p ['a', 'l', 's', 'e'] (.boolean false))
  else if c = '-' then numeral true .sign []
  else if c = '0' then numeral false .zero [c]
  else if c.isDigit then numeral false .whole [c]
  else .stop ⟨p, .stray c⟩

/-- The lexeme of a numeral that ends at `p`. -/
def finishNumeral (start p : Position) (parts : Numeral) : Located :=
  match parts.number? with
  | some n => ⟨start, .number n⟩
  | none =>
    ⟨start, .unreadable false ⟨.numberOutOfRange, ⟨p.line, p.column - parts.unread⟩⟩⟩

/-- Continue a numeral, or end it before a character that does not belong to it. -/
def stepNumeral (start p : Position) (stage : NumeralStage) (parts : Numeral) (c : Char) :
    Step :=
  let go := fun stage parts => Step.next [] (.numeral start stage parts)
  let fail := Step.stop ⟨start, .broken false (.same ⟨.invalidNumber, p.enter c⟩)⟩
  let finish :=
    match begin p c with
    | .next emitted scan => Step.next (finishNumeral start p parts :: emitted) scan
    | .stop last => .next [finishNumeral start p parts, last] .between
  let wholeEnd :=
    if c = '.' then go .point { parts with fraction := some [] }
    else if c = 'e' ∨ c = 'E' then go .mark { parts with exponent := some (false, []) }
    else finish
  let addFraction := { parts with fraction := parts.fraction.map (· ++ [c]) }
  let addExponent := { parts with exponent := parts.exponent.map fun (s, ds) => (s, ds ++ [c]) }
  match stage with
  | .sign =>
    if c = '0' then go .zero { parts with whole := [c] }
    else if c.isDigit then go .whole { parts with whole := [c] }
    else fail
  | .zero => if c.isDigit then fail else wholeEnd
  | .whole =>
    if c.isDigit then go .whole { parts with whole := parts.whole ++ [c] } else wholeEnd
  | .point => if c.isDigit then go .fraction addFraction else fail
  | .fraction =>
    if c.isDigit then go .fraction addFraction
    else if c = 'e' ∨ c = 'E' then go .mark { parts with exponent := some (false, []) }
    else finish
  | .mark =>
    if c = '+' then go .markSign parts
    else if c = '-' then go .markSign { parts with exponent := some (true, []) }
    else if c.isDigit then go .exponent addExponent
    else fail
  | .markSign => if c.isDigit then go .exponent addExponent else fail
  | .exponent => if c.isDigit then go .exponent addExponent else finish

/-- The character an escape letter stands for. -/
def escaped? (c : Char) : Option Char :=
  if c = '"' ∨ c = '\\' ∨ c = '/' then some c
  else if c = 'b' then some '\x08'
  else if c = 'f' then some '\x0c'
  else if c = 'n' then some '\n'
  else if c = 'r' then some '\r'
  else if c = 't' then some '\t'
  else none

/-- The lexeme of a string that is complete. -/
def finishString (start : Position) (flaw : Option SyntaxError) (read : List Char) : Located :=
  match flaw with
  | none => ⟨start, .string (String.ofList read.reverse)⟩
  | some e => ⟨start, .unreadable true e⟩

/-- A string breaks off. -/
def breakString (start : Position) (flaw : Option SyntaxError) (b : Break) : Step :=
  .stop ⟨start, .broken true (b.after flaw)⟩

/-- Continue a string with a character that belongs to nothing before it. -/
def stepPlain (start p : Position) (flaw : Option SyntaxError) (read : List Char) (c : Char) :
    Step :=
  if c = '"' then .next [finishString start flaw read] .between
  else if c = '\\' then .next [] (.string start .escape flaw read)
  else if c.toNat < 0x20 then
    breakString start flaw ⟨⟨.controlCharacter, p.enter c⟩, ⟨.controlCharacter, p⟩⟩
  else .next [] (.string start .plain flaw (c :: read))

/-- Continue a string after a backslash. -/
def stepEscape (start p : Position) (flaw : Option SyntaxError) (read : List Char) (c : Char) :
    Step :=
  if c = 'u' then .next [] (.string start (.hex 0 (some 0) none) flaw read)
  else
    match escaped? c with
    | some d => .next [] (.string start .plain flaw (d :: read))
    | none => breakString start flaw (.same ⟨.invalidEscape, p.enter c⟩)

/-- Continue a string after a complete `\u` escape that ends at `p`. -/
def stepCode (start p : Position) (lead : Option Nat) (flaw : Option SyntaxError)
    (read : List Char) (code : Nat) : Scan :=
  let isTrail := 0xdc00 ≤ code ∧ code ≤ 0xdfff
  let lone := Scan.string start .plain (flaw.or (some ⟨.loneSurrogate, p⟩)) read
  match lead with
  | none =>
    if isTrail then lone
    else if 0xd800 ≤ code ∧ code ≤ 0xdbff then .string start (.half false code) flaw read
    else .string start .plain flaw (Char.ofNat code :: read)
  | some first =>
    if isTrail then
      let c := Char.ofNat (0x10000 + (first - 0xd800) * 0x400 + (code - 0xdc00))
      .string start .plain flaw (c :: read)
    else lone

/-- Continue a string.  A leading surrogate without its other half is a fault for those who
read; for all others what follows it is as good as any. -/
def stepString (start p : Position) (stage : StringStage) (flaw : Option SyntaxError)
    (read : List Char) (c : Char) : Step :=
  let halved := flaw.or (some ⟨.endOfHexEscape, p.enter c⟩)
  match stage with
  | .plain => stepPlain start p flaw read c
  | .escape => stepEscape start p flaw read c
  | .hex bytes value lead =>
    let value := value.bind fun v => (hexValue? c).map (16 * v + ·)
    if bytes + c.utf8Size < 4 then
      .next [] (.string start (.hex (bytes + c.utf8Size) value lead) flaw read)
    else
      let after := if c = '\n' then p.advance c else ⟨p.line, p.column + (4 - bytes)⟩
      match value with
      | none => breakString start flaw (.same ⟨.invalidEscape, after⟩)
      | some code => .next [] (stepCode start after lead flaw read code)
  | .half false lead =>
    if c = '\\' then .next [] (.string start (.half true lead) flaw read)
    else stepPlain start p halved read c
  | .half true lead =>
    if c = 'u' then .next [] (.string start (.hex 0 (some 0) (some lead)) flaw read)
    else stepEscape start p halved read c

/-- Read one character at a place. -/
def Scan.step (scan : Scan) (p : Position) (c : Char) : Step :=
  match scan with
  | .between => begin p c
  | .ident start [] result =>
    match begin p c with
    | .next emitted scan => .next (⟨start, result⟩ :: emitted) scan
    | .stop last => .next [⟨start, result⟩, last] .between
  | .ident start (x :: expected) result =>
    if c ≠ x then .stop ⟨start, .broken false (.same ⟨.expectedIdent, p.enter c⟩)⟩
    else if expected = [] then .next [⟨start, result⟩] .between
    else .next [] (.ident start expected result)
  | .numeral start stage parts => stepNumeral start p stage parts c
  | .string start stage flaw read => stepString start p stage flaw read c

/-- The lexeme under way when the text ends at `p`. -/
def Scan.finish (scan : Scan) (p : Position) : List Located :=
  match scan with
  | .between => []
  | .ident start [] result => [⟨start, result⟩]
  | .ident start (_ :: _) _ => [⟨start, .broken false (.same ⟨.endInValue, p⟩)⟩]
  | .numeral start stage parts =>
    match stage with
    | .zero | .whole | .fraction | .exponent => [finishNumeral start p parts]
    | .sign | .point | .mark | .markSign =>
      [⟨start, .broken false ⟨⟨.endInValue, p⟩, ⟨.invalidNumber, p⟩⟩⟩]
  | .string start _ flaw _ =>
    [⟨start, .broken true ((Break.same ⟨.endInString, p⟩).after flaw)⟩]

/-- The lexemes of a text that continues at a place, and the place where it ends. -/
def lexemesFrom (scan : Scan) (p : Position) : List Char → List Located × Position
  | [] => (scan.finish p, p)
  | c :: rest =>
    match scan.step p c with
    | .stop last => ([last], p)
    | .next emitted scan =>
      let (more, finish) := lexemesFrom scan (p.advance c) rest
      (emitted ++ more, finish)

/-- The lexemes of a text, and the place where it ends. -/
def lexemes (text : String) : List Located × Position :=
  lexemesFrom .between ⟨1, 0⟩ text.toList

end ObjectGraph.Json
