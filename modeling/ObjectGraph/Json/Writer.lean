/-
# The text of a JSON value

Compact text has no blanks.  Pretty text puts every item and member on a line of its own, two
spaces deeper than what holds it, and writes empty arrays and objects without a break.
-/
import ObjectGraph.Double.Notation
import ObjectGraph.Json
import ObjectGraph.Text.Quoted

namespace ObjectGraph.Json

/-- One character inside the quotes of a string. -/
def escapeChar (c : Char) : List Char :=
  if c = '"' ∨ c = '\\' then ['\\', c]
  else if c = '\n' then ['\\', 'n']
  else if c = '\r' then ['\\', 'r']
  else if c = '\t' then ['\\', 't']
  else if c = '\x08' then ['\\', 'b']
  else if c = '\x0c' then ['\\', 'f']
  else if c.toNat < 0x20 then
    ['\\', 'u', '0', '0', Nat.digitChar (c.toNat / 16), Nat.digitChar (c.toNat % 16)]
  else [c]

/-- A string between quotes. -/
def quote (s : String) : String :=
  String.ofList ('"' :: s.toList.flatMap escapeChar ++ ['"'])

/-- Numbers that are not finite have no JSON text; `null` stands for them. -/
def numberText : Number → String
  | .int i => toString i
  | .float x => if x.isFinite then x.render Double.jsonStyle else "null"

/-- A line break followed by two spaces for every level. -/
def newline (level : Nat) : String :=
  "\n" ++ String.ofList (List.replicate (2 * level) ' ')

/-- Enclose parts in a pair of brackets, on lines of their own at the given level if there is
one. -/
def enclose (opening closing : String) (level : Option Nat) (parts : List String) : String :=
  match level, parts with
  | _, [] => opening ++ closing
  | none, parts => opening ++ ",".intercalate parts ++ closing
  | some level, parts =>
    opening ++ newline (level + 1) ++ ("," ++ newline (level + 1)).intercalate parts
      ++ newline level ++ closing

mutual

/-- The text of a value, compact or at a level of indentation. -/
def write (level : Option Nat) : Json → String
  | null => "null"
  | boolean b => if b then "true" else "false"
  | number n => numberText n
  | string s => quote s
  | array items => enclose "[" "]" level (writeItems (level.map (· + 1)) items)
  | object members => enclose "\x7b" "\x7d" level (writeMembers (level.map (· + 1)) members)

/-- The texts of the items of a list. -/
def writeItems (level : Option Nat) : List Json → List String
  | [] => []
  | item :: rest => write level item :: writeItems level rest

/-- The texts of members, each with its name in front. -/
def writeMembers (level : Option Nat) : List (String × Json) → List String
  | [] => []
  | (name, value) :: rest =>
    (quote name ++ (if level.isSome then ": " else ":") ++ write level value)
      :: writeMembers level rest

end

/-- The text on a single line. -/
def compact (v : Json) : String := v.write none

/-- The text with every item and member on a line of its own. -/
def pretty (v : Json) : String := v.write (some 0)

end ObjectGraph.Json
