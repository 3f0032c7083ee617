/-
# Quoted text

Three ways to write a string so that its end can be found again: between single quotes with
backslash escapes, as predicates, Malloy and Cypher have it; between double quotes that are
doubled inside, as SQL has it for identifiers; and between double quotes with every invisible
character shown by its code, as messages have it.
-/
import ObjectGraph.Text.Class

namespace ObjectGraph.Text

/-- A backslash before every backslash and every single quote. -/
def escapeSingle : List Char → List Char
  | [] => []
  | c :: rest =>
    if c = '\\' ∨ c = '\'' then '\\' :: c :: escapeSingle rest else c :: escapeSingle rest

/-- A string between single quotes. -/
def quoteSingle (s : String) : String :=
  String.ofList ('\'' :: escapeSingle s.toList ++ ['\''])

/-- Every double quote written twice. -/
def doubleQuotes : List Char → List Char
  | [] => []
  | c :: rest => if c = '"' then '"' :: '"' :: doubleQuotes rest else c :: doubleQuotes rest

/-- A name between double quotes. -/
def quoteIdentifier (s : String) : String :=
  String.ofList ('"' :: doubleQuotes s.toList ++ ['"'])

/-- A code in lower case hexadecimal digits, without leading zeros. -/
def hexDigits (code : Nat) : List Char :=
  Nat.toDigits 16 code

/-- One character as messages show it. -/
def revealChar (c : Char) : List Char :=
  if c = '\x00' then ['\\', '0']
  else if c = '\t' then ['\\', 't']
  else if c = '\r' then ['\\', 'r']
  else if c = '\n' then ['\\', 'n']
  else if c = '"' ∨ c = '\\' then ['\\', c]
  else if isPrintable c && !isExtend c then [c]
  else ['\\', 'u', '{'] ++ hexDigits c.toNat ++ ['}']

/-- A string between double quotes, with nothing invisible in it. -/
def reveal (s : String) : String :=
  String.ofList ('"' :: s.toList.flatMap revealChar ++ ['"'])

/-- A list of strings between brackets, each as `reveal` shows it. -/
def revealList (ss : List String) : String :=
  "[" ++ ", ".intercalate (ss.map reveal) ++ "]"

end ObjectGraph.Text
