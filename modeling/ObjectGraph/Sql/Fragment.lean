/-
# Statements as fragments

The text of a statement is put together from fragments.  Identifiers and parameters stay apart
from the code around them until the very end, so that nothing in a name or a string can be
taken for code.
-/
import ObjectGraph.Text.Quoted

namespace ObjectGraph.Sql

/-- A piece of the text of a statement. -/
inductive Fragment
  | code (text : String)
  /-- A name, to be quoted. -/
  | identifier (name : String)
  /-- A string that the statement refers to by a number. -/
  | parameter (value : String)
deriving DecidableEq, Repr

/-- The text of a statement, and the strings it refers to as `$1`, `$2`, …. -/
structure Statement where
  text : String
  parameters : List String := []
deriving DecidableEq, Repr

namespace Fragment

/-- The texts of fragments, parameters being numbered from `next` on. -/
def texts (next : Nat) : List Fragment → List String
  | [] => []
  | code text :: rest => text :: texts next rest
  | identifier name :: rest => Text.quoteIdentifier name :: texts next rest
  | parameter _ :: rest => ("$" ++ toString next) :: texts (next + 1) rest

/-- The string of a parameter. -/
def parameter? : Fragment → Option String
  | parameter value => some value
  | _ => none

/-- The name in an identifier. -/
def identifier? : Fragment → Option String
  | identifier name => some name
  | _ => none

/-- The statement that fragments make up. -/
def statement (fragments : List Fragment) : Statement where
  text := String.join (texts 1 fragments)
  parameters := fragments.filterMap parameter?

/-- Fragments with a comma between each two. -/
def commaSeparated : List (List Fragment) → List Fragment
  | [] => []
  | [part] => part
  | part :: rest => part ++ code ", " :: commaSeparated rest

/-- Fragments between parentheses. -/
def parenthesized (inner : List Fragment) : List Fragment :=
  code "(" :: inner ++ [code ")"]

end Fragment
end ObjectGraph.Sql
