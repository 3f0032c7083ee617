/-
# Cypher statements

A statement is a list of parts whose results are appended.  A part matches a single path of
nodes, and its clauses come in a fixed order.
-/
import ObjectGraph.Compile.TextCondition
import ObjectGraph.Query

namespace ObjectGraph.Cypher

open Compile (Dialect TextCondition)

/-- A node of a path. -/
structure Node where
  /-- The variable that stands for it. -/
  name : String
  label : String
deriving DecidableEq

/-- A relationship that is followed a number of times, and the node it leads to. -/
structure Hop where
  relationship : String
  count : Nat
  node : Node
deriving DecidableEq

/-- A path through the graph. -/
structure Path where
  start : Node
  hops : List Hop
deriving DecidableEq

/-- A property of a node. -/
structure Property where
  /-- The variable of the node. -/
  node : String
  name : String
deriving DecidableEq

/-- The property behind the name of its node. -/
def Property.text (property : Property) : String := property.node ++ "." ++ property.name

/-- The name by which a map made from a node picks the property. -/
def Property.key (property : Property) : String := unqualified property.text

/-- An entry of a map made from a node. -/
structure Entry where
  property : Property
  /-- The name of the entry, unless it is that of the property. -/
  name : Option String
deriving DecidableEq

/-- What one column of the result holds. -/
inductive Value
  | property (p : Property)
  | count
  /-- All nodes that a variable stands for, as a list. -/
  | collect (node : String)
  /-- Maps made from all these nodes, as a list. -/
  | collectMaps (node : String) (entries : List Entry)
deriving DecidableEq

/-- A column of the result. -/
structure ReturnItem where
  /-- The field later operations mean by it. -/
  name : String
  value : Value
  givenName : Option String := none
deriving DecidableEq

/-- What a result is sorted by. -/
inductive SortTarget
  | property (p : Property)
  | named (name : String)
deriving DecidableEq

/-- What rows are sorted by. -/
structure SortKey where
  target : SortTarget
  direction : Direction := .ascending
deriving DecidableEq

/-- What is matched and what is returned for it. -/
structure Part where
  path : Path
  conditions : List (TextCondition Property) := []
  /-- The node at the end of the path is returned unless columns are given. -/
  returns : Option (List ReturnItem) := none
  orderBy : List SortKey := []
  skip : Option UInt32 := none
  limit : Option UInt32 := none

/-- Parts whose results are appended, one after the other. -/
abbrev Statement := List Part

/-- The node at the end of a path. -/
def Path.last (path : Path) : Node :=
  match path.hops.getLast? with
  | some hop => hop.node
  | none => path.start

/-! ### Text -/

/-- The words of conditions. -/
def dialect : Dialect where
  and := "AND"
  or := "OR"
  not := "NOT"
  isNull := "IS NULL"
  isNotNull := "IS NOT NULL"
  operator
    | .equals => "="
    | .notEquals => "<>"
    | operator => operator.symbol
  oneOf subject values := subject ++ " IN [" ++ ", ".intercalate values ++ "]"

/-- The node with its label. -/
def Node.text (node : Node) : String :=
  "(" ++ node.name ++ ":" ++ node.label ++ ")"

/-- How often a relationship is followed, unless it is once. -/
def countText (n : Nat) : String :=
  if n > 1 then "*" ++ toString n ++ ".." ++ toString n else ""

/-- The arrow of a relationship and the node it leads to. -/
def Hop.text (hop : Hop) : String :=
  "-[:" ++ hop.relationship ++ countText hop.count ++ "]->" ++ hop.node.text

/-- The path from its start on. -/
def Path.text (path : Path) : String :=
  path.start.text ++ String.join (path.hops.map Hop.text)

/-- The entry of a map; one without a name is called as its property. -/
def Entry.text (entry : Entry) : String :=
  match entry.name with
  | some name => name ++ ": " ++ entry.property.text
  | none => "." ++ entry.property.key

/-- The value that is returned. -/
def Value.text : Value → String
  | property p => p.text
  | count => "count(*)"
  | collect node => "collect(" ++ node ++ ")"
  | collectMaps node entries =>
    "collect(" ++ node ++ " \x7b" ++ ", ".intercalate (entries.map Entry.text) ++ "\x7d)"

/-- The value, with its name if it was given one. -/
def ReturnItem.text (item : ReturnItem) : String :=
  match item.givenName with
  | some given => item.value.text ++ " AS " ++ given
  | none => item.value.text

/-- A property, or the name of a column. -/
def SortTarget.text : SortTarget → String
  | property p => p.text
  | named name => name

/-- The target, with the direction unless it is upwards. -/
def SortKey.text (key : SortKey) : String :=
  match key.direction with
  | .ascending => key.target.text
  | .descending => key.target.text ++ " DESC"

/-- The text of a condition among others that all hold. -/
def conjunctText (c : TextCondition Property) : String :=
  match c with
  | .any _ => "(" ++ c.text dialect Property.text ++ ")"
  | _ => c.text dialect Property.text

/-- A line of a keyword and what belongs to it, unless there is nothing. -/
def lineOf (keyword : String) (separator : String) : List String → List String
  | [] => []
  | parts => [keyword ++ separator.intercalate parts]

namespace Part

/-- The columns that are returned; if there are none, the last node of the path. -/
def returnText (part : Part) : String :=
  match part.returns with
  | none => "RETURN " ++ part.path.last.name
  | some items => "RETURN " ++ ", ".intercalate (items.map ReturnItem.text)

/-- The clauses of a part, each on a line of its own; those that say nothing are left out. -/
def lines (part : Part) : List String :=
  ["MATCH " ++ part.path.text]
    ++ lineOf "WHERE " " AND " (part.conditions.map conjunctText)
    ++ [part.returnText]
    ++ lineOf "ORDER BY " ", " (part.orderBy.map SortKey.text)
    ++ (part.skip.map fun n => "SKIP " ++ toString n.toNat).toList
    ++ (part.limit.map fun n => "LIMIT " ++ toString n.toNat).toList

/-- The clauses of a part. -/
def text (part : Part) : String := "\n".intercalate part.lines

end Part

namespace Statement

/-- The parts of a statement, one behind the other. -/
def text (statement : Statement) : String :=
  "\nUNION ALL\n".intercalate (statement.map Part.text)

end Statement
end ObjectGraph.Cypher
