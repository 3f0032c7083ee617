/-
# Selects

The part of SQL that queries are compiled to.  Whatever a select reads it reads under an alias, and
a column says whether it is one of a stored table or an output of a derived one.  Operators and the
types of casts are not listed: they are texts, to be written as they are.
-/
import ObjectGraph.Catalog.Scalar
import ObjectGraph.Double
import ObjectGraph.Query

namespace ObjectGraph.Sql

/-- The name of a stored table. -/
structure TableName where
  schema : Option String := none
  table : String
deriving DecidableEq

/-- The name under which a select reads a table; the index tells aliases of the same name
apart. -/
structure TableAlias where
  name : String
  index : Nat
deriving DecidableEq

/-- The identifier of an alias: the name alone for the first of its kind. -/
def TableAlias.identifier (handle : TableAlias) : String :=
  if handle.index = 0 then handle.name else handle.name ++ "_" ++ toString handle.index

/-- What stands for a table: the name it is stored under, or an alias. -/
inductive TableReference
  | stored (name : TableName)
  | aliased (handle : TableAlias)
deriving DecidableEq

instance : Coe TableName TableReference := ⟨.stored⟩

instance : Coe TableAlias TableReference := ⟨.aliased⟩

/-- The spelling of a comparison. -/
def operatorText : ComparisonOperator → String
  | .equals => "="
  | .notEquals => "<>"
  | .lessThan => "<"
  | .lessOrEqual => "<="
  | .greaterThan => ">"
  | .greaterOrEqual => ">="

/-- A constant. -/
inductive Value
  | null
  | boolean (b : Bool)
  | integer (i : Int64)
  | float (x : Double)
  /-- The float that is no number, which no query asks for. -/
  | notANumber
  /-- Sent beside the text of the statement. -/
  | string (s : String)
  | emptyArray
deriving DecidableEq

/-- A function that is called by its name. -/
inductive Function
  | coalesce
  | jsonAgg
deriving DecidableEq

mutual

/-- What has a value for every row. -/
inductive Expression
  | and (left right : Expression)
  | or (left right : Expression)
  | not (e : Expression)
  /-- The operator is a text that is written as it is. -/
  | comparison (left : Expression) (operator : String) (right : Expression)
  | isIn (left : Expression) (items : List Expression)
  | isNull (e : Expression)
  | call (function : Function) (arguments : List Expression)
  | exists (select : Select)
  /-- A select that gives a single value. -/
  | subselect (select : Select)
  /-- A whole row as a JSON object. -/
  | rowToJson (table : TableReference)
  /-- A column of a stored table. -/
  | column (table : TableReference) (name : String)
  /-- An output of a derived table. -/
  | output (table : TableReference) (name : String)
  | value (v : Value)
  /-- The type is a text that is written as it is. -/
  | cast (e : Expression) (type : String)
  | countRows

/-- An entry of a select list. -/
structure Output where
  name : String
  expression : Expression

/-- What a select gives for every row. -/
inductive SelectList
  | outputs (list : List Output)
  /-- The constant one, where only the number of rows matters. -/
  | one

/-- What a select reads its rows from. -/
inductive Relation
  | table (reference : TableReference) (handle : TableAlias)
  | derived (select : Select) (handle : TableAlias)
  /-- The rows of all selects, one after the other. -/
  | union (selects : List Select) (handle : TableAlias)

/-- What rows are sorted by. -/
structure SortKey where
  target : Expression
  direction : Direction

/-- A select with all its clauses. -/
structure Select where
  list : SelectList
  /-- What rows are read from; a select that reads nothing has a single row. -/
  relation : Option Relation
  condition : Expression
  groupBy : List Expression
  orderBy : List SortKey
  limit : Option UInt32
  offset : Option UInt32

end

/-- The alias that a relation is read under. -/
def Relation.handle : Relation → TableAlias
  | table _ handle | derived _ handle | union _ handle => handle

namespace Expression

instance : Inhabited Expression := ⟨countRows⟩

/-- The condition that always holds. -/
def true : Expression := value (.boolean Bool.true)

/-- The condition that never holds. -/
def false : Expression := value (.boolean Bool.false)

/-- Whether an expression is the constant `true`. -/
def isTrue : Expression → Bool
  | value (.boolean b) => b
  | _ => Bool.false

/-- Both conditions, a constant `true` being left out. -/
def both (left right : Expression) : Expression :=
  if left.isTrue then right else if right.isTrue then left else and left right

/-- Whether two values are the same. -/
def equal (left right : Expression) : Expression :=
  comparison left (operatorText .equals) right

/-- All rows of a table as one JSON array, `null` if there are none. -/
def jsonRows (table : TableAlias) : Expression :=
  call .jsonAgg [rowToJson table]

/-- All rows of a table as one JSON array. -/
def jsonArray (table : TableAlias) : Expression :=
  call .coalesce [jsonRows table, value .emptyArray]

end Expression

namespace Select

/-- A select with no clauses but its list and what it reads. -/
def simple (list : SelectList) (relation : Relation) : Select where
  list
  relation := some relation
  condition := .true
  groupBy := []
  orderBy := []
  limit := none
  offset := none

end Select
end ObjectGraph.Sql
