/-
# Malloy pipelines

A run of a table through stages.  Every stage reads the output of the one before it and is a
list of clauses; what they mean does not depend on their order.
-/
import ObjectGraph.Compile.TextCondition
import ObjectGraph.Query

namespace ObjectGraph.Malloy

open Compile (Dialect TextCondition)

/-- A field of a stage's output: one of its input, perhaps under a new name. -/
structure Column where
  source : String
  renamed : Option String := none
deriving DecidableEq

/-- The column, behind its new name if it has one. -/
def Column.text (column : Column) : String :=
  match column.renamed with
  | some name => name ++ " is " ++ column.source
  | none => column.source

/-- What rows are sorted by. -/
structure SortKey where
  field : String
  direction : Direction
deriving DecidableEq

/-- The field, with the direction unless it is upwards. -/
def SortKey.text (key : SortKey) : String :=
  match key.direction with
  | .ascending => key.field
  | .descending => key.field ++ " desc"

/-- What a stage does with its rows. -/
inductive Clause
  | select (columns : List Column)
  | filter (condition : TextCondition String)
  | orderBy (keys : List SortKey)
  | limit (count : UInt32)
  /-- One row with the number of rows. -/
  | count

/-- A stage is the list of its clauses. -/
abbrev Stage := List Clause

/-- A table and the stages that its rows go through. -/
structure Pipeline where
  connection : String
  schema : Option String
  table : String
  stages : List Stage

/-- The words of conditions. -/
def dialect : Dialect where
  and := "and"
  or := "or"
  not := "not"
  isNull := "is null"
  isNotNull := "is not null"
  operator
    | .equals => "="
    | operator => operator.symbol
  oneOf subject values := subject ++ " = " ++ " | ".intercalate values

/-- The clause behind its keyword. -/
def Clause.text : Clause → String
  | select columns => "select: " ++ ", ".intercalate (columns.map Column.text)
  | filter condition => "where: " ++ condition.text dialect id
  | orderBy keys => "order_by: " ++ ", ".intercalate (keys.map SortKey.text)
  | limit n => "limit: " ++ toString n.toNat
  | count => "aggregate: count is count()"

/-- A stage, with every clause on a line of its own. -/
def stageText (stage : Stage) : String :=
  "\x7b\n" ++ String.join (stage.map fun clause => "  " ++ clause.text ++ "\n") ++ "\x7d"

namespace Pipeline

/-- The table behind the name of its schema. -/
def tableText (pipeline : Pipeline) : String :=
  match pipeline.schema with
  | some schema => schema ++ "." ++ pipeline.table
  | none => pipeline.table

/-- The pipeline with its stages one behind the other. -/
def text (pipeline : Pipeline) : String :=
  "run: " ++ pipeline.connection ++ ".table('" ++ pipeline.tableText ++ "') -> "
    ++ " -> ".intercalate (pipeline.stages.map stageText)

end Pipeline
end ObjectGraph.Malloy
