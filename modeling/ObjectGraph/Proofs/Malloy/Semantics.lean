/-
# What Malloy stages mean

The clauses of a stage are evaluated in a fixed order, wherever they stand: the rows of its input
for which all conditions hold, sorted by its keys, no more of them than the limit; then either the
number of these rows or the fields that are selected from each of them.  The output of a stage is
the input of the next one.
-/
import ObjectGraph.Malloy.Compile
import ObjectGraph.Proofs.Arranging

namespace ObjectGraph.Malloy

open Compile (TextCondition)

variable {δ ε : Type}

/-! ### Clauses by their kind -/

namespace Clause

/-- The condition that a clause keeps rows by. -/
def condition? : Clause → Option (TextCondition String)
  | filter condition => some condition
  | _ => none

/-- The keys that a clause sorts rows by. -/
def sortKeys : Clause → List SortKey
  | orderBy keys => keys
  | _ => []

/-- The number of rows that a clause takes. -/
def limit? : Clause → Option UInt32
  | limit n => some n
  | _ => none

/-- The columns that a clause selects. -/
def columns? : Clause → Option (List Column)
  | select columns => some columns
  | _ => none

end Clause

namespace Stage

/-- All conditions of a stage. -/
def conditions (stage : Stage) : List (TextCondition String) :=
  stage.filterMap Clause.condition?

/-- The keys of a stage, the first one deciding first. -/
def sortKeys (stage : Stage) : List SortKey := stage.flatMap Clause.sortKeys

/-- The first limit of a stage. -/
def limit? (stage : Stage) : Option UInt32 := stage.findSome? Clause.limit?

/-- The columns that a stage selects, if it does not keep all fields. -/
def columns? (stage : Stage) : Option (List Column) := stage.findSome? Clause.columns?

/-- Whether a stage counts rows. -/
def counts (stage : Stage) : Bool := stage.any Clause.isCount

end Stage

/-! ### Stages -/

/-- The name of a column in the output. -/
def Column.name (column : Column) : String := column.renamed.getD column.source

/-- The cells that columns choose from a record, under the names of the columns.  A record has no
field twice, so neither does what is chosen. -/
def pick (columns : List Column) (record : Record ε) : Record ε :=
  columns.eraseDups.map fun column => (column.name, record.cell column.source)

namespace Stage

variable (D : Domain δ) (stage : Stage)

/-- What a stage puts out for a record that it does not count. -/
def output (record : Record ε) : Record ε :=
  match stage.columns? with
  | some columns => pick columns record
  | none => record

/-- The conditions on a row, given the types of the fields. -/
def tests (header : Header) : List (Record δ → Truth) :=
  stage.conditions.map fun condition record =>
    condition.truth D (Record.cell header) record.cell

/-- The keys of a stage, each as a cell of the row. -/
def keys : List (Direction × (Record δ → Cell δ)) :=
  stage.sortKeys.map fun key => (key.direction, fun record => record.cell key.field)

/-- The rows of the input that conditions and limit leave, in their order. -/
def left (input : Listing δ) : List (Record δ) :=
  Sql.slice stage.limit? none (arrange D (stage.tests D input.header) stage.keys input.rows)

/-- The output of a stage.  A header is a record of types, so it changes like the rows do. -/
def run (input : Listing δ) : Listing δ :=
  if stage.counts then
    ⟨[("count", some .bigint)], [[("count", some (D.integer (stage.left D input).length))]]⟩
  else ⟨stage.output input.header, (stage.left D input).map stage.output⟩

end Stage

variable (D : Domain δ)

/-- The output of the last of several stages. -/
def runAll : List Stage → Listing δ → Listing δ
  | [], input => input
  | stage :: rest, input => runAll rest (stage.run D input)

/-- The rows of a pipeline, given the fields of its table and their types. -/
def Pipeline.rows (db : Database δ) (header : Header) (pipeline : Pipeline) : List (Record δ) :=
  (runAll D pipeline.stages ⟨header, db ⟨pipeline.schema, pipeline.table⟩⟩).rows

/-! ### Stages that grow -/

variable {D}

lemma runAll_append (first second : List Stage) (input : Listing δ) :
    runAll D (first ++ second) input = runAll D second (runAll D first input) := by
  induction first generalizing input with
  | nil => rfl
  | cons stage rest ih => exact ih (stage.run D input)

namespace Stage

variable (clause : Clause) (stage : Stage)

lemma conditions_cons :
    Stage.conditions (clause :: stage) = clause.condition?.toList ++ stage.conditions := by
  cases clause <;> rfl

lemma sortKeys_cons : Stage.sortKeys (clause :: stage) = clause.sortKeys ++ stage.sortKeys := rfl

lemma limit?_cons : Stage.limit? (clause :: stage) = clause.limit?.or stage.limit? := by
  cases clause <;> rfl

lemma columns?_cons : Stage.columns? (clause :: stage) = clause.columns?.or stage.columns? := by
  cases clause <;> rfl

lemma counts_cons : Stage.counts (clause :: stage) = (clause.isCount || stage.counts) := rfl

lemma conditions_append :
    Stage.conditions (stage ++ [clause]) = stage.conditions ++ clause.condition?.toList := by
  rw [conditions, List.filterMap_append]
  cases clause <;> rfl

lemma sortKeys_append :
    Stage.sortKeys (stage ++ [clause]) = stage.sortKeys ++ clause.sortKeys := by
  rw [sortKeys, List.flatMap_append, List.flatMap_singleton]
  rfl

lemma limit?_append : Stage.limit? (stage ++ [clause]) = stage.limit?.or clause.limit? := by
  rw [limit?, List.findSome?_append]
  cases clause <;> rfl

lemma columns?_append :
    Stage.columns? (stage ++ [clause]) = stage.columns?.or clause.columns? := by
  rw [columns?, List.findSome?_append]
  cases clause <;> rfl

lemma counts_append : Stage.counts (stage ++ [clause]) = (stage.counts || clause.isCount) := by
  simp [counts]

end Stage
end ObjectGraph.Malloy
