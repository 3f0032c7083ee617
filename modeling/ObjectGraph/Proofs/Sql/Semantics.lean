/-
# What selects mean

A select is evaluated clause by clause: the rows it reads, those among them whose condition is
true, sorted, with the first ones skipped and no more than the limit kept; in the end the select
list for every row that is left, or for every group of them.  Rows keep their order, those of
derived tables included.  A text that spells no operator, or names no type, has no meaning here, and
neither has the name of a table behind its schema where an alias is called for.
-/
import ObjectGraph.Memory.Order
import ObjectGraph.Proofs.Domain
import ObjectGraph.Proofs.Groups
import ObjectGraph.Proofs.Sql.Scope

namespace ObjectGraph

/-- The order of lists of cells, the first cells deciding first. -/
def Domain.orderList {δ : Type} (D : Domain δ) : List (Cell δ) → List (Cell δ) → Ordering
  | a :: as, b :: bs => (D.order a b).then (D.orderList as bs)
  | _, _ => .eq

namespace Sql

variable {δ : Type}

/-- The row that each alias in scope stands for, the innermost one first. -/
abbrev RowEnvironment (δ : Type) := List (TableAlias × Record δ)

/-- The row that a reference stands for.  The name of a stored table is taken for an alias that is
written like it. -/
def RowEnvironment.row? (rows : RowEnvironment δ) : TableReference → Option (Record δ)
  | .aliased handle => rows.lookup handle
  | .stored ⟨none, name⟩ => (rows.find? (·.1.identifier == name)).map Prod.snd
  | .stored ⟨some _, _⟩ => none

/-- The cell of a column. -/
def RowEnvironment.cell (rows : RowEnvironment δ) (table : TableReference) (name : String) :
    Cell δ :=
  (rows.row? table).bind fun record => record.cell name

/-- The stored table that a reference stands for where rows are read from it. -/
def TableReference.tableName : TableReference → TableName
  | stored name => name
  | aliased handle => ⟨none, handle.identifier⟩

/-- The comparison that is spelled like the text. -/
def spelled? (text : String) : Option ComparisonOperator :=
  ComparisonOperator.all.find? (operatorText · == text)

lemma spelled?_operatorText (operator : ComparisonOperator) :
    spelled? (operatorText operator) = some operator := by
  cases operator <;> rfl

/-- The cell of a constant.  Not-a-number is written as a bare word, which a database takes for the
name of a column that is not there. -/
def Value.cell (D : Domain δ) : Value → Cell δ
  | .null => none
  | .boolean b => some (D.boolean b)
  | .integer i => some (D.integer i.toInt)
  | .float x => some (D.float x)
  | .notANumber => none
  | .string s => some (D.text s)
  | .emptyArray => some (D.array [])

mutual

/-- Whether an expression counts or collects rows; those of subselects are their own. -/
def Expression.aggregates : Expression → Bool
  | .and left right | .or left right | .comparison left _ right =>
    left.aggregates || right.aggregates
  | .not e | .isNull e | .cast e _ => e.aggregates
  | .isIn left items => left.aggregates || aggregatesList items
  | .call .jsonAgg _ | .countRows => true
  | .call .coalesce arguments => aggregatesList arguments
  | .exists _ | .subselect _ | .rowToJson _ | .column _ _ | .output _ _ | .value _ => false

/-- Whether an expression of a list counts or collects rows. -/
def aggregatesList : List Expression → Bool
  | [] => false
  | e :: rest => e.aggregates || aggregatesList rest

end

/-- Whether a select list counts or collects rows. -/
def SelectList.aggregates : SelectList → Bool
  | .outputs list => list.any (·.expression.aggregates)
  | .one => false

/-- The rows that a limit and an offset leave. -/
def slice {α : Type} (limit offset : Option UInt32) (rows : List α) : List α :=
  let rest := rows.drop (offset.getD 0).toNat
  match limit with
  | some n => rest.take n.toNat
  | none => rest

/-- A row under the names of others. -/
def relabel (names : List String) (record : Record δ) : Record δ :=
  names.zip (record.map Prod.snd)

/-- The names of a union: those of its first select. -/
def unionNames : List Select → List String
  | [] => []
  | select :: _ => select.list.names

/-- A row, or a group of rows behind the first of them. -/
structure Context (δ : Type) where
  row : RowEnvironment δ
  group : List (RowEnvironment δ) := []

/-- What the select list is evaluated for: every row; all rows as one group, if rows are counted
or collected; or every group, if they are grouped. -/
def contexts (D : Domain δ) (aggregates : Bool) (keys : Option (RowEnvironment δ → List (Cell δ)))
    (around : RowEnvironment δ) (rows : List (RowEnvironment δ)) : List (Context δ) :=
  match keys with
  | some keys =>
    (Stable.classes (fun a b => D.orderList (keys a) (keys b)) rows).map fun group =>
      ⟨group.headD around, group⟩
  | none => if aggregates then [⟨rows.headD around, rows⟩] else rows.map fun row => ⟨row, []⟩

mutual

/-- The cell of an expression in an environment and, for what counts or collects rows, a group. -/
def Expression.eval (D : Domain δ) (db : Database δ) :
    Expression → RowEnvironment δ → List (RowEnvironment δ) → Cell δ
  | .and left right, rows, group =>
    D.ofTruth (Truth.and (D.toTruth (left.eval D db rows group))
      (D.toTruth (right.eval D db rows group)))
  | .or left right, rows, group =>
    D.ofTruth (Truth.or (D.toTruth (left.eval D db rows group))
      (D.toTruth (right.eval D db rows group)))
  | .not e, rows, group => D.ofTruth (Truth.not (D.toTruth (e.eval D db rows group)))
  | .comparison left operator right, rows, group =>
    D.ofTruth ((spelled? operator).bind fun comparison =>
      D.holds comparison (left.eval D db rows group) (right.eval D db rows group))
  | .isIn left items, rows, group =>
    D.ofTruth (D.among (left.eval D db rows group) (evalList D db items rows group))
  | .isNull e, rows, group => some (D.boolean (e.eval D db rows group).isNone)
  | .call .coalesce arguments, rows, group => (evalList D db arguments rows group).findSome? id
  | .call .jsonAgg arguments, _, group =>
    if group.isEmpty then none
    else some (D.array (group.flatMap fun member => evalList D db arguments member []))
  | .exists select, rows, _ => some (D.boolean !(select.rows D db rows).isEmpty)
  | .subselect select, rows, _ =>
    ((select.rows D db rows).head?.bind List.head?).bind Prod.snd
  | .rowToJson table, rows, _ => (rows.row? table).map D.record
  | .column table name, rows, _ | .output table name, rows, _ => rows.cell table name
  | .value v, _, _ => v.cell D
  | .cast e type, rows, group =>
    (ScalarType.names.lookup type).bind fun known => (e.eval D db rows group).bind (D.cast known)
  | .countRows, _, group => some (D.integer group.length)

/-- The cells of expressions. -/
def evalList (D : Domain δ) (db : Database δ) :
    List Expression → RowEnvironment δ → List (RowEnvironment δ) → List (Cell δ)
  | [], _, _ => []
  | e :: rest, rows, group => e.eval D db rows group :: evalList D db rest rows group

/-- The record of outputs under their names. -/
def evalOutputs (D : Domain δ) (db : Database δ) :
    List Output → RowEnvironment δ → List (RowEnvironment δ) → Record δ
  | [], _, _ => []
  | ⟨name, e⟩ :: rest, rows, group =>
    (name, e.eval D db rows group) :: evalOutputs D db rest rows group

/-- The record of a select list. -/
def SelectList.eval (D : Domain δ) (db : Database δ) :
    SelectList → RowEnvironment δ → List (RowEnvironment δ) → Record δ
  | .outputs list, rows, group => evalOutputs D db list rows group
  | .one, _, _ => [("?column?", some (D.integer 1))]

/-- The order of two rows by the keys, the first key deciding first. -/
def orderKeys (D : Domain δ) (db : Database δ) :
    List SortKey → RowEnvironment δ → RowEnvironment δ → Ordering
  | [], _, _ => .eq
  | ⟨target, direction⟩ :: rest, a, b =>
    (D.directed direction (target.eval D db a []) (target.eval D db b [])).then
      (orderKeys D db rest a b)

/-- The rows of a relation, in an environment that does not hold its alias. -/
def Relation.rows (D : Domain δ) (db : Database δ) :
    Relation → RowEnvironment δ → List (Record δ)
  | .table reference _, _ => db reference.tableName
  | .derived select _, around => select.rows D db around
  | .union selects _, around => unionRows D db (unionNames selects) selects around

/-- The rows of selects one after the other, under the same names. -/
def unionRows (D : Domain δ) (db : Database δ) (names : List String) :
    List Select → RowEnvironment δ → List (Record δ)
  | [], _ => []
  | select :: rest, around =>
    (select.rows D db around).map (relabel names) ++ unionRows D db names rest around

/-- The environments of the rows that a select reads; without a relation there is the one around. -/
def fromRows (D : Domain δ) (db : Database δ) :
    Option Relation → RowEnvironment δ → List (RowEnvironment δ)
  | none, around => [around]
  | some relation, around =>
    (relation.rows D db around).map fun record => (relation.handle, record) :: around

/-- The rows of a select, clause by clause. -/
def Select.rows (D : Domain δ) (db : Database δ) :
    Select → RowEnvironment δ → List (Record δ)
  | ⟨list, relation, condition, groupBy, orderBy, limit, offset⟩, around =>
    let kept := (fromRows D db relation around).filter fun rows =>
      D.toTruth (condition.eval D db rows []) == some true
    let sorted := Stable.sort (fun a b => orderKeys D db orderBy a b) kept
    let left := slice limit offset sorted
    let keys := if groupBy.isEmpty then none else some fun rows => evalList D db groupBy rows []
    (contexts D list.aggregates keys around left).map fun context =>
      list.eval D db context.row context.group

end

section Words

variable {D : Domain δ} {db : Database δ}

/-- An operator compares as it is spelled. -/
lemma eval_comparison (left right : Expression) (operator : ComparisonOperator)
    (rows : RowEnvironment δ) (group : List (RowEnvironment δ)) :
    (Expression.comparison left (operatorText operator) right).eval D db rows group
      = D.ofTruth (D.holds operator (left.eval D db rows group) (right.eval D db rows group)) := by
  rw [Expression.eval, spelled?_operatorText]
  rfl

/-- A cast is one to the type of its name. -/
lemma eval_cast (e : Expression) (type : ScalarType) (rows : RowEnvironment δ)
    (group : List (RowEnvironment δ)) :
    (Expression.cast e type.sqlName).eval D db rows group
      = (e.eval D db rows group).bind (D.cast type) := by
  rw [Expression.eval, ScalarType.lookup_names]
  rfl

end Words

end Sql
end ObjectGraph
