/-
# The text of a select

Clauses that say nothing are left out: a condition that is always true, and empty lists.
-/
import ObjectGraph.Double.Notation
import ObjectGraph.Sql.Fragment
import ObjectGraph.Sql.Syntax

namespace ObjectGraph.Sql

open Fragment

/-- The name of a function. -/
def Function.name : Function → String
  | coalesce => "coalesce"
  | jsonAgg => "json_agg"

/-- The notation of a constant; strings are sent beside the text. -/
def Value.fragments : Value → List Fragment
  | null => [code "NULL"]
  | boolean b => [code (if b then "true" else "false")]
  | integer i => [code (toString i.toInt)]
  | float x => [code (x.render Double.plainStyle)]
  | notANumber => [code "NaN"]
  | string s => [parameter s]
  | emptyArray => [code "'[]'"]

/-- The name of a stored table, behind that of its schema. -/
def TableName.fragments (name : TableName) : List Fragment :=
  match name.schema with
  | some schema => [identifier schema, code ".", identifier name.table]
  | none => [identifier name.table]

/-- The identifier of an alias. -/
def TableAlias.fragments (handle : TableAlias) : List Fragment :=
  [.identifier handle.identifier]

/-- What a table is called by. -/
def TableReference.fragments : TableReference → List Fragment
  | stored name => name.fragments
  | aliased handle => handle.fragments

/-- A column of a table. -/
def columnFragments (table : TableReference) (name : String) : List Fragment :=
  table.fragments ++ [code ".", identifier name]

/-- The word for a direction, with a blank in front of it. -/
def directionText : Direction → String
  | .ascending => " ASC"
  | .descending => " DESC"

/-- A clause of a keyword and a number. -/
def limitFragments (keyword : String) : Option UInt32 → List Fragment
  | some n => [code keyword, code (toString n.toNat)]
  | none => []

/-- A clause of a keyword and a list, unless the list is empty. -/
def listClause (keyword : String) : List (List Fragment) → List Fragment
  | [] => []
  | parts => code keyword :: commaSeparated parts

mutual

/-- The text of an expression. -/
def Expression.fragments : Expression → List Fragment
  | .and left right => parenthesized (left.fragments ++ code " AND " :: right.fragments)
  | .or left right => parenthesized (left.fragments ++ code " OR " :: right.fragments)
  | .not e => code "NOT " :: e.fragments
  | .comparison left operator right =>
    parenthesized (left.fragments ++ code (" " ++ operator ++ " ") :: right.fragments)
  | .isIn left items =>
    parenthesized
      (left.fragments ++ code " IN " :: parenthesized (commaSeparated (listFragments items)))
  | .isNull e => parenthesized (e.fragments ++ [code " IS NULL"])
  | .call function arguments =>
    code function.name :: parenthesized (commaSeparated (listFragments arguments))
  | .exists select => code "EXISTS " :: parenthesized select.fragments
  | .subselect select => parenthesized select.fragments
  | .rowToJson table => code "row_to_json" :: parenthesized table.fragments
  | .column table name | .output table name => columnFragments table name
  | .value v => v.fragments
  | .cast e type => code "CAST" :: parenthesized (e.fragments ++ [code " AS ", code type])
  | .countRows => [code "COUNT(*)"]

/-- The texts of expressions. -/
def listFragments : List Expression → List (List Fragment)
  | [] => []
  | e :: rest => e.fragments :: listFragments rest

/-- The texts of outputs with their names. -/
def outputFragments : List Output → List (List Fragment)
  | [] => []
  | ⟨name, e⟩ :: rest => (e.fragments ++ [code " AS ", identifier name]) :: outputFragments rest

/-- The text of a select list. -/
def SelectList.fragments : SelectList → List Fragment
  | .outputs list => commaSeparated (outputFragments list)
  | .one => [code "1"]

/-- The texts of sort keys. -/
def sortFragments : List SortKey → List (List Fragment)
  | [] => []
  | ⟨target, direction⟩ :: rest =>
    (target.fragments ++ [code (directionText direction)]) :: sortFragments rest

/-- The text of a relation, which ends with its alias. -/
def Relation.fragments : Relation → List Fragment
  | .table reference handle => reference.fragments ++ code " AS " :: handle.fragments
  | .derived select handle => parenthesized select.fragments ++ code " AS " :: handle.fragments
  | .union selects handle =>
    parenthesized (unionFragments selects) ++ code " AS " :: handle.fragments

/-- The clause of what a select reads, if it reads anything. -/
def fromFragments : Option Relation → List Fragment
  | none => []
  | some relation => code " FROM " :: relation.fragments

/-- The texts of selects, one behind the other. -/
def unionFragments : List Select → List Fragment
  | [] => []
  | select :: rest =>
    parenthesized select.fragments
      ++ (if rest.isEmpty then [] else [code " UNION ALL "]) ++ unionFragments rest

/-- The text of a select, clause by clause. -/
def Select.fragments : Select → List Fragment
  | ⟨list, relation, condition, groupBy, orderBy, limit, offset⟩ =>
    code "SELECT " :: list.fragments
      ++ fromFragments relation
      ++ (if condition.isTrue then [] else code " WHERE " :: condition.fragments)
      ++ listClause " GROUP BY " (listFragments groupBy)
      ++ listClause " ORDER BY " (sortFragments orderBy)
      ++ limitFragments " LIMIT " limit
      ++ limitFragments " OFFSET " offset

end

/-- The statement that runs a select. -/
def Select.statement (select : Select) : Statement :=
  Fragment.statement select.fragments

/-- The statement that asks how a select would be run. -/
def Select.explanation (select : Select) : Statement :=
  Fragment.statement (code "EXPLAIN " :: select.fragments)

end ObjectGraph.Sql
