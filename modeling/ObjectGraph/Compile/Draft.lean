/-
# Selects under construction

A draft is a select whose clauses and output columns can still change.  An operation that the
clauses of a draft leave no room for makes it the derived table of a new draft; the new draft
has the same columns, each read through the alias of the derived table.
-/
import ObjectGraph.Compile.Error
import ObjectGraph.Named
import ObjectGraph.Predicate
import ObjectGraph.Sql.Syntax

namespace ObjectGraph.Compile

open Sql (Expression Relation Select SelectList SortKey TableAlias)

/-- How often each name was used for an alias. -/
abbrev AliasCounts := List (String × Nat)

/-- Building a select takes fresh aliases and may fail. -/
abbrev Build := StateT AliasCounts (Except CompileError)

/-- An alias that no one else has: the first one of a name carries the index zero. -/
def freshAlias (name : String) : Build TableAlias := fun counts =>
  let index := (counts.lookup name).getD 0
  .ok (⟨name, index⟩, Named.put name (index + 1) counts)

/-- The output column that holds the identity. -/
def identityColumn : String := "id"

/-- A column of a draft. -/
structure Column where
  /-- The field that queries mean by it. -/
  field : String
  /-- Its name in the select list. -/
  name : String
  expression : Expression
  /-- Its type, which is unknown for edges and most aggregates. -/
  type : Option ScalarType := none
  isIdentity : Bool := false

namespace Column

/-- A column that is named after the field it is. -/
def computed (field : String) (expression : Expression) (type : Option ScalarType := none) :
    Column where
  field
  name := field
  expression
  type

/-- Whether a column is the one a reference means.  Both `id` and `:id` mean the identity. -/
def answersTo (column : Column) (reference : String) : Bool :=
  column.field == reference
    || (column.isIdentity && (reference == idKey || reference == identityColumn))

/-- The column as an output of a derived table. -/
def through (table : TableAlias) (column : Column) : Column :=
  { column with expression := .output table column.name }

/-- The columns of the fields of a type. -/
def ofType (type : ObjectType) (table : TableAlias) : List Column :=
  type.fields.entries.map fun (name, field) =>
    let isIdentity := name == type.idField
    { field := name
      name := if isIdentity then identityColumn else name
      expression := .column table field.column
      type := some field.type
      isIdentity }

end Column

/-- A select whose clauses can still change. -/
structure Draft where
  relation : Relation
  columns : List Column
  condition : Expression := .true
  groupBy : List Expression := []
  orderBy : List SortKey := []
  limit : Option UInt32 := none
  offset : Option UInt32 := none
  /-- The object type of the rows, while all are objects of one type. -/
  type : Option String
  /-- Whether the select reads the table of its object type, with all its columns. -/
  readsTable : Bool := false
  /-- Whether rows were aggregated or columns renamed; no clause can be added then. -/
  isSealed : Bool := false

namespace Draft

/-- The alias that the rows are read under. -/
def handle (draft : Draft) : TableAlias := draft.relation.handle

/-- Whether the number of rows is limited, at either end. -/
def isLimited (draft : Draft) : Bool := draft.limit.isSome || draft.offset.isSome

/-- The select with the columns as its list. -/
def finish (draft : Draft) : Select where
  list := .outputs (draft.columns.map fun column => ⟨column.name, column.expression⟩)
  relation := some draft.relation
  condition := draft.condition
  groupBy := draft.groupBy
  orderBy := draft.orderBy
  limit := draft.limit
  offset := draft.offset

/-- A draft over the rows of this one, which becomes a derived table. -/
def wrap (draft : Draft) : Build Draft := do
  let handle ← freshAlias "t"
  return {
    relation := .derived draft.finish handle
    columns := draft.columns.map (·.through handle)
    type := draft.type
  }

/-- The draft, wrapped under a condition. -/
def wrapIf (condition : Bool) (draft : Draft) : Build Draft :=
  if condition then draft.wrap else pure draft

/-- A draft without limits to which clauses can be added. -/
def opened (draft : Draft) : Build Draft :=
  draft.wrapIf (draft.isLimited || draft.isSealed)

/-- A draft without an upper limit to which clauses can be added. -/
def unlimited (draft : Draft) : Build Draft :=
  draft.wrapIf (draft.limit.isSome || draft.isSealed)

/-- The column a reference means. -/
def column? (draft : Draft) (reference : String) : Option Column :=
  draft.columns.find? (·.answersTo reference)

/-- The error for a reference that means nothing. -/
def notFound (draft : Draft) (reference : String) : CompileError :=
  .fieldNotFound reference (.ofType draft.type)

/-- The field of the stored objects a reference means, while the table is still read. -/
def storedField? (catalog : Catalog) (draft : Draft) (reference : String) :
    Except CompileError (Option Field) :=
  match draft.readsTable, draft.type with
  | true, some name => do
    let type ← catalog.requireType name
    let reference := if reference = identityColumn then idKey else reference
    return (type.lookupField reference).map Prod.snd
  | _, _ => return none

/-- The expression a reference stands for, and its type.  The columns of the draft come first;
while the table is still read, its other fields can be referred to as well. -/
def resolve (catalog : Catalog) (draft : Draft) (reference : String) :
    Except CompileError (Expression × Option ScalarType) := do
  let reference := unqualified reference
  match draft.column? reference with
  | some column => return (column.expression, column.type)
  | none =>
    match ← draft.storedField? catalog reference with
    | some field => return (.column draft.handle field.column, some field.type)
    | none => throw (draft.notFound reference)

end Draft
end ObjectGraph.Compile
