/-
# Queries as selects

The operations of a query are folded into a draft one by one.  An operation joins the clauses
that are there already where SQL evaluates them in the order in which the query means them, and
wraps the draft where it would not.  An edge becomes a column that holds, for every row, the
result of a subselect tied to that row.
-/
import ObjectGraph.Compile.Condition

namespace ObjectGraph.Compile

open Sql (Expression Relation Select SortKey TableAlias TableName)

/-! ### Operations on a single draft -/

/-- The sum of two numbers, or the greatest number there is. -/
def saturatingAdd (a b : UInt32) : UInt32 :=
  UInt32.ofNat (min (a.toNat + b.toNat) (UInt32.size - 1))

/-- A column under a new name. -/
def Column.renamed (column : Column) (new : String) : Column :=
  let isIdentity := new == idKey || new == identityColumn
  { column with
    field := new
    name := if isIdentity then identityColumn else new
    isIdentity }

/-- Rename the first column a reference means. -/
def Column.renameFirst (old new : String) : List Column → Option (List Column)
  | [] => none
  | column :: rest =>
    if column.answersTo old then some (column.renamed new :: rest)
    else (Column.renameFirst old new rest).map (column :: ·)

namespace Draft

/-- The columns that references mean, each one once. -/
def pick (draft : Draft) (picked : List Column) :
    List String → Except CompileError (List Column)
  | [] => .ok picked
  | reference :: rest =>
    let reference := unqualified reference
    match draft.column? reference with
    | none => .error (draft.notFound reference)
    | some column =>
      if picked.any (·.name == column.name) then draft.pick picked rest
      else draft.pick (picked ++ [column]) rest

/-- Keep only the columns that fields mean, in the order of the fields. -/
def project (draft : Draft) (fields : List String) : Except CompileError Draft := do
  return { draft with columns := ← draft.pick [] fields }

/-- Keep the rows that satisfy a predicate. -/
def filter (catalog : Catalog) (draft : Draft) (predicate : Predicate) : Build Draft := do
  let draft ← draft.opened
  let condition ← Compile.condition catalog draft predicate
  return { draft with condition := draft.condition.both condition }

/-- Keep the first rows. -/
def take (draft : Draft) (count : UInt32) : Build Draft := do
  let draft ← draft.unlimited
  return { draft with limit := some count }

/-- Drop the first rows. -/
def skip (draft : Draft) (count : UInt32) : Build Draft := do
  let draft ← draft.unlimited
  return { draft with offset := some (saturatingAdd (draft.offset.getD 0) count) }

/-- One row with the number of rows. -/
def count (draft : Draft) : Build Draft := do
  let draft ← draft.opened
  return { draft with
    columns := [.computed "count" .countRows (some .bigint)]
    orderBy := []
    type := none
    readsTable := false
    isSealed := true }

/-- One row with all rows under a key. -/
def nest (draft : Draft) (key : String) : Build Draft := do
  let draft ← draft.wrap
  return { draft with
    columns := [.computed key (.jsonArray draft.handle)]
    type := none
    isSealed := true }

/-- Rename a column. -/
def rename (draft : Draft) (old new : String) : Except CompileError Draft :=
  let old := unqualified old
  match Column.renameFirst old (unqualified new) draft.columns with
  | none => .error (draft.notFound old)
  | some columns => .ok { draft with columns, isSealed := true }

/-- Sort by a field, in front of the keys that rows are sorted by already. -/
def sortBy (catalog : Catalog) (draft : Draft) (key : String) (direction : Direction) :
    Build Draft := do
  let draft ← draft.opened
  let target := (← draft.resolve catalog key).1
  return { draft with orderBy := ⟨target, direction⟩ :: draft.orderBy }

/-- One row for every value of a field, with the rows that share it. -/
def gatherBy (catalog : Catalog) (draft : Draft) (key : String) : Build Draft := do
  let draft ← draft.wrap
  let (target, type) ← draft.resolve catalog key
  return { draft with
    columns :=
      [.computed "key" target type, .computed "items" (.jsonRows draft.handle)]
    groupBy := [target]
    orderBy := [⟨target, .ascending⟩]
    type := none
    isSealed := true }

/-- Put a column in place of the one for the same field. -/
def attach (draft : Draft) (column : Column) : Draft :=
  { draft with columns := draft.columns.filter (·.field != column.field) ++ [column] }

/-- The names of the columns. -/
def names (draft : Draft) : List String := draft.columns.map (·.name)

/-- The rows of all drafts, one draft after the other. -/
def union (first : Draft) (branches : List Draft) : Build Draft := do
  let handle ← freshAlias "t"
  return {
    relation := .union (first.finish :: branches.map finish) handle
    columns := first.columns.map (·.through handle)
    type := if branches.all (·.type == first.type) then first.type else none
  }

end Draft

/-! ### Where rows come from -/

/-- What ties the objects an edge reaches to the row it starts from. -/
inductive Tie
  /-- Fields of the object equal expressions over the row. -/
  | columns (pairs : List (String × Expression))
  /-- A row of another table pairs the two. -/
  | through (table : TableName) (source target : String) (row : Expression)

/-- The sources of a mapping as expressions over the rows of a draft. -/
def tieColumns (catalog : Catalog) (draft : Draft) :
    List (String × String) → Except CompileError (List (String × Expression))
  | [] => return []
  | (source, target) :: rest => do
    let e := (← draft.resolve catalog source).1
    return (target, e) :: (← tieColumns catalog draft rest)

/-- The tie of an edge that starts from the rows of a draft. -/
def tie (catalog : Catalog) (draft : Draft) : Join → Except CompileError Tie
  | .columns mapping => do return .columns (← tieColumns catalog draft mapping.entries)
  | .through schema table source target => do
    return .through ⟨schema, table⟩ source target (← draft.resolve catalog idKey).1

/-- A field of the stored objects that a tie or a list of identities refers to. -/
def storedColumn (name : String) (type : ObjectType) (table : TableAlias) (field : String) :
    Except CompileError Expression :=
  match type.lookupField field with
  | some (_, found) => .ok (.column table found.column)
  | none => .error (.fieldNotFound field (.type name))

/-- The condition that pairs of fields and expressions are equal, after earlier ones. -/
def tieCondition (name : String) (type : ObjectType) (table : TableAlias)
    (before : Expression) : List (String × Expression) → Except CompileError Expression
  | [] => return before
  | (field, e) :: rest => do
    let column ← storedColumn name type table field
    tieCondition name type table (before.both (.equal column e)) rest

/-- The condition of a tie on the rows of a table. -/
def Tie.condition (name : String) (type : ObjectType) (table : TableAlias) :
    Tie → Build Expression
  | .columns pairs => tieCondition name type table .true pairs
  | .through pairs source target row => do
    let handle ← freshAlias pairs.table
    let identity ← storedColumn name type table idKey
    let condition := Expression.both (.equal (.column handle target) identity)
      (.equal (.column handle source) row)
    return .exists { Select.simple .one (.table pairs handle) with condition }

/-- The condition that an object has one of the given identities. -/
def identityCondition (name : String) (type : ObjectType) (table : TableAlias) :
    List Int64 → Except CompileError Expression
  | [] => return .false
  | ids => do
    let identity ← type.requireIdentity name
    return .isIn (.column table identity.column) (ids.map fun id => .value (.integer id))

/-- The name of the table that holds the objects of a type. -/
def tableName (type : ObjectType) : TableName := ⟨type.schema, type.table⟩

/-- The objects of a type: those with the given identities, those tied to a row, or all. -/
def start (catalog : Catalog) (name : String) (ids : Option (List Int64))
    (tie : Option Tie) : Build Draft := do
  let type ← catalog.requireType name
  let handle ← freshAlias type.table
  let tied ← match tie with
    | none => pure .true
    | some tie => tie.condition name type handle
  let identified ← match ids with
    | none => pure .true
    | some ids => identityCondition name type handle ids
  return {
    relation := .table (tableName type) handle
    columns := Column.ofType type handle
    condition := tied.both identified
    type := some name
    readsTable := true
  }

/-! ### Whole queries -/

/-- The edge a draft can follow, and its tie. -/
def follow (catalog : Catalog) (draft : Draft) (edge : String) :
    Except CompileError (Edge × Tie) :=
  match draft.type with
  | none => .error (.notSupported (.edgeOfAggregate edge))
  | some type => do
    let (found, _) ← catalog.requireEdge type edge
    return (found, ← tie catalog draft found.join)

/-- The column of an edge: an array of the objects it reaches, or the only one as an object. -/
def edgeColumn (name : String) (cardinality : Cardinality) (reached : Draft) : Build Column := do
  let handle ← freshAlias name
  let (reached, e) ← match cardinality with
    | .many => pure (reached, Expression.jsonArray handle)
    | .one => do pure (← reached.take 1, .rowToJson handle)
  let select := Select.simple (.outputs [⟨name, e⟩]) (.derived reached.finish handle)
  return .computed name (.subselect select)

mutual

/-- Apply an operation to the rows of a draft. -/
def operation (catalog : Catalog) (draft : Draft) : Operation → Build Draft
  | .project fields => draft.project fields
  | .filter predicate => draft.filter catalog predicate
  | .take count => draft.take count
  | .skip count => draft.skip count
  | .count => draft.count
  | .nest key => draft.nest key
  | .rename old new => draft.rename old new
  | .orderBy key direction => draft.sortBy catalog key direction
  | .groupBy key => draft.gatherBy catalog key
  | .edge name inner => do
    let draft ← draft.wrapIf draft.isSealed
    let (edge, tie) ← follow catalog draft name
    let reached ← pipeline catalog (← start catalog edge.target none (some tie)) inner
    return draft.attach (← edgeColumn name edge.cardinality reached)
  | .union queries => do draft.union (← branches catalog draft.names queries)

/-- Apply operations, one after the other. -/
def pipeline (catalog : Catalog) (draft : Draft) : List Operation → Build Draft
  | [] => return draft
  | step :: rest => do pipeline catalog (← operation catalog draft step) rest

/-- The drafts of queries that must all have columns of the given names. -/
def branches (catalog : Catalog) (expected : List String) : List Query → Build (List Draft)
  | [] => return []
  | ⟨source, operations⟩ :: rest => do
    let first ← start catalog source.objectType source.ids none
    let branch ← pipeline catalog first operations
    if branch.names = expected then
      return branch :: (← branches catalog expected rest)
    else throw (.unionMismatch expected branch.names)

end

/-- The draft of a query. -/
def draft (catalog : Catalog) (query : Query) : Build Draft := do
  let first ← start catalog query.source.objectType query.source.ids none
  pipeline catalog first query.operations

/-- The select that has one row for every object of a query's result. -/
def select (catalog : Catalog) (query : Query) : Except CompileError Select :=
  ((draft catalog query).run' []).map Draft.finish

/-- A select together with the type of the objects its query starts from. -/
structure Plan where
  root : String
  select : Select

/-- All rows of a select as one JSON array. -/
def asArray (rows : Select) (handle : TableAlias) : Select :=
  Select.simple (.outputs [⟨"universe", .jsonArray handle⟩]) (.derived rows handle)

/-- The select whose only value is the array of all objects of a query's result. -/
def plan (catalog : Catalog) (query : Query) : Except CompileError Plan :=
  let build : Build Select := do
    let rows ← draft catalog query
    return asArray rows.finish (← freshAlias "universe")
  (build.run' []).map fun select => ⟨query.source.objectType, select⟩

end ObjectGraph.Compile
