/-
# Queries as Malloy pipelines

Operations add clauses to the last stage until one arrives that would mean something else
there: a filter after a limit, say, or anything that refers to a field by a new name.  Such an
operation opens the next stage, which reads the output of the one before it.
-/
import ObjectGraph.Malloy.Pipeline

namespace ObjectGraph.Malloy

open Compile (TextCondition)

namespace Clause

/-- Whether a clause selects columns. -/
def isSelect : Clause → Bool
  | select _ => true
  | _ => false

/-- Whether a clause sorts. -/
def isOrderBy : Clause → Bool
  | orderBy _ => true
  | _ => false

/-- Whether a clause limits the number of rows. -/
def isLimit : Clause → Bool
  | limit _ => true
  | _ => false

/-- Whether a clause counts the rows. -/
def isCount : Clause → Bool
  | count => true
  | _ => false

end Clause

/-- The stages of a query so far. -/
structure Draft where
  typeName : String
  type : ObjectType
  /-- The stages before the last one. -/
  done : List Stage := []
  last : Stage := []
  /-- The output fields of the last stage. -/
  fields : List String
  /-- Whether the last stage renames a field; only the next stage knows the new name. -/
  renamed : Bool := false

namespace Draft

/-- All stages. -/
def stages (draft : Draft) : List Stage := draft.done ++ [draft.last]

/-- The stages before anything was done with the objects of a type. -/
def start (typeName : String) (type : ObjectType) : Draft where
  typeName
  type
  fields := type.fields.values.map (·.column)

/-- The draft with a clause behind those of its last stage. -/
def push (draft : Draft) (clause : Clause) : Draft :=
  { draft with last := draft.last ++ [clause] }

/-- Open the next stage if the last one has a clause that is in the way, or renames a field. -/
def nextStageIf (draft : Draft) (inTheWay : Clause → Bool) : Draft :=
  if draft.last.any inTheWay || draft.renamed then
    { draft with done := draft.stages, last := [], renamed := false }
  else draft

/-- The field of the stored objects a reference means; only the first stage reads them. -/
def stored? (draft : Draft) (reference : String) : Option Field :=
  if draft.done.isEmpty then (draft.type.lookupField reference).map Prod.snd else none

/-- The output field a reference would mean. -/
def outputName (draft : Draft) (reference : String) : String :=
  if reference = idKey then
    match draft.type.identity? with
    | some field => field.column
    | none => draft.type.idField
  else reference

/-- The name by which the last stage knows a field. -/
def resolve (draft : Draft) (reference : String) : Except CompileError String :=
  let reference := unqualified reference
  let name := if reference = "id" then idKey else reference
  match draft.stored? name with
  | some field => .ok field.column
  | none =>
    if draft.outputName name ∈ draft.fields then .ok (draft.outputName name)
    else .error (.fieldNotFound reference (.type draft.typeName))

/-- The columns that references mean, one by one. -/
def resolveAll (draft : Draft) : List String → Except CompileError (List String)
  | [] => return []
  | reference :: rest => do
    let name ← draft.resolve reference
    return name :: (← draft.resolveAll rest)

/-! ### Conditions -/

/-- The comparison of a field with a literal, or its test for `null`. -/
def comparison (name : String) (operator : ComparisonOperator) :
    Literal → Except CompileError (TextCondition String)
  | .null =>
    match operator with
    | .equals => .ok (.isNull name)
    | .notEquals => .ok (.isNotNull name)
    | _ => .error (.notSupported (.nullOrdering name operator))
  | value => .ok (.comparison name operator value)

mutual

/-- The condition of a predicate in the last stage. -/
def condition (draft : Draft) : Predicate → Except CompileError (TextCondition String)
  | .all parts => do return .all (← conditions draft parts)
  | .any parts => do return .any (← conditions draft parts)
  | .negation part => do return .negation (← condition draft part)
  | .comparison field operator value => do comparison (← draft.resolve field) operator value
  | .oneOf _ [] => return .never
  | .oneOf field values => do return .oneOf (← draft.resolve field) values
  | .isNull field => do return .isNull (← draft.resolve field)

/-- The conditions of predicates, one by one. -/
def conditions (draft : Draft) : List Predicate → Except CompileError (List (TextCondition String))
  | [] => return []
  | part :: rest => do
    let c ← condition draft part
    return c :: (← conditions draft rest)

end

/-- The condition that the identity is one of a list. -/
def identityCondition (name : String) : List Int64 → TextCondition String
  | [] => .never
  | ids => .oneOf name (ids.map .integer)

/-! ### Operations -/

/-- Put a key in front of those a stage sorts by. -/
def addSortKey (key : SortKey) : Stage → Stage
  | [] => [.orderBy [key]]
  | .orderBy keys :: rest => .orderBy (key :: keys) :: rest
  | clause :: rest => clause :: addSortKey key rest

/-- Rename the columns that a stage selects; `none` if it selects no columns. -/
def renameSelected (old new : String) : Stage → Option Stage
  | [] => none
  | .select columns :: rest =>
    some (.select (columns.map fun column =>
      if column = { source := old } then { source := old, renamed := some new } else column)
      :: rest)
  | clause :: rest => (renameSelected old new rest).map (clause :: ·)

/-- The clause that selects all fields, some of them under a new name. -/
def selectRenamed (old new : String) (fields : List String) : Clause :=
  .select (fields.map fun field =>
    if field = old then { source := field, renamed := some new } else { source := field })

/-- Rename a field that the last stage knows by a name. -/
def rename (draft : Draft) (old new : String) : Draft :=
  { draft with
    last :=
      match renameSelected old new draft.last with
      | some stage => stage
      | none => draft.last ++ [selectRenamed old new draft.fields]
    fields := draft.fields.map fun field => if field = old then new else field
    renamed := true }

/-- Replace the rows of the last stage by their number. -/
def count (draft : Draft) : Draft :=
  { draft with
    last := draft.last.filter (!·.isOrderBy) ++ [.count]
    fields := ["count"] }

/-- The error for what Malloy has no form for. -/
def unsupported (what : String) : CompileError := .notSupported (.inMalloy what)

/-- Apply an operation. -/
def apply (draft : Draft) : Operation → Except CompileError Draft
  | .project references => do
    let draft := draft.nextStageIf fun clause => clause.isSelect || clause.isCount
    let fields ← draft.resolveAll references
    return { draft with fields }.push (.select (fields.map fun source => { source }))
  | .filter predicate => do
    let draft := draft.nextStageIf fun clause => clause.isLimit || clause.isCount
    return draft.push (.filter (← condition draft predicate))
  | .orderBy key direction => do
    let draft := draft.nextStageIf fun clause => clause.isLimit || clause.isCount
    let field ← draft.resolve key
    return { draft with last := addSortKey ⟨field, direction⟩ draft.last }
  | .take n =>
    .ok ((draft.nextStageIf fun clause => clause.isLimit || clause.isCount).push (.limit n))
  | .count =>
    .ok (draft.nextStageIf fun clause => clause.isSelect || clause.isLimit || clause.isCount).count
  | .rename old new => do
    let draft := draft.nextStageIf Clause.isCount
    return draft.rename (← draft.resolve old) (unqualified new)
  | .skip _ => .error (unsupported "skip")
  | .nest _ => .error (unsupported "nest")
  | .groupBy _ => .error (unsupported "group_by")
  | .edge _ _ => .error (unsupported "edge traversal")
  | .union _ => .error (unsupported "union")

/-- Apply operations, one after the other. -/
def applyAll (draft : Draft) : List Operation → Except CompileError Draft
  | [] => return draft
  | operation :: rest => do (← draft.apply operation).applyAll rest

/-- Keep the objects with the given identities. -/
def restrict (draft : Draft) : Option (List Int64) → Except CompileError Draft
  | none => return draft
  | some ids => do
    return draft.push (.filter (identityCondition (← draft.resolve idKey) ids))

end Draft

/-- The pipeline of a query over a connection. -/
def compile (catalog : Catalog) (query : Query) (connection : String) :
    Except CompileError Pipeline := do
  let type ← catalog.requireType query.source.objectType
  let first ← (Draft.start query.source.objectType type).restrict query.source.ids
  let draft ← first.applyAll query.operations
  return { connection, schema := type.schema, table := type.table, stages := draft.stages }

end ObjectGraph.Malloy
