/-
# Queries as Cypher statements

A query walks along a single path of edges, and every operation applies to the node that was
reached last.  An edge that is followed again right after it was reached is one relationship
with a count.  The clauses of a statement stand in a fixed order, so operations that would have
to be evaluated in another order are refused.

How a relationship is called whose edge does not say so is a matter of naming, which is given.
-/
import ObjectGraph.Compile.Select
import ObjectGraph.Cypher.Statement
import ObjectGraph.Text.Case

namespace ObjectGraph.Cypher

open Compile (TextCondition)

/-- A statement under construction. -/
structure Draft where
  part : Part
  /-- The type of the node at the end of the path. -/
  typeName : String
  aggregated : Bool := false
  /-- The parts that are appended to the own one. -/
  others : List Part := []

/-- The error for what Cypher has no form for. -/
def unsupported (what : String) : CompileError := .notSupported (.inCypher what)

/-- The variable of the first node: the first letter of its label in lower case. -/
def firstVariable (label : String) : String :=
  match label.toList with
  | [] => "n"
  | c :: _ => String.ofList (Text.lowercase c)

namespace Draft

/-- The variable of the node reached last. -/
def node (draft : Draft) : String := draft.part.path.last.name

/-- Whether the number of rows is limited, at either end. -/
def isLimited (draft : Draft) : Bool := draft.part.limit.isSome || draft.part.skip.isSome

/-- The part that is being written, and those that are united with it. -/
def statement (draft : Draft) : Statement := draft.part :: draft.others

/-- All objects of a type. -/
def start (typeName : String) (type : ObjectType) : Draft :=
  let label := type.labelOf typeName
  { part := { path := ⟨⟨firstVariable label, label⟩, []⟩ }, typeName }

/-- The property that a reference means. -/
def resolve (catalog : Catalog) (draft : Draft) (reference : String) :
    Except CompileError Property := do
  let reference := unqualified reference
  let type ← catalog.requireType draft.typeName
  let name := if reference = "id" ∧ ¬ type.fields.contains "id" then idKey else reference
  match type.lookupField name with
  | some (field, _) => return ⟨draft.node, field⟩
  | none => throw (.fieldNotFound reference (.type draft.typeName))

/-! ### Conditions -/

/-- The comparison of a property with a literal, or its test for `null`. -/
def comparison (field : String) (property : Property) (operator : ComparisonOperator) :
    Literal → Except CompileError (TextCondition Property)
  | .null =>
    match operator with
    | .equals => .ok (.isNull property)
    | .notEquals => .ok (.isNotNull property)
    | _ => .error (.notSupported (.nullOrdering field operator))
  | value => .ok (.comparison property operator value)

mutual

/-- The condition of a predicate on the node reached last. -/
def condition (catalog : Catalog) (draft : Draft) :
    Predicate → Except CompileError (TextCondition Property)
  | .all parts => do return .all (← conditions catalog draft parts)
  | .any parts => do return .any (← conditions catalog draft parts)
  | .negation part => do return .negation (← condition catalog draft part)
  | .comparison field operator value => do
    comparison field (← draft.resolve catalog field) operator value
  | .oneOf field values => do return .oneOf (← draft.resolve catalog field) values
  | .isNull field => do return .isNull (← draft.resolve catalog field)

/-- The conditions of predicates, one by one. -/
def conditions (catalog : Catalog) (draft : Draft) :
    List Predicate → Except CompileError (List (TextCondition Property))
  | [] => return []
  | part :: rest => do
    let c ← condition catalog draft part
    return c :: (← conditions catalog draft rest)

end

/-! ### Columns of the result -/

/-- The column of a property, called as the reference without its type. -/
def propertyItem (catalog : Catalog) (draft : Draft) (reference : String) :
    Except CompileError ReturnItem := do
  return { name := unqualified reference, value := .property (← draft.resolve catalog reference) }

/-- The columns of properties, one by one. -/
def propertyItems (catalog : Catalog) (draft : Draft) :
    List String → Except CompileError (List ReturnItem)
  | [] => return []
  | reference :: rest => do
    let item ← draft.propertyItem catalog reference
    return item :: (← draft.propertyItems catalog rest)

/-- The columns that were asked for, or all fields of the node reached last. -/
def returnItems (catalog : Catalog) (draft : Draft) : Except CompileError (List ReturnItem) :=
  match draft.part.returns with
  | some items => .ok items
  | none => do
    let type ← catalog.requireType draft.typeName
    draft.propertyItems catalog type.fields.keys

/-- A column as an entry of the maps that are collected. -/
def entry? (item : ReturnItem) : Option Entry :=
  match item.value with
  | .property property =>
    some ⟨property, if item.givenName.isSome then some item.name else none⟩
  | _ => none

/-- What is collected for the rows of a part. -/
def collected (draft : Draft) : Value :=
  match draft.part.returns with
  | none => .collect draft.node
  | some items => .collectMaps draft.node (items.filterMap entry?)

/-- Rename the first column of a name. -/
def renameItem (old new : String) : List ReturnItem → Option (List ReturnItem)
  | [] => none
  | item :: rest =>
    if item.name = old then some ({ item with name := new, givenName := some new } :: rest)
    else (renameItem old new rest).map (item :: ·)

/-- Whether a column was given a name of its own. -/
def hasGivenName (draft : Draft) (name : String) : Bool :=
  (draft.part.returns.getD []).any fun item => item.name == name && item.givenName.isSome

/-! ### Operations -/

/-- The smaller of a limit there may be and another one. -/
def lowerLimit (limit : Option UInt32) (count : UInt32) : UInt32 :=
  match limit with
  | some limit => min limit count
  | none => count

/-- What a result is to be sorted by. -/
def sortTarget (catalog : Catalog) (draft : Draft) (name : String) :
    Except CompileError SortTarget :=
  if draft.hasGivenName name then .ok (.named name)
  else if draft.aggregated then .error (unsupported "sorting aggregated results")
  else do return .property (← draft.resolve catalog name)

/-- Replace the columns and the order of the result. -/
def aggregate (draft : Draft) (items : List ReturnItem) (orderBy : List SortKey) : Draft :=
  { draft with part := { draft.part with returns := some items, orderBy }, aggregated := true }

/-- Refuse what would have to be done after rows were dropped or aggregated. -/
def requireOpen (draft : Draft) (what : String) : Except CompileError Unit :=
  if draft.isLimited || draft.aggregated then .error (unsupported what) else .ok ()

/-- Apply an operation that neither follows an edge nor appends results. -/
def apply (catalog : Catalog) (draft : Draft) : Operation → Except CompileError Draft
  | .project fields => do
    if draft.aggregated then throw (unsupported "projecting aggregated results")
    let items ← draft.propertyItems catalog fields
    return { draft with part := { draft.part with returns := some items } }
  | .filter predicate => do
    draft.requireOpen "filters after limits"
    let c ← draft.condition catalog predicate
    return { draft with part := { draft.part with conditions := draft.part.conditions ++ [c] } }
  | .take n =>
    let limit := lowerLimit draft.part.limit n
    .ok { draft with part := { draft.part with limit := some limit } }
  | .skip n => do
    if draft.part.limit.isSome then throw (unsupported "skip after take")
    let skip := Compile.saturatingAdd (draft.part.skip.getD 0) n
    return { draft with part := { draft.part with skip := some skip } }
  | .count => do
    draft.requireOpen "count after limits"
    return draft.aggregate [{ name := "count", value := .count }] []
  | .nest key => do
    draft.requireOpen "nest after limits"
    return draft.aggregate [{ name := key, value := draft.collected, givenName := some key }] []
  | .groupBy key => do
    draft.requireOpen "group_by after limits"
    let property ← draft.resolve catalog key
    return draft.aggregate
      [{ name := "key", value := .property property, givenName := some "key" },
       { name := "items", value := .collect draft.node, givenName := some "items" }]
      [{ target := .named "key" }]
  | .rename old new => do
    let old := unqualified old
    match renameItem old (unqualified new) (← draft.returnItems catalog) with
    | none => throw (.fieldNotFound old (.type draft.typeName))
    | some items => return { draft with part := { draft.part with returns := some items } }
  | .orderBy key direction => do
    if draft.isLimited then throw (unsupported "sorting after limits")
    let target ← draft.sortTarget catalog (unqualified key)
    let orderBy := ⟨target, direction⟩ :: draft.part.orderBy
    return { draft with part := { draft.part with orderBy } }
  | .edge _ _ | .union _ => .ok draft

/-! ### Edges and unions -/

/-- An edge that is being followed, so far a number of times. -/
structure Following where
  edge : String
  count : Nat

/-- The edge that is about to be followed from the node reached last. -/
def beginEdge (catalog : Catalog) (draft : Draft) (traversed : Bool) (name : String) :
    Except CompileError Following := do
  if traversed then throw (unsupported "branching edges")
  draft.requireOpen "edges after limits"
  let _ ← catalog.requireEdge draft.typeName name
  return ⟨name, 1⟩

/-- Follow the same edge once more.  Another edge beside it would start from the wrong node. -/
def followAgain (following : Following) (beside : List Operation) :
    Except CompileError Following :=
  if beside.any fun | .edge _ _ => true | _ => false then .error (unsupported "branching edges")
  else .ok { following with count := following.count + 1 }

/-- Extend the path by an edge that was followed for the last time. -/
def endEdge (naming : String → String) (catalog : Catalog) (draft : Draft) (following : Following) :
    Except CompileError Draft := do
  let (edge, target) ← catalog.requireEdge draft.typeName following.edge
  let path := draft.part.path
  let hop : Hop := {
    relationship := edge.relationshipType following.edge naming
    count := following.count
    node := ⟨"n" ++ toString (path.hops.length + 1), target.labelOf edge.target⟩
  }
  return { draft with
    part := { draft.part with path := { path with hops := path.hops ++ [hop] }, returns := none }
    typeName := edge.target }

/-- Extend the path by the edge that is being followed, if there is one. -/
def arrive (naming : String → String) (catalog : Catalog) (draft : Draft) :
    Option Following → Except CompileError Draft
  | some following => draft.endEdge naming catalog following
  | none => .ok draft

/-- Refuse operations on appended results. -/
def requireSingle (draft : Draft) : Except CompileError Unit :=
  if draft.others.isEmpty then .ok () else .error (unsupported "operations after a union")

/-- Keep the objects with the given identities. -/
def restrict (catalog : Catalog) (draft : Draft) :
    Option (List Int64) → Except CompileError Draft
  | none => return draft
  | some ids => do
    let c : TextCondition Property := .oneOf (← draft.resolve catalog idKey) (ids.map .integer)
    return { draft with part := { draft.part with conditions := draft.part.conditions ++ [c] } }

/-- All objects of a source. -/
def ofSource (catalog : Catalog) (source : Source) : Except CompileError Draft := do
  let type ← catalog.requireType source.objectType
  (start source.objectType type).restrict catalog source.ids

mutual

/-- Apply operations to the node reached last, or to the one an edge that is being followed
leads to.  An operation list follows at most one edge. -/
def run (naming : String → String) (catalog : Catalog) (following : Option Following)
    (traversed : Bool) (draft : Draft) : List Operation → Except CompileError Draft
  | [] => draft.arrive naming catalog following
  | .edge name inner :: rest =>
    match following with
    | some edge =>
      if edge.edge = name then do
        let again ← followAgain edge rest
        let draft ← run naming catalog (some again) false draft inner
        run naming catalog none false draft rest
      else do
        let draft ← draft.endEdge naming catalog edge
        let next ← draft.beginEdge catalog false name
        let draft ← run naming catalog (some next) false draft inner
        run naming catalog none true draft rest
    | none => do
      draft.requireSingle
      let next ← draft.beginEdge catalog traversed name
      let draft ← run naming catalog (some next) false draft inner
      run naming catalog none true draft rest
  | .union queries :: rest => do
    let draft ← draft.arrive naming catalog following
    draft.requireSingle
    let others ← branches naming catalog queries
    run naming catalog none traversed { draft with others } rest
  | operation :: rest => do
    let draft ← draft.arrive naming catalog following
    draft.requireSingle
    run naming catalog none traversed (← draft.apply catalog operation) rest

/-- The draft of a query. -/
def ofQuery (naming : String → String) (catalog : Catalog) : Query → Except CompileError Draft
  | ⟨source, operations⟩ => do
    run naming catalog none false (← ofSource catalog source) operations

/-- The parts of queries, one after the other. -/
def branches (naming : String → String) (catalog : Catalog) :
    List Query → Except CompileError (List Part)
  | [] => return []
  | query :: rest => do
    let draft ← ofQuery naming catalog query
    return draft.statement ++ (← branches naming catalog rest)

end

end Draft

/-- The statement of a query. -/
def compile (catalog : Catalog) (query : Query)
    (naming : String → String := Text.upperSnakeCase) : Except CompileError Statement :=
  (Draft.ofQuery naming catalog query).map Draft.statement

end ObjectGraph.Cypher
