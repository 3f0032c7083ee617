/-
# Queries in JSON

Operations are tagged records.  Absent identities and empty lists of operations are left out
when a query is written.
-/
import ObjectGraph.Predicate.Format
import ObjectGraph.Query

namespace ObjectGraph

open Json (Decoded Document Origin Shape Fields refuse enter unlessFault decodeString
  decodeChoice decodeList decodeOption decodeInt64 decodeUInt32)

/-! ### Writing -/

/-- The name of a direction in query files. -/
def Direction.name : Direction → String
  | ascending => "asc"
  | descending => "desc"

/-- A source as a record; identities are left out if there are none given. -/
def Source.toJson (source : Source) : Json :=
  .object <|
    [("type", .string "collection"), ("objectType", .string source.objectType)] ++
      match source.ids with
      | none => []
      | some ids => [("ids", .array (ids.map fun id => .int id.toInt))]

/-- The member for a list of operations, unless it is empty. -/
def operationsMember : List Json → List (String × Json)
  | [] => []
  | operations => [("operations", .array operations)]

mutual

/-- An operation as a record with its kind in front. -/
def Operation.toJson : Operation → Json
  | .project fields =>
    .object [("type", .string "project"), ("fields", .array (fields.map .string))]
  | .filter predicate => .object [("type", .string "where"), ("predicate", predicate.toJson)]
  | .take count => .object [("type", .string "take"), ("count", .int count.toNat)]
  | .skip count => .object [("type", .string "skip"), ("count", .int count.toNat)]
  | .count => .object [("type", .string "count")]
  | .nest key => .object [("type", .string "nest"), ("key", .string key)]
  | .rename old new =>
    .object [("type", .string "let"), ("old", .string old), ("new", .string new)]
  | .orderBy key direction =>
    .object [("type", .string "order_by"), ("key", .string key),
      ("direction", .string direction.name)]
  | .groupBy key => .object [("type", .string "group_by"), ("key", .string key)]
  | .edge name operations =>
    .object <|
      [("type", .string "edge"), ("edge", .string name)]
      ++ operationsMember (operationsToJson operations)
  | .union queries =>
    .object [("type", .string "union"), ("queries", .array (queriesToJson queries))]

/-- The operations, one by one. -/
def operationsToJson : List Operation → List Json
  | [] => []
  | operation :: rest => operation.toJson :: operationsToJson rest

/-- The queries of a union, one by one. -/
def queriesToJson : List Query → List Json
  | [] => []
  | ⟨source, operations⟩ :: rest =>
    .object ([("source", source.toJson)] ++ operationsMember (operationsToJson operations))
      :: queriesToJson rest

end

/-- A query as a record of its source and its operations. -/
def Query.toJson (query : Query) : Json :=
  .object <|
    [("source", query.source.toJson)] ++ operationsMember (operationsToJson query.operations)

/-! ### Reading -/

/-- Every direction with its name in query files. -/
def directions : List (String × Direction) := [("asc", .ascending), ("desc", .descending)]

/-- What a source's members may hold. -/
inductive SourcePart
  | objectType (s : String)
  | ids (ids : Option (List Int64))

/-- A source must have an object type. -/
def decodeSource (origin : Origin) (doc : Document) : Decoded Source := do
  let part := fun (_ : Unit) name =>
    if name = "objectType" then some fun doc => (decodeString doc).map SourcePart.objectType
    else if name = "ids" then
      some fun doc => (decodeOption (decodeList decodeInt64) doc).map SourcePart.ids
    else none
  let shape := fun (_ : Unit) =>
    { expected := "struct variant Source::Collection", names := ["objectType", "ids"] }
  let (_, fields) ← Json.decodeTagged "Source" origin [("collection", ())] shape part doc
  let objectType ← fields.require "objectType" fun | .objectType s => some s | _ => none
  return { objectType, ids := fields.optional "ids" (fun | .ids ids => some ids | _ => none) none }

namespace Operation

/-- The kinds of operations. -/
inductive Tag
  | project
  | filter
  | take
  | skip
  | count
  | nest
  | rename
  | orderBy
  | groupBy
  | edge
  | union

/-- Every kind of operation with its name in query files. -/
def variants : List (String × Tag) :=
  [("project", .project), ("where", .filter), ("take", .take), ("skip", .skip),
   ("count", .count), ("nest", .nest), ("let", .rename), ("order_by", .orderBy),
   ("group_by", .groupBy), ("edge", .edge), ("union", .union)]

/-- What the members of an operation or a query may hold. -/
inductive Part
  | strings (ss : List String)
  | predicate (p : Predicate)
  | number (n : UInt32)
  | text (s : String)
  | direction (d : Direction)
  | source (s : Source)
  | operations (operations : List Operation)
  | queries (queries : List Query)

/-- What a member that holds no operations is to be read as. -/
inductive SimpleKind
  | strings
  | predicate
  | number
  | text
  | direction
  | source

/-- What a member is to be read as. -/
inductive PartKind
  | simple (kind : SimpleKind)
  | operations
  | queries

/-- Read a part that holds no operations. -/
def decodeSimple (origin : Origin) (kind : SimpleKind) (doc : Document) : Decoded Part :=
  match kind with
  | .strings => (decodeList decodeString doc).map .strings
  | .predicate => (Predicate.decodeInput doc).map .predicate
  | .number => (decodeUInt32 doc).map .number
  | .text => (decodeString doc).map .text
  | .direction => (decodeChoice origin directions doc).map .direction
  | .source => (decodeSource origin doc).map .source

/-- The fields of a kind of operations. -/
def Tag.fields : Tag → List (String × PartKind)
  | project => [("fields", .simple .strings)]
  | filter => [("predicate", .simple .predicate)]
  | take | skip => [("count", .simple .number)]
  | count => []
  | nest | groupBy => [("key", .simple .text)]
  | rename => [("old", .simple .text), ("new", .simple .text)]
  | orderBy => [("key", .simple .text), ("direction", .simple .direction)]
  | edge => [("edge", .simple .text), ("operations", .operations)]
  | union => [("queries", .queries)]

/-- The members that an operation of a kind may have. -/
def Tag.shape (tag : Tag) : Shape where
  expected := "struct variant Operation::" ++
    match tag with
    | project => "Project"
    | filter => "Where"
    | take => "Take"
    | skip => "Skip"
    | count => "Count"
    | nest => "Nest"
    | rename => "Let"
    | orderBy => "OrderBy"
    | groupBy => "GroupBy"
    | edge => "Edge"
    | union => "Union"
  names := tag.fields.map Prod.fst

/-- The fields of a query. -/
def queryFields : List (String × PartKind) :=
  [("source", .simple .source), ("operations", .operations)]

/-- The members that a query may have. -/
def queryShape : Shape where
  expected := "struct Query"
  names := queryFields.map Prod.fst

/-- Put an operation together from its parts. -/
def assemble (tag : Tag) (fields : Fields Part) : Decoded Operation := do
  let text := fun | Part.text s => some s | _ => none
  let number := fun | Part.number n => some n | _ => none
  let operations := fun | Part.operations os => some os | _ => none
  match tag with
  | .project => return .project (← fields.require "fields" fun | .strings ss => some ss | _ => none)
  | .filter =>
    return .filter (← fields.require "predicate" fun | .predicate p => some p | _ => none)
  | .take => return .take (← fields.require "count" number)
  | .skip => return .skip (← fields.require "count" number)
  | .count => return .count
  | .nest => return .nest (← fields.require "key" text)
  | .rename =>
    let old ← fields.require "old" text
    let new ← fields.require "new" text
    return .rename old new
  | .orderBy =>
    let key ← fields.require "key" text
    let direction := fields.optional "direction" (fun | .direction d => some d | _ => none)
      .ascending
    return .orderBy key direction
  | .groupBy => return .groupBy (← fields.require "key" text)
  | .edge =>
    let name ← fields.require "edge" text
    return .edge name (fields.optional "operations" operations [])
  | .union =>
    return .union (← fields.require "queries" fun | .queries qs => some qs | _ => none)

/-- Put a query together from its parts. -/
def assembleQuery (fields : Fields Part) : Decoded Query := do
  let source ← fields.require "source" fun | .source s => some s | _ => none
  let operations :=
    fields.optional "operations" (fun | .operations os => some os | _ => none) []
  return ⟨source, operations⟩

mutual

/-- An operation is read from a record with its kind in it, or from a list with its kind in
front. -/
def decode (origin : Origin) : Document → Decoded Operation
  | .record start deep members _ ending => do
    enter start deep
    let tag ← Json.variantOfMembers origin variants members ending
    let parts ← decodeParts .setAside tag.fields [] members
    assemble tag ⟨tag.shape, false, parts⟩
  | .list start deep [] ending => do
    enter start deep
    unlessFault ending.read
    refuse (.missingField Json.tagName)
  | .list start deep (first :: items) ending => do
    enter start deep
    let tag ← Json.variantOfItems origin variants first items ending
    let parts ← decodePositions .setAside tag.fields items
    let operation ← assemble tag ⟨tag.shape, true, parts⟩
    tag.shape.afterItems .setAside items none
    return operation
  | doc => doc.wrongType "internally tagged enum Operation"

/-- A query is read from a record, or from a list of what its members hold. -/
def decodeQuery (origin : Origin) : Document → Decoded Query
  | .record start deep members _ ending => do
    enter start deep
    let parts ← decodeParts origin queryFields [] members
    unlessFault ending.read
    assembleQuery ⟨queryShape, false, parts⟩
  | .list start deep items ending => do
    enter start deep
    let parts ← decodePositions origin queryFields items
    queryShape.afterItems origin items ending.read
    assembleQuery ⟨queryShape, true, parts⟩
  | doc => doc.wrongType queryShape.expected

/-- A list of operations. -/
def decodeOperations (origin : Origin) : Document → Decoded (List Operation)
  | .list start deep items ending => do
    enter start deep
    let operations ← decodeOperationItems origin items
    unlessFault ending.read
    return operations
  | doc => doc.wrongType "a sequence"

/-- The operations of a list, one by one. -/
def decodeOperationItems (origin : Origin) : List Document → Decoded (List Operation)
  | [] => return []
  | item :: rest => return (← decode origin item) :: (← decodeOperationItems origin rest)

/-- The queries of a union. -/
def decodeQueries : Document → Decoded (List Query)
  | .list _ _ items _ => decodeQueryItems items
  | doc => doc.wrongType "a sequence"

/-- The queries of a list, one by one. -/
def decodeQueryItems : List Document → Decoded (List Query)
  | [] => return []
  | item :: rest => return (← decodeQuery .setAside item) :: (← decodeQueryItems rest)

/-- The members of a record that are known, none of which may come twice. -/
def decodeParts (origin : Origin) (fields : List (String × PartKind)) (seen : List String) :
    List (String × Document) → Decoded (List (String × Part))
  | [] => return []
  | (name, doc) :: rest =>
    match fields.lookup name with
    | none => do
      unlessFault doc.passingFault
      decodeParts origin fields seen rest
    | some kind => do
      if name ∈ seen then refuse (.duplicateField name)
      let part ←
        match kind with
        | .operations => (decodeOperations origin doc).map Part.operations
        | .queries => (decodeQueries doc).map .queries
        | .simple kind => decodeSimple origin kind doc
      return (name, part) :: (← decodeParts origin fields (name :: seen) rest)

/-- The items of a list that stands for a record, in the order of its members. -/
def decodePositions (origin : Origin) (fields : List (String × PartKind)) :
    List Document → Decoded (List (String × Part))
  | [] => return []
  | item :: rest =>
    match fields with
    | [] => return []
    | (name, kind) :: fields => do
      let part ←
        match kind with
        | .operations => (decodeOperations origin item).map Part.operations
        | .queries => (decodeQueries item).map .queries
        | .simple kind => decodeSimple origin kind item
      return (name, part) :: (← decodePositions origin fields rest)

end

end Operation

namespace Query

/-- The query a value stands for. -/
def ofJson (value : Json) : Decoded Query :=
  Operation.decodeQuery .value value.toDocument

/-- The query of a text. -/
def ofText (text : String) : Decoded Query :=
  Json.decodeText (Operation.decodeQuery .text) text

end Query
end ObjectGraph
