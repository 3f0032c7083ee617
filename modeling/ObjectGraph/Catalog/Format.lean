/-
# Catalogs in JSON

How a catalog is written down and read back.  What is absent or empty is left out, apart from
the identity field and nullability, which are always written.
-/
import ObjectGraph.Catalog
import ObjectGraph.Json.Decode

namespace ObjectGraph

open Json (Decoded Document Origin Shape Fields decodeString decodeOption decodeMap
  decodeChoice decodeRecord decodeTagged)

/-- A member that is left out when there is no value. -/
def optionalMember (name : String) : Option String → List (String × Json)
  | some s => [(name, .string s)]
  | none => []

/-- An object with a member for every entry of a map. -/
def mapToJson {α : Type} (encode : α → Json) (m : OrderedMap α) : Json :=
  .object (m.entries.map fun (name, value) => (name, encode value))

/-! ### Writing -/

/-- A field as a record; only a description may be left out. -/
def Field.toJson (field : Field) : Json :=
  .object <|
    [("columnName", .string field.column), ("type", .string field.type.sqlName),
     ("nullable", .string (if field.nullable then "Nullable" else "NonNullable"))]
    ++ optionalMember "description" field.description

/-- The name of a cardinality in files. -/
def Cardinality.name : Cardinality → String
  | one => "one"
  | many => "many"

/-- A join as a record with its kind in front. -/
def Join.toJson : Join → Json
  | columns mapping =>
    .object [("type", .string "columns"), ("columnMapping", mapToJson .string mapping)]
  | through schema table source target =>
    .object <|
      [("type", .string "through")] ++ optionalMember "schemaName" schema
      ++ [("tableName", .string table), ("sourceColumn", .string source),
          ("targetColumn", .string target)]

/-- An edge as a record; what it does not have is left out. -/
def Edge.toJson (edge : Edge) : Json :=
  .object <|
    [("target", .string edge.target), ("cardinality", .string edge.cardinality.name),
     ("join", edge.join.toJson)]
    ++ optionalMember "relationshipType" edge.relationship
    ++ optionalMember "description" edge.description

/-- An object type as a record; what it does not have is left out. -/
def ObjectType.toJson (type : ObjectType) : Json :=
  .object <|
    optionalMember "schemaName" type.schema
    ++ [("tableName", .string type.table)]
    ++ optionalMember "label" type.label
    ++ [("idField", .string type.idField), ("fields", mapToJson Field.toJson type.fields)]
    ++ (if type.edges.isEmpty then [] else [("edges", mapToJson Edge.toJson type.edges)])
    ++ optionalMember "description" type.description

/-- A catalog as a record of its types under their names. -/
def Catalog.toJson (catalog : Catalog) : Json :=
  .object [("objectTypes",
    .object (catalog.types.entries.map fun (name, type) => (name, type.toJson)))]

/-! ### Reading -/

namespace Catalog

/-- The names in files of what may hold null and what may not. -/
def nullabilities : List (String × Bool) := [("Nullable", true), ("NonNullable", false)]

/-- Every cardinality with its name in files. -/
def cardinalities : List (String × Cardinality) := [("one", .one), ("many", .many)]

/-- What a field's members may hold. -/
inductive FieldPart
  | column (s : String)
  | type (t : ScalarType)
  | nullable (b : Bool)
  | description (s : Option String)

/-- The members that a field may have. -/
def fieldShape : Shape where
  expected := "struct FieldInfo"
  names := ["columnName", "type", "nullable", "description"]

/-- How a member of a field is read. -/
def fieldPart (origin : Origin) (name : String) : Option (Document → Decoded FieldPart) :=
  match name with
  | "columnName" => some fun doc => (decodeString doc).map .column
  | "type" => some fun doc => (decodeChoice origin ScalarType.names doc).map .type
  | "nullable" => some fun doc => (decodeChoice origin nullabilities doc).map .nullable
  | "description" => some fun doc => (decodeOption decodeString doc).map .description
  | _ => none

/-- A field must have a column and a type. -/
def decodeField (origin : Origin) (doc : Document) : Decoded Field := do
  let fields ← decodeRecord fieldShape origin (fieldPart origin) doc
  let column ← fields.require "columnName" fun | .column s => some s | _ => none
  let type ← fields.require "type" fun | .type t => some t | _ => none
  return {
    column, type
    nullable := fields.optional "nullable" (fun | .nullable b => some b | _ => none) true
    description := fields.optional "description" (fun | .description s => some s | _ => none) none
  }

/-- What a join's members may hold. -/
inductive JoinPart
  | mapping (m : OrderedMap String)
  | schema (s : Option String)
  | name (s : String)

/-- The members that a join may have, by its kind. -/
def joinShape (through : Bool) : Shape :=
  if through then
    { expected := "struct variant EdgeJoin::Through"
      names := ["schemaName", "tableName", "sourceColumn", "targetColumn"] }
  else { expected := "struct variant EdgeJoin::Columns", names := ["columnMapping"] }

/-- How a member of a join is read. -/
def joinPart (through : Bool) (name : String) : Option (Document → Decoded JoinPart) :=
  match through, name with
  | false, "columnMapping" => some fun doc =>
    (decodeMap decodeString doc).map fun entries => .mapping (.ofList entries)
  | true, "schemaName" => some fun doc => (decodeOption decodeString doc).map .schema
  | true, "tableName" => some fun doc => (decodeString doc).map .name
  | true, "sourceColumn" => some fun doc => (decodeString doc).map .name
  | true, "targetColumn" => some fun doc => (decodeString doc).map .name
  | _, _ => none

/-- A join must have all its members but the schema. -/
def decodeJoin (origin : Origin) (doc : Document) : Decoded Join := do
  let (through, fields) ←
    decodeTagged "EdgeJoin" origin [("columns", false), ("through", true)] joinShape joinPart doc
  let name := fun | JoinPart.name s => some s | _ => none
  if through then
    let schema := fields.optional "schemaName" (fun | .schema s => some s | _ => none) none
    let table ← fields.require "tableName" name
    let source ← fields.require "sourceColumn" name
    let target ← fields.require "targetColumn" name
    return .through schema table source target
  else
    let mapping ← fields.require "columnMapping" fun | .mapping m => some m | _ => none
    return .columns mapping

/-- What an edge's members may hold. -/
inductive EdgePart
  | target (s : String)
  | cardinality (c : Cardinality)
  | join (j : Join)
  | text (s : Option String)

/-- The members that an edge may have. -/
def edgeShape : Shape where
  expected := "struct EdgeInfo"
  names := ["target", "cardinality", "join", "relationshipType", "description"]

/-- How a member of an edge is read. -/
def edgePart (origin : Origin) (name : String) : Option (Document → Decoded EdgePart) :=
  match name with
  | "target" => some fun doc => (decodeString doc).map .target
  | "cardinality" => some fun doc => (decodeChoice origin cardinalities doc).map .cardinality
  | "join" => some fun doc => (decodeJoin origin doc).map .join
  | "relationshipType" => some fun doc => (decodeOption decodeString doc).map .text
  | "description" => some fun doc => (decodeOption decodeString doc).map .text
  | _ => none

/-- An edge must have a target, a cardinality and a join. -/
def decodeEdge (origin : Origin) (doc : Document) : Decoded Edge := do
  let fields ← decodeRecord edgeShape origin (edgePart origin) doc
  let text := fun | EdgePart.text s => some s | _ => none
  let target ← fields.require "target" fun | .target s => some s | _ => none
  let cardinality ← fields.require "cardinality" fun | .cardinality c => some c | _ => none
  let join ← fields.require "join" fun | .join j => some j | _ => none
  return {
    target, cardinality, join
    relationship := fields.optional "relationshipType" text none
    description := fields.optional "description" text none
  }

/-- What an object type's members may hold. -/
inductive TypePart
  | text (s : Option String)
  | name (s : String)
  | fields (m : OrderedMap Field)
  | edges (m : OrderedMap Edge)

/-- The members that an object type may have. -/
def typeShape : Shape where
  expected := "struct ObjectTypeInfo"
  names := ["schemaName", "tableName", "label", "idField", "fields", "edges", "description"]

/-- How a member of an object type is read. -/
def typePart (origin : Origin) (name : String) : Option (Document → Decoded TypePart) :=
  match name with
  | "schemaName" => some fun doc => (decodeOption decodeString doc).map .text
  | "tableName" => some fun doc => (decodeString doc).map .name
  | "label" => some fun doc => (decodeOption decodeString doc).map .text
  | "idField" => some fun doc => (decodeString doc).map .name
  | "fields" => some fun doc =>
    (decodeMap (decodeField origin) doc).map fun entries => .fields (.ofList entries)
  | "edges" => some fun doc =>
    (decodeMap (decodeEdge origin) doc).map fun entries => .edges (.ofList entries)
  | "description" => some fun doc => (decodeOption decodeString doc).map .text
  | _ => none

/-- An object type must have a table and fields. -/
def decodeObjectType (origin : Origin) (doc : Document) : Decoded ObjectType := do
  let fields ← decodeRecord typeShape origin (typePart origin) doc
  let text := fun | TypePart.text s => some s | _ => none
  let name := fun | TypePart.name s => some s | _ => none
  let table ← fields.require "tableName" name
  let members ← fields.require "fields" fun | .fields m => some m | _ => none
  return {
    schema := fields.optional "schemaName" text none
    table
    label := fields.optional "label" text none
    idField := fields.optional "idField" name "id"
    fields := members
    edges := fields.optional "edges" (fun | .edges m => some m | _ => none) .empty
    description := fields.optional "description" text none
  }

/-- The only member of a catalog. -/
def shape : Shape where
  expected := "struct Metadata"
  names := ["objectTypes"]

/-- Read a catalog. -/
def decode (origin : Origin) (doc : Document) : Decoded Catalog := do
  let part := fun name =>
    if name = "objectTypes" then
      some fun doc => (decodeMap (decodeObjectType origin) doc).map SortedMap.ofList
    else none
  let fields ← decodeRecord shape origin part doc
  return ⟨fields.optional "objectTypes" some .empty⟩

/-- The catalog a value stands for. -/
def ofJson (value : Json) : Decoded Catalog :=
  decode .value value.toDocument

end Catalog
end ObjectGraph
