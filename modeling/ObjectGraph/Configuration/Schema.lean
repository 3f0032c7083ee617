/-
# The schema of configurations

A JSON schema for configuration files, so that editors can check them.  A schema is the list of
the members that describe a value: what it is for, what stands in for it, its type and its
parts.
-/
import ObjectGraph.Configuration.Format

namespace ObjectGraph.Configuration.Schema

/-- The members of a schema. -/
abbrev Members := List (String × Json)

/-- A description in front of other members. -/
def describedAs (text : String) (members : Members) : Members :=
  ("description", .string text) :: members

/-- A default value in front of other members. -/
def withDefault (value : Json) (members : Members) : Members :=
  ("default", value) :: members

/-- The schema of strings. -/
def string : Members := [("type", .string "string")]

/-- The schema of strings and null. -/
def optionalString : Members := [("type", .array [.string "string", .string "null"])]

/-- The schema of some given strings. -/
def choice (names : List String) : Members :=
  string ++ [("enum", .array (names.map .string))]

/-- The least unsigned number. -/
def fromZero : String × Json := ("minimum", .number (.float .zero))

/-- The schema of integers without a sign. -/
def unsigned (format : String) : Members :=
  [("type", .string "integer"), ("format", .string format), fromZero]

/-- The schema of integers without a sign and null. -/
def optionalUnsigned (format : String) : Members :=
  [("type", .array [.string "integer", .string "null"]), ("format", .string format), fromZero]

/-- A schema that is defined elsewhere. -/
def reference (name : String) : Members :=
  [("$ref", .string ("#/definitions/" ++ name))]

/-- A schema that is defined elsewhere, among other members. -/
def allOf (name : String) : Members :=
  [("allOf", .array [.object (reference name)])]

/-- An object with values of the same kind. -/
def mapOf (members : Members) : Members :=
  [("type", .string "object"), ("additionalProperties", .object members)]

/-- An object with the given properties, some of them required; both are listed by name. -/
def record (required : List String) (properties : List (String × Members)) : Members :=
  [("type", .string "object")]
    ++ (if required.isEmpty then [] else [("required", .array (required.map .string))])
    ++ [("properties", .object (properties.map fun (name, members) => (name, .object members)))]

/-! ### Definitions -/

/-- The schema of a number of seconds with a default. -/
def seconds (value : Option UInt64) : Members :=
  withDefault (secondsToJson value) (optionalUnsigned "uint64")

/-- The schema of pool settings. -/
def poolSettings : Members :=
  let standard : PoolSettings := {}
  describedAs "Settings for the PostgreSQL connection pool" <| record []
    [("connectionLifetime",
      describedAs "maximum lifetime for an individual connection (seconds)"
        (seconds standard.connectionLifetime)),
     ("idleTimeout",
      describedAs "idle timeout for releasing a connection from the pool (seconds)"
        (seconds standard.idleTimeout)),
     ("maxConnections",
      describedAs "maximum number of pool connections"
        (withDefault (.int standard.maxConnections.toNat) (unsigned "uint32"))),
     ("poolTimeout",
      describedAs "timeout for acquiring a connection from the pool (seconds)"
        (withDefault (.int standard.poolTimeout.toNat) (unsigned "uint64")))]

/-- The schema of settings for Malloy. -/
def malloySettings : Members :=
  let standard : MalloySettings := {}
  describedAs "Settings for Malloy output." <| record []
    [("connection",
      describedAs "The Malloy connection the tables are read through."
        (withDefault (.string standard.connection) string))]

/-- The schema of secrets. -/
def secret : Members :=
  describedAs
    "A value written in the configuration, or the name of an environment variable holding it."
    [("anyOf", .array
      [.object string, .object (record ["variable"] [("variable", reference "Variable")])])]

/-- The schema of joins. -/
def join : Members :=
  describedAs "The relational shape of an edge."
    [("oneOf", .array
      [.object <| describedAs "Source fields equal target fields." <|
        record ["columnMapping", "type"]
          [("columnMapping", mapOf string), ("type", choice ["columns"])],
       .object <| describedAs "An association table holding pairs of source and target ids." <|
        record ["sourceColumn", "tableName", "targetColumn", "type"]
          [("schemaName", optionalString), ("sourceColumn", string), ("tableName", string),
           ("targetColumn", string), ("type", choice ["through"])]])]

/-- The schema of edges. -/
def edge : Members :=
  describedAs "A named relationship from one object type to another." <|
    record ["cardinality", "join", "target"]
      [("cardinality", reference "Cardinality"), ("description", optionalString),
       ("join", reference "EdgeJoin"),
       ("relationshipType",
        describedAs ("Relationship type used for graph query output. "
          ++ "Defaults to the upper-cased edge name.") optionalString),
       ("target", string)]

/-- The schema of fields. -/
def field : Members :=
  describedAs "Information about a single field of an object type." <|
    record ["columnName", "type"]
      [("columnName", string), ("description", optionalString),
       ("nullable", withDefault (.string "Nullable") (allOf "Nullable")),
       ("type", reference "ScalarType")]

/-- The schema of object types. -/
def objectType : Members :=
  describedAs "Information about a mapped object type and the table that stores it." <|
    record ["fields", "tableName"]
      [("description", optionalString), ("edges", mapOf (reference "EdgeInfo")),
       ("fields", mapOf (reference "FieldInfo")), ("idField", withDefault (.string "id") string),
       ("label",
        describedAs "Node label used for graph query output. Defaults to the type name."
          optionalString),
       ("schemaName", optionalString), ("tableName", string)]

/-- The schemas that others refer to, under their names. -/
def definitions : List (String × Members) :=
  [("Cardinality",
    describedAs "How many objects an edge reaches from a single source object."
      (choice (Catalog.cardinalities.map Prod.fst))),
   ("ConnectionUri",
    describedAs "Connection string for a PostgreSQL database." (allOf "Secret")),
   ("EdgeInfo", edge),
   ("EdgeJoin", join),
   ("FieldInfo", field),
   ("MalloySettings", malloySettings),
   ("Metadata",
    describedAs "Metadata information." <| record []
      [("objectTypes", withDefault (.object []) (allOf "ObjectTypes"))]),
   ("Nullable",
    describedAs "Can this field contain null values"
      (choice (Catalog.nullabilities.map Prod.fst))),
   ("ObjectTypeInfo", objectType),
   ("ObjectTypes",
    describedAs "Mapping from an object type name to its information."
      (mapOf (reference "ObjectTypeInfo"))),
   ("PoolSettings", poolSettings),
   ("ScalarType",
    describedAs "The scalar types a mapped field may have."
      (choice (ScalarType.all.map ScalarType.sqlName))),
   ("Secret", secret),
   ("Variable", describedAs "The name of an environment variable." string)]

/-- The draft of the schema language that the document is written in. -/
def draft : String := "http:" ++ "//json-schema.org/draft-07/schema#"

/-- The schema of configuration files. -/
def document : Json :=
  .object <|
    [("$schema", .string draft),
     ("title", .string "ParsedConfiguration")]
    ++ describedAs ("Initial configuration, just enough to connect to a database and describe "
      ++ "the mapped object types.")
      (record ["connectionUri", "version"]
        [("connectionUri", reference "ConnectionUri"),
         ("malloy", reference "MalloySettings"),
         ("metadata", withDefault Catalog.empty.toJson (allOf "Metadata")),
         ("poolSettings", reference "PoolSettings"),
         ("version", unsigned "uint32")])
    ++ [("definitions", .object (definitions.map fun (name, members) => (name, .object members)))]

/-- The text of the schema file. -/
def text : String := document.pretty ++ "\n"

end ObjectGraph.Configuration.Schema
