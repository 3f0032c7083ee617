/-
# The catalog of object types

An object type says in which table its objects are stored, under which columns their fields are
found, which field identifies an object, and which edges lead from its objects to others.
-/
import ObjectGraph.Catalog.Scalar
import ObjectGraph.Named
import ObjectGraph.Text.NameCase

namespace ObjectGraph

/-- The key of an object's identity in results. -/
def idKey : String := ":id"

/-- The key of an object's type in results. -/
def typeKey : String := ":type"

/-- A field of an object type. -/
structure Field where
  column : String
  type : ScalarType
  nullable : Bool := true
  description : Option String := none
deriving DecidableEq

/-- How many objects an edge reaches from one. -/
inductive Cardinality
  | one
  | many
deriving DecidableEq, Repr

/-- How the two ends of an edge are tied together. -/
inductive Join
  /-- Fields of the object equal fields of the objects it reaches. -/
  | columns (mapping : OrderedMap String)
  /-- Rows of a table of pairs of identities. -/
  | through (schema : Option String) (table source target : String)
deriving DecidableEq

/-- An edge from the objects of one type to those of another. -/
structure Edge where
  target : String
  cardinality : Cardinality
  join : Join
  relationship : Option String := none
  description : Option String := none
deriving DecidableEq

/-- The type of the relationship in a graph; unless it is given, what the naming of relationships
makes of the name of the edge. -/
def Edge.relationshipType (edge : Edge) (name : String)
    (naming : String → String := Text.upperSnakeCase) : String :=
  edge.relationship.getD (naming name)

/-- An object type. -/
structure ObjectType where
  schema : Option String := none
  table : String
  label : Option String := none
  idField : String := "id"
  fields : OrderedMap Field := .empty
  edges : OrderedMap Edge := .empty
  description : Option String := none
deriving DecidableEq

namespace ObjectType

/-- A type without fields, stored in a table that is named after it. -/
def named (name : String) : ObjectType where
  table := Text.snakeCase name

/-- The type with its objects stored in another table. -/
def withTable (type : ObjectType) (table : String) : ObjectType :=
  { type with table }

/-- Add a field that is stored in a column of its own name. -/
def withField (type : ObjectType) (name : String) (scalar : ScalarType) (nullable : Bool) :
    ObjectType :=
  { type with fields := type.fields.insert name { column := name, type := scalar, nullable } }

/-- The type with another edge. -/
def withEdge (type : ObjectType) (name : String) (edge : Edge) : ObjectType :=
  { type with edges := type.edges.insert name edge }

/-- The field a query means by a name, under its own name.  `:id` means the identity. -/
def lookupField (type : ObjectType) (name : String) : Option (String × Field) :=
  let name := if name = idKey then type.idField else name
  (type.fields.get? name).map (name, ·)

/-- The field that identifies an object. -/
def identity? (type : ObjectType) : Option Field :=
  type.fields.get? type.idField

/-- The label of the type's nodes in a graph; unless it is given, the name of the type. -/
def labelOf (type : ObjectType) (name : String) : String :=
  type.label.getD name

end ObjectType

/-- The object types by name. -/
structure Catalog where
  types : SortedMap ObjectType := .empty
deriving DecidableEq

namespace Catalog

/-- The catalog without types. -/
def empty : Catalog := {}

instance : Inhabited Catalog := ⟨empty⟩

/-- The catalog with another type. -/
def withType (catalog : Catalog) (name : String) (type : ObjectType) : Catalog :=
  ⟨catalog.types.insert name type⟩

/-- The type of a name. -/
def type? (catalog : Catalog) (name : String) : Option ObjectType :=
  catalog.types.get? name

/-- An edge of a type, which must be in the catalog. -/
def edge? (catalog : Catalog) (type edge : String) : Option Edge :=
  (catalog.type? type).bind (·.edges.get? edge)

end Catalog
end ObjectGraph
