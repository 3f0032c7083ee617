/-
# Tables for a catalog

Every object type gets a table, and every table of pairs that an edge goes through gets one.
Tables are created after the tables their foreign keys refer to.  Where tables refer to each
other in a circle, the first of them is created without its keys to the others, and those keys
are added in the end.
-/
import ObjectGraph.Compile.Select
import ObjectGraph.Sql.Table

namespace ObjectGraph.Compile

open Sql (AddForeignKey ColumnDefinition CreateTable ForeignKey TableReference)

/-! ### The table of an object type -/

/-- The column of a field; that of the identity never holds null. -/
def fieldColumn (type : ObjectType) (name : String) (field : Field) : ColumnDefinition where
  name := field.column
  type := field.type.sqlName
  notNull := !field.nullable || name == type.idField

/-- The column of a field that a foreign key starts from. -/
def keyColumn (name : String) (type : ObjectType) (field : String) :
    Except CompileError String :=
  match type.lookupField field with
  | some (_, found) => .ok found.column
  | none => .error (.fieldNotFound field (.type name))

/-- The only pair of a mapping, if it leads to the identity of the target. -/
def identityPair? (target : ObjectType) : List (String × String) → Option String
  | [(source, reached)] =>
    if reached = target.idField || reached = idKey then some source else none
  | _ => none

/-- The foreign key of an edge.  Only an edge to at most one object has one, and only if a
single field of the object holds the identity of that one. -/
def foreignKey? (catalog : Catalog) (name : String) (type : ObjectType) (edge : Edge) :
    Except CompileError (Option ForeignKey) :=
  match edge.join, edge.cardinality with
  | .columns mapping, .one => do
    let target ← catalog.requireType edge.target
    match identityPair? target mapping.entries with
    | none => return none
    | some source =>
      let column ← keyColumn name type source
      let identity ← target.requireIdentity edge.target
      return some ⟨[column], tableName target, [identity.column]⟩
  | _, _ => return none

/-- The foreign keys of edges. -/
def foreignKeys (catalog : Catalog) (name : String) (type : ObjectType) :
    List (String × Edge) → Except CompileError (List ForeignKey)
  | [] => return []
  | (_, edge) :: rest => do
    let key ← foreignKey? catalog name type edge
    return key.toList ++ (← foreignKeys catalog name type rest)

/-- The table of an object type. -/
def objectTable (catalog : Catalog) (name : String) (type : ObjectType) :
    Except CompileError CreateTable := do
  let identity ← type.requireIdentity name
  return {
    name := tableName type
    columns := type.fields.entries.map fun (name, field) => fieldColumn type name field
    primaryKey := [identity.column]
    foreignKeys := ← foreignKeys catalog name type type.edges.entries
  }

/-! ### Tables of pairs -/

/-- A column that holds an identity, and the key that says whose. -/
def pairColumn (column : String) (identity : Field) : ColumnDefinition where
  name := column
  type := identity.type.sqlName
  notNull := true

/-- The key of a column of pairs, which refers to the identity of a type. -/
def pairKey (column : String) (type : ObjectType) (identity : Field) : ForeignKey where
  columns := [column]
  table := tableName type
  referenced := [identity.column]

/-- The table an edge goes through, if it goes through one. -/
def associationTable? (catalog : Catalog) (name : String) (type : ObjectType) (edge : Edge) :
    Except CompileError (Option CreateTable) :=
  match edge.join with
  | .columns _ => return none
  | .through schema table source target => do
    let reached ← catalog.requireType edge.target
    let sourceIdentity ← type.requireIdentity name
    let targetIdentity ← reached.requireIdentity edge.target
    return some {
      name := .stored ⟨schema, table⟩
      columns := [pairColumn source sourceIdentity, pairColumn target targetIdentity]
      primaryKey := [source, target]
      foreignKeys := [pairKey source type sourceIdentity, pairKey target reached targetIdentity]
    }

/-- The tables that edges go through. -/
def associationTables (catalog : Catalog) (name : String) (type : ObjectType) :
    List (String × Edge) → Except CompileError (List CreateTable)
  | [] => return []
  | (_, edge) :: rest => do
    let table ← associationTable? catalog name type edge
    return table.toList ++ (← associationTables catalog name type rest)

/-- The tables of object types. -/
def objectTables (catalog : Catalog) :
    List (String × ObjectType) → Except CompileError (List CreateTable)
  | [] => return []
  | (name, type) :: rest => do
    let table ← objectTable catalog name type
    return table :: (← objectTables catalog rest)

/-- The tables that the edges of object types go through. -/
def allAssociationTables (catalog : Catalog) :
    List (String × ObjectType) → Except CompileError (List CreateTable)
  | [] => return []
  | (name, type) :: rest => do
    let tables ← associationTables catalog name type type.edges.entries
    return tables ++ (← allAssociationTables catalog rest)

/-- The first table of every name. -/
def firstOfName (seen : List TableReference) : List CreateTable → List CreateTable
  | [] => []
  | table :: rest =>
    if table.name ∈ seen then firstOfName seen rest
    else table :: firstOfName (table.name :: seen) rest

/-! ### Order of creation -/

/-- Whether a key of a table refers to another table that has still to be created. -/
def waitsOn (remaining : List CreateTable) (table : CreateTable) (key : ForeignKey) : Bool :=
  key.table != table.name && remaining.any (·.name == key.table)

/-- Whether all tables that a table refers to are there already. -/
def isReady (remaining : List CreateTable) (table : CreateTable) : Bool :=
  table.foreignKeys.all fun key => !waitsOn remaining table key

/-- A table without the keys that refer to tables still to be created, and those keys. -/
def defer (remaining : List CreateTable) (table : CreateTable) :
    CreateTable × List AddForeignKey :=
  ({ table with foreignKeys := table.foreignKeys.filter (!waitsOn remaining table ·) },
   (table.foreignKeys.filter (waitsOn remaining table ·)).map (⟨table.name, ·⟩))

/-- The first element that satisfies a test, and the others in their order. -/
def extractFirst {α : Type} (test : α → Bool) : List α → Option (α × List α)
  | [] => none
  | a :: rest =>
    if test a then some (a, rest)
    else (extractFirst test rest).map fun (found, others) => (found, a :: others)

theorem length_extractFirst {α : Type} {test : α → Bool} {l others : List α} {a : α}
    (h : extractFirst test l = some (a, others)) : l.length = others.length + 1 := by
  induction l generalizing others with
  | nil => simp [extractFirst] at h
  | cons b rest ih =>
    simp only [extractFirst] at h
    split at h
    · simp only [Option.some.injEq, Prod.mk.injEq] at h
      simp [h.2]
    · obtain ⟨⟨found, tail⟩, hr, heq⟩ := Option.map_eq_some_iff.1 h
      simp only [Prod.mk.injEq] at heq
      obtain ⟨rfl, rfl⟩ := heq
      simp [ih hr]

/-- Tables in the order in which they can be created, and the keys to add afterwards. -/
def dependencyOrder (remaining : List CreateTable) : List CreateTable × List AddForeignKey :=
  match h : extractFirst (isReady remaining) remaining with
  | some (table, others) =>
    have : others.length < remaining.length := by have := length_extractFirst h; omega
    let (ordered, added) := dependencyOrder others
    (table :: ordered, added)
  | none =>
    match remaining with
    | [] => ([], [])
    | first :: others =>
      let (table, deferred) := defer others first
      let (ordered, added) := dependencyOrder others
      (table :: ordered, deferred ++ added)
termination_by remaining.length

/-! ### All statements -/

/-- The tables of a catalog in the order of their creation, and the keys to add afterwards. -/
def createTables (catalog : Catalog) :
    Except CompileError (List CreateTable × List AddForeignKey) := do
  let tables ← objectTables catalog catalog.types.entries
  let associations ← allAssociationTables catalog catalog.types.entries
  let (ordered, added) := dependencyOrder tables
  return (ordered ++ firstOfName [] associations, added)

/-- The texts of the statements that create all tables of a catalog. -/
def tableStatements (catalog : Catalog) : Except CompileError (List String) := do
  let (tables, added) ← createTables catalog
  return tables.map (·.text) ++ added.map (·.text)

end ObjectGraph.Compile
