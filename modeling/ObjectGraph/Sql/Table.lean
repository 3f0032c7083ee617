/-
# Table definitions

Statements that create tables, and those that tie existing tables together.
-/
import ObjectGraph.Sql.Render

namespace ObjectGraph.Sql

open Fragment

/-- A column of a table; its type is a text that is written as it is. -/
structure ColumnDefinition where
  name : String
  type : String
  notNull : Bool
deriving DecidableEq

/-- Columns that hold the key of a row in another table. -/
structure ForeignKey where
  columns : List String
  table : TableReference
  referenced : List String
deriving DecidableEq

/-- A statement that creates a table. -/
structure CreateTable where
  name : TableReference
  columns : List ColumnDefinition
  primaryKey : List String
  foreignKeys : List ForeignKey
deriving DecidableEq

/-- A foreign key for a table that is there already. -/
structure AddForeignKey where
  table : TableReference
  key : ForeignKey
deriving DecidableEq

/-- Names between parentheses. -/
def nameList (names : List String) : List Fragment :=
  parenthesized (commaSeparated (names.map fun name => [identifier name]))

/-- The definition of a column. -/
def ColumnDefinition.fragments (column : ColumnDefinition) : List Fragment :=
  [identifier column.name, code " ", code column.type]
    ++ (if column.notNull then [code " NOT NULL"] else [])

/-- The clause of a foreign key. -/
def ForeignKey.fragments (key : ForeignKey) : List Fragment :=
  code "FOREIGN KEY " :: nameList key.columns ++ code " REFERENCES " :: key.table.fragments
    ++ code " " :: nameList key.referenced

/-- The clause of a primary key, if there are columns in it. -/
def primaryKeyFragments (names : List String) : List (List Fragment) :=
  if names.isEmpty then [] else [code "PRIMARY KEY " :: nameList names]

/-- Columns come first, the primary key next and foreign keys last. -/
def CreateTable.fragments (table : CreateTable) : List Fragment :=
  code "CREATE TABLE " :: table.name.fragments ++ code " " ::
    parenthesized (commaSeparated
      (table.columns.map (·.fragments) ++ primaryKeyFragments table.primaryKey
        ++ table.foreignKeys.map (·.fragments)))

/-- The statement of a key that is added. -/
def AddForeignKey.fragments (addition : AddForeignKey) : List Fragment :=
  code "ALTER TABLE " :: addition.table.fragments ++ code " ADD " :: addition.key.fragments

/-- The text of a statement that creates a table. -/
def CreateTable.text (table : CreateTable) : String :=
  (Fragment.statement table.fragments).text

/-- The text of a statement that adds a key. -/
def AddForeignKey.text (addition : AddForeignKey) : String :=
  (Fragment.statement addition.fragments).text

end ObjectGraph.Sql
