/-
# Queries as lists of rows

What a query without edges means, one operation after the other: every operation turns the whole
list of rows into another one.  This is the meaning that compiled queries are held against, so
nothing here knows of selects.

The header of a listing says which columns its rows have, and with which types the literals in
conditions are read.
-/
import ObjectGraph.Catalog
import ObjectGraph.Memory.Order
import ObjectGraph.Proofs.Domain
import ObjectGraph.Proofs.Groups

namespace ObjectGraph

variable {δ : Type}

/-! ### Headers -/

/-- The columns of a listing in their order, each with its type as far as it is known. -/
abbrev Header := List (String × Option ScalarType)

namespace Header

/-- The names of the columns. -/
def names (header : Header) : List String := header.map Prod.fst

/-- The column that a reference means: the one of that name or, for `:id`, the identity. -/
def column? (header : Header) (reference : String) : Option (String × Option ScalarType) :=
  let reference := unqualified reference
  (header.find? (·.1 == reference)).or
    (if reference = idKey then header.find? (·.1 == "id") else none)

/-- Whether a reference means a column. -/
def Has (header : Header) (reference : String) : Prop := (header.column? reference).isSome

instance (header : Header) (reference : String) : Decidable (header.Has reference) := by
  unfold Has
  infer_instance

/-- The type of the column that a reference means. -/
def type? (header : Header) (reference : String) : Option ScalarType :=
  (header.column? reference).bind Prod.snd

/-- The cell of the column that a reference means. -/
def cell (header : Header) (record : Record δ) (reference : String) : Cell δ :=
  (header.column? reference).bind fun column => record.cell column.1

/-- The columns of the objects of a type, each with the type of its field. -/
def ofType (type : ObjectType) : Header :=
  type.fields.entries.map fun (name, field) => (name, some field.type)

/-- The columns that references mean, each one once, behind those that were picked before. -/
def pick (header picked : Header) : List String → Header
  | [] => picked
  | reference :: rest =>
    match header.column? reference with
    | some column =>
      if column.1 ∈ picked.names then header.pick picked rest
      else header.pick (picked ++ [column]) rest
    | none => header.pick picked rest

/-- The columns with another name for one of them. -/
def rename (header : Header) (old new : String) : Header :=
  header.map fun (name, type) => (if name = old then new else name, type)

end Header

/-! ### Rows -/

namespace Record

/-- The row of the fields of a type, made from a stored one. -/
def ofType (type : ObjectType) (stored : Record δ) : Record δ :=
  type.fields.entries.map fun (name, field) => (name, stored.cell field.column)

/-- The cells of the columns of a header. -/
def restrict (record : Record δ) (header : Header) : Record δ :=
  header.map fun (name, _) => (name, record.cell name)

/-- The record with every column of the old name called by the new one. -/
def rename (record : Record δ) (old new : String) : Record δ :=
  record.map fun (name, cell) => (if name = old then new else name, cell)

end Record

/-! ### Conditions -/

/-- The cell of a literal that is compared with a column of a type. -/
def Literal.cell (D : Domain δ) (type : Option ScalarType) : Literal → Cell δ
  | null => none
  | boolean b => some (D.boolean b)
  | integer i => some (D.integer i.toInt)
  | float x => some (D.float x)
  | string s =>
    match type with
    | some type => if type.isText then some (D.text s) else D.cast type (D.text s)
    | none => some (D.text s)

/-- Whether an operator holds between a cell and a literal.  Only for `null` itself is it known
whether it equals null. -/
def Literal.truth (D : Domain δ) (operator : ComparisonOperator) (type : Option ScalarType)
    (cell : Cell δ) : Literal → Truth
  | null =>
    match operator with
    | .equals => some cell.isNone
    | .notEquals => some cell.isSome
    | _ => none
  | value => D.holds operator cell (value.cell D type)

namespace Predicate

mutual

/-- Whether a predicate holds of a row. -/
def truth (D : Domain δ) (header : Header) (record : Record δ) : Predicate → Truth
  | all parts => allTruth D header record parts
  | any parts => anyTruth D header record parts
  | negation part => Truth.not (part.truth D header record)
  | comparison field operator value =>
    value.truth D operator (header.type? field) (header.cell record field)
  | oneOf field values =>
    D.among (header.cell record field) (values.map (Literal.cell D (header.type? field)))
  | isNull field => some (header.cell record field).isNone

/-- The truth of a conjunction: all parts hold of a record. -/
def allTruth (D : Domain δ) (header : Header) (record : Record δ) : List Predicate → Truth
  | [] => some true
  | part :: rest => Truth.and (part.truth D header record) (allTruth D header record rest)

/-- The truth of a disjunction: some part holds of a record. -/
def anyTruth (D : Domain δ) (header : Header) (record : Record δ) : List Predicate → Truth
  | [] => some false
  | part :: rest => Truth.or (part.truth D header record) (anyTruth D header record rest)

end

mutual

/-- Whether all fields of a predicate mean columns. -/
def Within (header : Header) : Predicate → Prop
  | all parts | any parts => partsWithin header parts
  | negation part => part.Within header
  | comparison field _ _ | oneOf field _ | isNull field => header.Has field

/-- Whether all parts test columns only that there are. -/
def partsWithin (header : Header) : List Predicate → Prop
  | [] => True
  | part :: rest => part.Within header ∧ partsWithin header rest

end

end Predicate

/-! ### Listings -/

/-- Rows with the columns they have. -/
structure Listing (δ : Type) where
  header : Header
  rows : List (Record δ)

namespace Listing

variable (D : Domain δ) (listing : Listing δ)

/-- The rows with the listed columns only, in the order of the list. -/
def project (fields : List String) : Listing δ :=
  let header := listing.header.pick [] fields
  ⟨header, listing.rows.map (·.restrict header)⟩

/-- The rows of which a predicate is true; those of which it is unknown are left out. -/
def filter (predicate : Predicate) : Listing δ :=
  { listing with
    rows := listing.rows.filter fun record =>
      predicate.truth D listing.header record == some true }

/-- The first rows. -/
def take (n : UInt32) : Listing δ := { listing with rows := listing.rows.take n.toNat }

/-- The rows behind the first ones. -/
def skip (n : UInt32) : Listing δ := { listing with rows := listing.rows.drop n.toNat }

/-- One row with the number of rows. -/
def count : Listing δ :=
  ⟨[("count", some .bigint)], [[("count", some (D.integer listing.rows.length))]]⟩

/-- The rows as an array of objects. -/
def array (rows : List (Record δ)) : Cell δ :=
  some (D.array (rows.map fun record => some (D.record record)))

/-- One row with all rows under a key. -/
def nest (key : String) : Listing δ := ⟨[(key, none)], [[(key, array D listing.rows)]]⟩

/-- The rows with the column that is meant called by the new name. -/
def rename (old new : String) : Listing δ :=
  match listing.header.column? old with
  | some (name, _) =>
    ⟨listing.header.rename name (unqualified new),
      listing.rows.map (·.rename name (unqualified new))⟩
  | none => listing

/-- The order of rows by the cell of a column. -/
def order (key : String) (direction : Direction) (a b : Record δ) : Ordering :=
  D.directed direction (listing.header.cell a key) (listing.header.cell b key)

/-- Sort the rows; those that are equal keep their order. -/
def sortBy (key : String) (direction : Direction) : Listing δ :=
  { listing with rows := Stable.sort (listing.order D key direction) listing.rows }

/-- Sort the rows, then gather the neighbours that are equal. -/
def gatherBy (key : String) : Listing δ :=
  let order := listing.order D key .ascending
  let groups := Stable.runs order (Stable.sort order listing.rows)
  ⟨[("key", listing.header.type? key), ("items", none)], groups.map fun group =>
    [("key", listing.header.cell (group.headD []) key), ("items", array D group)]⟩

/-- The objects of a type as rows, those with the given identities or all. -/
def ofSource (db : Database δ) (catalog : Catalog) (source : Source) : Listing δ :=
  match catalog.type? source.objectType with
  | none => ⟨[], []⟩
  | some type =>
    let rows := (db ⟨type.schema, type.table⟩).map (Record.ofType type)
    { header := .ofType type
      rows := match source.ids with
        | none => rows
        | some ids => rows.filter fun record =>
          D.among (record.cell type.idField) (ids.map fun id => some (D.integer id.toInt))
            == some true }

mutual

/-- The rows after an operation.  Edges are not followed. -/
def apply (db : Database δ) (catalog : Catalog) : Operation → Listing δ → Listing δ
  | .project fields, listing => listing.project fields
  | .filter predicate, listing => listing.filter D predicate
  | .take n, listing => listing.take n
  | .skip n, listing => listing.skip n
  | .count, listing => listing.count D
  | .nest key, listing => listing.nest D key
  | .rename old new, listing => listing.rename old new
  | .orderBy key direction, listing => listing.sortBy D key direction
  | .groupBy key, listing => listing.gatherBy D key
  | .edge _ _, listing => listing
  | .union queries, listing => appendAll db catalog queries listing

/-- The rows after several operations, the first of them first. -/
def applyAll (db : Database δ) (catalog : Catalog) : List Operation → Listing δ → Listing δ
  | [], listing => listing
  | step :: rest, listing => applyAll db catalog rest (apply db catalog step listing)

/-- The rows followed by those of other queries. -/
def appendAll (db : Database δ) (catalog : Catalog) : List Query → Listing δ → Listing δ
  | [], listing => listing
  | ⟨source, operations⟩ :: rest, listing =>
    let branch := applyAll db catalog operations (ofSource D db catalog source)
    appendAll db catalog rest { listing with rows := listing.rows ++ branch.rows }

end

/-- The rows of a query. -/
def ofQuery (db : Database δ) (catalog : Catalog) (query : Query) : Listing δ :=
  applyAll D db catalog query.operations (ofSource D db catalog query.source)

end Listing

/-! ### Queries on columns -/

/-- The columns after an operation. -/
def Header.after (header : Header) : Operation → Header
  | .project fields => header.pick [] fields
  | .count => [("count", some .bigint)]
  | .nest key => [(key, none)]
  | .rename old new =>
    match header.column? old with
    | some (name, _) => header.rename name (unqualified new)
    | none => header
  | .groupBy key => [("key", header.type? key), ("items", none)]
  | .filter _ | .take _ | .skip _ | .orderBy _ _ | .edge _ _ | .union _ => header

/-- A type whose identity is the field `id`, no other field being named like a reference to it. -/
structure ObjectType.PlainIdentity (type : ObjectType) : Prop where
  idField : type.idField = "id"
  marked : idKey ∉ type.fields.keys

mutual

/-- Whether an operation refers to columns alone, gives new names to columns and follows no
edge. -/
def Operation.OnColumns (catalog : Catalog) (header : Header) : Operation → Prop
  | .project fields => fields ≠ [] ∧ ∀ field ∈ fields, header.Has field
  | .filter predicate => predicate.Within header
  | .orderBy key _ | .groupBy key => header.Has key
  | .rename old new =>
    header.Has old ∧ unqualified new ∉ ["id", idKey] ∧ unqualified new ∉ header.names
  | .take _ | .skip _ | .count | .nest _ => True
  | .edge _ _ => False
  | .union queries => branchesOnColumns catalog queries

/-- Whether each of the operations finds its columns in what those before it leave. -/
def stepsOnColumns (catalog : Catalog) : Header → List Operation → Prop
  | _, [] => True
  | header, step :: rest =>
    step.OnColumns catalog header ∧ stepsOnColumns catalog (header.after step) rest

/-- Whether the operations of all queries find their columns. -/
def branchesOnColumns (catalog : Catalog) : List Query → Prop
  | [] => True
  | ⟨source, operations⟩ :: rest =>
    (∃ type, catalog.type? source.objectType = some type ∧ type.PlainIdentity ∧
      stepsOnColumns catalog (.ofType type) operations) ∧ branchesOnColumns catalog rest

end

/-- Whether every operation of a query, those of unions included, refers to the columns that the
operations before it leave. -/
def Query.OnColumns (catalog : Catalog) (query : Query) : Prop :=
  branchesOnColumns catalog [query]

/-! ### Runs of skips -/

/-- How many rows a run of skips drops, after one more operation; operations that are passed do
not end a run. -/
def Operation.skipped (passed : Operation → Bool) (sum : Nat) : Operation → Nat
  | .skip n => sum + n.toNat
  | step => if passed step then sum else 0

mutual

/-- Whether the runs of skips in the branches of an operation fit. -/
def Operation.SkipsFit (passed : Operation → Bool) : Operation → Prop
  | .union queries => branchesSkipsFit passed queries
  | _ => True

/-- Whether every run of skips drops fewer rows than the size of a limit, given how many the run
that is going on drops already. -/
def stepsSkipsFit (passed : Operation → Bool) : Nat → List Operation → Prop
  | _, [] => True
  | sum, step :: rest =>
    step.skipped passed sum < UInt32.size ∧ step.SkipsFit passed ∧
      stepsSkipsFit passed (step.skipped passed sum) rest

/-- Whether the skips of each of the queries fit. -/
def branchesSkipsFit (passed : Operation → Bool) : List Query → Prop
  | [] => True
  | ⟨_, operations⟩ :: rest =>
    stepsSkipsFit passed 0 operations ∧ branchesSkipsFit passed rest

end

/-- Whether the runs of skips in a query, those of unions included, fit. -/
def Query.SkipsFit (passed : Operation → Bool) (query : Query) : Prop :=
  stepsSkipsFit passed 0 query.operations

/-- Whether an operation only chooses among the columns. -/
def Operation.isProjection : Operation → Bool
  | .project _ => true
  | _ => false

end ObjectGraph
