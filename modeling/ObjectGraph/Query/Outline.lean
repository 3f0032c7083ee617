/-
# Outlines of queries

A query as a tree of lines, its last operation first and the input of every operation indented
below it.  The operations of an edge end at `PARENT`, the objects the edge reaches.
-/
import ObjectGraph.Query

namespace ObjectGraph

/-- A line and how deep it is indented. -/
structure OutlineLine where
  depth : Nat
  text : String
deriving DecidableEq, Repr

/-- Every level is four spaces. -/
def OutlineLine.render (line : OutlineLine) : String :=
  String.ofList (List.replicate (4 * line.depth) ' ') ++ line.text ++ "\n"

/-- A source with the identities that are given, if any are. -/
def Source.text (source : Source) : String :=
  "LEAF " ++ source.objectType ++
    match source.ids with
    | none => ""
    | some ids => " [" ++ ", ".intercalate (ids.map fun id => toString id.toInt) ++ "]"

/-- The line of an operation. -/
def Operation.headline : Operation → String
  | project fields => "PROJECT [" ++ ", ".intercalate fields ++ "]"
  | filter predicate => "WHERE " ++ predicate.text
  | take n => "TAKE " ++ toString n.toNat
  | skip n => "SKIP " ++ toString n.toNat
  | count => "COUNT"
  | nest key => "NEST " ++ key
  | rename old new => "LET " ++ old ++ " -> " ++ new
  | orderBy key .ascending => "ORDER_BY " ++ key
  | orderBy key .descending => "ORDER_BY " ++ key ++ " DESC"
  | groupBy key => "GROUP_BY " ++ key
  | edge name _ => "EDGE " ++ name
  | union _ => "UNION"

mutual

/-- The lines of an operation without its input. -/
def Operation.outline (depth : Nat) : Operation → List OutlineLine
  | .edge name operations =>
    ⟨depth, (Operation.edge name operations).headline⟩ :: pipelineOutline (depth + 1) operations
      ++ [⟨depth + 1 + operations.length, "PARENT"⟩]
  | .union queries =>
    ⟨depth, (Operation.union queries).headline⟩ :: branchOutlines (depth + 1) queries
  | operation => [⟨depth, operation.headline⟩]

/-- The lines of operations, the last one at the given depth. -/
def pipelineOutline (depth : Nat) : List Operation → List OutlineLine
  | [] => []
  | operation :: rest =>
    pipelineOutline depth rest ++ operation.outline (depth + rest.length)

/-- The lines of independent queries. -/
def branchOutlines (depth : Nat) : List Query → List OutlineLine
  | [] => []
  | ⟨source, operations⟩ :: rest =>
    pipelineOutline depth operations ++ [⟨depth + operations.length, source.text⟩]
      ++ branchOutlines depth rest

end

namespace Query

/-- The lines of a query. -/
def outline (query : Query) : List OutlineLine :=
  pipelineOutline 0 query.operations ++ [⟨query.operations.length, query.source.text⟩]

/-- The text of a query's outline. -/
def dump (query : Query) : String :=
  String.join (query.outline.map OutlineLine.render)

end Query
end ObjectGraph
