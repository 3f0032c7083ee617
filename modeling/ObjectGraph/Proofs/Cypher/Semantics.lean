/-
# What Cypher statements mean

A part is evaluated clause by clause: all ways to match its path in a graph, those among them for
which every condition holds, and what is returned for each of these or for each group of them; the
results are sorted by the keys, and in the end some are skipped and no more than the limit kept.
The results of several parts follow each other.
-/
import ObjectGraph.Cypher.Compile
import ObjectGraph.Proofs.Arranging

namespace ObjectGraph.Cypher

variable {δ : Type}

/-! ### Matches -/

/-- Nodes and the relationships between them. -/
structure Graph (δ : Type) where
  /-- The nodes of a label. -/
  nodes : String → List (Record δ)
  /-- The nodes of a label that a type of relationships leads to from a node, in a number of
  steps. -/
  reached : Record δ → String → Nat → String → List (Record δ)

/-- The node that each variable stands for, the one reached last in front. -/
abbrev Match (δ : Type) := List (String × Record δ)

namespace Match

/-- The node that a variable stands for; one that is not bound has no properties. -/
def node (found : Match δ) (name : String) : Record δ := (found.lookup name).getD []

/-- The node reached last. -/
def last (found : Match δ) : Record δ := (found.head?.map Prod.snd).getD []

/-- The property of a node. -/
def cell (found : Match δ) (property : Property) : Cell δ :=
  (found.node property.node).cell property.name

end Match

/-- The matches of a path, one hop after the other. -/
def Path.found (graph : Graph δ) (path : Path) : List (Match δ) :=
  path.hops.foldl
    (fun found hop => found.flatMap fun reached =>
      (graph.reached (Match.last reached) hop.relationship hop.count hop.node.label).map fun node =>
        (hop.node.name, node) :: reached)
    ((graph.nodes path.start.label).map fun node => [(path.start.name, node)])

/-! ### What is returned -/

/-- Whether a value is made of a group of matches. -/
def Value.aggregates : Value → Bool
  | property _ => false
  | count | collect _ | collectMaps _ _ => true

/-- An entry of a map that is made from a node. -/
def Entry.cell (entry : Entry) (node : String) (found : Match δ) : String × Cell δ :=
  match entry.name with
  | some name => (name, found.cell entry.property)
  | none => (entry.property.key, (found.node node).cell entry.property.key)

/-- The cell of a value for a match and the group it stands for. -/
def Value.cell (D : Domain δ) (found : Match δ) (group : List (Match δ)) : Value → Cell δ
  | property p => found.cell p
  | count => some (D.integer group.length)
  | collect node => Listing.array D (group.map (·.node node))
  | collectMaps node entries =>
    Listing.array D (group.map fun found => entries.map fun entry => entry.cell node found)

/-- The name of a column: the one it is given or, if it has none, that of its property. -/
def ReturnItem.column (item : ReturnItem) : String :=
  match item.givenName, item.value with
  | some name, _ => name
  | none, .property p => p.name
  | none, _ => item.name

/-- The columns of items.  A result has no column twice. -/
def columns (items : List ReturnItem) : List (String × Value) :=
  (items.map fun item => (item.column, item.value)).eraseDups

/-- What columns are evaluated for: every match or, if some of them are made of groups, every group
of matches that have the same cells in the others, behind the first of them. -/
def groups (D : Domain δ) (columns : List (String × Value)) (found : List (Match δ)) :
    List (Match δ × List (Match δ)) :=
  let keys := (columns.map Prod.snd).filter (!·.aggregates)
  if columns.any (·.2.aggregates) then
    if keys.isEmpty then [(found.headD [], found)]
    else
      (Stable.classes (fun a b => D.orderList (keys.map (·.cell D a [])) (keys.map (·.cell D b [])))
        found).map fun group => (group.headD [], group)
  else found.map fun found => (found, [])

/-- The results for some matches, each behind the match it is made for. -/
def Part.returned (D : Domain δ) (part : Part) (found : List (Match δ)) :
    List (Match δ × Record δ) :=
  match part.returns with
  | none => found.map fun found => (found, found.node part.path.last.name)
  | some items => (groups D (columns items) found).map fun (first, group) =>
    (first, (columns items).map fun (name, value) => (name, value.cell D first group))

/-! ### Clauses -/

/-- What a match is sorted by: a property of a node, or a column that is returned. -/
def SortTarget.cell (found : Match δ) (record : Record δ) : SortTarget → Cell δ
  | property p => found.cell p
  | named name => record.cell name

namespace Part

variable (D : Domain δ) (types : Property → Option ScalarType) (graph : Graph δ) (part : Part)

/-- The conditions on a match, given the types of properties. -/
def tests : List (Match δ → Truth) :=
  part.conditions.map fun condition found => condition.truth D types found.cell

/-- The keys of a part, each as a cell of a match and of what is returned for it. -/
def keys : List (Direction × (Match δ × Record δ → Cell δ)) :=
  part.orderBy.map fun key => (key.direction, fun (found, record) => key.target.cell found record)

/-- The matches for which all conditions hold. -/
def kept : List (Match δ) :=
  (part.path.found graph).filter fun found => (part.tests D types).all fun test =>
    test found == some true

/-- The results of a part in their order. -/
def sorted : List (Match δ × Record δ) :=
  Stable.sort (D.orderBy part.keys) (part.returned D (part.kept D types graph))

/-- The rows of a part, clause by clause. -/
def rows : List (Record δ) :=
  (Sql.slice part.limit part.skip (part.sorted D types graph)).map Prod.snd

end Part

/-- The rows of a statement. -/
def Statement.rows (D : Domain δ) (types : Property → Option ScalarType) (graph : Graph δ)
    (statement : Statement) : List (Record δ) :=
  statement.flatMap fun part => part.rows D types graph

end ObjectGraph.Cypher
