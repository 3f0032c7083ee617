/-
# One path for all edges

A part matches a single path, so no list of operations may follow two edges.  Edges that are nested
in themselves share a hop: the one that is being followed counts them, and makes one hop of them
when something else comes.  So the counts of the hops add up to the number of edges.  Hops only
come to the end of a path, and a node is numbered by the hops before it, which is why no two nodes
of a path have the same variable.
-/
import Mathlib.Algebra.GroupWithZero.Nat
import ObjectGraph.Proofs.Compile.Identifiers
import ObjectGraph.Proofs.Cypher.Steps
import ObjectGraph.Samples.SocialGraph

namespace ObjectGraph

mutual

/-- The lists of operations behind the edges that an operation follows.  The queries of unions are
left aside, as they have parts of their own. -/
def Operation.innerLists : Operation → List (List Operation)
  | .edge _ inner => inner :: stepsInnerLists inner
  | _ => []

/-- The lists of operations on the objects of edges among the operations. -/
def stepsInnerLists : List Operation → List (List Operation)
  | [] => []
  | step :: rest => step.innerLists ++ stepsInnerLists rest

end

mutual

/-- How many edges an operation follows. -/
def Operation.edgeCount : Operation → Nat
  | .edge _ inner => stepsEdgeCount inner + 1
  | _ => 0

/-- The number of edges that the operations go along. -/
def stepsEdgeCount : List Operation → Nat
  | [] => 0
  | step :: rest => step.edgeCount + stepsEdgeCount rest

end

namespace Query

/-- The lists of operations of a query, at any depth. -/
def lists (query : Query) : List (List Operation) :=
  query.operations :: stepsInnerLists query.operations

/-- How many edges a query follows, at any depth. -/
def edgeCount (query : Query) : Nat :=
  stepsEdgeCount query.operations

end Query

namespace Cypher

open Draft (Following)

/-- How often the text of a hop says that its relationship is followed. -/
def Hop.written (hop : Hop) : Nat :=
  if hop.count > 1 then hop.count else 1

/-- The variables of a path, in its order. -/
def Path.variables (path : Path) : List String :=
  path.start.name :: path.hops.map (·.node.name)

variable {naming : String → String} {catalog : Catalog} {draft result : Draft}
  {following : Option Following} {traversed : Bool} {operation : Operation}
  {operations : List Operation} {query : Query} {part : Part} {statement : Statement}

/-! ### Lists of operations -/

lemma innerLists_operation (he : operation.isEdge = false) : operation.innerLists = [] := by
  cases operation with
  | edge => cases he
  | project | filter | take | skip | count | nest | rename | orderBy | groupBy | union => rfl

/-- No list of operations of an accepted run follows two edges, and none at all does the rest of a
list that has followed one. -/
lemma run_lists (operations : List Operation) {following : Option Following} {traversed : Bool}
    {draft result : Draft} (hd : draft.Departs following)
    (hr : draft.run naming catalog following traversed operations = .ok result) :
    (∀ list ∈ operations :: stepsInnerLists operations, list.countP Operation.isEdge ≤ 1) ∧
      (following = none → traversed = true → operations.countP Operation.isEdge = 0) := by
  induction operations using operations_induction generalizing following traversed draft result with
  | nil => exact ⟨List.forall_mem_singleton.2 (Nat.zero_le 1), fun _ _ => rfl⟩
  | operation operation rest he ih =>
    rw [stepsInnerLists, List.forall_mem_cons, List.forall_mem_append, List.countP_cons]
    obtain ⟨arrived, next, -, -, hrest⟩ := run_operation_ok he hr
    obtain ⟨hlists, hnone⟩ := ih (by rintro ⟨⟩) hrest
    obtain ⟨hone, hinner⟩ := List.forall_mem_cons.1 hlists
    rw [he, innerLists_operation he]
    exact ⟨⟨hone, List.forall_mem_nil _, hinner⟩, fun _ ht => hnone rfl ht⟩
  | edge name inner rest ihInner ih =>
    rw [stepsInnerLists, List.forall_mem_cons, List.forall_mem_append, List.countP_cons,
      Operation.innerLists]
    rcases again_or_anew following name with ⟨edge, rfl, he⟩ | hn
    · -- that no other edge stands beside a repeated one has been checked
      obtain ⟨hbeside, next, hinner, hrest⟩ := run_again_ok he hr
      obtain ⟨hlists, -⟩ := ih (by rintro ⟨⟩) hrest
      obtain ⟨-, hbehind⟩ := List.forall_mem_cons.1 hlists
      refine ⟨⟨?_, (ihInner (fun _ => hd rfl) hinner).1, hbehind⟩, by rintro ⟨⟩⟩
      rw [hbeside]
      exact Nat.le_refl 1
    · obtain ⟨htraversed, arrived, next, -, hdeparts, hinner, hrest⟩ := run_anew_ok hn hd hr
      obtain ⟨hlists, hnone⟩ := ih (by rintro ⟨⟩) hrest
      obtain ⟨-, hbehind⟩ := List.forall_mem_cons.1 hlists
      refine ⟨⟨?_, (ihInner hdeparts hinner).1, hbehind⟩, fun hf ht => ?_⟩
      · -- the rest of the list is run with the mark that an edge was followed
        rw [hnone rfl rfl]
        exact Nat.le_refl 1
      · rw [htraversed hf] at ht
        cases ht

/-! ### Counts -/

/-- The hops among steps. -/
def hopsOf (steps : List Step) : List Following :=
  steps.filterMap fun
    | .hop following => some following
    | .operation _ => none

lemma hopsOf_append (first second : List Step) :
    hopsOf (first ++ second) = hopsOf first ++ hopsOf second :=
  List.filterMap_append

lemma hopsOf_arrival (following : Option Following) :
    hopsOf (arrival following) = following.toList := by
  cases following <;> rfl

/-- How many edges chains of edges are made of. -/
def followed (chains : List Following) : Nat :=
  (chains.map Following.count).sum

lemma followed_append (first second : List Following) :
    followed (first ++ second) = followed first + followed second := by
  rw [followed, List.map_append, List.sum_append]
  rfl

lemma edgeCount_operation (he : operation.isEdge = false) : operation.edgeCount = 0 := by
  cases operation with
  | edge => cases he
  | project | filter | take | skip | count | nest | rename | orderBy | groupBy | union => rfl

/-- The edges of operations are followed by their hops, together with the one that is being
followed, if it has been counted so far. -/
lemma followed_steps (operations : List Operation) (following : Option Following) :
    followed (hopsOf (steps following operations))
      = followed following.toList + stepsEdgeCount operations := by
  induction operations using operations_induction generalizing following with
  | nil =>
    rw [steps, hopsOf_arrival]
    rfl
  | operation operation rest he ih =>
    rw [steps, hopsOf_append, followed_append, ih none, stepsEdgeCount, stepsOf_operation he,
      hopsOf_append, hopsOf_arrival, followed_append, edgeCount_operation he, Nat.zero_add]
    exact congrArg (_ + ·) (Nat.zero_add _)
  | edge name inner rest ihInner ih =>
    rw [steps, hopsOf_append, followed_append, ih none, stepsEdgeCount, Operation.edgeCount]
    have hnone : followed (none : Option Following).toList = 0 := rfl
    have hsome (edge : Following) : followed (some edge).toList = edge.count := Nat.add_zero _
    -- the edge adds one to the hop that is due, or begins a hop of its own with the count one
    rcases again_or_anew following name with ⟨edge, rfl, he⟩ | hn
    · rw [stepsOf_again he, ihInner]
      simp only [hsome, hnone]
      omega
    · rw [stepsOf_anew hn, hopsOf_append, hopsOf_arrival, followed_append, ihInner]
      simp only [hsome, hnone]
      omega

/-- Every hop follows an edge at least once. -/
lemma count_pos_of_mem_steps (operations : List Operation) {following : Option Following}
    (hf : ∀ edge ∈ following, 0 < edge.count) :
    ∀ edge ∈ hopsOf (steps following operations), 0 < edge.count := by
  have harrival {following : Option Following} (hf : ∀ edge ∈ following, 0 < edge.count) :
      ∀ edge ∈ hopsOf (arrival following), 0 < edge.count := by
    rw [hopsOf_arrival]
    exact fun edge hedge => hf edge (Option.mem_toList.1 hedge)
  induction operations using operations_induction generalizing following with
  | nil => exact harrival hf
  | operation operation rest he ih =>
    rw [steps, stepsOf_operation he, hopsOf_append, hopsOf_append, List.forall_mem_append,
      List.forall_mem_append]
    exact ⟨⟨harrival hf, by rintro _ ⟨⟩⟩, ih (by rintro _ ⟨⟩)⟩
  | edge name inner rest ihInner ih =>
    rw [steps, hopsOf_append, List.forall_mem_append]
    refine ⟨?_, ih (by rintro _ ⟨⟩)⟩
    rcases again_or_anew following name with ⟨edge, rfl, he⟩ | hn
    · rw [stepsOf_again he]
      refine ihInner ?_
      rintro _ ⟨⟩
      exact Nat.succ_pos _
    · rw [stepsOf_anew hn, hopsOf_append, List.forall_mem_append]
      refine ⟨harrival hf, ihInner ?_⟩
      rintro _ ⟨⟩
      exact Nat.one_pos

/-! ### Hops -/

/-- Operations leave the path and the type of the node reached last. -/
lemma Draft.Applied.path_eq (h : draft.Applied naming catalog operation result) :
    result.part.path = draft.part.path ∧ result.typeName = draft.typeName := by
  cases h <;> exact ⟨rfl, rfl⟩

lemma restrict_path {ids : Option (List Int64)} (h : draft.restrict catalog ids = .ok result) :
    result.part.path = draft.part.path ∧ result.typeName = draft.typeName := by
  rcases restrict_ok h with rfl | ⟨_, _, -, rfl⟩ <;> exact ⟨rfl, rfl⟩

/-- Steps extend the path by one hop for each of theirs. -/
lemma performAll_counts {steps : List Step}
    (h : draft.performAll naming catalog steps = .ok result) :
    result.part.path.hops.map Hop.count
      = draft.part.path.hops.map Hop.count ++ (hopsOf steps).map Following.count := by
  induction steps generalizing draft with
  | nil =>
    obtain rfl := Except.ok.inj h
    exact (List.append_nil _).symm
  | cons step steps ih =>
    obtain ⟨next, hnext, hrest⟩ := performAll_cons.1 h
    rw [ih hrest]
    cases step with
    | operation operation =>
      rw [(perform_operation_ok hnext).2.path_eq.1]
      rfl
    | hop chain =>
      obtain ⟨edge, target, -, -, rfl⟩ := perform_hop_ok hnext
      simp only [Draft.behind, List.map_append, List.append_assoc]
      rfl

/-! ### Variables -/

/-- The variable of the node behind so many hops and one more. -/
def numberedVariable (n : Nat) : String := "n" ++ toString (n + 1)

/-- Whether the nodes of a path have the variables they are given one after the other. -/
def Path.Numbered (path : Path) : Prop :=
  (∃ label, path.start.name = firstVariable label) ∧
    path.hops.map (·.node.name) = (List.range path.hops.length).map numberedVariable

lemma firstVariable_ne (label : String) (n : Nat) : firstVariable label ≠ numberedVariable n := by
  intro heq
  have hdigits : Nat.toDigits 10 (n + 1) ≠ [] := Nat.toDigits_ne_nil
  have hlist : (firstVariable label).toList = 'n' :: Nat.toDigits 10 (n + 1) := by
    rw [heq, numberedVariable, String.toList_append, Nat.toString_eq_ofList_toDigits,
      String.toList_ofList, String.toList_ofList, List.singleton_append]
  rw [firstVariable] at hlist
  split at hlist
  · exact hdigits (List.cons.inj hlist).2.symm
  · -- one character, or the two that the capital `İ` becomes
    rename_i c _ _
    rw [String.toList_ofList] at hlist
    rcases Text.lowercase_eq_single_or c with ⟨lower, hlower⟩ | hlower
    · rw [hlower] at hlist
      exact hdigits (List.cons.inj hlist).2.symm
    · rw [hlower] at hlist
      exact absurd (List.cons.inj hlist).1 (by decide)

lemma Path.Numbered.nodup_variables {path : Path} (h : path.Numbered) : path.variables.Nodup := by
  obtain ⟨⟨label, hstart⟩, hhops⟩ := h
  rw [Path.variables, hstart, hhops, List.nodup_cons]
  constructor
  · intro hm
    obtain ⟨n, -, heq⟩ := List.mem_map.1 hm
    exact firstVariable_ne label n heq.symm
  · refine List.nodup_range.map fun n m heq => ?_
    exact Nat.succ.inj (toString_injective (String.append_right_inj _ |>.1 heq))

/-- Steps number the nodes that they come to. -/
lemma performAll_numbered {steps : List Step} (hp : draft.part.path.Numbered)
    (h : draft.performAll naming catalog steps = .ok result) : result.part.path.Numbered := by
  induction steps generalizing draft with
  | nil =>
    obtain rfl := Except.ok.inj h
    exact hp
  | cons step steps ih =>
    obtain ⟨next, hnext, hrest⟩ := performAll_cons.1 h
    refine ih ?_ hrest
    cases step with
    | operation operation => rwa [(perform_operation_ok hnext).2.path_eq.1]
    | hop chain =>
      obtain ⟨edge, target, -, -, rfl⟩ := perform_hop_ok hnext
      refine ⟨hp.1, ?_⟩
      simp only [Draft.behind, List.map_append, hp.2, List.map_cons, List.map_nil,
        List.length_append, List.length_cons, List.length_nil, List.range_succ]
      rfl

/-! ### Statements -/

/-- The chains of edges that a query follows, each of which is one hop. -/
def chainsOf (query : Query) : List Following :=
  hopsOf (steps none query.operations)

lemma count_pos_of_mem_chains : ∀ chain ∈ chainsOf query, 0 < chain.count :=
  count_pos_of_mem_steps query.operations (by rintro _ ⟨⟩)

lemma Part.IsOf.lists (h : part.IsOf naming catalog query) :
    ∀ list ∈ query.lists, list.countP Operation.isEdge ≤ 1 := by
  obtain ⟨draft, hdraft, -⟩ := h
  obtain ⟨source, operations⟩ := query
  obtain ⟨type, first, -, -, hrun⟩ := ofQuery_run hdraft
  exact (run_lists operations (by rintro ⟨⟩) hrun).1

/-- Every edge of a query is in the hops of its path once. -/
lemma Part.IsOf.sum_written (h : part.IsOf naming catalog query) :
    (part.path.hops.map Hop.written).sum = query.edgeCount := by
  obtain ⟨draft, hdraft, rfl⟩ := h
  obtain ⟨type, first, -, hfirst, hsteps⟩ := ofQuery_ok hdraft
  have hcounts : draft.part.path.hops.map Hop.count = (chainsOf query).map Following.count := by
    rw [performAll_counts hsteps, (restrict_path hfirst).1]
    rfl
  have hwritten : draft.part.path.hops.map Hop.written = draft.part.path.hops.map Hop.count := by
    refine List.map_congr_left fun hop hhop => ?_
    have hcount : hop.count ∈ (chainsOf query).map Following.count :=
      hcounts ▸ List.mem_map_of_mem hhop
    obtain ⟨chain, hchain, heq⟩ := List.mem_map.1 hcount
    have hpos : 0 < chain.count := count_pos_of_mem_chains chain hchain
    rw [Hop.written]
    split
    · rfl
    · omega
  calc (draft.part.path.hops.map Hop.written).sum
      = followed (chainsOf query) := by rw [hwritten, hcounts, followed]
    _ = query.edgeCount := by
        rw [chainsOf, followed_steps]
        exact Nat.zero_add _

/-- No two nodes of a path have the same variable. -/
lemma Part.IsOf.nodup_variables (h : part.IsOf naming catalog query) :
    part.path.variables.Nodup := by
  obtain ⟨draft, hdraft, rfl⟩ := h
  obtain ⟨type, first, -, hfirst, hsteps⟩ := ofQuery_ok hdraft
  have hstart : first.part.path.Numbered := by
    rw [(restrict_path hfirst).1]
    exact ⟨⟨_, rfl⟩, rfl⟩
  exact (performAll_numbered hstart hsteps).nodup_variables

/-- Every part of a statement matches one path for all edges of its query: no list of operations
follows two edges, the relationships of the path are followed as often as the query follows edges,
and the nodes of the path have different variables. -/
theorem covers_edges (naming : String → String) (catalog : Catalog) (query : Query)
    (statement : Statement) (h : compile catalog query naming = .ok statement) :
    List.Forall₂ (fun query part =>
      (∀ list ∈ query.lists, list.countP Operation.isEdge ≤ 1) ∧
        (part.path.hops.map Hop.written).sum = query.edgeCount ∧
        part.path.variables.Nodup) query.united statement :=
  (isOf_of_compile h).imp fun _ _ hpart =>
    ⟨hpart.lists, hpart.sum_written, hpart.nodup_variables⟩

/-- The reviews that friends of the friends of adults wrote, and the friends of their authors. -/
def circles : Query where
  source := { objectType := "User" }
  operations :=
    [.filter (.comparison "age" .greaterOrEqual (.integer 18)),
     .edge "friends"
       [.edge "friends"
         [.edge "reviews" [.orderBy "rating" .descending],
          .filter (.negation (.isNull "business"))]],
     .union [⟨{ objectType := "Review" }, [.edge "author" [.edge "friends" []]]⟩]]

theorem covers_edges_circles :
    ∃ statement, compile SocialGraph.catalog circles = .ok statement ∧
      List.Forall₂ (fun query part =>
        (∀ list ∈ query.lists, list.countP Operation.isEdge ≤ 1) ∧
          (part.path.hops.map Hop.written).sum = query.edgeCount ∧
          part.path.variables.Nodup) circles.united statement ∧
      circles.edgeCount = 3 ∧
      statement.map (·.path.text) =
        ["(u:User)-[:FRIENDS*2..2]->(n1:User)-[:REVIEWS]->(n2:Review)",
         "(r:Review)-[:AUTHOR]->(n1:User)-[:FRIENDS]->(n2:User)"] :=
  ⟨_, rfl, covers_edges Text.upperSnakeCase SocialGraph.catalog circles _ rfl, rfl,
    by decide +kernel⟩

end Cypher
end ObjectGraph
