/-
# Building any query

The operations of a query are a tree, and a builder is called step by step.  An edge takes a call
that opens its scope, the calls for its own operations, and one that closes the scope; whatever
scopes are open before, these calls leave them open and add the edge to the innermost of them.  From
that follows what a builder can build: every query whose unions have one branch each, and no other
one, for a call adds a union with one branch.
-/
import ObjectGraph.Query.Builder
import Mathlib.Tactic.Lemma

namespace ObjectGraph

/-! ### Calls -/

/-- A call that adds an operation to the innermost scope, opens a scope or closes one. -/
inductive BuilderCall
  | project (fields : List String)
  | filter (predicate : Predicate)
  | take (count : UInt32)
  | skip (count : UInt32)
  | count
  | nest (key : String)
  | rename (old new : String)
  | orderBy (key : String) (direction : Direction)
  | groupBy (key : String)
  | union (query : Query)
  | edge (name : String)
  | parent

namespace Builder

/-- The builder after a call. -/
def call (builder : Builder) : BuilderCall → Builder
  | .project fields => builder.project fields
  | .filter predicate => builder.filter predicate
  | .take count => builder.take count
  | .skip count => builder.skip count
  | .count => builder.count
  | .nest key => builder.nest key
  | .rename old new => builder.rename old new
  | .orderBy key direction => builder.orderBy key direction
  | .groupBy key => builder.groupBy key
  | .union query => builder.union query
  | .edge name => builder.edge name
  | .parent => builder.parent

/-- The builder after some calls. -/
def callAll (builder : Builder) (calls : List BuilderCall) : Builder := calls.foldl call builder

/-- Add operations to the innermost scope, all at once. -/
def pushAll (builder : Builder) (operations : List Operation) : Builder :=
  match builder.scopes with
  | [] => { builder with operations := builder.operations ++ operations }
  | scope :: outer =>
    { builder with
      scopes := { scope with operations := scope.operations ++ operations } :: outer }

end Builder

mutual

/-- The calls that add an operation, a union of several queries one branch at a time. -/
def Operation.calls : Operation → List BuilderCall
  | .project fields => [.project fields]
  | .filter predicate => [.filter predicate]
  | .take count => [.take count]
  | .skip count => [.skip count]
  | .count => [.count]
  | .nest key => [.nest key]
  | .rename old new => [.rename old new]
  | .orderBy key direction => [.orderBy key direction]
  | .groupBy key => [.groupBy key]
  | .edge name operations => .edge name :: (pipelineCalls operations ++ [.parent])
  | .union queries => queries.map .union

/-- The calls that add operations, one after the other. -/
def pipelineCalls : List Operation → List BuilderCall
  | [] => []
  | operation :: rest => operation.calls ++ pipelineCalls rest

end

mutual

/-- Whether an operation and those of its edges unite with one query at a time. -/
def Operation.SingleBranch : Operation → Prop
  | .edge _ operations => SingleBranches operations
  | .union queries => queries.length = 1
  | _ => True

/-- Whether the operations unite with one query at a time. -/
def SingleBranches : List Operation → Prop
  | [] => True
  | operation :: rest => operation.SingleBranch ∧ SingleBranches rest

end

namespace Builder

variable {builder : Builder} {operations first second : List Operation} {operation : Operation}
  {calls before behind kept : List BuilderCall}

/-! ### Adding and closing -/

lemma callAll_append :
    builder.callAll (before ++ behind) = (builder.callAll before).callAll behind :=
  List.foldl_append

lemma pushAll_nil : builder.pushAll [] = builder := by
  obtain ⟨source, operations, scopes⟩ := builder
  cases scopes <;> simp [pushAll]

lemma pushAll_pushAll :
    (builder.pushAll first).pushAll second = builder.pushAll (first ++ second) := by
  obtain ⟨source, operations, scopes⟩ := builder
  cases scopes <;> simp [pushAll]

/-- What is added after an edge was opened becomes the operations of the edge. -/
lemma parent_pushAll_edge (builder : Builder) (name : String) (operations : List Operation) :
    ((builder.edge name).pushAll operations).parent = builder.pushAll [.edge name operations] := rfl

/-- Closing a scope early makes no difference for the query. -/
lemma build_parent (builder : Builder) : builder.parent.build = builder.build := by
  obtain ⟨source, operations, scopes⟩ := builder
  match scopes with
  | [] => rfl
  | [scope] => simp [parent, push, build, closeScopes]
  | scope :: next :: outer => simp [parent, push, build, closeScopes]

lemma build_callAll_parents (builder : Builder) (n : Nat) :
    (builder.callAll (List.replicate n .parent)).build = builder.build := by
  induction n generalizing builder with
  | zero => rfl
  | succ n ih =>
    have hnext : builder.callAll (List.replicate (n + 1) .parent)
        = builder.parent.callAll (List.replicate n .parent) := rfl
    rw [hnext, ih, build_parent]

lemma build_pushAll_start (source : Source) (operations : List Operation) :
    ((start source.objectType source.ids).pushAll operations).build = ⟨source, operations⟩ := by
  simp [start, pushAll, build, closeScopes]

/-! ### Calls for operations -/

mutual

/-- The calls for an operation add it, whatever scopes are open. -/
lemma callAll_calls : ∀ {operation : Operation}, operation.SingleBranch → ∀ builder : Builder,
    builder.callAll operation.calls = builder.pushAll [operation]
  | .edge name operations, h, builder => by
    have hinner := callAll_pipelineCalls h (builder.edge name)
    have hedge : builder.callAll (Operation.edge name operations).calls =
        (builder.edge name).callAll (pipelineCalls operations ++ [.parent]) := rfl
    rw [hedge, callAll_append, hinner]
    exact parent_pushAll_edge builder name operations
  | .union queries, h, builder => by
    obtain ⟨query, rfl⟩ := List.length_eq_one_iff.1 h
    rfl
  | .project _, _, _ | .filter _, _, _ | .take _, _, _ | .skip _, _, _ | .count, _, _
  | .nest _, _, _ | .rename _ _, _, _ | .orderBy _ _, _, _ | .groupBy _, _, _ => rfl

lemma callAll_pipelineCalls : ∀ {operations : List Operation}, SingleBranches operations →
    ∀ builder : Builder, builder.callAll (pipelineCalls operations) = builder.pushAll operations
  | [], _, builder => pushAll_nil.symm
  | operation :: rest, h, builder => by
    rw [pipelineCalls, callAll_append, callAll_calls h.1 builder, callAll_pipelineCalls h.2,
      pushAll_pushAll]
    rfl

end

/-- The calls for operations add exactly these operations to the innermost of whatever scopes are
open; so from the source of a query on they build the query, even without the last calls that close
scopes. -/
theorem build_callAll_pipelineCalls (h : SingleBranches operations) :
    (∀ builder : Builder,
      builder.callAll (pipelineCalls operations) = builder.pushAll operations) ∧
    ∀ (source : Source) (kept : List BuilderCall) (n : Nat),
      pipelineCalls operations = kept ++ List.replicate n .parent →
        ((start source.objectType source.ids).callAll kept).build = ⟨source, operations⟩ := by
  refine ⟨callAll_pipelineCalls h, fun source kept n hkept => ?_⟩
  rw [← build_callAll_parents _ n, ← callAll_append, ← hkept, callAll_pipelineCalls h,
    build_pushAll_start]

/-- The first friends of some users, each with all friends of their own. -/
def friendsOfFriends : List Operation :=
  [.union [Query.withIds "User" [7]], .project ["id", "name"],
    .edge "friends" [.take 3, .edge "friends" []]]

theorem build_callAll_pipelineCalls_friends :
    SingleBranches friendsOfFriends ∧
      ((start "Review").edge "author").callAll (pipelineCalls friendsOfFriends) =
        ((start "Review").edge "author").pushAll friendsOfFriends ∧
      pipelineCalls friendsOfFriends =
        [.union (Query.withIds "User" [7]), .project ["id", "name"], .edge "friends", .take 3,
          .edge "friends"] ++ List.replicate 2 .parent ∧
      ((start "User" (some [1])).callAll
        [.union (Query.withIds "User" [7]), .project ["id", "name"], .edge "friends", .take 3,
          .edge "friends"]).build = ⟨⟨"User", some [1]⟩, friendsOfFriends⟩ := by
  have hsingle : SingleBranches friendsOfFriends :=
    ⟨rfl, trivial, ⟨trivial, trivial, trivial⟩, trivial⟩
  obtain ⟨hadd, hbuild⟩ := build_callAll_pipelineCalls hsingle
  exact ⟨hsingle, hadd _, rfl, hbuild ⟨"User", some [1]⟩ _ 2 rfl⟩

/-! ### What a builder can build -/

lemma singleBranches_append :
    SingleBranches (first ++ second) ↔ SingleBranches first ∧ SingleBranches second := by
  induction first with
  | nil => exact (and_iff_right trivial).symm
  | cons operation rest ih =>
    rw [List.cons_append, SingleBranches, SingleBranches, ih, and_assoc]

/-- All operations that a builder holds unite with one query at a time. -/
structure Single (builder : Builder) : Prop where
  operations : SingleBranches builder.operations
  scopes : ∀ scope ∈ builder.scopes, SingleBranches scope.operations

lemma Single.push (h : builder.Single) (ho : operation.SingleBranch) :
    (builder.push operation).Single := by
  have hlast : SingleBranches [operation] := ⟨ho, trivial⟩
  obtain ⟨source, operations, scopes⟩ := builder
  cases scopes with
  | nil => exact ⟨singleBranches_append.2 ⟨h.operations, hlast⟩, h.scopes⟩
  | cons scope outer =>
    obtain ⟨hscope, houter⟩ := List.forall_mem_cons.1 h.scopes
    refine ⟨h.operations, List.forall_mem_cons.2 ⟨?_, houter⟩⟩
    exact singleBranches_append.2 ⟨hscope, hlast⟩

lemma Single.parent (h : builder.Single) : builder.parent.Single := by
  obtain ⟨source, operations, scopes⟩ := builder
  cases scopes with
  | nil => exact h
  | cons scope outer =>
    obtain ⟨hscope, houter⟩ := List.forall_mem_cons.1 h.scopes
    have hclosed : Single ⟨source, operations, outer⟩ := ⟨h.operations, houter⟩
    exact hclosed.push hscope

lemma Single.call (h : builder.Single) (call : BuilderCall) : (builder.call call).Single := by
  cases call with
  | edge name => exact ⟨h.operations, List.forall_mem_cons.2 ⟨trivial, h.scopes⟩⟩
  | parent => exact h.parent
  | union query => exact h.push rfl
  | project | filter | take | skip | count | nest | rename | orderBy | groupBy =>
    exact h.push trivial

lemma Single.callAll (h : builder.Single) (calls : List BuilderCall) :
    (builder.callAll calls).Single := by
  induction calls generalizing builder with
  | nil => exact h
  | cons call rest ih => exact ih (h.call call)

lemma singleBranches_closeScopes {last : List Operation} {scopes : List Scope}
    (ho : SingleBranches operations) (hl : SingleBranches last)
    (hs : ∀ scope ∈ scopes, SingleBranches scope.operations) :
    SingleBranches (closeScopes operations last scopes) := by
  induction scopes generalizing last with
  | nil => exact singleBranches_append.2 ⟨ho, hl⟩
  | cons scope outer ih =>
    obtain ⟨hscope, houter⟩ := List.forall_mem_cons.1 hs
    exact ih ⟨singleBranches_append.2 ⟨hscope, hl⟩, trivial⟩ houter

/-- A query can be built exactly if its unions, those in its edges included, have one branch. -/
theorem exists_calls_iff {query : Query} :
    (∃ objectType ids calls, ((start objectType ids).callAll calls).build = query) ↔
      SingleBranches query.operations := by
  constructor
  · rintro ⟨objectType, ids, calls, rfl⟩
    have hstart : (start objectType ids).Single := ⟨trivial, nofun⟩
    have hbuilt := hstart.callAll calls
    exact singleBranches_closeScopes hbuilt.operations trivial hbuilt.scopes
  · intro h
    obtain ⟨source, operations⟩ := query
    refine ⟨source.objectType, source.ids, pipelineCalls operations, ?_⟩
    rw [callAll_pipelineCalls h, build_pushAll_start]

end Builder
end ObjectGraph
