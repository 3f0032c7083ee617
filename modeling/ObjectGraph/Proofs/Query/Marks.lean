/-
# Two spellings of the identity

`id` and `:id` both mean the identity of an object.  A query is marked when every reference of its
projections, conditions, keys and renames that means the identity is spelled `:id`; queries that
differ only in how they spell it are the same once they are marked.
-/
import ObjectGraph.Catalog
import ObjectGraph.Query
import Mathlib.Data.List.Basic
import Mathlib.Tactic.Lemma

namespace ObjectGraph

/-- The spellings of the identity. -/
def identityMarks : List String := ["id", idKey]

/-- A reference, spelled `:id` if it means the identity. -/
def markedReference (reference : String) : String :=
  if unqualified reference ∈ identityMarks then idKey else reference

mutual

/-- The predicate with its references to the identity spelled `:id`. -/
def Predicate.marked : Predicate → Predicate
  | all parts => all (markedParts parts)
  | any parts => any (markedParts parts)
  | negation part => negation part.marked
  | comparison field operator value => comparison (markedReference field) operator value
  | oneOf field values => oneOf (markedReference field) values
  | isNull field => isNull (markedReference field)

/-- The parts with every reference marked. -/
def Predicate.markedParts : List Predicate → List Predicate
  | [] => []
  | part :: rest => part.marked :: markedParts rest

end

mutual

/-- The operation with its references to the identity spelled `:id`; the names that it gives are
kept. -/
def Operation.marked : Operation → Operation
  | .project fields => .project (fields.map markedReference)
  | .filter predicate => .filter predicate.marked
  | .rename old new => .rename (markedReference old) new
  | .orderBy key direction => .orderBy (markedReference key) direction
  | .groupBy key => .groupBy (markedReference key)
  | .edge name operations => .edge name (markedSteps operations)
  | .union queries => .union (markedBranches queries)
  | .take n => .take n
  | .skip n => .skip n
  | .count => .count
  | .nest key => .nest key

/-- The operations with every reference marked. -/
def Operation.markedSteps : List Operation → List Operation
  | [] => []
  | step :: rest => step.marked :: markedSteps rest

/-- The queries with every reference marked. -/
def Operation.markedBranches : List Query → List Query
  | [] => []
  | ⟨source, operations⟩ :: rest => ⟨source, markedSteps operations⟩ :: markedBranches rest

end

/-- The query with all its references to the identity spelled `:id`, those of edges and unions
included. -/
def Query.marked (query : Query) : Query :=
  { query with operations := Operation.markedSteps query.operations }

mutual

/-- Whether an operation and all operations inside satisfy a test. -/
def Operation.Throughout (test : Operation → Prop) : Operation → Prop
  | .edge name operations =>
    test (.edge name operations) ∧ stepsThroughout test operations
  | .union queries => test (.union queries) ∧ branchesThroughout test queries
  | step => test step

/-- Whether all operations pass a test, nested ones included. -/
def Operation.stepsThroughout (test : Operation → Prop) : List Operation → Prop
  | [] => True
  | step :: rest => step.Throughout test ∧ stepsThroughout test rest

/-- Whether the operations of all queries pass a test, nested ones included. -/
def Operation.branchesThroughout (test : Operation → Prop) : List Query → Prop
  | [] => True
  | ⟨_, operations⟩ :: rest =>
    stepsThroughout test operations ∧ branchesThroughout test rest

end

/-- Whether all operations of a query, those of edges and unions included, satisfy a test. -/
def Query.Throughout (test : Operation → Prop) (query : Query) : Prop :=
  Operation.stepsThroughout test query.operations

/-! ### References -/

lemma unqualified_idKey : unqualified idKey = idKey := rfl

lemma idKey_ne_id : idKey ≠ "id" := by decide

/-- Marking changes what a reference means by its name only if this is `id`. -/
lemma unqualified_markedReference (reference : String) :
    unqualified (markedReference reference) = unqualified reference ∨
      unqualified reference = "id" ∧ unqualified (markedReference reference) = idKey := by
  unfold markedReference
  split
  · rename_i hmark
    rcases List.mem_pair.1 hmark with hid | hkey
    · exact .inr ⟨hid, unqualified_idKey⟩
    · exact .inl (unqualified_idKey.trans hkey.symm)
  · exact .inl rfl

lemma unqualified_markedReference_mem {reference : String} :
    unqualified (markedReference reference) ∈ identityMarks
      ↔ unqualified reference ∈ identityMarks := by
  rcases unqualified_markedReference reference with hsame | ⟨hid, hkey⟩
  · rw [hsame]
  · rw [hid, hkey]
    decide

/-! ### Tests -/

/-- An operation throughout which a test is satisfied satisfies it. -/
lemma Operation.Throughout.here {test : Operation → Prop} {step : Operation}
    (h : step.Throughout test) : test step := by
  cases step with
  | edge | union => exact h.1
  | project | filter | take | skip | count | nest | rename | orderBy | groupBy => exact h

mutual

/-- Marking keeps every test that does not see it. -/
lemma throughout_marked {test : Operation → Prop}
    (hm : ∀ step : Operation, test step.marked ↔ test step) :
    ∀ step : Operation, step.marked.Throughout test ↔ step.Throughout test
  | .edge name inner => by
    have htest := hm (.edge name inner)
    rw [Operation.marked] at htest ⊢
    rw [Operation.Throughout, Operation.Throughout, htest, stepsThroughout_marked hm inner]
  | .union queries => by
    have htest := hm (.union queries)
    rw [Operation.marked] at htest ⊢
    rw [Operation.Throughout, Operation.Throughout, htest, branchesThroughout_marked hm queries]
  | .project fields => hm (.project fields)
  | .filter predicate => hm (.filter predicate)
  | .take n => hm (.take n)
  | .skip n => hm (.skip n)
  | .count => hm .count
  | .nest key => hm (.nest key)
  | .rename old new => hm (.rename old new)
  | .orderBy key direction => hm (.orderBy key direction)
  | .groupBy key => hm (.groupBy key)

lemma stepsThroughout_marked {test : Operation → Prop}
    (hm : ∀ step : Operation, test step.marked ↔ test step) (steps : List Operation) :
    Operation.stepsThroughout test (Operation.markedSteps steps)
      ↔ Operation.stepsThroughout test steps := by
  cases steps with
  | nil => exact .rfl
  | cons step rest =>
    rw [Operation.markedSteps, Operation.stepsThroughout, Operation.stepsThroughout,
      throughout_marked hm step, stepsThroughout_marked hm rest]

lemma branchesThroughout_marked {test : Operation → Prop}
    (hm : ∀ step : Operation, test step.marked ↔ test step) : ∀ queries : List Query,
    Operation.branchesThroughout test (Operation.markedBranches queries)
      ↔ Operation.branchesThroughout test queries
  | [] => .rfl
  | ⟨source, operations⟩ :: rest => by
    rw [Operation.markedBranches, Operation.branchesThroughout, Operation.branchesThroughout,
      stepsThroughout_marked hm operations, branchesThroughout_marked hm rest]

end

/-- Queries that are the same once they are marked pass the same tests that do not see marks. -/
lemma Query.throughout_congr {test : Operation → Prop}
    (hm : ∀ step : Operation, test step.marked ↔ test step) {query other : Query}
    (h : query.marked = other.marked) : query.Throughout test ↔ other.Throughout test := by
  have hsteps : Operation.markedSteps query.operations = Operation.markedSteps other.operations :=
    congrArg Query.operations h
  rw [Query.Throughout, Query.Throughout, ← stepsThroughout_marked hm, hsteps,
    stepsThroughout_marked hm]

end ObjectGraph
