/-
# Malloy pipelines and the spelling of the identity

A stage looks for `id` where it looks for `:id`, and then for nothing else.  So a query and the same
query with every reference to the identity spelled `:id` are refused together, and otherwise they
are the same pipeline.
-/
import ObjectGraph.Malloy.Compile
import ObjectGraph.Proofs.Compile.Mirrors
import ObjectGraph.Proofs.Query.Marks

namespace ObjectGraph.Malloy

open Compile (Mirrors TextCondition mirrors_error mirrors_ok mirrors_same)

namespace Draft

variable (draft : Draft)

lemma resolve_marked (reference : String) :
    Mirrors id (draft.resolve reference) (draft.resolve (markedReference reference)) := by
  rcases unqualified_markedReference reference with hsame | ⟨hid, hkey⟩
  · simp only [resolve, hsame]
    exact mirrors_same _
  · simp only [resolve, hid, hkey, if_true, if_neg idKey_ne_id]
    split
    · exact mirrors_ok _
    · split
      · exact mirrors_ok _
      · exact mirrors_error _ _

lemma resolveAll_marked (references : List String) :
    Mirrors id (draft.resolveAll references)
      (draft.resolveAll (references.map markedReference)) := by
  induction references with
  | nil => exact mirrors_ok _
  | cons reference rest ih =>
    refine (draft.resolve_marked reference).bind fun name => ?_
    exact ih.bind fun names => mirrors_ok (name :: names)

mutual

lemma condition_marked : ∀ predicate : Predicate,
    Mirrors id (draft.condition predicate) (draft.condition predicate.marked)
  | .all parts => (conditions_marked parts).bind fun cs => mirrors_ok (TextCondition.all cs)
  | .any parts => (conditions_marked parts).bind fun cs => mirrors_ok (TextCondition.any cs)
  | .negation part => (condition_marked part).bind fun c => mirrors_ok (TextCondition.negation c)
  | .comparison field _ _ => (draft.resolve_marked field).bind fun _ => mirrors_same _
  | .oneOf _ [] => mirrors_same _
  | .oneOf field (value :: rest) =>
    (draft.resolve_marked field).bind fun name =>
      mirrors_ok (TextCondition.oneOf name (value :: rest))
  | .isNull field =>
    (draft.resolve_marked field).bind fun name => mirrors_ok (TextCondition.isNull name)

lemma conditions_marked : ∀ parts : List Predicate,
    Mirrors id (draft.conditions parts) (draft.conditions (Predicate.markedParts parts))
  | [] => mirrors_ok _
  | part :: rest => (condition_marked part).bind fun c =>
    (conditions_marked rest).bind fun cs => mirrors_ok (c :: cs)

end

lemma apply_marked (step : Operation) :
    Mirrors id (draft.apply step) (draft.apply step.marked) := by
  cases step with
  | project references =>
    refine (resolveAll_marked _ references).bind fun fields => ?_
    exact mirrors_ok _
  | filter predicate => exact (condition_marked _ predicate).bind fun c => mirrors_ok _
  | orderBy key direction => exact (resolve_marked _ key).bind fun field => mirrors_ok _
  | rename old new => exact (resolve_marked _ old).bind fun name => mirrors_ok _
  | take n => exact mirrors_same _
  | count => exact mirrors_same _
  | skip | nest | groupBy | edge | union => exact mirrors_error _ _

lemma applyAll_marked (steps : List Operation) :
    Mirrors id (draft.applyAll steps) (draft.applyAll (Operation.markedSteps steps)) := by
  induction steps generalizing draft with
  | nil => exact mirrors_ok draft
  | cons step rest ih => exact (draft.apply_marked step).bind ih

end Draft

/-- A query and its marked form are refused together, or are the same pipeline. -/
lemma compile_marked (catalog : Catalog) (query : Query) (connection : String) :
    (compile catalog query.marked connection).toOption
      = (compile catalog query connection).toOption := by
  have hmirrors : Mirrors id (compile catalog query connection)
      (compile catalog query.marked connection) := by
    refine (mirrors_same (catalog.requireType query.source.objectType)).bind fun type => ?_
    refine (mirrors_same ((Draft.start query.source.objectType type).restrict
      query.source.ids)).bind fun first => ?_
    exact (first.applyAll_marked query.operations).bind fun draft => mirrors_ok _
  exact hmirrors.trans (congrFun Option.map_id _)

end ObjectGraph.Malloy
