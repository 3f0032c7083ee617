/-
# Statements step by step

Operations nest where edges are followed, but what they do to the draft of a statement is done one
after the other: operations on the node reached last, and hops.  An edge that is nested in itself
is one hop with a count, made when anything else comes; what stands behind the nested edges is done
to the node that the hop leads to.  So operations have a list of steps, which any accepted run of
them performs in turn, and a property of drafts holds in the end if it holds at first and no step
loses it.  The queries of unions have drafts of their own, one for each part of the statement.
-/
import ObjectGraph.Proofs.Cypher.Operations

namespace ObjectGraph

/-- Whether an operation follows an edge. -/
def Operation.isEdge : Operation → Bool
  | edge _ _ => true
  | _ => false

/-- Induction over operations: an edge has operations of its own, everything else stands alone. -/
lemma operations_induction {motive : List Operation → Prop} (nil : motive [])
    (operation : ∀ operation rest, operation.isEdge = false → motive rest →
      motive (operation :: rest))
    (edge : ∀ name inner rest, motive inner → motive rest → motive (.edge name inner :: rest)) :
    ∀ operations, motive operations
  | [] => nil
  | step :: rest => by
    have hrest := operations_induction nil operation edge rest
    match step with
    | .edge name inner =>
      exact edge name inner rest (operations_induction nil operation edge inner) hrest
    | .project _ | .filter _ | .take _ | .skip _ | .count | .nest _ | .rename _ _
    | .orderBy _ _ | .groupBy _ | .union _ => exact operation _ rest rfl hrest

mutual

/-- The queries whose results an operation appends, in the order of the results. -/
def Operation.united : Operation → List Query
  | .union queries => queriesUnited queries
  | .edge _ inner => stepsUnited inner
  | _ => []

/-- The queries that the operations unite with, nested ones included. -/
def stepsUnited : List Operation → List Query
  | [] => []
  | step :: rest => step.united ++ stepsUnited rest

/-- The queries themselves and those that their operations unite with. -/
def queriesUnited : List Query → List Query
  | [] => []
  | ⟨source, operations⟩ :: rest =>
    ⟨source, operations⟩ :: stepsUnited operations ++ queriesUnited rest

end

/-- A query and those whose results it appends, in the order of the results. -/
def Query.united (query : Query) : List Query :=
  query :: stepsUnited query.operations

namespace Cypher

open Draft (Following)

/-! ### Steps -/

/-- What is done to the draft of a statement at once. -/
inductive Step
  /-- Apply an operation to the node reached last. -/
  | operation (operation : Operation)
  /-- Follow an edge as often as it is nested in itself. -/
  | hop (following : Following)

/-- The hop along the edge that is being followed, if there is one. -/
def arrival (following : Option Following) : List Step :=
  following.toList.map .hop

mutual

/-- The steps of an operation that comes while an edge is being followed, perhaps. -/
def stepsOf (following : Option Following) : Operation → List Step
  | .edge name inner =>
    match following with
    | some edge =>
      if edge.edge = name then steps (some { edge with count := edge.count + 1 }) inner
      else .hop edge :: steps (some ⟨name, 1⟩) inner
    | none => steps (some ⟨name, 1⟩) inner
  | operation => arrival following ++ [.operation operation]

/-- The steps of operations; only the first of them comes while an edge is being followed. -/
def steps (following : Option Following) : List Operation → List Step
  | [] => arrival following
  | operation :: rest => stepsOf following operation ++ steps none rest

end

namespace Draft

/-- Do a step. -/
def perform (naming : String → String) (catalog : Catalog) (draft : Draft) :
    Step → Except CompileError Draft
  | .operation (.union queries) => do
    draft.requireSingle
    return { draft with others := ← branches naming catalog queries }
  | .operation operation => do
    draft.requireSingle
    draft.apply catalog operation
  | .hop following => do
    draft.requireSingle
    draft.requireOpen "edges after limits"
    draft.endEdge naming catalog following

/-- Do steps, one after the other. -/
def performAll (naming : String → String) (catalog : Catalog) (draft : Draft)
    (steps : List Step) : Except CompileError Draft :=
  steps.foldlM (perform naming catalog) draft

end Draft

variable {naming : String → String} {catalog : Catalog} {draft result : Draft}
  {following : Option Following} {traversed : Bool} {operation : Operation}
  {rest inner : List Operation} {name : String}

lemma performAll_cons {step : Step} {others : List Step} :
    draft.performAll naming catalog (step :: others) = .ok result ↔
      ∃ next, draft.perform naming catalog step = .ok next ∧
        next.performAll naming catalog others = .ok result := by
  rw [Draft.performAll, List.foldlM_cons, Compile.bind_eq_ok]
  rfl

lemma performAll_append {first second : List Step} :
    draft.performAll naming catalog (first ++ second) = .ok result ↔
      ∃ next, draft.performAll naming catalog first = .ok next ∧
        next.performAll naming catalog second = .ok result := by
  rw [Draft.performAll, List.foldlM_append, Compile.bind_eq_ok]
  rfl

/-! ### What a step does -/

namespace Draft

/-- The hop along an edge to the next node. -/
def hopAlong (naming : String → String) (draft : Draft) (following : Following) (edge : Edge)
    (target : ObjectType) : Hop where
  relationship := edge.relationshipType following.edge naming
  count := following.count
  node := ⟨"n" ++ toString (draft.part.path.hops.length + 1), target.labelOf edge.target⟩

/-- The draft behind a hop to a node of a type. -/
def behind (draft : Draft) (hop : Hop) (typeName : String) : Draft :=
  { draft with
    part :=
      { draft.part with
        path := { draft.part.path with hops := draft.part.path.hops ++ [hop] }
        returns := none }
    typeName }

end Draft

lemma requireSingle_ok (h : draft.requireSingle = .ok ()) : draft.others = [] := by
  rw [Draft.requireSingle] at h
  split at h
  · rename_i hempty
    exact List.isEmpty_iff.1 hempty
  · cases h

lemma perform_operation_ok (h : draft.perform naming catalog (.operation operation) = .ok result) :
    draft.others = [] ∧ draft.Applied naming catalog operation result := by
  cases operation with
  | union queries =>
    obtain ⟨_, hsingle, h⟩ := Compile.bind_eq_ok.1 h
    obtain ⟨others, hothers, h⟩ := Compile.bind_eq_ok.1 h
    obtain rfl := Compile.pure_eq_ok.1 h
    exact ⟨requireSingle_ok hsingle, .union hothers⟩
  | project | filter | take | skip | count | nest | rename | orderBy | groupBy | edge =>
    rw [Draft.perform] at h
    · obtain ⟨_, hsingle, h⟩ := Compile.bind_eq_ok.1 h
      exact ⟨requireSingle_ok hsingle, applied_of_apply (by rintro _ ⟨⟩) h⟩
    · rintro _ ⟨⟩

lemma perform_hop_ok {edge : Following}
    (h : draft.perform naming catalog (.hop edge) = .ok result) :
    ∃ found target, catalog.edge? draft.typeName edge.edge = some found ∧
      catalog.type? found.target = some target ∧
      result = draft.behind (draft.hopAlong naming edge found target) found.target := by
  obtain ⟨_, -, h⟩ := Compile.bind_eq_ok.1 h
  obtain ⟨_, -, h⟩ := Compile.bind_eq_ok.1 h
  obtain ⟨⟨found, target⟩, hfound, h⟩ := Compile.bind_eq_ok.1 h
  obtain rfl := Compile.pure_eq_ok.1 h
  obtain ⟨hedge, htarget⟩ := Compile.requireEdge_ok hfound
  exact ⟨found, target, hedge, htarget, rfl⟩

/-! ### What a run does first -/

/-- Whether an edge can be followed from the node reached last, if one is being followed. -/
def Draft.Departs (draft : Draft) (following : Option Following) : Prop :=
  following.isSome = true →
    draft.requireSingle = .ok () ∧ draft.requireOpen "edges after limits" = .ok ()

lemma endEdge_others {edge : Following} (h : draft.endEdge naming catalog edge = .ok result) :
    result.others = draft.others := by
  obtain ⟨⟨found, target⟩, -, h⟩ := Compile.bind_eq_ok.1 h
  obtain rfl := Compile.pure_eq_ok.1 h
  rfl

lemma arrive_others (h : draft.arrive naming catalog following = .ok result) :
    result.others = draft.others := by
  cases following with
  | none =>
    obtain rfl := Except.ok.inj h
    rfl
  | some edge => exact endEdge_others h

lemma arrive_performs (hd : draft.Departs following)
    (h : draft.arrive naming catalog following = .ok result) :
    draft.performAll naming catalog (arrival following) = .ok result := by
  cases following with
  | none => exact h
  | some edge =>
    obtain ⟨hsingle, hopen⟩ := hd rfl
    refine performAll_cons.2 ⟨result, ?_, rfl⟩
    rw [Draft.perform, hsingle, hopen]
    exact h

/-- An operation that follows no edge is applied to the node that is reached. -/
lemma run_operation_ok (he : operation.isEdge = false)
    (hr : draft.run naming catalog following traversed (operation :: rest) = .ok result) :
    ∃ arrived next, draft.arrive naming catalog following = .ok arrived ∧
      arrived.perform naming catalog (.operation operation) = .ok next ∧
      next.run naming catalog none traversed rest = .ok result := by
  cases operation with
  | edge => cases he
  | union queries =>
    rw [Draft.run] at hr
    obtain ⟨arrived, harrive, hr⟩ := Compile.bind_eq_ok.1 hr
    obtain ⟨_, hsingle, hr⟩ := Compile.bind_eq_ok.1 hr
    obtain ⟨others, hothers, hr⟩ := Compile.bind_eq_ok.1 hr
    refine ⟨arrived, _, harrive, ?_, hr⟩
    rw [Draft.perform, hsingle, hothers]
    rfl
  | project | filter | take | skip | count | nest | rename | orderBy | groupBy =>
    rw [Draft.run] at hr
    · obtain ⟨arrived, harrive, hr⟩ := Compile.bind_eq_ok.1 hr
      obtain ⟨_, hsingle, hr⟩ := Compile.bind_eq_ok.1 hr
      obtain ⟨next, hnext, hr⟩ := Compile.bind_eq_ok.1 hr
      refine ⟨arrived, next, harrive, ?_, hr⟩
      rw [Draft.perform, hsingle]
      · exact hnext
      · rintro _ ⟨⟩
    · rintro _ _ ⟨⟩
    · rintro _ ⟨⟩

/-- While no edge is being followed, an operation that follows none is performed first. -/
lemma run_operation (he : operation.isEdge = false) :
    draft.run naming catalog none traversed (operation :: rest) = (do
      let next ← draft.perform naming catalog (.operation operation)
      next.run naming catalog none traversed rest) := by
  cases operation with
  | edge => cases he
  | union queries =>
    rw [Draft.run, Draft.perform]
    simp only [Draft.arrive, bind_assoc, pure_bind]
    rfl
  | project | filter | take | skip | count | nest | rename | orderBy | groupBy =>
    rw [Draft.run, Draft.perform]
    · simp only [Draft.arrive, bind_assoc]
      rfl
    · rintro _ ⟨⟩
    · rintro _ _ ⟨⟩
    · rintro _ ⟨⟩

/-- Operations that follow no edge are performed before those behind them. -/
lemma run_append {before : List Operation} (hb : ∀ step ∈ before, step.isEdge = false) :
    draft.run naming catalog none traversed (before ++ rest) = (do
      let next ← draft.run naming catalog none traversed before
      next.run naming catalog none traversed rest) := by
  induction before generalizing draft with
  | nil =>
    rw [Draft.run]
    rfl
  | cons step before ih =>
    obtain ⟨hstep, hbefore⟩ := List.forall_mem_cons.1 hb
    rw [List.cons_append, run_operation hstep, run_operation hstep, bind_assoc]
    exact congrArg _ (funext fun next => ih hbefore)

/-- An edge that is being followed is followed once more, and no other edge stands behind it. -/
lemma run_again_ok {edge : Following} (he : edge.edge = name)
    (hr : draft.run naming catalog (some edge) traversed (.edge name inner :: rest) = .ok result) :
    rest.countP Operation.isEdge = 0 ∧ ∃ next,
      draft.run naming catalog (some { edge with count := edge.count + 1 }) false inner = .ok next ∧
        next.run naming catalog none false rest = .ok result := by
  rw [Draft.run, if_pos he] at hr
  obtain ⟨again, hagain, hr⟩ := Compile.bind_eq_ok.1 hr
  obtain ⟨next, hinner, hrest⟩ := Compile.bind_eq_ok.1 hr
  rw [Draft.followAgain] at hagain
  split at hagain
  · cases hagain
  · rename_i hbeside
    obtain rfl := Except.ok.inj hagain
    refine ⟨List.countP_eq_zero.2 fun step hm hedge => hbeside ?_, next, hinner, hrest⟩
    refine List.any_eq_true.2 ⟨step, hm, ?_⟩
    cases step <;> first | rfl | cases hedge

/-- Any other edge departs from the node that is reached. -/
lemma run_anew_ok (hn : ∀ edge ∈ following, edge.edge ≠ name) (hd : draft.Departs following)
    (hr : draft.run naming catalog following traversed (.edge name inner :: rest) = .ok result) :
    (following = none → traversed = false) ∧ ∃ arrived next,
      draft.arrive naming catalog following = .ok arrived ∧ arrived.Departs (some ⟨name, 1⟩) ∧
        arrived.run naming catalog (some ⟨name, 1⟩) false inner = .ok next ∧
          next.run naming catalog none true rest = .ok result := by
  have hbegin {draft : Draft} {traversed : Bool} {begun : Following}
      (h : draft.beginEdge catalog traversed name = .ok begun) :
      traversed = false ∧ draft.requireOpen "edges after limits" = .ok () ∧ begun = ⟨name, 1⟩ := by
    cases traversed with
    | true => cases h
    | false =>
      obtain ⟨_, hopen, h⟩ := Compile.bind_eq_ok.1 h
      obtain ⟨_, -, h⟩ := Compile.bind_eq_ok.1 h
      exact ⟨rfl, hopen, (Compile.pure_eq_ok.1 h).symm⟩
  cases following with
  | none =>
    rw [Draft.run] at hr
    obtain ⟨_, hsingle, hr⟩ := Compile.bind_eq_ok.1 hr
    obtain ⟨_, hbegun, hr⟩ := Compile.bind_eq_ok.1 hr
    obtain ⟨next, hinner, hrest⟩ := Compile.bind_eq_ok.1 hr
    obtain ⟨htraversed, hopen, rfl⟩ := hbegin hbegun
    exact ⟨fun _ => htraversed, draft, next, rfl, fun _ => ⟨hsingle, hopen⟩, hinner, hrest⟩
  | some edge =>
    rw [Draft.run, if_neg (hn edge rfl)] at hr
    obtain ⟨arrived, harrive, hr⟩ := Compile.bind_eq_ok.1 hr
    obtain ⟨_, hbegun, hr⟩ := Compile.bind_eq_ok.1 hr
    obtain ⟨next, hinner, hrest⟩ := Compile.bind_eq_ok.1 hr
    obtain ⟨-, hopen, rfl⟩ := hbegin hbegun
    refine ⟨by rintro ⟨⟩, arrived, next, harrive, fun _ => ⟨?_, hopen⟩, hinner, hrest⟩
    rw [Draft.requireSingle, endEdge_others harrive]
    exact (hd rfl).1

/-! ### Runs -/

/-- An edge is the one that is being followed, or another one. -/
lemma again_or_anew (following : Option Following) (name : String) :
    (∃ edge, following = some edge ∧ edge.edge = name) ∨
      ∀ edge ∈ following, edge.edge ≠ name := by
  by_cases hn : ∀ edge ∈ following, edge.edge ≠ name
  · exact .inr hn
  · push Not at hn
    exact .inl hn

lemma stepsOf_operation (he : operation.isEdge = false) :
    stepsOf following operation = arrival following ++ [.operation operation] := by
  cases operation with
  | edge => cases he
  | project | filter | take | skip | count | nest | rename | orderBy | groupBy | union => rfl

lemma stepsOf_again {edge : Following} (he : edge.edge = name) :
    stepsOf (some edge) (.edge name inner)
      = steps (some { edge with count := edge.count + 1 }) inner := by
  rw [stepsOf, if_pos he]

lemma stepsOf_anew (hn : ∀ edge ∈ following, edge.edge ≠ name) :
    stepsOf following (.edge name inner) = arrival following ++ steps (some ⟨name, 1⟩) inner := by
  cases following with
  | none => rfl
  | some edge =>
    rw [stepsOf, if_neg (hn edge rfl)]
    rfl

/-- An accepted run performs the steps of its operations in turn. -/
lemma run_performs (operations : List Operation) {following : Option Following}
    {traversed : Bool} {draft result : Draft} (hd : draft.Departs following)
    (hr : draft.run naming catalog following traversed operations = .ok result) :
    draft.performAll naming catalog (steps following operations) = .ok result := by
  induction operations using operations_induction generalizing following traversed draft result with
  | nil =>
    rw [Draft.run] at hr
    exact arrive_performs hd hr
  | operation operation rest he ih =>
    rw [steps, performAll_append]
    obtain ⟨arrived, next, harrive, hnext, hrest⟩ := run_operation_ok he hr
    refine ⟨next, ?_, ih (by rintro ⟨⟩) hrest⟩
    rw [stepsOf_operation he, performAll_append]
    exact ⟨arrived, arrive_performs hd harrive, performAll_cons.2 ⟨next, hnext, rfl⟩⟩
  | edge name inner rest ihInner ih =>
    rw [steps, performAll_append]
    rcases again_or_anew following name with ⟨edge, rfl, he⟩ | hn
    · -- the hop is not made yet, only its count is higher
      obtain ⟨-, next, hinner, hrest⟩ := run_again_ok he hr
      refine ⟨next, ?_, ih (by rintro ⟨⟩) hrest⟩
      rw [stepsOf_again he]
      exact ihInner hd hinner
    · -- a hop that is due is made before the other edge is followed
      obtain ⟨-, arrived, next, harrive, hdeparts, hinner, hrest⟩ := run_anew_ok hn hd hr
      refine ⟨next, ?_, ih (by rintro ⟨⟩) hrest⟩
      rw [stepsOf_anew hn, performAll_append]
      exact ⟨arrived, arrive_performs hd harrive, ihInner hdeparts hinner⟩

/-! ### Queries -/

/-- Identities are one more condition on all objects of a type. -/
lemma restrict_ok {ids : Option (List Int64)} (h : draft.restrict catalog ids = .ok result) :
    result = draft ∨ ∃ property values, draft.resolve catalog idKey = .ok property ∧
      result = { draft with part :=
        { draft.part with conditions := draft.part.conditions ++ [.oneOf property values] } } := by
  cases ids with
  | none => exact .inl (Compile.pure_eq_ok.1 h).symm
  | some ids =>
    obtain ⟨property, hproperty, h⟩ := Compile.bind_eq_ok.1 h
    exact .inr ⟨property, _, hproperty, (Compile.pure_eq_ok.1 h).symm⟩

lemma ofQuery_run {source : Source} {operations : List Operation}
    (h : Draft.ofQuery naming catalog ⟨source, operations⟩ = .ok draft) :
    ∃ type first, catalog.type? source.objectType = some type ∧
      (Draft.start source.objectType type).restrict catalog source.ids = .ok first ∧
      first.run naming catalog none false operations = .ok draft := by
  rw [Draft.ofQuery] at h
  obtain ⟨first, hfirst, hrun⟩ := Compile.bind_eq_ok.1 h
  obtain ⟨type, htype, hfirst⟩ := Compile.bind_eq_ok.1 hfirst
  exact ⟨type, first, Compile.requireType_ok.1 htype, hfirst, hrun⟩

lemma ofSource_eq_ok {source : Source} {type : ObjectType}
    (ht : catalog.type? source.objectType = some type)
    (hr : (Draft.start source.objectType type).restrict catalog source.ids = .ok draft) :
    Draft.ofSource catalog source = .ok draft :=
  Compile.bind_eq_ok.2 ⟨type, Compile.requireType_ok.2 ht, hr⟩

/-- The draft of a query is made from all objects of its source by the steps of its operations. -/
lemma ofQuery_ok {query : Query} (h : Draft.ofQuery naming catalog query = .ok draft) :
    ∃ type first, catalog.type? query.source.objectType = some type ∧
      (Draft.start query.source.objectType type).restrict catalog query.source.ids = .ok first ∧
      first.performAll naming catalog (steps none query.operations) = .ok draft := by
  obtain ⟨source, operations⟩ := query
  obtain ⟨type, first, htype, hfirst, hrun⟩ := ofQuery_run h
  exact ⟨type, first, htype, hfirst, run_performs operations (by rintro ⟨⟩) hrun⟩

/-- Whether a part is made of a query alone. -/
def Part.IsOf (naming : String → String) (catalog : Catalog) (query : Query) (part : Part) : Prop :=
  ∃ draft, Draft.ofQuery naming catalog query = .ok draft ∧ draft.part = part

mutual

/-- A run appends one part for each query that its operations append. -/
lemma run_united : ∀ (operations : List Operation) {following : Option Following}
    {traversed : Bool} {draft result : Draft}, draft.Departs following →
    draft.run naming catalog following traversed operations = .ok result →
    ∃ parts, result.others = draft.others ++ parts ∧
      List.Forall₂ (Part.IsOf naming catalog) (stepsUnited operations) parts
  | [], following, traversed, draft, result, hd, hr => by
    rw [Draft.run] at hr
    exact ⟨[], by rw [arrive_others hr, List.append_nil], .nil⟩
  | operation :: rest, following, traversed, draft, result, hd, hr => by
    -- What an operation appends is counted apart from what the rest of the run appends.
    suffices h : ∃ (next : Draft) (again : Bool) (parts : List Part),
        next.others = draft.others ++ parts ∧
        List.Forall₂ (Part.IsOf naming catalog) operation.united parts ∧
        next.run naming catalog none again rest = .ok result by
      obtain ⟨next, again, first, hfirst, hparts, hrest⟩ := h
      obtain ⟨second, hsecond, hothers⟩ := run_united rest (by rintro ⟨⟩) hrest
      refine ⟨first ++ second, ?_, List.rel_append hparts hothers⟩
      rw [hsecond, hfirst, List.append_assoc]
    match operation with
    | .edge name inner =>
      rcases again_or_anew following name with ⟨edge, rfl, he⟩ | hn
      · obtain ⟨-, next, hinner, hrest⟩ := run_again_ok he hr
        obtain ⟨parts, hnext, hparts⟩ := run_united inner (fun _ => hd rfl) hinner
        exact ⟨next, false, parts, hnext, hparts, hrest⟩
      · obtain ⟨-, arrived, next, harrive, hdeparts, hinner, hrest⟩ := run_anew_ok hn hd hr
        obtain ⟨parts, hnext, hparts⟩ := run_united inner hdeparts hinner
        exact ⟨next, true, parts, by rw [hnext, arrive_others harrive], hparts, hrest⟩
    | .union queries =>
      obtain ⟨arrived, next, harrive, hnext, hrest⟩ := run_operation_ok rfl hr
      obtain ⟨hsingle, happlied⟩ := perform_operation_ok hnext
      cases happlied with
      | @union _ others hothers =>
        refine ⟨_, traversed, others, ?_, branches_united queries hothers, hrest⟩
        rw [← arrive_others harrive, hsingle]
        rfl
    | .project _ | .filter _ | .take _ | .skip _ | .count | .nest _ | .groupBy _ | .rename _ _
    | .orderBy _ _ =>
      obtain ⟨arrived, next, harrive, hnext, hrest⟩ := run_operation_ok rfl hr
      obtain ⟨-, happlied⟩ := perform_operation_ok hnext
      refine ⟨next, traversed, [], ?_, .nil, hrest⟩
      rw [← arrive_others harrive, List.append_nil]
      cases happlied
      rfl

lemma branches_united : ∀ (queries : List Query) {parts : List Part},
    Draft.branches naming catalog queries = .ok parts →
    List.Forall₂ (Part.IsOf naming catalog) (queriesUnited queries) parts
  | [], parts, h => by
    rw [Draft.branches] at h
    obtain rfl := Compile.pure_eq_ok.1 h
    exact .nil
  | ⟨source, operations⟩ :: rest, parts, h => by
    rw [Draft.branches] at h
    obtain ⟨draft, hdraft, h⟩ := Compile.bind_eq_ok.1 h
    obtain ⟨others, hothers, h⟩ := Compile.bind_eq_ok.1 h
    obtain rfl := Compile.pure_eq_ok.1 h
    refine List.rel_append ?_ (branches_united rest hothers)
    obtain ⟨type, first, -, hfirst, hrun⟩ := ofQuery_run hdraft
    obtain ⟨united, hunited, hparts⟩ := run_united operations (by rintro ⟨⟩) hrun
    have hsingle : first.others = [] := by
      rcases restrict_ok hfirst with rfl | ⟨_, _, -, rfl⟩ <;> rfl
    refine .cons ⟨draft, hdraft, rfl⟩ ?_
    -- the draft starts without other parts, so they are those of its own unions
    rw [hunited, hsingle]
    exact hparts

end

/-- Every part of a statement is made of one of the queries whose results are united. -/
lemma isOf_of_compile {query : Query} {statement : Statement}
    (h : compile catalog query naming = .ok statement) :
    List.Forall₂ (Part.IsOf naming catalog) query.united statement := by
  obtain ⟨source, operations⟩ := query
  obtain ⟨draft, hdraft, rfl⟩ := Compile.map_eq_ok.1 h
  have hbranches : Draft.branches naming catalog [⟨source, operations⟩]
      = .ok (draft.statement ++ []) := by
    rw [Draft.branches, hdraft]
    rfl
  have hunited := branches_united [⟨source, operations⟩] hbranches
  rwa [List.append_nil, queriesUnited, queriesUnited, List.append_nil] at hunited

end Cypher
end ObjectGraph
