/-
# Statements of queries on one kind of node

A statement without hops has the rows of its query: matching a path of one node finds the nodes of
the label, identities are one more condition on them, and every operation that is not refused does
to the part what it does to the listing that the part shows.
-/
import ObjectGraph.Proofs.Cypher.Operations
import ObjectGraph.Samples.SocialGraph

namespace ObjectGraph

/-- Whether an operation refers to columns alone; of operations that follow edges, collect rows or
give names there is none.  The name of a column that rows are sorted by has no dot in it. -/
def Operation.NamesColumns (header : Header) : Operation → Prop
  | .project fields => ∀ field ∈ fields, header.Has field
  | .filter predicate => predicate.Within header
  | .orderBy key _ => header.Has key ∧ '.' ∉ (unqualified key).toList
  | .take _ | .skip _ | .count => True
  | .nest _ | .rename _ _ | .groupBy _ | .edge _ _ | .union _ => False

/-- Whether every operation refers to the columns that the operations before it leave. -/
def stepsNameColumns : Header → List Operation → Prop
  | _, [] => True
  | header, step :: rest => step.NamesColumns header ∧ stepsNameColumns (header.after step) rest

namespace Cypher

open Compile (TextCondition)

variable {δ : Type} {D : Domain δ} {graph : Graph δ} {db : Database δ}
  {naming : String → String} {catalog : Catalog} {name : String} {type : ObjectType}
  {draft result next : Draft} {listing : Listing δ} {header : Header}
  {step : Operation} {steps : List Operation} {sum : Nat}

/-! ### Runs of skips -/

/-- As long as there is no limit, a part skips what the run of skips that is going on skips. -/
def Draft.Skips (draft : Draft) (sum : Nat) : Prop :=
  draft.part.limit = none → (draft.part.skip.getD 0).toNat = sum

/-- Columns are named by operations only that follow no edge and unite nothing, so that it does
not matter how relationships are named. -/
lemma applied_of_namesColumns (naming : String → String) (hc : step.NamesColumns header)
    (hr : draft.apply catalog step = .ok next) : draft.Applied naming catalog step next :=
  applied_of_apply (by rintro queries rfl; cases hc) hr

lemma apply_skips (hs : draft.Skips sum) (hc : step.NamesColumns header)
    (hn : step.skipped Operation.isProjection sum < UInt32.size)
    (hr : draft.apply catalog step = .ok next) :
    next.Skips (step.skipped Operation.isProjection sum) := by
  cases applied_of_namesColumns id hc hr with
  | project => exact hs
  | filter hopen | count hopen =>
    intro _
    simp only [Draft.aggregate, (requireOpen_ok hopen).2.1]
    rfl
  | take => rintro ⟨⟩
  | skip _ hl =>
    intro _
    have hsum := hs hl
    simp only [Operation.skipped] at hn ⊢
    rw [← hsum] at hn ⊢
    exact Compile.toNat_saturatingAdd hn
  | orderBy hopen =>
    have hlimits : draft.part.limit = none ∧ draft.part.skip = none := by
      simpa [Draft.isLimited] using hopen
    intro _
    simp only [hlimits.2]
    rfl
  | nest | rename | groupBy | edge | union => cases hc

/-! ### Steps -/

/-- One operation on a draft is one operation on the listing it shows. -/
lemma apply_shows (h : Shows D graph name type draft listing)
    (ht : catalog.type? name = some type) (hi : type.PlainIdentity)
    (hc : step.NamesColumns listing.header) (hs : draft.Skips sum)
    (hn : step.skipped Operation.isProjection sum < UInt32.size)
    (hr : draft.apply catalog step = .ok next) :
    Shows D graph name type next (Listing.apply D db catalog step listing) := by
  cases applied_of_namesColumns id hc hr with
  | project ha hitems =>
    rw [Listing.apply]
    exact h.project ht hi hc ha hitems
  | filter hopen hcondition =>
    rw [Listing.apply]
    exact h.filter ht hi hc hopen hcondition
  | take n =>
    rw [Listing.apply]
    exact h.take n
  | skip n hl =>
    rw [Listing.apply]
    rw [Operation.skipped, ← hs hl] at hn
    exact h.skip hl hn
  | count hopen =>
    rw [Listing.apply]
    exact h.count hopen
  | orderBy hopen htarget =>
    rw [Listing.apply]
    exact h.sortBy ht hi hc.1 hc.2 hopen htarget
  | nest | rename | groupBy | edge | union => cases hc

/-- Without edges and unions, operations are applied one after the other. -/
lemma run_cons_ok {traversed : Bool} (hc : step.NamesColumns header)
    (hr : draft.run naming catalog none traversed (step :: steps) = .ok result) :
    ∃ next, draft.apply catalog step = .ok next ∧
      next.run naming catalog none traversed steps = .ok result := by
  cases step with
  | project | filter | take | skip | count | orderBy =>
    rw [Draft.run] at hr
    · obtain ⟨arrived, harrive, hr⟩ := Compile.bind_eq_ok.1 hr
      obtain rfl := Except.ok.inj harrive
      obtain ⟨_, -, hr⟩ := Compile.bind_eq_ok.1 hr
      exact Compile.bind_eq_ok.1 hr
    · rintro _ _ ⟨⟩
    · rintro _ ⟨⟩
  | nest | rename | groupBy | edge | union => cases hc

lemma run_shows {traversed : Bool} (h : Shows D graph name type draft listing)
    (ht : catalog.type? name = some type) (hi : type.PlainIdentity)
    (hc : stepsNameColumns listing.header steps) (hs : draft.Skips sum)
    (hn : stepsSkipsFit Operation.isProjection sum steps)
    (hr : draft.run naming catalog none traversed steps = .ok result) :
    Shows D graph name type result (Listing.applyAll D db catalog steps listing) := by
  induction steps generalizing draft listing sum with
  | nil =>
    rw [Draft.run] at hr
    obtain rfl := Except.ok.inj hr
    rwa [Listing.applyAll]
  | cons step rest ih =>
    obtain ⟨next, hnext, hr⟩ := run_cons_ok hc.1 hr
    simp only [stepsSkipsFit] at hn
    have hshows : Shows D graph name type next (Listing.apply D db catalog step listing) :=
      apply_shows h ht hi hc.1 hs hn.1 hnext
    rw [Listing.applyAll]
    refine ih hshows ?_ (apply_skips hs hc.1 hn.1 hnext) hn.2.2 hr
    rw [Compile.header_apply]
    exact hc.2

/-! ### Sources -/

/-- The first part matches the nodes of the label of a type. -/
lemma start_shows (name : String) (type : ObjectType) :
    Shows D graph name type (Draft.start name type)
      (.ofNodes D type none (graph.nodes (type.labelOf name))) where
  single := rfl
  rows := by
    have hreturned (found : List (Match δ)) : (Draft.start name type).part.returned D found
        = found.map fun found => (found, found.node (Draft.start name type).node) := rfl
    have hleft : (Draft.start name type).part.left D type.propertyType graph
        = (graph.nodes (type.labelOf name)).map fun node =>
          [((Draft.start name type).node, node)] := arrange_nil
    rw [rows_eq_map (List.forall_mem_nil _) hreturned, hleft, List.map_map]
    refine (List.map_congr_left fun node _ => ?_).trans (List.map_id _)
    simp [Match.node]
  unnamed := List.forall_mem_nil _
  plain _ := {
    typeName := rfl
    path := rfl
    nodup := by
      refine Eq.subst (motive := List.Nodup) (Header.names_ofType type).symm type.fields.nodup
    fields := by
      intro column hc
      obtain ⟨entry, he, rfl⟩ := List.mem_map.1 hc
      exact ⟨entry.2, Named.lookup_of_mem type.fields.nodup he, rfl⟩
    sorted := List.forall_mem_nil _
    output := ⟨id, fun _ => rfl, fun _ _ _ => rfl⟩ }

/-- The mark of the identity is resolved to the property `id`, if the type has it. -/
lemma resolve_idKey (ht : catalog.type? draft.typeName = some type) (hi : type.PlainIdentity)
    {property : Property} (hr : draft.resolve catalog idKey = .ok property) :
    property = ⟨draft.node, "id"⟩ ∧ ∃ field, type.fields.get? "id" = some field := by
  obtain ⟨_, hrequire, hr⟩ := Compile.bind_eq_ok.1 hr
  obtain rfl := Option.some.inj (ht.symm.trans (Compile.requireType_ok.1 hrequire))
  have hkey : (if unqualified idKey = "id" ∧ ¬type.fields.contains "id" then idKey
      else unqualified idKey) = idKey := by
    have hunqualified : unqualified idKey = idKey := by decide
    rw [hunqualified, ite_self]
  simp only [hkey, ObjectType.lookupField, if_true, hi.idField] at hr
  split at hr
  · rename_i found _ hfound
    obtain ⟨field, hget, heq⟩ := Option.map_eq_some_iff.1 hfound
    obtain ⟨rfl, rfl⟩ := Prod.mk.inj heq
    exact ⟨(Compile.pure_eq_ok.1 hr).symm, field, hget⟩
  · cases hr

/-- The identities of a source are one more condition on the nodes. -/
lemma restrict_shows {ids : Option (List Int64)}
    (ht : catalog.type? name = some type) (hi : type.PlainIdentity)
    (hr : (Draft.start name type).restrict catalog ids = .ok result) :
    Shows D graph name type result (.ofNodes D type ids (graph.nodes (type.labelOf name))) ∧
      result.Skips 0 := by
  have hstart : Shows D graph name type (Draft.start name type)
      (.ofNodes D type none (graph.nodes (type.labelOf name))) := start_shows name type
  cases ids with
  | none =>
    obtain rfl := Compile.pure_eq_ok.1 hr
    exact ⟨hstart, fun _ => rfl⟩
  | some ids =>
    obtain ⟨property, hproperty, hr⟩ := Compile.bind_eq_ok.1 hr
    obtain rfl := Compile.pure_eq_ok.1 hr
    obtain ⟨rfl, field, hget⟩ := resolve_idKey ht hi hproperty
    refine ⟨?_, fun _ => rfl⟩
    have hmem : ("id", some field.type) ∈ Header.ofType type :=
      List.mem_map.2 ⟨("id", field), Named.mem_of_lookup hget, rfl⟩
    have hlisting : Listing.ofNodes D type (some ids) (graph.nodes (type.labelOf name))
        = { (Listing.ofNodes D type none (graph.nodes (type.labelOf name))) with
            rows := (Listing.ofNodes D type none (graph.nodes (type.labelOf name))).rows.filter
              fun node => D.among (node.cell "id")
                (ids.map fun id => some (D.integer id.toInt)) == some true } := by
      simp only [Listing.ofNodes, hi.idField]
    rw [hlisting]
    refine hstart.addCondition rfl rfl rfl fun output found hcells => ?_
    rw [hcells _ _ hmem, TextCondition.truth, List.map_map]
    rfl

/-- A statement returns the rows of its query in their order, as long as the skips of each run,
with projections between them or not, drop fewer rows than a part can skip. -/
theorem rows_statement (D : Domain δ) (graph : Graph δ) (db : Database δ)
    (naming : String → String) (catalog : Catalog) (query : Query) (statement : Statement)
    (type : ObjectType)
    (ht : catalog.type? query.source.objectType = some type) (hi : type.PlainIdentity)
    (hc : stepsNameColumns (.ofType type) query.operations)
    (hn : query.SkipsFit Operation.isProjection)
    (h : compile catalog query naming = .ok statement) :
    statement.rows D type.propertyType graph
      = (Listing.applyAll D db catalog query.operations
          (.ofNodes D type query.source.ids
            (graph.nodes (type.labelOf query.source.objectType)))).rows := by
  obtain ⟨source, operations⟩ := query
  obtain ⟨draft, hquery, rfl⟩ := Predicate.map_eq_ok.1 h
  rw [Draft.ofQuery] at hquery
  obtain ⟨first, hfirst, hrun⟩ := Compile.bind_eq_ok.1 hquery
  obtain ⟨_, hrequire, hfirst⟩ := Compile.bind_eq_ok.1 hfirst
  obtain rfl := Option.some.inj (ht.symm.trans (Compile.requireType_ok.1 hrequire))
  obtain ⟨hstart, hskips⟩ := restrict_shows (D := D) ht hi hfirst
  have hshows : Shows D graph source.objectType type draft (Listing.applyAll D db catalog operations
      (.ofNodes D type source.ids (graph.nodes (type.labelOf source.objectType)))) :=
    run_shows hstart ht hi hc hskips hn hrun
  rw [Statement.rows, Draft.statement, hshows.single, List.flatMap_singleton]
  exact hshows.rows

/-- A graph of nodes that have all labels. -/
def graphOf (nodes : List (Record Datum)) : Graph Datum where
  nodes _ := nodes
  reached _ _ _ _ := []

/-- Users by their age, the first two in the order of names left out. -/
def skippedUsers : Query :=
  ⟨{ objectType := "User", ids := some [1, 2, 3] },
    [.orderBy "name" .ascending, .filter (.comparison "age" .greaterOrEqual (.integer 17)),
     .orderBy "user.age" .descending, .skip 1, .project ["user.name", ":id"], .skip 1, .take 5,
     .project ["id"], .take 3]⟩

theorem rows_statement_skippedUsers :
    ∃ statement, compile SocialGraph.catalog skippedUsers = .ok statement ∧
      SocialGraph.user.PlainIdentity ∧
      stepsNameColumns (.ofType SocialGraph.user) skippedUsers.operations ∧
      skippedUsers.SkipsFit Operation.isProjection ∧
      statement.rows Datum.domain SocialGraph.user.propertyType
          (graphOf [[("id", some (.integer 1))], [("id", some (.integer 2))]])
        = (Listing.applyAll Datum.domain (fun _ => []) SocialGraph.catalog skippedUsers.operations
            (.ofNodes Datum.domain SocialGraph.user (some [1, 2, 3])
              [[("id", some (.integer 1))], [("id", some (.integer 2))]])).rows := by
  have hok : (compile SocialGraph.catalog skippedUsers).isOk = true := by
    decide +kernel
  obtain ⟨statement, h⟩ := Compile.exists_of_isOk hok
  have ht : SocialGraph.catalog.type? "User" = some SocialGraph.user := by decide
  have hi : SocialGraph.user.PlainIdentity := ⟨rfl, by decide⟩
  have hc : stepsNameColumns (.ofType SocialGraph.user) skippedUsers.operations := by
    simp only [skippedUsers, stepsNameColumns, Operation.NamesColumns, Predicate.Within]
    decide
  have hn : skippedUsers.SkipsFit Operation.isProjection := by
    simp only [skippedUsers, Query.SkipsFit, stepsSkipsFit, Operation.SkipsFit, Operation.skipped]
    decide
  exact ⟨statement, h, hi, hc, hn,
    rows_statement Datum.domain (graphOf _) _ Text.upperSnakeCase SocialGraph.catalog skippedUsers
      statement SocialGraph.user ht hi hc hn h⟩

/-! ### Statements that return other rows -/

/-- Users without as many of the first ones as a part can skip. -/
def lateUsers : Part where
  path := ⟨⟨"u", "User"⟩, []⟩
  returns := some [{ name := "id", value := .property ⟨"u", "id"⟩ }]
  skip := some 4294967295

lemma length_rows_lateUsers (types : Property → Option ScalarType) (nodes : List (Record Datum)) :
    (Statement.rows Datum.domain types (graphOf nodes) [lateUsers]).length
      = nodes.length - 4294967295 := by
  have hreturned : ∀ found : List (Match Datum), lateUsers.returned Datum.domain found
      = found.map fun found => (found, (found.node "u").choose ["id"]) :=
    Shows.returned_properties rfl rfl
  have hleft : lateUsers.left Datum.domain types (graphOf nodes)
      = (nodes.map fun node => [("u", node)]).drop 4294967295 :=
    congrArg (List.drop 4294967295) arrange_nil
  rw [Statement.rows, List.flatMap_singleton, rows_eq_map (List.forall_mem_nil _) hreturned, hleft,
    List.length_map, List.length_drop, List.length_map]

/-- One row is left by the part, none by the operations. -/
lemma rows_lateUsers_ne :
    Statement.rows Datum.domain SocialGraph.user.propertyType
        (graphOf (List.replicate 4294967296 [])) [lateUsers]
      ≠ (Listing.applyAll Datum.domain (fun _ => []) SocialGraph.catalog
          Compile.skippedTwice.operations
          (.ofNodes Datum.domain SocialGraph.user none (List.replicate 4294967296 []))).rows := by
  intro heq
  have hone := congrArg List.length heq
  rw [length_rows_lateUsers, List.length_replicate] at hone
  simp only [Compile.skippedTwice, Listing.applyAll, Listing.apply, Listing.skip, Listing.project,
    Listing.ofNodes, List.length_drop, List.length_map, List.length_replicate] at hone
  exact absurd hone (by decide)

/-- Things with a dot in the name of a field. -/
def thing : ObjectType :=
  ObjectType.named "Thing"
    |>.withField "id" .bigint false
    |>.withField "a.b" .bigint true
    |>.withField "b" .bigint true

/-- The catalog of these things. -/
def dotted : Catalog := Catalog.empty.withType "Thing" thing

/-- Things by the field with the dot in its name. -/
def thingsByDotted : Query := ⟨{ objectType := "Thing" }, [.orderBy "thing.a.b" .ascending]⟩

/-- Things by the other field, from whose name no variable can be dropped once more. -/
def thingsByOther : Part where
  path := ⟨⟨"t", "Thing"⟩, []⟩
  orderBy := [{ target := .property ⟨"t", "b"⟩ }]

/-- Two things that are the other way round in the order of each field. -/
def twoThings : List (Record Datum) :=
  [[("id", some (.integer 1)), ("a.b", some (.integer 1)), ("b", some (.integer 2))],
   [("id", some (.integer 2)), ("a.b", some (.integer 2)), ("b", some (.integer 1))]]

lemma rows_thingsByOther_ne :
    Statement.rows Datum.domain thing.propertyType (graphOf twoThings) [thingsByOther]
      ≠ (Listing.applyAll Datum.domain (fun _ => []) dotted thingsByDotted.operations
          (.ofNodes Datum.domain thing none twoThings)).rows := by
  intro heq
  have hids := congrArg (List.map fun row => Datum.number (Record.cell row "id")) heq
  exact absurd hids (by decide +kernel)

/-- If a projection ends a run of skips, a part has no room for all rows that the runs of a query
drop; and if the name of a field has a dot in it, a part may sort by another field. -/
theorem rows_statement_ne :
    (∃ statement,
      compile SocialGraph.catalog Compile.skippedTwice = .ok statement ∧
      SocialGraph.user.PlainIdentity ∧
      stepsNameColumns (.ofType SocialGraph.user) Compile.skippedTwice.operations ∧
      Compile.skippedTwice.SkipsFit (fun _ => false) ∧
      statement.rows Datum.domain SocialGraph.user.propertyType
          (graphOf (List.replicate 4294967296 []))
        ≠ (Listing.applyAll Datum.domain (fun _ => []) SocialGraph.catalog
            Compile.skippedTwice.operations
            (.ofNodes Datum.domain SocialGraph.user none (List.replicate 4294967296 []))).rows) ∧
    ∃ statement, compile dotted thingsByDotted = .ok statement ∧
      thing.PlainIdentity ∧ (Header.ofType thing).Has "thing.a.b" ∧
      statement.rows Datum.domain thing.propertyType (graphOf twoThings)
        ≠ (Listing.applyAll Datum.domain (fun _ => []) dotted thingsByDotted.operations
            (.ofNodes Datum.domain thing none twoThings)).rows := by
  have hc : stepsNameColumns (.ofType SocialGraph.user) Compile.skippedTwice.operations := by
    simp only [Compile.skippedTwice, stepsNameColumns, Operation.NamesColumns]
    decide
  have hn : Compile.skippedTwice.SkipsFit fun _ => false := by
    simp only [Compile.skippedTwice, Query.SkipsFit, stepsSkipsFit, Operation.SkipsFit,
      Operation.skipped]
    decide +kernel
  exact ⟨⟨[lateUsers], rfl, ⟨rfl, by decide⟩, hc, hn, rows_lateUsers_ne⟩,
    ⟨[thingsByOther], rfl, ⟨rfl, by decide⟩, by decide, rows_thingsByOther_ne⟩⟩

end Cypher
end ObjectGraph
