/-
# Pipelines of stages

A pipeline over the table of an object type has the rows of its query, if fields are stored under
their own names.  Identities are one more condition of the first stage; then every operation does
to the stages what it does to the listing that they show.
-/
import ObjectGraph.Proofs.Malloy.Operations

namespace ObjectGraph

/-- The columns of the table of a type. -/
def Header.ofTable (type : ObjectType) : Header :=
  type.fields.values.map fun field => (field.column, some field.type)

namespace Malloy

open Compile (TextCondition)

variable {δ : Type} {D : Domain δ} {stored : Listing δ} {draft result : Draft}
  {listing : Listing δ} {db : Database δ} {catalog : Catalog} {type : ObjectType}

/-! ### Stored rows -/

lemma ofTable_eq (hn : type.StoredAsNamed) : Header.ofTable type = .ofType type := by
  rw [Header.ofTable, OrderedMap.values, List.map_map, Header.ofType]
  refine List.map_congr_left fun entry he => ?_
  rw [Function.comp_apply, hn entry he]

/-- A stored row is the row of the fields of its type. -/
lemma record_ofType (hn : type.StoredAsNamed) {row : Record δ}
    (hr : row.map Prod.fst = (Header.ofTable type).names) : Record.ofType type row = row := by
  rw [ofTable_eq hn, Header.names_ofType] at hr
  have hnodup : (row.map Prod.fst).Nodup := by
    rw [hr]
    exact type.fields.nodup
  have hself := Record.map_cell row hnodup
  rw [hr, OrderedMap.keys, Named.keys, List.map_map] at hself
  refine Eq.trans (List.map_congr_left fun entry he => ?_) hself
  have hcolumn : entry.2.column = entry.1 := hn entry he
  exact congrArg (fun column => (entry.1, row.cell column)) hcolumn

/-! ### The first stage -/

lemma start_shows (ht : type.PlainIdentity) (hn : type.StoredAsNamed) {rows : List (Record δ)}
    (hr : ∀ row ∈ rows, row.map Prod.fst = (Header.ofTable type).names) (name : String) :
    Shows D ⟨.ofTable type, rows⟩ (Draft.start name type) ⟨.ofType type, rows⟩ where
  identity := ht
  named := hn
  run := by
    rw [← ofTable_eq hn]
    exact Shows.run_nil _
  names := by
    have hfields : (Draft.start name type).fields = (Header.ofTable type).names := by
      rw [Header.names, Header.ofTable, List.map_map]
      rfl
    rw [hfields, ofTable_eq hn, Header.names_ofType]
    exact (Once.eraseDups_of_nodup type.fields.nodup).symm
  rows := by
    rw [← ofTable_eq hn]
    exact hr
  unmarked := by
    rw [Header.names_ofType]
    exact ht.marked
  plain _ _ := .inl rfl

lemma truth_identityCondition (types : String → Option ScalarType) (cells : String → Cell δ)
    (name : String) (ids : List Int64) :
    (Draft.identityCondition name ids).truth D types cells
      = D.among (cells name) (ids.map fun id => some (D.integer id.toInt)) := by
  cases ids with
  | nil => rfl
  | cons id rest =>
    rw [Draft.identityCondition, TextCondition.truth, List.map_map]
    · rfl
    · rintro ⟨⟩

/-- Objects are chosen by their identities in the first stage. -/
lemma restrict_shows (h : Shows D stored draft listing) (ho : draft.Open)
    (hl : draft.last.limit? = none) (hs : draft.last.columns? = none) {ids : List Int64}
    (hr : draft.restrict (some ids) = .ok result) :
    Shows D stored result { listing with
      rows := listing.rows.filter fun record =>
        D.among (record.cell "id") (ids.map fun id => some (D.integer id.toInt))
          == some true } := by
  obtain ⟨name, hname, hr⟩ := Compile.bind_eq_ok.1 hr
  obtain rfl := Compile.pure_eq_ok.1 hr
  obtain rfl := h.resolve_idKey hname
  refine h.addCondition ho hl fun record => ?_
  rw [truth_identityCondition, Stage.output, hs]

/-! ### Whole queries -/

/-- One operation on a draft is one operation on the listing it shows. -/
lemma apply_shows {step : Operation} (h : Shows D stored draft listing)
    (hc : step.OnColumns catalog listing.header) (hr : draft.apply step = .ok result) :
    Shows D stored result (Listing.apply D db catalog step listing) := by
  cases Draft.applied_of_apply hr with
  | project he hnames =>
    simp only [Operation.OnColumns] at hc
    rw [Listing.apply]
    exact h.project hc.2 he hnames
  | filter he hcondition =>
    simp only [Operation.OnColumns] at hc
    rw [Listing.apply]
    exact h.filter hc he hcondition
  | orderBy he hfield =>
    simp only [Operation.OnColumns] at hc
    rw [Listing.apply]
    exact h.sortBy hc he hfield
  | take he =>
    rw [Listing.apply]
    exact h.take he
  | count he =>
    rw [Listing.apply]
    exact h.count he
  | rename he hname =>
    simp only [Operation.OnColumns] at hc
    rw [Listing.apply]
    exact h.rename hc.1 hc.2.1 hc.2.2 he hname

lemma applyAll_shows {steps : List Operation} (h : Shows D stored draft listing)
    (hc : stepsOnColumns catalog listing.header steps) (hr : draft.applyAll steps = .ok result) :
    Shows D stored result (Listing.applyAll D db catalog steps listing) := by
  induction steps generalizing draft listing with
  | nil =>
    obtain rfl := Compile.pure_eq_ok.1 hr
    rwa [Listing.applyAll]
  | cons step rest ih =>
    obtain ⟨next, hnext, hr⟩ := Compile.bind_eq_ok.1 hr
    simp only [stepsOnColumns] at hc
    rw [Listing.applyAll]
    refine ih (apply_shows h hc.1 hnext) ?_ hr
    rw [Compile.header_apply]
    exact hc.2

/-- The first draft shows the objects of the source. -/
lemma source_shows {source : Source} (ht : catalog.type? source.objectType = some type)
    (hi : type.PlainIdentity) (hn : type.StoredAsNamed)
    (hr : ∀ row ∈ db ⟨type.schema, type.table⟩, row.map Prod.fst = (Header.ofTable type).names)
    (h : (Draft.start source.objectType type).restrict source.ids = .ok result) :
    Shows D ⟨.ofTable type, db ⟨type.schema, type.table⟩⟩ result
      (Listing.ofSource D db catalog source) := by
  have hrows : (db ⟨type.schema, type.table⟩).map (Record.ofType type)
      = db ⟨type.schema, type.table⟩ :=
    (List.map_congr_left fun row hm => record_ofType hn (hr row hm)).trans (List.map_id _)
  have hstart : Shows D ⟨.ofTable type, db ⟨type.schema, type.table⟩⟩
      (Draft.start source.objectType type) ⟨.ofType type, db ⟨type.schema, type.table⟩⟩ :=
    start_shows hi hn hr source.objectType
  simp only [Listing.ofSource, ht, hrows, hi.idField]
  cases hids : source.ids with
  | none =>
    rw [hids] at h
    obtain rfl := Compile.pure_eq_ok.1 h
    exact hstart
  | some ids =>
    rw [hids] at h
    exact restrict_shows hstart ⟨rfl, rfl⟩ rfl rfl h

/-- A pipeline puts out the rows of its query in their order, whatever stages its operations were
gathered into. -/
theorem rows_pipeline (D : Domain δ) (db : Database δ) (catalog : Catalog) (query : Query)
    (connection : String) (pipeline : Pipeline) (type : ObjectType)
    (ht : catalog.type? query.source.objectType = some type) (hn : type.StoredAsNamed)
    (hr : ∀ row ∈ db ⟨type.schema, type.table⟩, row.map Prod.fst = (Header.ofTable type).names)
    (hc : query.OnColumns catalog) (h : compile catalog query connection = .ok pipeline) :
    pipeline.rows D db (.ofTable type) = (Listing.ofQuery D db catalog query).rows := by
  obtain ⟨source, operations⟩ := query
  simp only [Query.OnColumns, branchesOnColumns, ht, Option.some.injEq, exists_eq_left',
    and_true] at hc
  obtain ⟨hidentity, hc⟩ := hc
  obtain ⟨_, hrequired, h⟩ := Compile.bind_eq_ok.1 h
  obtain rfl := Option.some.inj (ht.symm.trans (Compile.requireType_ok.1 hrequired))
  obtain ⟨first, hfirst, h⟩ := Compile.bind_eq_ok.1 h
  obtain ⟨draft, hdraft, h⟩ := Compile.bind_eq_ok.1 h
  obtain rfl := Compile.pure_eq_ok.1 h
  have hsource := source_shows (D := D) ht hidentity hn hr hfirst
  have hheader : (Listing.ofSource D db catalog source).header = .ofType type := by
    simp only [Listing.ofSource, ht]
  rw [← hheader] at hc
  have hshows : Shows D ⟨.ofTable type, db ⟨type.schema, type.table⟩⟩ draft
      (Listing.applyAll D db catalog operations (Listing.ofSource D db catalog source)) :=
    applyAll_shows hsource hc hdraft
  rw [Listing.ofQuery, ← hshows.run, Pipeline.rows, Draft.stages, runAll_append]
  rfl

/-- The names of the two oldest users from 17 on, most of the clauses in stages of their own. -/
def oldestUsers : Query :=
  ⟨{ objectType := "User", ids := some [1, 2, 3] },
    [.orderBy "user.name" .ascending, .filter (.comparison "age" .greaterOrEqual (.integer 17)),
     .orderBy "age" .descending, .take 2, .project ["id", "name", "age"],
     .filter (.negation (.isNull ":id")), .rename "name" "nick", .orderBy "nick" .descending,
     .count]⟩

/-- Two users, one of them without a name. -/
def twoUsers : List (Record Datum) :=
  [[("id", some (.integer 1)), ("name", none), ("age", some (.integer 17))],
   [("id", some (.integer 4)), ("name", some (.text "Ada")), ("age", some (.integer 18))]]

theorem rows_pipeline_oldestUsers :
    ∃ pipeline, compile SocialGraph.catalog oldestUsers "db" = .ok pipeline ∧
      SocialGraph.user.StoredAsNamed ∧ oldestUsers.OnColumns SocialGraph.catalog ∧
      (∀ row ∈ twoUsers, row.map Prod.fst = (Header.ofTable SocialGraph.user).names) ∧
      pipeline.rows Datum.domain (Compile.tableOf twoUsers) (.ofTable SocialGraph.user)
        = (Listing.ofQuery Datum.domain (Compile.tableOf twoUsers) SocialGraph.catalog
            oldestUsers).rows := by
  have hok : (compile SocialGraph.catalog oldestUsers "db").isOk = true := by decide +kernel
  obtain ⟨pipeline, h⟩ := Compile.exists_of_isOk hok
  have ht : SocialGraph.catalog.type? "User" = some SocialGraph.user := by decide
  have hn : SocialGraph.user.StoredAsNamed := by
    unfold ObjectType.StoredAsNamed
    decide
  have hr : ∀ row ∈ twoUsers, row.map Prod.fst = (Header.ofTable SocialGraph.user).names := by
    intro row hm
    rcases List.mem_pair.1 hm with rfl | rfl
    · decide
    · decide
  have hc : oldestUsers.OnColumns SocialGraph.catalog := by
    refine ⟨⟨SocialGraph.user, ht, ⟨rfl, by decide⟩, ?_⟩, trivial⟩
    simp only [stepsOnColumns, Operation.OnColumns, Predicate.Within]
    decide
  exact ⟨pipeline, h, hn, hc, hr,
    rows_pipeline Datum.domain _ SocialGraph.catalog oldestUsers "db" pipeline SocialGraph.user
      ht hn hr hc h⟩

end Malloy
end ObjectGraph
