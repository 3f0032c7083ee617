/-
# Operations folded into selects

A query on columns is compiled one operation at a time, and the rows of the draft after each
operation are the rows of the query up to there.  What a draft has to be like for the next
operation to join its clauses is part of the invariant: as long as it is not sealed, a draft has
one row for every row that its clauses leave, and its columns are the ones its condition and its
order may refer to.
-/
import ObjectGraph.Proofs.Compile.Clauses
import ObjectGraph.Samples.SocialGraph

namespace ObjectGraph.Compile

open Sql (Expression Relation RowEnvironment TableAlias)

variable {δ : Type} {D : Domain δ} {db : Database δ} {around : RowEnvironment δ}
  {catalog : Catalog} {counts last : AliasCounts}

/-! ### Where rows come from -/

section Sources

variable {type : ObjectType}

lemma record_ofType (ht : type.PlainIdentity) (table : TableAlias) (row : Record δ) :
    Draft.record D db (Column.ofType type table) ⟨(table, row) :: around, []⟩
      = Record.ofType type row := by
  have hheads := heads_ofType ht table
  simp only [Draft.record, Column.ofType, Record.ofType, List.map_map]
  refine List.map_congr_left fun entry he => ?_
  have hnamed := hheads.named _ (List.mem_map_of_mem he)
  simp only [Function.comp_apply, Expression.eval, Sql.cell_cons_self]
  exact congrArg (fun name => (name, row.cell entry.2.column)) hnamed.symm

lemma cell_ofType {name : String} {field : Field} (h : type.fields.get? name = some field)
    (row : Record δ) : (Record.ofType type row).cell name = row.cell field.column := by
  have hm : (name, field) ∈ type.fields.entries := Named.mem_of_lookup h
  exact @Record.cell_map _ _ Prod.fst (fun entry => row.cell entry.2.column) _
    type.fields.nodup _ hm

/-- The condition that an object has one of the given identities. -/
lemma truth_identity {name : String} {table : TableAlias} {ids : List Int64} {e : Expression}
    (h : identityCondition name type table ids = .ok e) (row : Record δ) :
    D.toTruth (e.eval D db ((table, row) :: around) [])
      = D.among ((Record.ofType type row).cell type.idField)
          (ids.map fun id => some (D.integer id.toInt)) := by
  cases ids with
  | nil =>
    cases h
    rw [Sql.truth_false]
    rfl
  | cons first rest =>
    simp only [identityCondition, bind_eq_ok, pure_eq_ok] at h
    obtain ⟨identity, hi, rfl⟩ := h
    have hfield : type.fields.get? type.idField = some identity := requireIdentity_ok.1 hi
    rw [Expression.eval, Domain.toTruth_ofTruth, cell_ofType hfield, Sql.evalList_eq, List.map_map]
    simp only [Expression.eval, Sql.cell_cons_self]
    rfl

lemma aggregates_ofType (table : TableAlias) :
    ∀ column ∈ Column.ofType type table, column.expression.aggregates = false :=
  List.forall_mem_map.2 fun _ _ => rfl

/-- A first draft has a row for every stored one that satisfies its condition. -/
lemma rows_startDraft (hp : type.PlainIdentity) (name : String) (handle : TableAlias)
    (condition : Expression) :
    (startDraft name type handle condition).finish.rows D db around
      = ((db ⟨type.schema, type.table⟩).filter fun row =>
          D.toTruth (condition.eval D db ((handle, row) :: around) []) == some true).map
            (Record.ofType type) := by
  have haggregates : (startDraft name type handle condition).aggregates = false :=
    List.any_eq_false.2 fun column hc => by simp [aggregates_ofType handle column hc]
  have hsorted : (startDraft name type handle condition).sorted D db around
      = ((db ⟨type.schema, type.table⟩).filter fun row =>
          D.toTruth (condition.eval D db ((handle, row) :: around) []) == some true).map
            fun row => (handle, row) :: around := by
    simp only [Draft.sorted, startDraft, Sql.sort_orderKeys_nil, Draft.environments,
      Relation.rows, List.filter_map]
    rfl
  rw [Draft.rows_plain rfl haggregates, hsorted]
  simp only [startDraft, Sql.slice_none, List.map_map, Function.comp_def, record_ofType hp]

lemma start_shows {source : Source} {first : Draft}
    (ht : catalog.type? source.objectType = some type) (hp : type.PlainIdentity)
    (h : (start catalog source.objectType source.ids none).run counts = .ok (first, last)) :
    Shows D db around first (Listing.ofSource D db catalog source) := by
  obtain ⟨found, tied, chosen, hfound, htied, hchosen, rfl⟩ := start_ok h
  obtain ⟨rfl, -⟩ := run_pure_eq_ok.1 htied
  obtain rfl : type = found := Option.some.inj (ht.symm.trans hfound)
  have hplain : ∀ column ∈ Column.ofType type (nextAlias counts type.table),
      column.expression.aggregates = false := aggregates_ofType _
  refine {
    heads := ?_
    rows := ?_
    reads := fun _ => List.forall_mem_map.2 fun entry he hn => ?_
    plain := fun _ => ⟨rfl, hplain⟩
    uniform := fun _ => ⟨false, hplain⟩ }
  · simp only [Listing.ofSource, ht]
    exact heads_ofType hp _
  · simp only [rows_startDraft hp, Sql.truth_both, Sql.truth_true, Truth.true_and,
      Listing.ofSource, ht]
    cases hids : source.ids with
    | none =>
      simp only [sourceCondition, hids, Except.ok.injEq] at hchosen
      subst hchosen
      simp
    | some ids =>
      simp only [sourceCondition, hids] at hchosen
      simp only [truth_identity hchosen, List.filter_map]
      rfl
  · have hid : (if (entry.1 == type.idField) = true then identityColumn else entry.1) = "id" := hn
    split at hid
    · rename_i h
      exact h
    · rw [← hp.idField] at hid
      exact beq_iff_eq.2 hid

end Sources

/-! ### Unions -/

lemma relabel_self {names : List String} {row : Record δ} (h : row.map Prod.fst = names) :
    Sql.relabel names row = row := by
  rw [Sql.relabel, ← h, List.zip_map']
  exact List.map_id row

/-- The selects of a union have outputs of the same names, so their rows stay as they are. -/
lemma unionRows_eq {names : List String} {drafts : List Draft}
    (h : ∀ branch ∈ drafts, branch.names = names) :
    Sql.unionRows D db names (drafts.map Draft.finish) around
      = drafts.flatMap fun branch => branch.finish.rows D db around := by
  induction drafts with
  | nil => rw [List.map_nil, Sql.unionRows, List.flatMap_nil]
  | cons branch rest ih =>
    obtain ⟨hbranch, hrest⟩ := List.forall_mem_cons.1 h
    have hrows : (branch.finish.rows D db around).map (Sql.relabel names)
        = branch.finish.rows D db around := by
      refine (List.map_congr_left fun row hr => ?_).trans (List.map_id _)
      exact relabel_self ((Draft.names_of_mem_rows hr).trans hbranch)
    rw [List.map_cons, Sql.unionRows, hrows, ih hrest, List.flatMap_cons]

lemma Shows.united {draft : Draft} {listing : Listing δ} (h : Shows D db around draft listing)
    {drafts : List Draft} {handle : TableAlias}
    (hn : ∀ branch ∈ drafts, branch.names = draft.names) :
    Shows D db around (draft.united drafts handle) { listing with
      rows := listing.rows ++ drafts.flatMap fun branch => branch.finish.rows D db around } := by
  have hall : ∀ branch ∈ draft :: drafts, branch.names = draft.names :=
    List.forall_mem_cons.2 ⟨rfl, hn⟩
  have hrows : (Relation.union (draft.finish :: drafts.map Draft.finish) handle).rows D db around
        = listing.rows ++ drafts.flatMap fun branch => branch.finish.rows D db around := by
    rw [Relation.rows, Sql.unionNames, draft.names_finish, ← List.map_cons, unionRows_eq hall,
      List.flatMap_cons, h.rows]
  refine Shows.reading h.heads hrows fun row hr => ?_
  rcases List.mem_append.1 hr with hr | hr
  · exact h.names_of_mem row hr
  · obtain ⟨branch, hb, hr⟩ := List.mem_flatMap.1 hr
    exact (Draft.names_of_mem_rows hr).trans (hn branch hb)

/-! ### Whole queries -/

lemma header_appendAll (queries : List Query) (listing : Listing δ) :
    (Listing.appendAll D db catalog queries listing).header = listing.header := by
  induction queries generalizing listing with
  | nil => rw [Listing.appendAll]
  | cons query rest ih =>
    obtain ⟨source, operations⟩ := query
    rw [Listing.appendAll, ih]

lemma header_apply (step : Operation) (listing : Listing δ) :
    (Listing.apply D db catalog step listing).header = listing.header.after step := by
  cases step with
  | rename old new =>
    simp only [Listing.apply, Listing.rename, Header.after]
    split <;> rfl
  | union queries => rw [Listing.apply, header_appendAll]; rfl
  | _ => simp only [Listing.apply]; rfl

lemma pending_start {source : Source} {first : Draft}
    (h : (start catalog source.objectType source.ids none).run counts = .ok (first, last)) :
    first.pending = 0 := by
  obtain ⟨_, _, _, -, -, -, rfl⟩ := start_ok h
  rfl

/-- What a skip after an operation would add to: the sum of the run of skips that is going on. -/
lemma operation_pending {step : Operation} {header : Header} {draft result : Draft}
    (hc : step.OnColumns catalog header)
    (hn : step.skipped Operation.isProjection draft.pending < UInt32.size)
    (ho : (operation catalog draft step).run counts = .ok (result, last)) :
    result.pending = step.skipped Operation.isProjection draft.pending := by
  cases operation_ok ho with
  | project | union => rfl
  | filter hw | orderBy hw =>
    obtain ⟨hl, hf, hs⟩ := hw.opened
    simp [Draft.pending, hl, hf, hs, Operation.skipped, Operation.isProjection]
  | skip hw =>
    obtain ⟨hl, hs⟩ := hw.unlimited
    simp only [Operation.skipped, ← hw.offset_eq] at hn ⊢
    simp [Draft.pending, hl, hs, toNat_saturatingAdd hn]
  | take | count | nest | rename =>
    simp [Draft.pending, Operation.skipped, Operation.isProjection]
  | groupBy => simp [Draft.pending, Draft.gathered, Operation.skipped, Operation.isProjection]
  | edge => simp only [Operation.OnColumns] at hc

mutual

/-- One operation on a draft is one operation on the list of rows it shows. -/
lemma operation_shows : ∀ (step : Operation) {draft result : Draft} {listing : Listing δ}
    {counts last : AliasCounts}, Shows D db around draft listing →
    step.OnColumns catalog listing.header →
    step.skipped Operation.isProjection draft.pending < UInt32.size →
    step.SkipsFit Operation.isProjection →
    (operation catalog draft step).run counts = .ok (result, last) →
    Shows D db around result (Listing.apply D db catalog step listing)
  | .project fields, _, _, _, _, _, h, hc, _, _, ho => by
    simp only [Operation.OnColumns] at hc
    rw [Listing.apply]
    exact h.project hc.1 (run_lift_eq_ok.1 ho).1
  | .filter predicate, _, _, _, _, _, h, hc, _, _, ho => by
    simp only [Operation.OnColumns] at hc
    rw [Listing.apply]
    exact h.filter hc ho
  | .take n, _, _, _, _, _, h, _, _, _, ho => by
    rw [Listing.apply]
    exact h.take ho
  | .skip n, _, _, _, _, _, h, _, hn, _, ho => by
    rw [Listing.apply]
    exact h.skip hn ho
  | .count, _, _, _, _, _, h, _, _, _, ho => by
    rw [Listing.apply]
    exact h.count ho
  | .nest key, _, _, _, _, _, h, _, _, _, ho => by
    rw [Listing.apply]
    exact h.nest ho
  | .rename old new, _, _, _, _, _, h, hc, _, _, ho => by
    simp only [Operation.OnColumns] at hc
    rw [Listing.apply]
    exact h.rename hc.2.1 hc.2.2 (run_lift_eq_ok.1 ho).1
  | .orderBy key direction, _, _, _, _, _, h, hc, _, _, ho => by
    simp only [Operation.OnColumns] at hc
    rw [Listing.apply]
    exact h.sortBy hc ho
  | .groupBy key, _, _, _, _, _, h, hc, _, _, ho => by
    simp only [Operation.OnColumns] at hc
    rw [Listing.apply]
    exact h.gatherBy hc ho
  | .edge name inner, _, _, _, _, _, _, hc, _, _, _ => by
    simp only [Operation.OnColumns] at hc
  | .union queries, _, _, listing, _, _, h, hc, _, hf, ho => by
    simp only [Operation.OnColumns] at hc
    simp only [Operation.SkipsFit] at hf
    cases operation_ok ho with
    | union hb =>
      obtain ⟨hnames, happend⟩ := branches_show queries hc hf hb
      rw [Listing.apply, happend listing]
      exact h.united hnames

lemma pipeline_shows : ∀ (steps : List Operation) {draft result : Draft} {listing : Listing δ}
    {counts last : AliasCounts}, Shows D db around draft listing →
    stepsOnColumns catalog listing.header steps →
    stepsSkipsFit Operation.isProjection draft.pending steps →
    (pipeline catalog draft steps).run counts = .ok (result, last) →
    Shows D db around result (Listing.applyAll D db catalog steps listing)
  | [], _, _, _, _, _, h, _, _, hp => by
    obtain ⟨rfl, -⟩ := run_pure_eq_ok.1 hp
    rwa [Listing.applyAll]
  | step :: rest, _, _, listing, _, _, h, hc, hf, hp => by
    obtain ⟨next, between, ho, hp⟩ := pipeline_cons_ok hp
    simp only [stepsOnColumns] at hc
    simp only [stepsSkipsFit] at hf
    have hnext := operation_shows step h hc.1 hf.1 hf.2.1 ho
    rw [Listing.applyAll]
    refine pipeline_shows rest hnext ?_ ?_ hp
    · rw [header_apply]
      exact hc.2
    · rw [operation_pending hc.1 hf.1 ho]
      exact hf.2.2

lemma branches_show : ∀ (queries : List Query) {expected : List String} {drafts : List Draft}
    {counts last : AliasCounts}, branchesOnColumns catalog queries →
    branchesSkipsFit Operation.isProjection queries →
    (branches catalog expected queries).run counts = .ok (drafts, last) →
    (∀ branch ∈ drafts, branch.names = expected) ∧ ∀ listing : Listing δ,
      Listing.appendAll D db catalog queries listing = { listing with
        rows := listing.rows ++ drafts.flatMap fun branch => branch.finish.rows D db around }
  | [], _, _, _, _, _, _, hb => by
    obtain ⟨rfl, -⟩ := run_pure_eq_ok.1 hb
    simp [Listing.appendAll]
  | ⟨source, operations⟩ :: rest, _, _, _, _, hc, hf, hb => by
    obtain ⟨first, started, branch, between, others, hs, hp, hn, ho, rfl⟩ := branches_cons_ok hb
    simp only [branchesOnColumns] at hc
    simp only [branchesSkipsFit] at hf
    obtain ⟨⟨type, ht, hplain, hsteps⟩, hrest⟩ := hc
    have hfirst : Shows D db around first (Listing.ofSource D db catalog source) :=
      start_shows ht hplain hs
    have hheader : (Listing.ofSource D db catalog source).header = .ofType type := by
      simp only [Listing.ofSource, ht]
    have hbranch := pipeline_shows operations hfirst (hheader ▸ hsteps)
      (pending_start hs ▸ hf.1) hp
    obtain ⟨hnames, happend⟩ := branches_show rest hrest hf.2 ho
    refine ⟨List.forall_mem_cons.2 ⟨hn, hnames⟩, fun listing => ?_⟩
    rw [Listing.appendAll, happend, List.flatMap_cons, hbranch.rows, List.append_assoc]

end

lemma draft_shows {query : Query} {result : Draft} (hc : query.OnColumns catalog)
    (hf : query.SkipsFit Operation.isProjection)
    (h : (draft catalog query).run counts = .ok (result, last)) :
    Shows D db around result (Listing.ofQuery D db catalog query) := by
  obtain ⟨first, started, hs, hp⟩ := draft_ok h
  obtain ⟨source, operations⟩ := query
  simp only [Query.OnColumns, branchesOnColumns] at hc
  obtain ⟨⟨type, ht, hplain, hsteps⟩, -⟩ := hc
  have hheader : (Listing.ofSource D db catalog source).header = .ofType type := by
    simp only [Listing.ofSource, ht]
  exact pipeline_shows operations (start_shows ht hplain hs) (hheader ▸ hsteps)
    (pending_start hs ▸ hf) hp

/-- The select of a query has the rows that its operations give one at a time, as long as the
skips of each run, with projections between them or not, drop fewer rows than an offset can. -/
theorem rows_select (D : Domain δ) (db : Database δ) (catalog : Catalog) (query : Query)
    (select : Sql.Select) (h : Compile.select catalog query = .ok select)
    (hc : query.OnColumns catalog) (hf : query.SkipsFit Operation.isProjection) :
    select.rows D db [] = (Listing.ofQuery D db catalog query).rows := by
  obtain ⟨result, last, hd, rfl⟩ := select_ok h
  exact (draft_shows hc hf hd).rows

/-- Users by their age, the first two in the order of names left out and one user added. -/
def usersByAge : Query :=
  ⟨{ objectType := "User" },
    [.filter (.comparison "age" .greaterOrEqual (.integer 17)), .orderBy "name" .descending,
     .skip 1, .project ["id", "age"], .skip 1, .take 5, .rename "age" "years",
     .union [⟨{ objectType := "User", ids := some [1] },
       [.project ["id", "age"], .rename "age" "years"]⟩],
     .groupBy "user.years", .nest "all"]⟩

/-- A database with one table of users. -/
def tableOf (users : List (Record Datum)) : Database Datum := fun name =>
  if name.table = SocialGraph.user.table then users else []

theorem rows_select_usersByAge :
    ∃ select, Compile.select SocialGraph.catalog usersByAge = .ok select ∧
      usersByAge.OnColumns SocialGraph.catalog ∧ usersByAge.SkipsFit Operation.isProjection ∧
      select.rows Datum.domain (tableOf [[("id", some (.integer 1))]]) []
        = (Listing.ofQuery Datum.domain (tableOf [[("id", some (.integer 1))]])
            SocialGraph.catalog usersByAge).rows := by
  have hok : (Compile.select SocialGraph.catalog usersByAge).isOk = true := by decide +kernel
  obtain ⟨select, h⟩ := exists_of_isOk hok
  have hc : usersByAge.OnColumns SocialGraph.catalog := by
    refine ⟨⟨SocialGraph.user, rfl, ⟨rfl, by decide⟩, ?_⟩, trivial⟩
    simp only [stepsOnColumns, Operation.OnColumns, branchesOnColumns, Predicate.Within]
    refine ⟨by decide, by decide, by decide, by decide, by decide, by decide, by decide,
      ⟨⟨SocialGraph.user, rfl, ⟨rfl, by decide⟩, by decide⟩, trivial⟩, by decide⟩
  have hf : usersByAge.SkipsFit Operation.isProjection := by
    simp only [usersByAge, Query.SkipsFit, stepsSkipsFit, Operation.SkipsFit, branchesSkipsFit,
      Operation.skipped]
    decide
  exact ⟨select, h, hc, hf,
    rows_select Datum.domain _ SocialGraph.catalog usersByAge select h hc hf⟩

/-! ### Skips around a projection -/

/-- Users after the first ones, skipped in two steps with nothing but a projection between. -/
def skippedTwice : Query :=
  ⟨{ objectType := "User" }, [.skip 4294967295, .project ["id"], .skip 1]⟩

/-- A skip does not change an offset that is the greatest one already. -/
lemma skip_of_greatest {draft result : Draft} {n : UInt32} (hl : draft.limit = none)
    (hs : draft.isSealed = false) (ho : draft.offset = some 4294967295)
    (h : (draft.skip n).run counts = .ok (result, last)) : result = draft := by
  obtain ⟨base, hw, rfl⟩ := Draft.skip_ok h
  have hbase : base = draft := by
    generalize hb : (draft.limit.isSome || draft.isSealed) = b at hw
    cases hw with
    | kept => rfl
    | wrapped => simp [hl, hs] at hb
  have hadd : saturatingAdd 4294967295 n = 4294967295 := by
    refine UInt32.toNat_inj.1 ?_
    simp [saturatingAdd, UInt32.size]
  subst hbase
  simp only [ho, Option.getD_some, hadd]
  rw [← ho]

lemma length_ofSource_tableOf (users : List (Record Datum)) :
    (Listing.ofSource Datum.domain (tableOf users) SocialGraph.catalog
      { objectType := "User" }).rows.length = users.length := by
  have ht : SocialGraph.catalog.type? "User" = some SocialGraph.user := by decide
  simp only [Listing.ofSource, ht, tableOf, if_true, List.length_map]

/-- The query leaves out one row more than the greatest offset. -/
lemma length_ofQuery_skippedTwice (users : List (Record Datum)) :
    (Listing.ofQuery Datum.domain (tableOf users) SocialGraph.catalog skippedTwice).rows.length
      = users.length - 4294967295 - 1 := by
  have hlength := length_ofSource_tableOf users
  simp only [skippedTwice, Listing.ofQuery, Listing.applyAll, Listing.apply, Listing.skip,
    Listing.project, List.length_drop, List.length_map, hlength]
  rfl

/-- Its select leaves out as many rows as the greatest offset. -/
lemma length_rows_skippedTwice {select : Sql.Select} (users : List (Record Datum))
    (h : Compile.select SocialGraph.catalog skippedTwice = .ok select) :
    (select.rows Datum.domain (tableOf users) []).length = users.length - 4294967295 := by
  have ht : SocialGraph.catalog.type? "User" = some SocialGraph.user := by decide
  obtain ⟨result, last, hd, rfl⟩ := select_ok h
  obtain ⟨first, _, hstart, hp⟩ := draft_ok hd
  obtain ⟨skipped, _, hskip, hp⟩ := pipeline_cons_ok hp
  obtain ⟨projected, _, hproject, hp⟩ := pipeline_cons_ok hp
  obtain ⟨again, _, hagain, hp⟩ := pipeline_cons_ok hp
  obtain ⟨rfl, -⟩ := run_pure_eq_ok.1 hp
  simp only [operation, run_lift_eq_ok] at hskip hproject hagain
  have hfirst : Shows Datum.domain (tableOf users) [] first
      (Listing.ofSource Datum.domain (tableOf users) SocialGraph.catalog
        { objectType := "User" }) :=
    start_shows ht ⟨rfl, by decide⟩ hstart
  have hpending : first.pending + UInt32.toNat 4294967295 < UInt32.size := by
    rw [pending_start hstart]
    decide +kernel
  have hprojected := (hfirst.skip hpending hskip).project (by simp) hproject.1
  have hdone : result = projected := by
    obtain ⟨base, hw, rfl⟩ := Draft.skip_ok hskip
    obtain ⟨columns, -, rfl⟩ := Draft.project_ok hproject.1
    obtain ⟨hl, hs⟩ := hw.unlimited
    have hoffset : base.offset.getD 0 = 0 := by
      refine UInt32.toNat_inj.1 ?_
      rw [hw.offset_eq, pending_start hstart]
      rfl
    have hadd : saturatingAdd 0 4294967295 = 4294967295 := by
      refine UInt32.toNat_inj.1 ?_
      simp [saturatingAdd, UInt32.size]
    refine skip_of_greatest hl hs ?_ hagain
    rw [hoffset, hadd]
  rw [hdone, hprojected.rows]
  simp only [Listing.project, Listing.skip, List.length_map, List.length_drop,
    length_ofSource_tableOf]
  rfl

/-- If a projection ends a run of skips, the offset of a select has no room for all rows that the
runs of a query drop. -/
theorem rows_select_skippedTwice :
    ∃ select, Compile.select SocialGraph.catalog skippedTwice = .ok select ∧
      skippedTwice.OnColumns SocialGraph.catalog ∧ skippedTwice.SkipsFit (fun _ => false) ∧
      select.rows Datum.domain (tableOf (List.replicate 4294967296 [])) []
        ≠ (Listing.ofQuery Datum.domain (tableOf (List.replicate 4294967296 []))
            SocialGraph.catalog skippedTwice).rows := by
  have hok : (Compile.select SocialGraph.catalog skippedTwice).isOk = true := by decide +kernel
  obtain ⟨select, h⟩ := exists_of_isOk hok
  have hc : skippedTwice.OnColumns SocialGraph.catalog := by
    refine ⟨⟨SocialGraph.user, by decide, ⟨rfl, by decide⟩, ?_⟩, trivial⟩
    simp only [stepsOnColumns, Operation.OnColumns]
    decide
  have hf : skippedTwice.SkipsFit fun _ => false := by
    simp only [skippedTwice, Query.SkipsFit, stepsSkipsFit, Operation.SkipsFit, Operation.skipped]
    decide +kernel
  refine ⟨select, h, hc, hf, fun heq => ?_⟩
  -- One row is left by the select, none by the query.
  have hone := congrArg List.length heq
  rw [length_rows_skippedTwice _ h, length_ofQuery_skippedTwice, List.length_replicate] at hone
  omega

end ObjectGraph.Compile
