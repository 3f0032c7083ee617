/-
# What edges start from

An edge ties the objects it reaches to the rows of a draft by expressions over these rows.  As long
as a query only filters, sorts and cuts rows and chooses and renames columns, each of its rows is
made from one stored object, and each column holds the same field of this object in all rows.  So
an expression has the value of a field of the object; it is the field the edge asks for unless a
column was given a name that answers for it.
-/
import ObjectGraph.Proofs.Compile.Origins
import ObjectGraph.Proofs.Compile.Regular
import ObjectGraph.Proofs.Memory.Conditions
import ObjectGraph.Proofs.Sql.Provenance

namespace ObjectGraph

open Compile (Label)

/-- Whether every row after an operation is made from one row before it. -/
def Operation.isRowwise : Operation → Bool
  | project _ | filter _ | take _ | skip _ | rename _ _ | orderBy _ _ => true
  | _ => false

/-- Whether an operation gives no column a name that answers to a reference. -/
def Operation.Spares (reference : String) : Operation → Prop
  | rename _ new => (Label.called (unqualified new)).answersTo (unqualified reference) = false
  | _ => True

/-- Whether a reference is the name of a field, and no part of it or of another field is taken
for something else. -/
structure ObjectType.Names (type : ObjectType) (reference : String) : Prop where
  declared : (type.lookupField reference).isSome = true
  plain : unqualified reference = reference
  marked : reference = idKey → idKey ∈ type.fields.keys → type.idField = idKey

/-- The name of a field means no other one. -/
lemma ObjectType.Names.lookupField_of_means {type : ObjectType} {reference : String}
    {entry : String × Field} (h : type.Names reference) (ha : type.NamesApart)
    (hm : type.Means reference entry) : type.lookupField reference = some entry := by
  obtain ⟨found, hfound⟩ := Option.isSome_iff_exists.1 h.declared
  obtain ⟨field, hfield, rfl⟩ := Option.map_eq_some_iff.1 hfound
  obtain ⟨hentry, hname⟩ := hm
  have hkey : entry.1 ∈ type.fields.keys := List.mem_map_of_mem hentry
  have hsame : entry.1 = if reference = idKey then type.idField else reference := by
    rw [h.plain] at hname
    split
    · rename_i hreference
      rcases hname with hname | hname
      · rw [hname, hreference, h.marked hreference (by rw [← hreference, ← hname]; exact hkey)]
      · exact hname.1
    · rename_i hreference
      rcases hname with hname | ⟨hname, hid⟩
      · exact hname
      · -- a field called `id` beside another identity is ruled out
        have hid : reference = "id" := by simpa [hreference] using hid
        rw [if_neg hreference] at hfield
        have hdeclared : "id" ∈ type.fields.keys :=
          hid ▸ List.mem_map_of_mem (OrderedMap.get?_eq_some.1 hfield)
        by_contra hne
        exact ha (hname ▸ hkey) (fun hidField => hne (by rw [hname, hidField, hid]; rfl)) hdeclared
  have hget : type.fields.get? entry.1 = some entry.2 := OrderedMap.get?_eq_some.2 hentry
  simp only [ObjectType.lookupField, ← hsame, hget, Option.map_some]

namespace Compile

open Sql (Expression Relation RowEnvironment TableAlias)

variable {δ : Type} {D : Domain δ} {db : Database δ} {around : RowEnvironment δ}
  {counts last : AliasCounts} {catalog : Catalog}

/-! ### The two ends of an edge -/

/-- The draft whose rows an edge leaves from, with the edge and what ties its objects to them. -/
def departure (catalog : Catalog) (draft : Draft) (name : String) : Build (Draft × Edge × Tie) := do
  let base ← draft.wrapIf draft.isSealed
  return (base, ← follow catalog base name)

/-- The column of an edge, from what ties its objects to the rows it leaves from. -/
def arrival (catalog : Catalog) (name : String) (edge : Edge) (tie : Tie)
    (inner : List Operation) : Build Column := do
  let reached ← pipeline catalog (← start catalog edge.target none (some tie)) inner
  edgeColumn name edge.cardinality reached

/-- Following an edge is leaving the rows of a draft and arriving with a column. -/
lemma operation_edge_eq (draft : Draft) (name : String) (inner : List Operation) :
    operation catalog draft (.edge name inner) = (do
      let (base, edge, tie) ← departure catalog draft name
      return base.attach (← arrival catalog name edge tie inner)) := by
  simp only [operation, departure, arrival, bind_assoc, pure_bind]

/-! ### Fields that references end up at -/

/-- The field of the stored objects that a reference ends up at: the one its column holds, or one
that has no column. -/
def Origins.field? (type : ObjectType) (origins : Origins) (reference : String) : Option Field :=
  match origins.find? reference with
  | some (.field field) => some field
  | some _ => none
  | none =>
    (type.lookupField (if unqualified reference = identityColumn then idKey
      else unqualified reference)).map Prod.snd

namespace Origins

variable {type : ObjectType} {origins : Origins} {reference : String} {field : Field}

lemma mem_of_mem_pick {references : List String} {picked : Origins} {entry : Label × Origin}
    (h : entry ∈ origins.pick picked references) : entry ∈ picked ∨ entry ∈ origins := by
  induction references generalizing picked with
  | nil => exact .inl h
  | cons reference rest ih =>
    simp only [pick] at h
    split at h
    · exact ih h
    · rename_i found hf
      split at h
      · exact ih h
      · rcases ih h with hp | ho
        · rcases List.mem_append.1 hp with hp | hp
          · exact .inl hp
          · rw [List.mem_singleton.1 hp]
            exact .inr (List.mem_of_find?_eq_some hf)
        · exact .inr ho

lemma mem_of_mem_renameFirst {old new : String} {entry : Label × Origin}
    (h : entry ∈ origins.renameFirst old new) : entry ∈ origins ∨ entry.1 = .called new := by
  induction origins with
  | nil => cases h
  | cons first rest ih =>
    simp only [renameFirst] at h
    split at h
    · rcases List.mem_cons.1 h with rfl | h
      · exact .inr rfl
      · exact .inl (List.mem_cons_of_mem _ h)
    · rcases List.mem_cons.1 h with rfl | h
      · exact .inl List.mem_cons_self
      · exact (ih h).imp_left (List.mem_cons_of_mem _)

/-- What answers to a reference in the end answered to it from the start, if no column is given
such a name. -/
lemma mem_of_mem_afterAll {steps : List Operation} (hs : ∀ step ∈ steps, step.isRowwise = true)
    (hr : ∀ step ∈ steps, step.Spares reference) {entry : Label × Origin}
    (ha : entry.1.answersTo (unqualified reference) = true)
    (h : entry ∈ origins.afterAll steps) : entry ∈ origins := by
  induction steps generalizing origins with
  | nil => exact h
  | cons step rest ih =>
    obtain ⟨hstep, hrest⟩ := List.forall_mem_cons.1 hs
    obtain ⟨hspares, hothers⟩ := List.forall_mem_cons.1 hr
    have hafter : entry ∈ origins.after step := ih hrest hothers h
    cases step with
    | project fields => exact (mem_of_mem_pick hafter).resolve_left (List.not_mem_nil)
    | rename old new =>
      refine (mem_of_mem_renameFirst hafter).resolve_right fun hcalled => ?_
      rw [hcalled] at ha
      exact absurd (hspares.symm.trans ha) (by decide)
    | filter _ | take _ | skip _ | orderBy _ _ => exact hafter
    | count | nest _ | groupBy _ | edge _ _ | union _ => cases hstep

/-- A reference ends up at a field that it means, if no column is given a name that answers to
it. -/
lemma means_of_field? {steps : List Operation} (hs : ∀ step ∈ steps, step.isRowwise = true)
    (hr : ∀ step ∈ steps, step.Spares reference)
    (h : field? type ((ofType type).afterAll steps) reference = some field) :
    ∃ name, type.Means reference (name, field) := by
  unfold field? at h
  split at h
  · rename_i found hfound
    cases h
    obtain ⟨⟨label, origin⟩, hentry, rfl⟩ := Option.map_eq_some_iff.1 hfound
    have hanswers := List.find?_some hentry
    have hmem := mem_of_mem_afterAll hs hr hanswers (List.mem_of_find?_eq_some hentry)
    obtain ⟨⟨name, found⟩, hfield, heq⟩ := List.mem_map.1 hmem
    cases heq
    refine ⟨name, hfield, ?_⟩
    simpa [Label.answersTo, identityColumn, or_comm] using hanswers
  · cases h
  · obtain ⟨entry, hentry, rfl⟩ := Option.map_eq_some_iff.1 h
    exact ⟨entry.1, ObjectType.means_of_lookupField hentry⟩

end Origins

/-! ### Columns that hold fields -/

/-- An expression that has, in the rows of a relation and below any other aliases, the value of a
field of the stored rows behind them. -/
def ReadsField (D : Domain δ) (db : Database δ) (around : RowEnvironment δ) (relation : Relation)
    (e : Expression) (field : Field) : Prop :=
  ∀ row ∈ relation.traced D db around, ∀ (inner : RowEnvironment δ)
    (group : List (RowEnvironment δ)), (∀ entry ∈ inner, entry.1 ≠ relation.handle) →
      e.eval D db (inner ++ (relation.handle, row.1) :: around) group = row.2.cell field.column

/-- A column that holds a field of the stored rows. -/
def HoldsField (D : Domain δ) (db : Database δ) (around : RowEnvironment δ) (relation : Relation)
    (column : Column) (origin : Origin) : Prop :=
  ∃ field, origin = .field field ∧ ReadsField D db around relation column.expression field

/-- A draft each of whose rows is made from one stored object of a type, with columns that hold
fields of it. -/
structure Traces (D : Domain δ) (db : Database δ) (around : RowEnvironment δ) (name : String)
    (type : ObjectType) (draft : Draft) (origins : Origins) : Prop where
  type_eq : draft.type = some name
  stored : draft.readsTable = true → ∃ handle, draft.relation = .table (tableName type) handle
  rows : (draft.relation.traced D db around).map Prod.fst = draft.relation.rows D db around
  objects : ∀ row ∈ draft.relation.traced D db around, row.2 ∈ db (tableName type)
  plain : draft.groupBy = [] ∧ ∀ column ∈ draft.columns, column.expression.aggregates = false
  holds : Hold (HoldsField D db around draft.relation) draft.columns origins

section Traces

variable {name : String} {type : ObjectType} {draft base result : Draft} {origins : Origins}

lemma start_traces {ids : Option (List Int64)} {tied : Option Tie}
    (ht : catalog.type? name = some type)
    (h : (start catalog name ids tied).run counts = .ok (result, last)) :
    Traces D db around name type result (.ofType type) := by
  obtain ⟨found, condition, chosen, hfound, -, -, rfl⟩ := start_ok h
  obtain rfl : type = found := Option.some.inj (ht.symm.trans hfound)
  refine ⟨rfl, fun _ => ⟨_, rfl⟩, ?_, ?_, ⟨rfl, aggregates_ofType _⟩, hold_ofType ?_⟩
  · simp only [startDraft, Relation.traced, Relation.rows, List.map_map]
    exact List.map_id _
  · exact List.forall_mem_map.2 fun row hr => hr
  · intro column field _ he _
    refine ⟨field, rfl, List.forall_mem_map.2 fun row _ inner group hinner => ?_⟩
    rw [he, Expression.eval]
    exact Sql.cell_append hinner

/-- Reading a draft through an alias keeps what its columns hold, as no two have the same name. -/
lemma Traces.wrapped (h : Traces D db around name type draft origins) (hn : draft.names.Nodup)
    (handle : TableAlias) : Traces D db around name type (draft.wrapped handle) origins := by
  have ha : draft.aggregates = false := by simpa [Draft.aggregates] using h.plain.2
  refine ⟨h.type_eq, by simp [Draft.wrapped], ?_, fun row hrow => ?_,
    ⟨rfl, List.forall_mem_map.2 fun _ _ => rfl⟩, h.holds.map _ fun column hc => ⟨rfl, ?_⟩⟩
  · simp only [Draft.wrapped, Relation.traced, Relation.rows]
    exact Draft.fst_traced_finish h.plain.1 ha h.rows
  · obtain ⟨read, hread, rfl⟩ := Draft.mem_traced_finish h.plain.1 ha hrow
    exact h.objects read hread
  · rintro origin ⟨field, rfl, hreads⟩
    refine ⟨field, rfl, fun row hrow inner group hinner => ?_⟩
    obtain ⟨read, hread, rfl⟩ := Draft.mem_traced_finish h.plain.1 ha hrow
    have hcell : Record.cell (Draft.record D db draft.columns
        ⟨(draft.handle, read.1) :: around, []⟩) column.name = read.2.cell field.column :=
      (Record.cell_map hn hc).trans (hreads read hread [] [] (List.forall_mem_nil _))
    rw [Column.through, Expression.eval, ← hcell]
    exact Sql.cell_append hinner

lemma Traces.wraps {condition : Bool} (h : Traces D db around name type draft origins)
    (hn : draft.names.Nodup) (hw : Draft.Wraps counts draft condition base last) :
    Traces D db around name type base origins := by
  cases hw with
  | kept => exact h
  | wrapped => exact h.wrapped hn _

/-- One step of a query that makes each row from one row. -/
lemma operation_traces {step : Operation} (hs : step.isRowwise = true)
    (h : Traces D db around name type draft origins) (ha : draft.Apart)
    (ho : (operation catalog draft step).run counts = .ok (result, last)) :
    Traces D db around name type result (origins.after step) := by
  have hn := ha.nodup_names
  cases operation_ok ho with
  | @project _ columns hc =>
    have hplain : ∀ column ∈ columns, column.expression.aggregates = false := fun column hm =>
      h.plain.2 column (Draft.pick_subset hc hm)
    exact { h with
      plain := ⟨h.plain.1, hplain⟩
      holds := h.holds.pick ha.labelled (List.forall_mem_nil _) .nil hc }
  | rename hc =>
    refine { h with plain := ⟨h.plain.1, fun column hm => ?_⟩, holds := ?_ }
    · obtain ⟨original, horiginal, he⟩ := Draft.renameFirst_expression hc column hm
      exact he ▸ h.plain.2 original horiginal
    · exact h.holds.renameFirst (fun _ _ hfield => hfield) hc
  | filter hw | take hw | skip hw | orderBy hw => exact { h.wraps hn hw with }
  | count | nest | groupBy | edge | union => cases hs

lemma pipeline_traces {steps : List Operation} (hs : ∀ step ∈ steps, step.isRowwise = true)
    (h : Traces D db around name type draft origins) (hn : draft.Apart)
    (ha : stepsNamesApart catalog draft.layout steps)
    (hp : (pipeline catalog draft steps).run counts = .ok (result, last)) :
    Traces D db around name type result (origins.afterAll steps) ∧ result.Apart := by
  induction steps generalizing draft origins counts with
  | nil =>
    obtain ⟨rfl, -⟩ := run_pure_eq_ok.1 hp
    exact ⟨h, hn⟩
  | cons step rest ih =>
    obtain ⟨hstep, hrest⟩ := List.forall_mem_cons.1 hs
    obtain ⟨next, between, ho, hp⟩ := pipeline_cons_ok hp
    obtain ⟨hlayout, -⟩ := operation_layout step hn.labelled ho
    exact ih hrest (operation_traces hstep h hn ho) (operation_apart hn ha.1 ho)
      (hlayout ▸ ha.2) hp

/-! ### References -/

/-- A reference that is resolved stands for the field it ends up at. -/
lemma Traces.resolve (h : Traces D db around name type draft origins)
    (ht : catalog.type? name = some type) {reference : String}
    {target : Expression × Option ScalarType}
    (hr : draft.resolve catalog reference = .ok target) :
    ∃ field, origins.field? type reference = some field ∧
      ReadsField D db around draft.relation target.1 field := by
  rcases h.holds.find? reference with ⟨hnone, hfind⟩ | ⟨column, origin, hcolumn, hentry, hfield⟩
  · obtain ⟨hreads, entry, hentry, rfl⟩ := Draft.resolve_stored h.type_eq ht hnone hr
    obtain ⟨handle, hrelation⟩ := h.stored hreads
    refine ⟨entry.2, by simp only [Origins.field?, hfind, hentry, Option.map_some], ?_⟩
    rw [Draft.handle, hrelation]
    refine List.forall_mem_map.2 fun row _ inner group hinner => ?_
    rw [Expression.eval]
    exact Sql.cell_append hinner
  · obtain ⟨field, rfl, hreads⟩ := hfield
    have htarget : target = (column.expression, column.type) := by
      simp only [Draft.resolve, Draft.column?, hcolumn, pure_eq_ok] at hr
      exact hr.symm
    refine ⟨field, ?_, htarget ▸ hreads⟩
    simp only [Origins.field?, Origins.find?, hentry, Option.map_some]

end Traces

/-- Each source of a mapping is resolved to the expression that its target is tied to. -/
lemma forall₂_tieColumns {draft : Draft} {entries : List (String × String)}
    {pairs : List (String × Expression)} (h : tieColumns catalog draft entries = .ok pairs) :
    List.Forall₂ (fun entry pair => pair.1 = entry.2 ∧
      ∃ target, draft.resolve catalog entry.1 = .ok target ∧ pair.2 = target.1) entries pairs := by
  induction entries generalizing pairs with
  | nil =>
    cases h
    exact .nil
  | cons entry rest ih =>
    obtain ⟨source, target⟩ := entry
    simp only [tieColumns, bind_eq_ok, pure_eq_ok] at h
    obtain ⟨found, hf, others, ho, rfl⟩ := h
    exact .cons ⟨rfl, found, hf, rfl⟩ (ih ho)

lemma departure_ok {draft base : Draft} {name : String} {edge : Edge} {tie : Tie}
    (h : (departure catalog draft name).run counts = .ok ((base, edge, tie), last)) :
    Draft.Wraps counts draft draft.isSealed base last ∧
      follow catalog base name = .ok (edge, tie) := by
  simp only [departure, run_bind_eq_ok, run_lift_eq_ok, run_pure_eq_ok] at h
  obtain ⟨base, _, hw, found, _, ⟨hf, rfl⟩, heq, rfl⟩ := h
  cases heq
  exact ⟨Draft.wrapIf_ok hw, hf⟩

/-- After operations that make each row from one row, an edge that is joined by columns leaves from
rows with one stored object of the type behind each, and the expression for every source of its
mapping has the value of a field of this object.  The field is known from the type and the
operations, and is the one of that name unless a column was given a name that answers for it. -/
theorem tie_of_edge (D : Domain δ) (db : Database δ) (around : RowEnvironment δ)
    (catalog : Catalog) (name : String) (type : ObjectType) (edge : String) (found : Edge)
    (mapping : OrderedMap String) (ht : catalog.type? name = some type)
    (he : catalog.edge? name edge = some found) (hj : found.join = .columns mapping)
    (ids : Option (List Int64)) (tied : Option Tie) (before inner : List Operation)
    (hb : ∀ step ∈ before, step.isRowwise = true) (hn : catalog.NamesApart name)
    (ha : stepsNamesApart catalog (.ofType catalog name) before)
    (counts started between last : AliasCounts) (first draft result : Draft)
    (hs : (start catalog name ids tied).run counts = .ok (first, started))
    (hp : (pipeline catalog first before).run started = .ok (draft, between))
    (ho : (operation catalog draft (.edge edge inner)).run between = .ok (result, last)) :
    ∃ base pairs column opened,
      (departure catalog draft edge).run between = .ok ((base, found, .columns pairs), opened) ∧
      (arrival catalog edge found (.columns pairs) inner).run opened = .ok (column, last) ∧
      result = base.attach column ∧
      (base.relation.traced D db around).map Prod.fst = base.relation.rows D db around ∧
      (∀ row ∈ base.relation.traced D db around, row.2 ∈ db (tableName type)) ∧
      List.Forall₂ (fun entry pair => pair.1 = entry.2 ∧ ∃ field,
        Origins.field? type ((Origins.ofType type).afterAll before) entry.1 = some field ∧
        ReadsField D db around base.relation pair.2 field ∧
        (type.Names entry.1 → (∀ step ∈ before, step.Spares entry.1) →
          ∃ n, type.lookupField entry.1 = some (n, field))) mapping.entries pairs := by
  obtain ⟨hlayout, hapart⟩ := start_apart hn hs
  have hfirst : Traces D db around name type first (.ofType type) := start_traces ht hs
  obtain ⟨htraces, hdraft⟩ := pipeline_traces hb hfirst hapart (hlayout ▸ ha) hp
  rw [operation_edge_eq, run_bind_eq_ok] at ho
  obtain ⟨⟨base, other, t⟩, opened, hdeparture, ho⟩ := ho
  simp only [run_bind_eq_ok, run_pure_eq_ok] at ho
  obtain ⟨column, _, harrival, rfl, rfl⟩ := ho
  obtain ⟨hw, hfollow⟩ := departure_ok hdeparture
  have hbase := htraces.wraps hdraft.nodup_names hw
  obtain ⟨typeName, target, htype, hedge, -, htie⟩ := follow_ok hfollow
  obtain rfl : name = typeName := Option.some.inj (hbase.type_eq.symm.trans htype)
  obtain rfl : found = other := Option.some.inj (he.symm.trans hedge)
  simp only [tie, hj, bind_eq_ok, pure_eq_ok] at htie
  obtain ⟨pairs, hpairs, rfl⟩ := htie
  refine ⟨base, pairs, column, opened, hdeparture, harrival, rfl, hbase.rows, hbase.objects, ?_⟩
  refine (forall₂_tieColumns hpairs).imp fun entry pair hentry => ?_
  obtain ⟨htarget, resolved, hr, hpair⟩ := hentry
  obtain ⟨field, hfield, hreads⟩ := hbase.resolve ht hr
  refine ⟨htarget, field, hfield, hpair ▸ hreads, fun hnames hspares => ?_⟩
  obtain ⟨n, hmeans⟩ := Origins.means_of_field? hb hspares hfield
  exact ⟨n, hnames.lookupField_of_means (hn type ht) hmeans⟩

/-- A table with one review. -/
def oneReview : Database Datum := fun table =>
  if table = tableName SocialGraph.review then
    [[("id", some (.integer 300)), ("rating", some (.integer 5)), ("author_id", some (.integer 7))]]
  else []

/-- The number and the author of reviews, under a name that is left. -/
def numberedReviews : Query :=
  ⟨{ objectType := "Review" }, [.project ["id", "author_id"], .rename "id" "number"]⟩

/-- The author of a review is found by its own field. -/
theorem tie_of_edge_author :
    ∃ draft counts base found pairs opened,
      (Compile.draft SocialGraph.catalog numberedReviews).run [] = .ok (draft, counts) ∧
      (departure SocialGraph.catalog draft "author").run counts
        = .ok ((base, found, .columns pairs), opened) ∧
      List.Forall₂ (fun entry pair => pair.1 = entry.2 ∧ ∃ n field,
        SocialGraph.review.lookupField entry.1 = some (n, field) ∧
        ReadsField Datum.domain oneReview [] base.relation pair.2 field)
        [("author_id", "id")] pairs := by
  have hok : (Compile.select SocialGraph.catalog ⟨numberedReviews.source,
      numberedReviews.operations ++ [.edge "author" []]⟩).isOk = true := by decide +kernel
  have hapart : numberedReviews.NamesApart SocialGraph.catalog :=
    Query.namesApart_iff.2 (by decide +kernel)
  have hnames : SocialGraph.review.Names "author_id" := ⟨by decide, by decide, by decide⟩
  have hspares : ∀ step ∈ numberedReviews.operations, step.Spares "author_id" := by
    simp [numberedReviews, Operation.Spares, Label.called, Label.answersTo]
    decide
  obtain ⟨select, hselect⟩ := exists_of_isOk hok
  obtain ⟨first, started, draft, between, result, last, hs, hp, hbehind, -, -⟩ :=
    select_append_ok hselect
  obtain ⟨next, _, ho, -⟩ := pipeline_cons_ok hbehind
  obtain ⟨base, pairs, -, opened, hdeparture, -, -, -, -, hpairs⟩ :=
    tie_of_edge Datum.domain oneReview [] SocialGraph.catalog "Review" SocialGraph.review "author"
      _ (.ofList [("author_id", "id")]) rfl rfl rfl none none numberedReviews.operations []
      (by decide) hapart.1 hapart.2 [] started between _ first draft next hs hp ho
  have hdraft : (Compile.draft SocialGraph.catalog numberedReviews).run []
      = .ok (draft, between) := by
    simp only [Compile.draft, run_bind_eq_ok]
    exact ⟨first, started, hs, hp⟩
  cases hpairs with
  | cons hpair hnil =>
    cases hnil
    obtain ⟨htarget, field, -, hreads, hfield⟩ := hpair
    obtain ⟨n, hlookup⟩ := hfield hnames hspares
    exact ⟨draft, between, base, _, _, opened, hdraft, hdeparture,
      .cons ⟨htarget, n, field, hlookup, hreads⟩ .nil⟩

/-- The author of a review is looked for by its rating, if the rating is renamed so. -/
theorem tie_of_edge_rating :
    ∃ draft counts base found e opened,
      (Compile.draft SocialGraph.catalog ⟨{ objectType := "Review" },
        [.project ["id", "rating"], .rename "rating" "author_id"]⟩).run [] = .ok (draft, counts) ∧
      (departure SocialGraph.catalog draft "author").run counts
        = .ok ((base, found, .columns [("id", e)]), opened) ∧
      ∃ row ∈ base.relation.traced Datum.domain oneReview [],
        e.eval Datum.domain oneReview [(base.relation.handle, row.1)] [] = some (.integer 5) ∧
        row.2.cell "author_id" = some (.integer 7) :=
  ⟨_, _, _, _, _, _, rfl, rfl, _, List.mem_cons_self, rfl, rfl⟩

end Compile
end ObjectGraph
