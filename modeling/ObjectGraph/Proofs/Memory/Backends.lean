/-
# The same rows from a database and from memory

A query is run twice: its select over a table, and its operations on the objects in memory.  If the
table and the graph hold the same objects, with plain values, both start from the same objects, and
as the operations keep them the same, both end with the same objects in the same order.  A select
can refer to columns that a projection left out; there the two part.
-/
import ObjectGraph.Proofs.Memory.Agreement
import ObjectGraph.Proofs.Memory.Soundness

namespace ObjectGraph

open Compile (AliasCounts Draft Shows)

variable {δ : Type} {D : Domain δ} {db : Database δ}

/-! ### Where rows come from -/

/-- An object with an identity that holds plain values in exactly the fields of its type. -/
structure Item.Exact (type : ObjectType) (id : Int64) (item : Item) : Prop where
  keys : item.keys.Perm (type.fields.keys.map normalizeKey)
  values : ∀ entry ∈ type.fields.entries, ∃ v,
    item.members.get? (normalizeKey entry.1) = some v ∧ v.Plain entry.2.type
  identity : item.id? = some (.int id.toInt)

/-- A table and a resolver that hold the same objects, each under an identity of its own. -/
structure SameTable (D : Domain δ) (table : List (Record δ)) (resolver : Resolver) (name : String)
    (type : ObjectType) (objects : List (Int64 × Item)) : Prop where
  nodup : (objects.map Prod.fst).Nodup
  exact : ∀ object ∈ objects, object.2.Exact type object.1
  resolved : ∀ history, ∀ object ∈ objects,
    resolver.object history name object.1 = .ok (some object.2)
  stored : List.Forall₂ (fun row (object : Int64 × Item) => ∀ entry ∈ type.fields.entries, ∀ v,
    object.2.members.get? (normalizeKey entry.1) = some v →
      row.cell entry.2.column = v.cell D) table objects

section Sources

variable {type : ObjectType} {name : String} {id : Int64} {item : Item} {graph : Graph}
  {objects : List (Int64 × Item)}

lemma Header.plain_ofType (hk : ∀ key ∈ [idKey, "_type", typeKey], key ∉ type.fields.keys) :
    (Header.ofType type).Plain := by
  refine ⟨Header.names_ofType type ▸ type.fields.nodup, fun name hm hmem => ?_⟩
  rw [Header.names_ofType] at hm
  exact hk name hmem hm

/-- An object is the same as the row of its fields. -/
lemma Item.Exact.represents {row : Record δ} (h : item.Exact type id)
    (hrow : ∀ entry ∈ type.fields.entries, ∀ v,
      item.members.get? (normalizeKey entry.1) = some v → row.cell entry.2.column = v.cell D) :
    Represents D (.ofType type) (Record.ofType type row) item where
  names := by
    simp only [Record.ofType, Header.ofType, Header.names, List.map_map]
    rfl
  keys := by
    rw [Header.names_ofType]
    exact h.keys
  cells := List.forall_mem_map.2 fun entry he => by
    obtain ⟨v, hget, hv⟩ := h.values entry he
    have hcell : (Record.ofType type row).cell entry.1 = row.cell entry.2.column :=
      @Record.cell_map δ (String × Field) Prod.fst (fun entry => row.cell entry.2.column) _
        type.fields.nodup entry he
    exact ⟨entry.2.type, v, rfl, hv, hget, hcell.trans (hrow entry he v hget)⟩

/-- An object passes the check against its type. -/
lemma Item.Exact.problem?_eq_none (h : item.Exact type id) (hp : type.PlainIdentity)
    (hk : "_type" ∉ type.fields.keys) : type.problem? item.members.entries = none := by
  refine List.findSome?_eq_none_iff.2 fun entry he => ?_
  obtain ⟨v, hget, hv⟩ := h.values entry he
  have hvalue : type.valueOf item.members.entries entry.1 = some v := by
    have hget : item.members.entries.lookup (normalizeKey entry.1) = some v := hget
    rw [ObjectType.valueOf, hp.idField]
    split
    · rename_i hid
      rw [hid] at hget
      rw [show item.members.entries.lookup idKey = some v from hget, Option.some_or]
    · rename_i hid
      have htype : entry.1 ≠ "_type" := fun ht => hk (ht ▸ List.mem_map_of_mem he)
      rwa [normalizeKey, if_neg hid, if_neg htype] at hget
  have hnull := hv.ne_null
  have hfits := hv.fits
  show entry.2.problem? entry.1 (type.valueOf item.members.entries entry.1) = none
  rw [hvalue]
  cases v <;> simp_all [Field.problem?]

/-- The identity of an object is a field of its type. -/
lemma Item.Exact.identity_cell {row : Record δ} (h : item.Exact type id)
    (hk : ∀ key ∈ [idKey, "_type", typeKey], key ∉ type.fields.keys)
    (hrow : Represents D (.ofType type) (Record.ofType type row) item) :
    (Record.ofType type row).cell "id" = some (D.integer id.toInt) := by
  have hkey : idKey ∈ item.keys :=
    List.mem_map.2 ⟨_, Named.mem_of_lookup h.identity, rfl⟩
  obtain ⟨name, hname, hid⟩ := List.mem_map.1 (hrow.keys.mem_iff.1 hkey)
  have hplain := (Header.plain_ofType hk).names name hname
  have hname' : name = "id" := by
    rw [normalizeKey_eq hplain] at hid
    split at hid
    · assumption
    · exact absurd hid (by simp_all)
  obtain ⟨column, hc, rfl⟩ := List.mem_map.1 hname
  obtain ⟨_, v, -, -, hget, hcell⟩ := hrow.cells column hc
  rw [hid] at hget
  obtain rfl := Option.some.inj (h.identity.symm.trans hget)
  rw [← hname', hcell]
  rfl

/-- An integer is among others if it is one of them. -/
lemma among_integers (hD : D.Usual) (id : Int64) (ids : List Int64) :
    D.among (some (D.integer id.toInt)) (ids.map fun id => some (D.integer id.toInt))
      = some (decide (id ∈ ids)) := by
  induction ids with
  | nil => rfl
  | cons first rest ih =>
    have hfirst : D.holds .equals (some (D.integer id.toInt)) (some (D.integer first.toInt))
        = some (decide (id = first)) := by
      rw [Domain.holds, hD.integer]
      refine congrArg some (Bool.eq_iff_iff.2 ?_)
      rw [ComparisonOperator.holds, beq_iff_eq, decide_eq_true_iff, Std.compare_eq_iff_eq,
        Int64.toInt_inj]
    rw [List.map_cons, Domain.among, ih, hfirst]
    by_cases hid : id = first
    · simp [hid]
    · simp only [hid, decide_false, List.mem_cons, false_or]
      cases decide (id ∈ rest) <;> rfl

lemma filter_mem_of_sublist {α : Type} [DecidableEq α] {l chosen : List α} (hn : l.Nodup)
    (hs : chosen.Sublist l) : l.filter (· ∈ chosen) = chosen := by
  induction hs with
  | slnil => rfl
  | @cons chosen l a hs ih =>
    obtain ⟨ha, hl⟩ := List.nodup_cons.1 hn
    rw [List.filter_cons_of_neg (by simpa using fun hm => ha (hs.subset hm)), ih hl]
  | @cons_cons chosen l a hs ih =>
    obtain ⟨ha, hl⟩ := List.nodup_cons.1 hn
    rw [List.filter_cons_of_pos (by simp)]
    refine congrArg _ ((List.filter_congr fun b hb => ?_).trans (ih hl))
    have hne : b ≠ a := fun he => ha (he ▸ hb)
    simp [hne]

/-- The objects that are chosen by their identities, in the order of these. -/
lemma map_fst_filter {ids : List Int64} (hn : (objects.map Prod.fst).Nodup)
    (hs : ids.Sublist (objects.map Prod.fst)) :
    (objects.filter (·.1 ∈ ids)).map Prod.fst = ids := by
  have h := filter_mem_of_sublist hn hs
  rw [List.filter_map] at h
  exact h

/-- Asking for objects that are there gives them, whether they are checked or not. -/
lemma resolveObjects_returns (ht : graph.catalog.type? name = some type)
    (hr : ∀ history, ∀ object ∈ objects,
      graph.resolver.object history name object.1 = .ok (some object.2))
    (hv : ∀ object ∈ objects, type.problem? object.2.members.entries = none) :
    Run.Returns (graph.resolveObjects name (objects.map Prod.fst))
      (objects.map fun object => Row.ofObject object.2) := by
  have hcheck : graph.checkObjects name type
      ((objects.map Prod.fst).zip (objects.map fun object => some object.2))
        = .ok (objects.map fun object => Row.ofObject object.2) := by
    rw [List.zip_map', Graph.checkObjects_eq_ok]
    · simp [List.filterMap_map, Function.comp_def]
    · intro _ entry hentry item hitem
      obtain ⟨object, hobject, rfl⟩ := List.mem_map.1 hentry
      obtain rfl := Option.some.inj hitem
      exact hv object hobject
  have hask : Run.Returns (Run.forEach (Run.askObject graph.resolver name) (objects.map Prod.fst))
      (objects.map fun object => some object.2) :=
    Run.Returns.forEach fun object hm => Run.Returns.ask fun history => hr history object hm
  unfold Graph.resolveObjects
  rw [ht]
  exact hask.bind (Run.Returns.lift hcheck)

/-- The rows of the objects that are chosen by their identities agree with these objects. -/
lemma Agrees.source {catalog : Catalog} {resolver : Resolver} {ids : List Int64} (hD : D.Usual)
    (ht : catalog.type? name = some type) (hp : type.PlainIdentity)
    (hk : ∀ key ∈ [idKey, "_type", typeKey], key ∉ type.fields.keys)
    (hs : SameTable D (db ⟨type.schema, type.table⟩) resolver name type objects)
    (hids : ids.Sublist (objects.map Prod.fst)) (hn : ids.length < 0x8000000000000000) :
    Agrees D (.ofSource D db catalog { objectType := name, ids := some ids })
      ⟨(objects.filter (·.1 ∈ ids)).map fun object => .ofObject object.2, some name⟩ := by
  have hrows : List.Forall₂ (fun record (object : Int64 × Item) =>
      (D.among (record.cell type.idField) (ids.map fun id => some (D.integer id.toInt))
          == some true) = decide (object.1 ∈ ids) ∧
        Represents D (.ofType type) record object.2)
      ((db ⟨type.schema, type.table⟩).map (Record.ofType type)) objects := by
    have hexact := (List.forall₂_and_left _ _).2 ⟨hs.exact, hs.stored.flip⟩
    refine List.forall₂_map_left_iff.2 (hexact.flip.imp fun row object h => ?_)
    have hrepresents := h.1.represents h.2
    refine ⟨?_, hrepresents⟩
    rw [hp.idField, h.1.identity_cell hk hrepresents, among_integers hD]
    cases decide (object.1 ∈ ids) <;> rfl
  -- The database keeps rows by their identity, memory objects by their place in the list.
  have hchosen := List.rel_filter (fun record object h => Bool.eq_iff_iff.1 h.1) hrows
  have hlength : (objects.filter (·.1 ∈ ids)).length = ids.length :=
    (List.length_map _).symm.trans (congrArg List.length (map_fst_filter hs.nodup hids))
  simp only [Listing.ofSource, ht]
  refine ⟨Header.plain_ofType hk, ?_, ?_⟩
  · exact List.forall₂_map_right_iff.2 (hchosen.imp fun record object h => h.2)
  · exact (hchosen.length_eq.trans hlength).trans_lt hn

end Sources

/-! ### Whole queries -/

lemma Graph.execute_of_returns {graph : Graph} {query : Query} {rows : Rows}
    (h : Run.Returns (graph.rows query) rows) : graph.execute query = .ok ⟨rows.items⟩ := by
  have hrun : graph.execute query
      = ((graph.rows query).run.run []).1.map fun rows => ⟨rows.items⟩ := rfl
  rw [hrun, h []]
  rfl

/-- The objects of a type with the given identities, after some operations. -/
def Query.ofIds (name : String) (ids : List Int64) (steps : List Operation) : Query :=
  ⟨{ objectType := name, ids := some ids }, steps⟩

/-- A select over a table and a run over the same objects in memory give the same objects in the
same order, as long as every operation names only columns that are still there. -/
theorem execute_same (D : Domain δ) (db : Database δ) (hD : D.Usual) (hsorts : D.Sorts)
    (graph : Graph) (name : String) (type : ObjectType) (objects : List (Int64 × Item))
    (ids : List Int64) (steps : List Operation) (select : Sql.Select)
    (ht : graph.catalog.type? name = some type) (hid : type.idField = "id")
    (hk : ∀ key ∈ [idKey, "_type", typeKey], key ∉ type.fields.keys)
    (hs : SameTable D (db ⟨type.schema, type.table⟩) graph.resolver name type objects)
    (hids : ids.Sublist (objects.map Prod.fst)) (hn : ids.length < 0x8000000000000000)
    (hp : ∀ step ∈ steps, step.Plain)
    (hc : stepsOnColumns graph.catalog (.ofType type) steps)
    (hskips : totalSkips steps < UInt32.size)
    (hselect : Compile.select graph.catalog (.ofIds name ids steps) = .ok select) :
    ∃ response, graph.execute (.ofIds name ids steps) = .ok response ∧
      List.Forall₂ (SameObject D) (select.rows D db []) response.items := by
  have hplain : type.PlainIdentity := ⟨hid, hk idKey (by simp)⟩
  obtain ⟨result, last, hd, rfl⟩ := Compile.select_ok hselect
  obtain ⟨first, started, hstart, hrun⟩ := Compile.draft_ok hd
  have hshows : Shows D db [] first (.ofSource D db graph.catalog _) :=
    Compile.start_shows ht hplain hstart
  have hagrees := Agrees.source hD ht hplain hk hs hids hn
  have hheader : (Listing.ofSource D db graph.catalog
      { objectType := name, ids := some ids }).header = .ofType type := by
    simp only [Listing.ofSource, ht]
  have hfit : stepsSkipsFit Operation.isProjection first.pending steps := by
    rw [Compile.pending_start hstart]
    exact stepsSkipsFit_of_sum hp (by rwa [Nat.zero_add])
  have hlast := hagrees.pipeline hD hsorts hshows hp (hheader ▸ hc) hfit hrun
  have hrows := (Compile.pipeline_shows steps hshows (hheader ▸ hc) hfit hrun).rows
  have hresolve : Run.Returns (graph.resolveObjects name ids)
      ((objects.filter (·.1 ∈ ids)).map fun object => Row.ofObject object.2) := by
    have h := @resolveObjects_returns type name graph (objects.filter (·.1 ∈ ids)) ht
      (fun history object hm => hs.resolved history object (List.mem_of_mem_filter hm))
      (fun object hm => (hs.exact object (List.mem_of_mem_filter hm)).problem?_eq_none hplain
        (hk "_type" (by simp)))
    rwa [map_fst_filter hs.nodup hids] at h
  have hreturns : Run.Returns (graph.rows (.ofIds name ids steps)) _ :=
    ((Run.Returns.pure ids).bind
      (hresolve.bind (Run.Returns.pure (Rows.mk _ (some name))))).bind
        (Graph.pipeline_returns hp)
  refine ⟨_, Graph.execute_of_returns hreturns, ?_⟩
  rw [hrows]
  exact List.forall₂_map_right_iff.2 (hlast.rows.imp fun _ _ h => h.sameObject hlast.header)

/-! ### Users in a table and in memory -/

/-- The row of a user. -/
def userRow (id : Int64) : Record Datum :=
  [("id", some (.integer id.toInt)), ("name", some (.text ("id" ++ toString id.toInt))),
   ("age", some (.integer (16 + id.toInt % 3)))]

/-- The first users by their identities. -/
def firstUsers : List (Int64 × Item) := [1, 2].map fun id => (id, SocialGraph.userItem id.toInt)

/-- The graph of the first users, checked against their type. -/
def userGraph : Graph := ⟨SocialGraph.catalog, SocialGraph.resolver 3, true⟩

lemma entries_user : SocialGraph.user.fields.entries
    = [("id", { column := "id", type := .bigint, nullable := false }),
       ("name", { column := "name", type := .text }),
       ("age", { column := "age", type := .integer })] := by decide

lemma exact_userItem (id : Int64) :
    (SocialGraph.userItem id.toInt).Exact SocialGraph.user id := by
  have hage : (Json.int64? (16 + id.toInt % 3)).isSome = true :=
    Json.isSome_int64? (by omega) (by omega)
  refine ⟨?_, ?_, rfl⟩
  · show List.Perm [":id", "name", "age"] _
    decide
  · rw [entries_user]
    simp only [List.forall_mem_cons]
    exact ⟨⟨_, rfl, .integer (.inl rfl) (by rw [Json.int64?_toInt]; rfl)⟩, ⟨_, rfl, .text rfl⟩,
      ⟨_, rfl, .integer (.inl rfl) hage⟩, by simp⟩

lemma sameTable_users : SameTable Datum.standard ([1, 2].map userRow) userGraph.resolver "User"
    SocialGraph.user firstUsers where
  nodup := by decide
  exact := by
    rw [firstUsers, List.forall_mem_map]
    exact fun id _ => exact_userItem id
  resolved history := by
    rw [firstUsers, List.forall_mem_map]
    intro id hm
    rcases List.mem_pair.1 hm with rfl | rfl <;> rfl
  stored := by
    rw [firstUsers, List.forall₂_map_left_iff, List.forall₂_map_right_iff, List.forall₂_same]
    intro id _
    rw [entries_user]
    simp only [List.forall_mem_cons]
    refine ⟨fun v hv => ?_, fun v hv => ?_, fun v hv => ?_, by simp⟩ <;>
    · obtain rfl := Option.some.inj hv
      rfl

/-- The users of at least seventeen years without the first of them by name. -/
def olderUsers : List Operation :=
  [.filter (.comparison "user.age" .greaterOrEqual (.integer 17)), .orderBy "name" .descending,
   .skip 1, .project ["id", "age"], .take 5]

theorem execute_same_olderUsers :
    ∃ select response, Compile.select SocialGraph.catalog (.ofIds "User" [1, 2] olderUsers)
        = .ok select ∧
      userGraph.execute (.ofIds "User" [1, 2] olderUsers) = .ok response ∧
      List.Forall₂ (SameObject Datum.standard)
        (select.rows Datum.standard (Compile.tableOf ([1, 2].map userRow)) []) response.items := by
  have hok :
      (Compile.select SocialGraph.catalog (.ofIds "User" [1, 2] olderUsers)).isOk = true := by
    decide +kernel
  obtain ⟨select, hselect⟩ := Compile.exists_of_isOk hok
  have ht : userGraph.catalog.type? "User" = some SocialGraph.user := by decide
  have hplain : ∀ step ∈ olderUsers, step.Plain := by
    simp [olderUsers, Operation.Plain, Predicate.NullFree]
  have hc : stepsOnColumns userGraph.catalog (.ofType SocialGraph.user) olderUsers := by
    simp only [olderUsers, stepsOnColumns, Operation.OnColumns, Predicate.Within]
    decide
  obtain ⟨response, hexecute, hsame⟩ := execute_same Datum.standard
    (Compile.tableOf ([1, 2].map userRow)) Datum.standard_standard.usual Datum.standard_sorts
    userGraph "User" SocialGraph.user firstUsers [1, 2] olderUsers select ht rfl (by decide)
    sameTable_users (by decide) (by decide) hplain hc (by decide) hselect
  exact ⟨select, response, hselect, hexecute, hsame⟩

/-- A projection after which the age is still asked for. -/
def hiddenAge : List Operation :=
  [.project ["id", "name"], .filter (.comparison "age" .greaterOrEqual (.integer 16))]

/-- A select sees the columns of the table that a projection left out, a run in memory does not. -/
theorem execute_same_hiddenAge :
    (∀ step ∈ hiddenAge, step.Plain) ∧
      SameTable Datum.standard ([1, 2].map userRow) userGraph.resolver "User" SocialGraph.user
        firstUsers ∧
      ∃ select response, Compile.select SocialGraph.catalog (.ofIds "User" [1] hiddenAge)
          = .ok select ∧
        userGraph.execute (.ofIds "User" [1] hiddenAge) = .ok response ∧
        ¬ List.Forall₂ (SameObject Datum.standard)
          (select.rows Datum.standard (Compile.tableOf ([1, 2].map userRow)) [])
          response.items := by
  have hselect : (Compile.select SocialGraph.catalog (.ofIds "User" [1] hiddenAge)).toOption.map
      (fun select => (select.rows Datum.standard (Compile.tableOf ([1, 2].map userRow)) []).length)
        = some 1 := by decide +kernel
  have hexecute : (userGraph.execute (.ofIds "User" [1] hiddenAge)).toOption.map
      (fun response => response.items.length) = some 0 := by decide +kernel
  refine ⟨by simp [hiddenAge, Operation.Plain, Predicate.NullFree], sameTable_users, ?_⟩
  cases hs : Compile.select SocialGraph.catalog (.ofIds "User" [1] hiddenAge) with
  | error e =>
    rw [hs] at hselect
    cases hselect
  | ok select =>
    cases he : userGraph.execute (.ofIds "User" [1] hiddenAge) with
    | error e =>
      rw [he] at hexecute
      cases hexecute
    | ok response =>
      rw [hs] at hselect
      rw [he] at hexecute
      refine ⟨select, response, rfl, rfl, fun hsame => ?_⟩
      -- One row is left by the select, no item in memory.
      have hlength := (Option.some.inj hselect).symm.trans
        (hsame.length_eq.trans (Option.some.inj hexecute))
      cases hlength

end ObjectGraph
