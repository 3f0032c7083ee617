/-
# Rows that are collected

A part that collects its matches does so before the clause that sorts, so that the lists hold the
matches as they are found.  The keys that an earlier sort has left are dropped instead of being
refused, and groups are lists of whole nodes, whatever was chosen before; only a list of all
matches is made of what was chosen.  What the operations before return is made of the same
matches, but sorted and with the columns that were chosen.
-/
import ObjectGraph.Proofs.Cypher.Renaming
import ObjectGraph.Proofs.Cypher.Statements

namespace ObjectGraph

variable {δ : Type}

/-- Whether two records have the same cells under the same names. -/
def Record.Same (record other : Record δ) : Prop :=
  (∀ name, name ∈ record.map Prod.fst ↔ name ∈ other.map Prod.fst) ∧
    ∀ name, record.cell name = other.cell name

lemma Record.Same.refl (record : Record δ) : record.Same record :=
  ⟨fun _ => .rfl, fun _ => rfl⟩

/-- The cells of some names, one of them perhaps twice. -/
lemma Record.cell_map_names (names : List String) (record : Record δ) (name : String) :
    Record.cell (names.map fun name => (name, record.cell name)) name
      = if name ∈ names then record.cell name else none := by
  induction names with
  | nil => rfl
  | cons first rest ih =>
    by_cases hname : name = first
    · subst hname
      rw [List.map_cons, Record.cell_cons_self, if_pos List.mem_cons_self]
    · rw [List.map_cons, Record.cell_cons_of_ne hname, ih]
      simp only [List.mem_cons, hname, false_or]

/-- Names that are chosen twice are chosen. -/
lemma Record.same_choose (names : List String) (record : Record δ) :
    Record.Same (names.map fun name => (name, record.cell name)) (record.choose names) := by
  refine ⟨fun name => ?_, fun name => ?_⟩
  · rw [Record.names_choose, List.mem_eraseDups, List.map_map]
    exact (List.mem_map.trans ⟨fun ⟨_, hm, he⟩ => he ▸ hm, fun hm => ⟨name, hm, rfl⟩⟩)
  · rw [Record.choose, Record.cell_map_names, Record.cell_map_names]
    simp only [List.mem_eraseDups]

/-- The rows gathered by a cell, in the order of the cell. -/
def gather (D : Domain δ) (cell : Record δ → Cell δ) (rows : List (Record δ)) :
    List (Record δ) :=
  let order a b := D.directed .ascending (cell a) (cell b)
  (Stable.runs order (Stable.sort order rows)).map fun group =>
    [("key", cell (group.headD [])), ("items", Listing.array D group)]

/-- Gathering puts one group behind another as their first rows are sorted. -/
lemma gather_map {D : Domain δ} {α : Type} (cell : Record δ → Cell δ) (f : α → Record δ)
    (l : List α) {order : α → α → Ordering}
    (ho : order = fun a b => D.directed .ascending (cell (f a)) (cell (f b))) :
    gather D cell (l.map f) = (Stable.sort order (Stable.firsts order l)).map fun a =>
      [("key", cell (f a)),
        ("items", Listing.array D ((l.filter (Stable.same order a)).map f))] := by
  have hrows : Std.TransCmp fun a b : Record δ => D.directed .ascending (cell a) (cell b) :=
    Sql.trans_on cell
  have horder : Std.TransCmp order := by
    rw [ho]
    exact Sql.trans_on fun a => cell (f a)
  rw [gather, ← Stable.classes_eq_runs (Stable.inOrder_sort _), Stable.sort_map,
    Stable.classes_map, List.map_map, ← ho, Stable.classes_sort, List.map_map]
  refine List.map_congr_left fun a ha => ?_
  have hhead := Stable.head?_filter_of_mem_firsts (Stable.mem_sort.1 ha)
  simp only [Function.comp_apply, List.headD_eq_head?_getD, List.head?_map, hhead,
    Option.map_some, Option.getD_some]

namespace Cypher

open Compile (TextCondition)

variable {D : Domain δ} {graph : Graph δ} {types : Property → Option ScalarType}
  {catalog : Catalog} {draft result : Draft} {operation : Operation}
  {operations before : List Operation} {source : Source}

/-! ### Rows made from matches -/

/-- The row of a match in a part that was not aggregated. -/
def Part.row (part : Part) (found : Match δ) : Record δ :=
  match part.returns with
  | none => found.node part.path.last.name
  | some items => (found.node part.path.last.name).choose (items.map ReturnItem.column)

/-- A draft of one node, whose columns and sort keys are properties of it. -/
structure Draft.Lists (draft : Draft) : Prop where
  hops : draft.part.path.hops = []
  limit : draft.part.limit = none
  skip : draft.part.skip = none
  columns : ∀ items ∈ draft.part.returns, ∀ item ∈ items,
    item.givenName = none ∧ item.value = .property ⟨draft.node, item.column⟩
  orderBy : ∀ key ∈ draft.part.orderBy, ∃ property, key.target = .property property

namespace Draft.Lists

lemma returned (h : draft.Lists) (found : List (Match δ)) :
    draft.part.returned D found = found.map fun found => (found, draft.part.row found) := by
  cases hreturns : draft.part.returns with
  | none => simp only [Part.returned, Part.row, hreturns]
  | some items =>
    have hitems := h.columns items hreturns
    have hcolumns : items.map (fun item => (item.column, item.value))
        = (items.map ReturnItem.column).map fun name => (name, .property ⟨draft.node, name⟩) := by
      rw [List.map_map]
      refine List.map_congr_left fun item hitem => ?_
      rw [(hitems item hitem).2]
      rfl
    rw [Shows.returned_properties hreturns hcolumns]
    simp only [Part.row, hreturns]
    rfl

/-- The rows are made of the matches for which all conditions hold, once these are sorted. -/
lemma rows_eq (h : draft.Lists) :
    draft.part.rows D types graph = (Stable.sort (D.orderBy draft.part.matchKeys)
      (draft.part.kept D types graph)).map draft.part.row := by
  rw [rows_eq_map h.orderBy h.returned types, Part.left, h.limit, h.skip, Sql.slice_none]
  rfl

end Draft.Lists

/-! ### Collected matches -/

/-- A map that is made of the columns has the cells that were chosen. -/
lemma Draft.Lists.entries_cell (h : draft.Lists) (hd : '.' ∉ draft.node.toList)
    {items : List ReturnItem} (hi : draft.part.returns = some items) (found : Match δ) :
    (items.filterMap Draft.entry?).map (fun entry => entry.cell draft.node found)
      = (items.map ReturnItem.column).map fun name =>
          (name, (found.node draft.node).cell name) := by
  have hitems := h.columns items hi
  clear hi
  induction items with
  | nil => rfl
  | cons item rest ih =>
    obtain ⟨⟨hnone, hvalue⟩, hrest⟩ := List.forall_mem_cons.1 hitems
    have hentry : Draft.entry? item = some ⟨⟨draft.node, item.column⟩, none⟩ := by
      rw [Draft.entry?, hvalue, hnone]
      rfl
    have hkey : Property.key ⟨draft.node, item.column⟩ = item.column :=
      Predicate.unqualified_append hd
    rw [List.filterMap_cons, hentry, List.map_cons, ih hrest, List.map_cons, List.map_cons,
      Entry.cell, hkey]

/-- A part with one column that is made of all matches has one row. -/
lemma returned_aggregate {part : Part} {key : String} {value : Value}
    (hr : part.returns = some [{ name := key, value, givenName := some key }])
    (ha : value.aggregates = true) (found : List (Match δ)) :
    part.returned D found
      = [(found.headD [], [(key, value.cell D (found.headD []) found)])] := by
  have hcolumns : columns [{ name := key, value, givenName := some key }] = [(key, value)] := rfl
  rw [Part.returned, hr]
  simp only [hcolumns, groups, List.map_cons, List.map_nil, List.any_cons, List.any_nil, ha,
    List.filter_cons, List.filter_nil, Bool.not_true, Bool.or_false, Bool.false_eq_true, if_false,
    List.isEmpty_nil, if_true]

lemma rows_aggregate (hl : draft.part.limit = none) (hs : draft.part.skip = none)
    {key : String} {value : Value} (ha : value.aggregates = true) :
    (draft.aggregate [{ name := key, value, givenName := some key }] []).part.rows D types graph
      = [[(key, value.cell D ((draft.part.kept D types graph).headD [])
          (draft.part.kept D types graph))]] := by
  rw [Part.rows, Part.sorted, returned_aggregate rfl ha]
  simp only [Draft.aggregate, hl, hs, Sql.slice_none]
  rfl

/-- All matches are collected as they are found, each with the columns that were chosen. -/
lemma Draft.Lists.rows_nest (h : draft.Lists) (hd : '.' ∉ draft.node.toList) (key : String) :
    ∃ records,
      (draft.aggregate [{ name := key, value := draft.collected, givenName := some key }]
        []).part.rows D types graph
        = [[(key, Listing.array D records)]] ∧
      List.Forall₂ Record.Same records ((draft.part.kept D types graph).map draft.part.row) := by
  cases hreturns : draft.part.returns with
  | none =>
    have hcollected : draft.collected = .collect draft.node := by rw [Draft.collected, hreturns]
    refine ⟨_, by rw [hcollected, rows_aggregate h.limit h.skip rfl, Value.cell], ?_⟩
    rw [List.forall₂_map_left_iff, List.forall₂_map_right_iff]
    refine List.forall₂_same.2 fun found _ => ?_
    rw [Part.row, hreturns]
    exact .refl _
  | some items =>
    have hcollected : draft.collected
        = .collectMaps draft.node (items.filterMap Draft.entry?) := by
      rw [Draft.collected, hreturns]
    refine ⟨_, by rw [hcollected, rows_aggregate h.limit h.skip rfl, Value.cell], ?_⟩
    rw [List.forall₂_map_left_iff, List.forall₂_map_right_iff]
    refine List.forall₂_same.2 fun found _ => ?_
    rw [h.entries_cell hd hreturns, Part.row, hreturns]
    exact Record.same_choose _ _

/-- The columns of groups of nodes by a property. -/
def groupItems (node name : String) : List ReturnItem :=
  [{ name := "key", value := .property ⟨node, name⟩, givenName := some "key" },
   { name := "items", value := .collect node, givenName := some "items" }]

/-- The row of a group behind its first match. -/
def groupRow (D : Domain δ) (node name : String) (group : List (Match δ)) (first : Match δ) :
    Match δ × Record δ :=
  (first, [("key", (first.node node).cell name),
    ("items", Listing.array D (group.map fun found => found.node node))])

/-- A part that returns groups has one row for each place of the property, behind the first match
that is in it. -/
lemma returned_groups {part : Part} {node name : String}
    {order : Match δ → Match δ → Ordering} [Std.TransCmp order]
    (ho : order = fun a b => D.order ((a.node node).cell name) ((b.node node).cell name))
    (hr : part.returns = some (groupItems node name)) (found : List (Match δ)) :
    part.returned D found = (Stable.firsts order found).map fun first =>
      groupRow D node name (found.filter (Stable.same order first)) first := by
  have hcolumns : columns (groupItems node name)
      = [("key", .property ⟨node, name⟩), ("items", .collect node)] :=
    Once.eraseDups_of_nodup (by simp [groupItems, ReturnItem.column])
  have hlists : (fun a b : Match δ =>
      D.orderList [(Value.property ⟨node, name⟩).cell D a []]
        [(Value.property ⟨node, name⟩).cell D b []]) = order := by
    rw [ho]
    funext a b
    exact Ordering.then_eq
  have hgroups : groups D [("key", .property ⟨node, name⟩), ("items", .collect node)] found
      = (Stable.classes order found).map fun group => (group.headD [], group) := by
    rw [← hlists]
    rfl
  rw [Part.returned, hr]
  simp only [hcolumns, hgroups, Stable.classes, List.map_map]
  refine List.map_congr_left fun first hfirst => ?_
  have hhead := Stable.head?_filter_of_mem_firsts hfirst
  simp only [Function.comp_apply, List.headD_eq_head?_getD, hhead, Option.getD_some]
  rfl

/-- Groups are made of the matches as they are found, and hold whole nodes. -/
lemma rows_groupBy (hl : draft.part.limit = none) (hs : draft.part.skip = none) (name : String) :
    (draft.aggregate (groupItems draft.node name)
        [{ target := .named "key" }]).part.rows D types graph
      = gather D (·.cell name)
          ((draft.part.kept D types graph).map fun found => found.node draft.node) := by
  let order (a b : Match δ) : Ordering :=
    D.order ((a.node draft.node).cell name) ((b.node draft.node).cell name)
  have htrans : Std.TransCmp order :=
    Sql.trans_on fun found : Match δ => (found.node draft.node).cell name
  have hkeys (group : Match δ → List (Match δ)) : (fun a b : Match δ =>
      D.orderBy (Part.keys (draft.aggregate (groupItems draft.node name)
        [{ target := .named "key" }]).part) (groupRow D draft.node name (group a) a)
        (groupRow D draft.node name (group b) b)) = order := by
    funext a b
    exact Ordering.then_eq
  have horder : order = fun a b : Match δ =>
      D.order ((a.node draft.node).cell name) ((b.node draft.node).cell name) := rfl
  rw [gather_map _ _ _ horder, Part.rows, Part.sorted, returned_groups horder rfl,
    Stable.sort_map, hkeys]
  simp only [Draft.aggregate, hl, hs, Sql.slice_none, List.map_map]
  rfl

/-! ### Operations before -/

lemma resolve_node {reference : String} {property : Property}
    (hr : draft.resolve catalog reference = .ok property) : property.node = draft.node := by
  obtain ⟨type, -, hr⟩ := Compile.bind_eq_ok.1 hr
  dsimp only at hr
  split at hr
  · obtain rfl := Compile.pure_eq_ok.1 hr
    rfl
  · cases hr

/-- Choosing, filtering and sorting leave one row for each match. -/
lemma Draft.Lists.applied (h : draft.Lists) (ho : operation.arranges = true)
    (hn : operation.isRename = false) (ha : draft.Applied naming catalog operation result) :
    result.Lists ∧ (operation.isProjection = false → result.part.returns = draft.part.returns) := by
  cases ha with
  | project _ hitems =>
    refine ⟨{ h with columns := ?_ }, by rintro ⟨⟩⟩
    rintro _ ⟨⟩ item hitem
    obtain ⟨hnone, reference, property, hproperty, hvalue⟩ := mem_propertyItems hitems item hitem
    refine ⟨hnone, ?_⟩
    rw [ReturnItem.column, hnone, hvalue]
    exact congrArg (fun node => Value.property ⟨node, property.name⟩) (resolve_node hproperty)
  | filter _ _ => exact ⟨{ h with }, fun _ => rfl⟩
  | @orderBy key direction target _ htarget =>
    refine ⟨{ h with orderBy := List.forall_mem_cons.2 ⟨?_, h.orderBy⟩ }, fun _ => rfl⟩
    rcases sortTarget_cases htarget with ⟨hgiven, rfl⟩ | ⟨property, -, rfl⟩
    · -- no column was given a name
      obtain ⟨item, hitem, hname⟩ := List.any_eq_true.1 hgiven
      cases hreturns : draft.part.returns with
      | none =>
        rw [hreturns] at hitem
        cases hitem
      | some items =>
        rw [hreturns] at hitem
        rw [(h.columns items hreturns item hitem).1, Bool.and_eq_true] at hname
        cases hname.2
    · exact ⟨property, rfl⟩
  | rename => cases hn
  | take | skip | count | nest | groupBy | edge | union => cases ho

lemma Draft.Lists.performAll (h : draft.Lists)
    (ho : ∀ operation ∈ operations, operation.arranges = true ∧ operation.isRename = false)
    (hp : draft.performAll naming catalog (operations.map .operation) = .ok result) :
    result.Lists ∧ (operations.countP Operation.isProjection = 0 →
      result.part.returns = draft.part.returns) := by
  induction operations generalizing draft with
  | nil =>
    obtain rfl := Except.ok.inj hp
    exact ⟨h, fun _ => rfl⟩
  | cons operation rest ih =>
    obtain ⟨⟨harranges, hrename⟩, hrest⟩ := List.forall_mem_cons.1 ho
    obtain ⟨next, hnext, hp⟩ := performAll_cons.1 hp
    obtain ⟨hlists, hkept⟩ := h.applied harranges hrename (perform_operation_ok hnext).2
    obtain ⟨hlast, hall⟩ := ih hlists hrest hp
    refine ⟨hlast, fun hnone => ?_⟩
    rw [List.countP_cons, Nat.add_eq_zero_iff] at hnone
    exact (hall hnone.1).trans (hkept (by simpa using hnone.2))

lemma lists_of_restrict {type : ObjectType}
    (hr : (Draft.start source.objectType type).restrict catalog source.ids = .ok draft) :
    draft.Lists ∧ draft.part.returns = none ∧ draft.part.orderBy = [] ∧
      draft.node = firstVariable (type.labelOf source.objectType) := by
  rcases restrict_ok hr with rfl | ⟨_, _, -, rfl⟩ <;>
    exact ⟨⟨rfl, rfl, rfl, by rintro _ ⟨⟩, List.forall_mem_nil _⟩, rfl, rfl, rfl⟩

/-! ### Statements -/

/-- What operations that filter, choose and sort make of the objects of a type. -/
structure Draft.Arranged (catalog : Catalog) (source : Source) (type : ObjectType)
    (before : List Operation) (draft : Draft) : Prop where
  lists : draft.Lists
  follows : draft.Follows catalog type (Output.behind type before)
  single : draft.others = []
  node : draft.node = firstVariable (type.labelOf source.objectType)
  unsorted : before.countP Operation.isSort = 0 → draft.part.orderBy = []
  unchosen : before.countP Operation.isProjection = 0 → draft.part.returns = none

lemma arranged_of_ofQuery {type : ObjectType} (ht : catalog.type? source.objectType = some type)
    (hb : ∀ step ∈ before, step.arranges = true ∧ step.isRename = false)
    (h : Draft.ofQuery naming catalog ⟨source, before⟩ = .ok draft) :
    draft.Arranged catalog source type before := by
  obtain ⟨found, first, hfound, hfirst, hsteps⟩ := ofQuery_ok h
  obtain rfl := Option.some.inj (ht.symm.trans hfound)
  have harranges : ∀ step ∈ before, step.arranges = true := fun step hm => (hb step hm).1
  rw [steps_eq_map harranges] at hsteps
  obtain ⟨hfollows, hsingle, -⟩ := follows_of_restrict ht hfirst
  obtain ⟨hlists, hreturns, hunsorted, hvariable⟩ := lists_of_restrict hfirst
  obtain ⟨hdraft, hgrows⟩ := hfollows.performAll harranges hsteps
  obtain ⟨hdraftLists, hkept⟩ := hlists.performAll hb hsteps
  refine ⟨hdraftLists, hdraft, hgrows.others.trans hsingle, ?_, fun hnone => ?_,
    fun hnone => (hkept hnone).trans hreturns⟩
  · rw [Draft.node, hgrows.path]
    exact hvariable
  · obtain ⟨keys, hkeys, hlength⟩ := hgrows.orderBy
    rw [hkeys, hunsorted, List.eq_nil_of_length_eq_zero (hlength.trans hnone)]
    rfl

/-- An operation behind others is done to the draft of these. -/
lemma ofQuery_concat_ok (hb : ∀ step ∈ before, step.isEdge = false)
    (h : Draft.ofQuery naming catalog ⟨source, before ++ [operation]⟩ = .ok result) :
    ∃ draft, Draft.ofQuery naming catalog ⟨source, before⟩ = .ok draft ∧
      draft.run naming catalog none false [operation] = .ok result := by
  rw [Draft.ofQuery] at h
  obtain ⟨first, hfirst, h⟩ := Compile.bind_eq_ok.1 h
  rw [run_append hb] at h
  obtain ⟨draft, hdraft, h⟩ := Compile.bind_eq_ok.1 h
  rw [Draft.ofQuery]
  exact ⟨draft, Compile.bind_eq_ok.2 ⟨first, hfirst, hdraft⟩, h⟩

lemma applied_of_run (he : operation.isEdge = false)
    (h : draft.run naming catalog none false [operation] = .ok result) :
    draft.Applied naming catalog operation result := by
  rw [run_operation he] at h
  obtain ⟨next, hnext, h⟩ := Compile.bind_eq_ok.1 h
  rw [Draft.run] at h
  obtain rfl := Except.ok.inj h
  exact (perform_operation_ok hnext).2

lemma rows_single (draft : Draft) (h : draft.others = []) :
    Statement.rows D types graph draft.statement = draft.part.rows D types graph := by
  rw [Statement.rows, Draft.statement, h, List.flatMap_singleton]

/-- What operations that filter, choose and sort return is made of the matches for which all
conditions hold, once these are sorted.  A list of it is made of the same matches in the order in
which they are found; groups hold their nodes in this order, with everything that they have.  So
lists are in the order of the rows if none of the operations sorts, and groups hold the rows
themselves if none of them sorts or chooses. -/
theorem collected_as_found (D : Domain δ) (types : Property → Option ScalarType)
    (graph : Graph δ) (naming : String → String) (catalog : Catalog) (source : Source)
    (before : List Operation) (operation : Operation) (type : ObjectType) (statement : Statement)
    (ht : catalog.type? source.objectType = some type)
    (hd : '.' ∉ (firstVariable (type.labelOf source.objectType)).toList)
    (hb : ∀ step ∈ before, step.arranges = true ∧ step.isRename = false)
    (h : compile catalog ⟨source, before ++ [operation]⟩ naming = .ok statement) :
    ∃ part, compile catalog ⟨source, before⟩ naming = .ok [part] ∧
      let found := part.kept D types graph
      part.rows D types graph
        = (Stable.sort (D.orderBy part.matchKeys) found).map part.row ∧
      (before.countP Operation.isSort = 0 → part.rows D types graph = found.map part.row) ∧
      (before.countP Operation.isProjection = 0 →
        found.map part.row = found.map fun found => found.node part.path.last.name) ∧
      (∀ key, operation = .nest key → ∃ records,
        statement.rows D types graph = [[(key, Listing.array D records)]] ∧
          List.Forall₂ Record.Same records (found.map part.row)) ∧
      ∀ key, operation = .groupBy key → ∃ field, type.propertyOf? key = some field ∧
        statement.rows D types graph
          = gather D (·.cell field) (found.map fun found => found.node part.path.last.name) := by
  obtain ⟨result, hresult, rfl⟩ := Compile.map_eq_ok.1 h
  have hedges : ∀ step ∈ before, step.isEdge = false := fun step hm =>
    Operation.isEdge_of_arranges (hb step hm).1
  obtain ⟨draft, hdraft, hrun⟩ := ofQuery_concat_ok hedges hresult
  have hbefore := arranged_of_ofQuery ht hb hdraft
  have hlists := hbefore.lists
  refine ⟨draft.part, ?_, hlists.rows_eq, fun hnone => ?_, fun hnone => ?_, ?_, ?_⟩
  · rw [compile, hdraft]
    exact congrArg Except.ok (congrArg (draft.part :: ·) hbefore.single)
  · rw [hlists.rows_eq, Part.matchKeys, hbefore.unsorted hnone, List.map_nil]
    refine congrArg _ (Stable.sort_of_inOrder ?_)
    exact List.pairwise_of_forall_mem_list fun _ _ _ _ => rfl
  · refine List.map_congr_left fun found _ => ?_
    rw [Part.row, hbefore.unchosen hnone]
  · rintro key rfl
    cases applied_of_run rfl hrun with
    | nest _ hopen =>
      obtain ⟨records, hrows, hsame⟩ : ∃ records, _ ∧ List.Forall₂ Record.Same records
          ((draft.part.kept D types graph).map draft.part.row) :=
        hlists.rows_nest (hbefore.node ▸ hd) key
      refine ⟨records, ?_, hsame⟩
      rw [rows_single (draft.aggregate _ _) hbefore.single]
      exact hrows
  · rintro key rfl
    cases applied_of_run rfl hrun with
    | @groupBy _ property hopen hproperty =>
      obtain ⟨hmeant, hsame⟩ := hbefore.follows.resolve_ok hproperty
      obtain ⟨node, field⟩ := property
      obtain rfl : node = draft.node := hsame
      refine ⟨field, hmeant, ?_⟩
      rw [rows_single (draft.aggregate _ _) hbefore.single]
      exact rows_groupBy hlists.limit hlists.skip field

/-- Two users, the older one first. -/
def twoUsers : List (Record Datum) :=
  [[("id", some (.integer 1)), ("name", some (.text "Ada")), ("age", some (.integer 18))],
   [("id", some (.integer 2)), ("name", some (.text "Bob")), ("age", some (.integer 16))]]

/-- Users that are filtered, sorted and cut to their names. -/
def namesByAge : List Operation :=
  [.filter (.comparison "age" .greaterThan (.integer 15)), .orderBy "age" .ascending,
   .project ["user.name"]]

theorem collected_as_found_namesByAge :
    SocialGraph.catalog.type? "User" = some SocialGraph.user ∧
      '.' ∉ (firstVariable "User").toList ∧
      (∀ step ∈ namesByAge, step.arranges = true ∧ step.isRename = false) ∧
      ∃ statement part records, compile SocialGraph.catalog
          ⟨{ objectType := "User" }, namesByAge ++ [.nest "all"]⟩ = .ok statement ∧
        statement.map Part.lines = [["MATCH (u:User)", "WHERE u.age > 15",
          "RETURN collect(u \x7b.name\x7d) AS all"]] ∧
        compile SocialGraph.catalog ⟨{ objectType := "User" }, namesByAge⟩
          = .ok [part] ∧
        statement.rows Datum.domain SocialGraph.user.propertyType (graphOf twoUsers)
          = [[("all", Listing.array Datum.domain records)]] ∧
        List.Forall₂ Record.Same records ((part.kept Datum.domain SocialGraph.user.propertyType
          (graphOf twoUsers)).map part.row) := by
  have ht : SocialGraph.catalog.type? "User" = some SocialGraph.user := by decide
  have hd : '.' ∉ (firstVariable "User").toList := by decide
  have hb : ∀ step ∈ namesByAge, step.arranges = true ∧ step.isRename = false := by decide
  obtain ⟨part, hpart, -, -, -, hnest, -⟩ := collected_as_found Datum.domain
    SocialGraph.user.propertyType (graphOf twoUsers) Text.upperSnakeCase SocialGraph.catalog
    { objectType := "User" } namesByAge (.nest "all") SocialGraph.user _ ht hd hb rfl
  obtain ⟨records, hrows, hsame⟩ := hnest "all" rfl
  exact ⟨ht, hd, hb, _, part, records, rfl, by decide +kernel, hpart, hrows, hsame⟩

/-- The records of an array. -/
def recordsOf : Cell Datum → List (Record Datum)
  | some (.array cells) => cells.filterMap fun
    | some (.record record) => some record
    | _ => none
  | _ => []

/-- Users in the order of their ages are listed as they are found, and users cut to their names and
ages are grouped with everything that they have. -/
theorem collected_as_found_ages :
    (∃ part statement,
      compile SocialGraph.catalog
        ⟨{ objectType := "User" }, [.orderBy "age" .ascending]⟩ = .ok [part] ∧
      compile SocialGraph.catalog
        ⟨{ objectType := "User" }, [.orderBy "age" .ascending, .nest "all"]⟩ = .ok statement ∧
      statement.map Part.lines = [["MATCH (u:User)", "RETURN collect(u) AS all"]] ∧
      (part.rows Datum.domain SocialGraph.user.propertyType (graphOf twoUsers)).map
        (fun row => Datum.string (row.cell "name")) = ["Bob", "Ada"] ∧
      (statement.rows Datum.domain SocialGraph.user.propertyType (graphOf twoUsers)).map
        (fun row => (recordsOf (row.cell "all")).map fun record =>
          Datum.string (record.cell "name")) = [["Ada", "Bob"]]) ∧
    ∃ part statement,
      compile SocialGraph.catalog
        ⟨{ objectType := "User" }, [.project ["name", "age"]]⟩ = .ok [part] ∧
      compile SocialGraph.catalog
        ⟨{ objectType := "User" }, [.project ["name", "age"], .groupBy "age"]⟩ = .ok statement ∧
      statement.map Part.lines = [["MATCH (u:User)", "RETURN u.age AS key, collect(u) AS items",
        "ORDER BY key"]] ∧
      (part.rows Datum.domain SocialGraph.user.propertyType (graphOf twoUsers)).map
        (List.map Prod.fst) = [["name", "age"], ["name", "age"]] ∧
      (statement.rows Datum.domain SocialGraph.user.propertyType (graphOf twoUsers)).map
        (fun row => (recordsOf (row.cell "items")).map (List.map Prod.fst))
        = [[["id", "name", "age"]], [["id", "name", "age"]]] :=
  ⟨⟨_, _, rfl, rfl, by decide +kernel, by decide +kernel, by decide +kernel⟩,
    _, _, rfl, rfl, by decide +kernel, by decide +kernel, by decide +kernel⟩

end Cypher
end ObjectGraph
