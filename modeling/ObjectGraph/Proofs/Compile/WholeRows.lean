/-
# Rows that queries read as a whole

The rows of a nest, of the groups of a key, of an edge and of the whole query are turned into JSON
objects through the alias of a derived table, so none of its columns may be called like the alias.
The alias is made of `t`, of the edge or of `universe`, with its number behind it unless it is the
first one of its name.  Which columns the derived table has is known from the layout of the query,
so which names may meet is known as well: columns that are called like a name with a number, and
those called like a name that no alias was made of before.
-/
import ObjectGraph.Proofs.Compile.Identifiers
import ObjectGraph.Proofs.Compile.Outputs
import ObjectGraph.Proofs.Sql.WholeRows

namespace ObjectGraph

open Sql (Expression Relation Select TableAlias)

namespace Compile

/-! ### Where rows are read as a whole -/

/-- Rows that are read as a whole: the name that their alias is made of, names that aliases were
made of before, and the layout of the rows. -/
structure WholeRead where
  name : String
  drawn : List String
  layout : Layout

/-- Whether no column of the rows is called like their alias, whatever its number is. -/
def WholeRead.Free (read : WholeRead) : Prop :=
  (∀ n, n ≠ 0 → numbered read.name n ∉ read.layout.names) ∧
    (read.name ∈ read.layout.names → read.name ∈ read.drawn)

end Compile

open Compile (Layout WholeRead)

/-- A name that an operation makes an alias of, if it always does. -/
def Operation.drawn : Operation → List String
  | .nest _ | .groupBy _ | .union _ => ["t"]
  | .edge name _ => [name]
  | .project _ | .rename _ _ | .filter _ | .take _ | .skip _ | .count | .orderBy _ _ => []

mutual

/-- The rows that an operation reads as a whole, those on the objects of its edge or in its
queries included. -/
def Operation.wholeReads (catalog : Catalog) (drawn : List String) (layout : Layout) :
    Operation → List WholeRead
  | .nest _ | .groupBy _ => [⟨"t", drawn, layout⟩]
  | .edge name inner =>
    match layout.edge? catalog name with
    | none => []
    | some edge =>
      ⟨name, inner.flatMap Operation.drawn ++ drawn,
          (Layout.ofType catalog edge.target).afterAll catalog inner⟩
        :: stepsWholeReads catalog drawn (.ofType catalog edge.target) inner
  | .union queries => queriesWholeReads catalog drawn queries
  | _ => []

/-- The rows that the operations read as a whole, one operation after the other. -/
def stepsWholeReads (catalog : Catalog) (drawn : List String) (layout : Layout) :
    List Operation → List WholeRead
  | [] => []
  | step :: rest =>
    step.wholeReads catalog drawn layout
      ++ stepsWholeReads catalog (step.drawn ++ drawn) (layout.after catalog step) rest

/-- The rows that the operations of all queries read as a whole. -/
def queriesWholeReads (catalog : Catalog) (drawn : List String) : List Query → List WholeRead
  | [] => []
  | ⟨source, operations⟩ :: rest =>
    stepsWholeReads catalog drawn (.ofType catalog source.objectType) operations
      ++ queriesWholeReads catalog drawn rest

end

/-- All rows that the plan of a query reads as a whole. -/
def Query.wholeReads (catalog : Catalog) (query : Query) : List WholeRead :=
  ⟨"universe", query.operations.flatMap Operation.drawn, Layout.ofQuery catalog query⟩
    :: stepsWholeReads catalog [] (.ofType catalog query.source.objectType) query.operations

namespace Compile

variable {counts last : AliasCounts} {catalog : Catalog} {drawn : List String}

/-- Whether a column begins with the name and an underscore can be decided, unlike whether it is
called like the name with some number. -/
lemma WholeRead.free_of_forall {read : WholeRead}
    (hn : ∀ column ∈ read.layout.names, ¬ (read.name ++ "_").toList <+: column.toList)
    (hd : read.name ∈ read.layout.names → read.name ∈ read.drawn) : read.Free := by
  refine ⟨fun n _ hm => ?_, hd⟩
  have hbegins : (read.name ++ "_").toList <+: (numbered read.name n).toList :=
    ⟨(toString n).toList, String.toList_append.symm⟩
  exact hn _ hm hbegins

/-! ### Names that aliases were made of -/

/-- Whether the first alias of each name was handed out. -/
def Drawn (counts : AliasCounts) (names : List String) : Prop :=
  ∀ name ∈ names, Issued counts ⟨name, 0⟩

lemma issued_first (counts : AliasCounts) (name : String) :
    Issued (countAlias counts name) ⟨name, 0⟩ := by
  simp [Issued, countAlias, Named.lookup_put]

lemma persists_drawn (catalog : Catalog) (names : List String) :
    Persists catalog (Drawn · names) :=
  fun _ _ hn h name hm => persists_issued catalog ⟨name, 0⟩ hn (h name hm)

/-- No column is called like the alias that is handed out next. -/
lemma WholeRead.Free.identifier_not_mem {read : WholeRead} (h : read.Free)
    (hd : Drawn counts read.drawn) :
    (nextAlias counts read.name).identifier ∉ read.layout.names := by
  by_cases hi : (nextAlias counts read.name).index = 0
  · rw [TableAlias.identifier_of_eq_zero hi]
    exact fun hm => absurd hi (Nat.pos_iff_ne_zero.1 (hd _ (h.2 hm)))
  · rw [TableAlias.identifier_of_ne_zero hi]
    exact h.1 _ hi

lemma operation_drawn (step : Operation) {draft result : Draft} (hd : Drawn counts drawn)
    (ho : (operation catalog draft step).run counts = .ok (result, last)) :
    Drawn last (step.drawn ++ drawn) := by
  refine List.forall_mem_append.2 ⟨?_, operation_persists (persists_drawn catalog drawn) step ho hd⟩
  cases operation_ok ho with
  | nest | groupBy => exact List.forall_mem_singleton.2 (issued_first counts "t")
  | @union _ _ between => exact List.forall_mem_singleton.2 (issued_first between "t")
  | @edge name _ _ _ _ _ _ _ _ between _ _ _ _ _ hcolumn =>
    exact List.forall_mem_singleton.2 (edgeColumn_persists
      (persists_issued catalog ⟨name, 0⟩) hcolumn (issued_first between name))
  | project | rename | filter | take | skip | count | orderBy => exact List.forall_mem_nil _

lemma pipeline_drawn : ∀ (steps : List Operation) {draft result : Draft}
    {counts last : AliasCounts} {drawn : List String}, Drawn counts drawn →
    (pipeline catalog draft steps).run counts = .ok (result, last) →
    Drawn last (steps.flatMap Operation.drawn ++ drawn)
  | [], _, _, _, _, _, hd, hp => (run_pure_eq_ok.1 hp).2 ▸ hd
  | step :: rest, _, _, _, _, _, hd, hp => by
    obtain ⟨_, _, ho, hp⟩ := pipeline_cons_ok hp
    have hlast := pipeline_drawn rest (operation_drawn step hd ho) hp
    -- the same names in another order
    intro name hm
    refine hlast name ?_
    simp only [List.flatMap_cons, List.mem_append] at hm ⊢
    tauto

/-! ### Drafts that keep rows whole -/

lemma compositional_plain : Compositional Expression.Plain where
  value := Expression.plain_value
  cast := Expression.plain_cast.2
  isNull := Expression.plain_isNull.2
  not := Expression.plain_not.2
  or hl hr := Expression.plain_or.2 ⟨hl, hr⟩
  both := Expression.Plain.both
  comparison hl hr := Expression.plain_comparison.2 ⟨hl, hr⟩
  isIn hl hi := Expression.plain_isIn.2 ⟨hl, hi⟩

namespace Draft

variable {draft base result : Draft} {handle : TableAlias}

/-- Whole rows are read in columns only, and not while more clauses may be added. -/
structure Intact (draft : Draft) : Prop where
  relation : ∀ nested ∈ draft.relation.selects, nested.Intact
  columns : ∀ column ∈ draft.columns, column.expression.IntactOver (some draft.relation)
  opened : draft.isSealed = false → ∀ column ∈ draft.columns, column.expression.Plain
  condition : draft.condition.Plain
  groupBy : ∀ e ∈ draft.groupBy, e.Plain
  orderBy : ∀ key ∈ draft.orderBy, key.target.Plain

lemma Intact.finish (h : draft.Intact) : ∀ nested ∈ draft.finish.selects, nested.Intact :=
  Select.forall_intact h.relation (List.forall_mem_map.2 (List.forall_mem_map.2 h.columns))
    h.condition h.groupBy h.orderBy

lemma Intact.wrapped (h : draft.Intact) (handle : TableAlias) : (draft.wrapped handle).Intact where
  relation := h.finish
  columns := List.forall_mem_map.2 fun _ _ => Expression.plain_output.intactOver
  opened _ := List.forall_mem_map.2 fun _ _ => Expression.plain_output
  condition := Expression.plain_true
  groupBy := List.forall_mem_nil _
  orderBy := List.forall_mem_nil _

lemma Wraps.intact {condition : Bool} (hw : Wraps counts draft condition base last)
    (h : draft.Intact) : base.Intact := by
  cases hw with
  | kept => exact h
  | wrapped => exact h.wrapped _

lemma Intact.resolvesTo (h : draft.Intact) (ho : draft.isSealed = false) :
    draft.ResolvesTo catalog Expression.Plain := by
  intro reference target hr
  rcases resolve_ok hr with ⟨column, hc, rfl⟩ | ⟨-, -, field, rfl⟩
  · exact h.opened ho column (column?_mem hc)
  · exact Expression.plain_column

/-- The rows of a draft may be read as a whole if none of its columns is called like the alias. -/
lemma Labelled.keepsWhole (hl : draft.Labelled) (hn : handle.identifier ∉ draft.layout.names) :
    Sql.KeepsWhole (some (.derived draft.finish handle)) handle :=
  ⟨draft.finish, handle, rfl, rfl, by rwa [names_finish, ← hl.names_layout]⟩

lemma gathered_intact (h : draft.Intact) {target : Expression × Option ScalarType}
    (ht : target.1.Plain) (hw : Sql.KeepsWhole (some (.derived draft.finish handle)) handle) :
    (draft.gathered handle target).Intact :=
  { h.wrapped handle with
    columns := List.forall_mem_cons.2 ⟨ht.intactOver,
      List.forall_mem_singleton.2 (Expression.intactOver_jsonRows.2 hw)⟩
    opened := nofun
    groupBy := List.forall_mem_singleton.2 ht
    orderBy := List.forall_mem_singleton.2 ht }

lemma attach_intact (h : draft.Intact) {column : Column} (hc : column.expression.Plain) :
    (draft.attach column).Intact :=
  { h with
    columns := List.forall_mem_append.2 ⟨fun other ho =>
      h.columns other (List.mem_of_mem_filter ho), List.forall_mem_singleton.2 hc.intactOver⟩
    opened := fun ho => List.forall_mem_append.2 ⟨fun other hm =>
      h.opened ho other (List.mem_of_mem_filter hm), List.forall_mem_singleton.2 hc⟩ }

end Draft

/-! ### Where rows come from -/

section Sources

variable {name : String} {handle : TableAlias} {reached : Draft}

lemma start_intact {ids : Option (List Int64)} {tied : Option Tie} {result : Draft}
    (ht : ∀ tie ∈ tied, ∀ e ∈ tie.expressions, e.Plain)
    (h : (start catalog name ids tied).run counts = .ok (result, last)) : result.Intact := by
  have hexistence : OfExistence Expression.Plain := fun hcondition =>
    Expression.plain_exists.2 (Select.forall_intact (List.forall_mem_nil _)
      (List.forall_mem_nil _) hcondition (List.forall_mem_nil _) (List.forall_mem_nil _))
  obtain ⟨type, handle, condition, rfl, hcondition⟩ :=
    compositional_plain.start Expression.plain_column hexistence ht h
  exact {
    relation := List.forall_mem_nil _
    columns := List.forall_mem_map.2 fun _ _ => Expression.plain_column.intactOver
    opened := fun _ => List.forall_mem_map.2 fun _ _ => Expression.plain_column
    condition := hcondition
    groupBy := List.forall_mem_nil _
    orderBy := List.forall_mem_nil _ }

lemma valueColumn_plain {value : Expression} (hr : reached.Intact)
    (hv : value.IntactOver (some (.derived reached.finish handle))) :
    (valueColumn name value reached handle).expression.Plain :=
  Expression.plain_subselect.2 (Select.forall_intact hr.finish (List.forall_mem_singleton.2 hv)
    Expression.plain_true (List.forall_mem_nil _) (List.forall_mem_nil _))

lemma edgeColumn_plain {cardinality : Cardinality} {column : Column} (hl : reached.Labelled)
    (hr : reached.Intact) (hn : (nextAlias counts name).identifier ∉ reached.layout.names)
    (h : (edgeColumn name cardinality reached).run counts = .ok (column, last)) :
    column.expression.Plain := by
  rcases edgeColumn_ok h with ⟨-, -, rfl⟩ | ⟨-, first, hfirst, rfl⟩
  · exact valueColumn_plain hr (Expression.intactOver_jsonArray.2 (hl.keepsWhole hn))
  · -- one row is taken off first, which may wrap the objects but names no column
    obtain ⟨base, hw, rfl⟩ := Draft.take_ok hfirst
    have hbase : base.Labelled := hw.labelled hl
    exact valueColumn_plain { hw.intact hr with }
      (Expression.intactOver_rowToJson.2 (Draft.Labelled.keepsWhole hbase (hw.layout ▸ hn)))

end Sources

/-! ### Whole queries -/

mutual

lemma operation_intact (step : Operation) {draft result : Draft} {counts last : AliasCounts}
    {drawn : List String} (hl : draft.Labelled) (h : draft.Intact) (hd : Drawn counts drawn)
    (hf : ∀ read ∈ step.wholeReads catalog drawn draft.layout, read.Free)
    (ho : (operation catalog draft step).run counts = .ok (result, last)) : result.Intact := by
  cases operation_ok ho with
  | project hc =>
    exact { h with
      columns := fun column hm => h.columns column (Draft.pick_subset hc hm)
      opened := fun ho column hm => h.opened ho column (Draft.pick_subset hc hm) }
  | rename hc =>
    refine { h with columns := fun column hm => ?_, opened := nofun }
    obtain ⟨original, hm, he⟩ := Draft.renameFirst_expression hc column hm
    exact he ▸ h.columns original hm
  | filter hw he =>
    have hb := hw.intact h
    obtain ⟨-, -, hopen⟩ := hw.opened
    have hcondition := compositional_plain.condition (hb.resolvesTo hopen) he
    exact { hb with condition := hb.condition.both hcondition }
  | take hw | skip hw => exact { hw.intact h with }
  | count hw =>
    exact { hw.intact h with
      columns := List.forall_mem_singleton.2 Expression.plain_countRows.intactOver
      opened := nofun
      orderBy := List.forall_mem_nil _ }
  | nest =>
    have hn := (List.forall_mem_singleton.1 hf).identifier_not_mem hd
    exact { h.wrapped _ with
      columns := List.forall_mem_singleton.2
        (Expression.intactOver_jsonArray.2 (hl.keepsWhole hn))
      opened := nofun }
  | orderBy hw ht =>
    have hb := hw.intact h
    obtain ⟨-, -, hopen⟩ := hw.opened
    exact { hb with orderBy := List.forall_mem_cons.2 ⟨hb.resolvesTo hopen ht, hb.orderBy⟩ }
  | groupBy ht =>
    have hn := (List.forall_mem_singleton.1 hf).identifier_not_mem hd
    exact Draft.gathered_intact h ((h.wrapped _).resolvesTo rfl ht) (hl.keepsWhole hn)
  | @edge _ _ _ _ reached found _ _ started _ _ hw hfollow hstart hp hcolumn =>
    have hb := hw.intact h
    obtain ⟨_, _, -, hedge, -, htie⟩ := follow_ok hfollow
    -- the reads know the edge by the layout of the draft, which wrapping keeps
    simp only [Operation.wholeReads, ← hw.layout, edge?_layout hfollow, List.forall_mem_cons] at hf
    have hties : ∀ tie ∈ some found.2, ∀ e ∈ tie.expressions, e.Plain := by
      rintro _ ⟨⟩
      exact Draft.ResolvesTo.tie (hb.resolvesTo hw.isOpen) htie
    obtain ⟨hlayout, hlabelled⟩ := start_layout hstart
    obtain ⟨hkey, htables⟩ := edge_mem_aliasNames hedge
    have hstarted : Drawn started drawn := start_persists (persists_drawn catalog drawn)
      (by rintro _ ⟨⟩; exact tables_of_tie htie ▸ htables) hstart
      ((persists_drawn catalog drawn).wraps hd hw)
    have hreached : reached.Intact :=
      pipeline_intact _ hlabelled (start_intact hties hstart) hstarted (hlayout ▸ hf.2) hp
    obtain ⟨hreachedLayout, hreachedLabelled⟩ := pipeline_layout _ hlabelled hp
    -- the alias of the edge is handed out behind those of the operations on its objects
    have hn := hf.1.identifier_not_mem (pipeline_drawn _ hstarted hp)
    rw [← hlayout, ← hreachedLayout] at hn
    exact Draft.attach_intact hb (edgeColumn_plain hreachedLabelled hreached hn hcolumn)
  | @union _ drafts _ hb =>
    have hbranches : ∀ branch ∈ drafts, ∀ nested ∈ branch.finish.selects, nested.Intact :=
      branches_intact _ hd hf hb
    exact {
      relation := Sql.forall_mem_selectsOfAll.2
        (List.forall_mem_cons.2 ⟨h.finish, List.forall_mem_map.2 hbranches⟩)
      columns := List.forall_mem_map.2 fun _ _ => Expression.plain_output.intactOver
      opened := fun _ => List.forall_mem_map.2 fun _ _ => Expression.plain_output
      condition := Expression.plain_true
      groupBy := List.forall_mem_nil _
      orderBy := List.forall_mem_nil _ }

lemma pipeline_intact : ∀ (steps : List Operation) {draft result : Draft}
    {counts last : AliasCounts} {drawn : List String}, draft.Labelled → draft.Intact →
    Drawn counts drawn →
    (∀ read ∈ stepsWholeReads catalog drawn draft.layout steps, read.Free) →
    (pipeline catalog draft steps).run counts = .ok (result, last) → result.Intact
  | [], _, _, _, _, _, _, h, _, _, hp => by
    obtain ⟨rfl, -⟩ := run_pure_eq_ok.1 hp
    exact h
  | step :: rest, _, _, _, _, _, hl, h, hd, hf, hp => by
    obtain ⟨next, _, ho, hp⟩ := pipeline_cons_ok hp
    obtain ⟨hstep, hrest⟩ := List.forall_mem_append.1 hf
    obtain ⟨hlayout, hlabelled⟩ := operation_layout step hl ho
    exact pipeline_intact rest hlabelled (operation_intact step hl h hd hstep ho)
      (operation_drawn step hd ho) (hlayout ▸ hrest) hp

lemma branches_intact : ∀ (queries : List Query) {expected : List String} {drafts : List Draft}
    {counts last : AliasCounts} {drawn : List String}, Drawn counts drawn →
    (∀ read ∈ queriesWholeReads catalog drawn queries, read.Free) →
    (branches catalog expected queries).run counts = .ok (drafts, last) →
    ∀ branch ∈ drafts, ∀ nested ∈ branch.finish.selects, nested.Intact
  | [], _, _, _, _, _, _, _, hb => by
    obtain ⟨rfl, -⟩ := run_pure_eq_ok.1 hb
    exact List.forall_mem_nil _
  | ⟨source, operations⟩ :: rest, _, _, _, _, drawn, hd, hf, hb => by
    obtain ⟨first, _, branch, _, others, hstart, hp, -, ho, rfl⟩ := branches_cons_ok hb
    obtain ⟨hsteps, hrest⟩ := List.forall_mem_append.1 hf
    obtain ⟨hlayout, hlabelled⟩ := start_layout hstart
    have hstarted := start_persists (persists_drawn catalog drawn) (by simp) hstart hd
    have hbranch : branch.Intact := pipeline_intact operations hlabelled
      (start_intact (by simp) hstart) hstarted (hlayout ▸ hsteps) hp
    exact List.forall_mem_cons.2 ⟨hbranch.finish, branches_intact rest
      (pipeline_persists (persists_drawn catalog drawn) operations hp hstarted) hrest ho⟩

end

/-- Every row that a plan reads as a whole is one of a derived table in which no column is called
like the alias, so that the alias cannot be taken for a column.  This needs that wherever the query
reads rows as a whole, none of their columns is called like the name that the alias is made of,
with a number or, unless an alias was made of it before, without. -/
theorem rows_read_whole {query : Query} {p : Plan} (h : plan catalog query = .ok p)
    (hf : ∀ read ∈ query.wholeReads catalog, read.Free) :
    ∀ nested ∈ p.select.selects, ∀ table ∈ nested.wholeRows,
      ∃ rows handle, table = .aliased handle ∧ nested.relation = some (.derived rows handle) ∧
        handle.identifier ∉ rows.list.names := by
  obtain ⟨result, last, hd, hselect⟩ := plan_ok h
  obtain ⟨hall, hsteps⟩ := List.forall_mem_cons.1 hf
  obtain ⟨first, started, hstart, hp⟩ := draft_ok hd
  obtain ⟨hfirst, hlabelled⟩ := start_layout hstart
  obtain ⟨hlayout, hresult⟩ := pipeline_layout query.operations hlabelled hp
  have hnone : Drawn started [] := List.forall_mem_nil _
  have hintact : result.Intact := pipeline_intact query.operations hlabelled
    (start_intact (by simp) hstart) hnone (hfirst ▸ hsteps) hp
  have hdrawn : Drawn last (query.operations.flatMap Operation.drawn) := by
    simpa using pipeline_drawn query.operations hnone hp
  have hn := hall.identifier_not_mem hdrawn
  rw [Layout.ofQuery, ← hfirst, ← hlayout] at hn
  rw [hselect]
  exact Select.forall_intact hintact.finish (List.forall_mem_singleton.2
    (Expression.intactOver_jsonArray.2 (hresult.keepsWhole hn))) Expression.plain_true
    (List.forall_mem_nil _) (List.forall_mem_nil _)

/-- The social graph has no field that is called like an edge, `t` or `universe`. -/
theorem rows_read_whole_reviewsOfFriends :
    ∃ p, plan SocialGraph.catalog reviewsOfFriends = .ok p ∧
      ∀ nested ∈ p.select.selects, ∀ table ∈ nested.wholeRows,
        ∃ rows handle, table = .aliased handle ∧ nested.relation = some (.derived rows handle) ∧
          handle.identifier ∉ rows.list.names := by
  have hok : (plan SocialGraph.catalog reviewsOfFriends).isOk = true := by decide +kernel
  have hnames : ∀ read ∈ reviewsOfFriends.wholeReads SocialGraph.catalog,
      ∀ column ∈ read.layout.names, ¬ (read.name ++ "_").toList <+: column.toList := by
    decide +kernel
  have hdrawn : ∀ read ∈ reviewsOfFriends.wholeReads SocialGraph.catalog,
      read.name ∈ read.layout.names → read.name ∈ read.drawn := by
    decide +kernel
  obtain ⟨p, h⟩ := exists_of_isOk hok
  exact ⟨p, h, rows_read_whole h fun read hr =>
    WholeRead.free_of_forall (hnames read hr) (hdrawn read hr)⟩

/-- The names of users, called like the alias that the rows of the query are read through. -/
theorem rows_read_whole_universe :
    ∃ p, plan SocialGraph.catalog ⟨{ objectType := "User" }, [.rename "name" "universe"]⟩ = .ok p ∧
      ∃ rows, p.select.relation = some (.derived rows ⟨"universe", 0⟩) ∧
        .aliased ⟨"universe", 0⟩ ∈ p.select.wholeRows ∧
        (⟨"universe", 0⟩ : TableAlias).identifier ∈ rows.list.names :=
  ⟨_, rfl, _, rfl, by decide +kernel, by decide +kernel⟩

end Compile
end ObjectGraph
