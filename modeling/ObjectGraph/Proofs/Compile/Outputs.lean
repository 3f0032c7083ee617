/-
# Outputs of compiled queries

The columns of a draft follow the layout of the query it is built for, whatever its clauses are,
so the names of the outputs of a select are known without compiling.  Every select inside of it
was the finished form of some draft on the way, or has at most one output.  Where the layouts on
the way name no two columns alike, no select does.
-/
import ObjectGraph.Proofs.Compile.Layouts
import ObjectGraph.Proofs.Compile.Scope
import ObjectGraph.Proofs.Sql.Nested

namespace ObjectGraph.Compile

open Sql (Expression Relation Select TableAlias)

variable {counts last : AliasCounts} {catalog : Catalog}

/-! ### Layouts of drafts -/

/-- What is known of a column without a database. -/
def Column.label (column : Column) : Label := ⟨column.field, column.isIdentity⟩

lemma Column.map_name_label {columns : List Column}
    (h : ∀ column ∈ columns, column.name = column.label.name) :
    (columns.map label).map Label.name = columns.map (·.name) := by
  rw [List.map_map]
  exact List.map_congr_left fun column hc => (h column hc).symm

namespace Draft

variable {draft base result : Draft}

/-- What is known of the columns of a draft without a database. -/
def layout (draft : Draft) : Layout := ⟨draft.columns.map Column.label, draft.type⟩

/-- Every column is named as its label says. -/
def Labelled (draft : Draft) : Prop :=
  ∀ column ∈ draft.columns, column.name = column.label.name

lemma Labelled.names_layout (h : draft.Labelled) : draft.layout.names = draft.names :=
  Column.map_name_label h

lemma layout_wrapped (draft : Draft) (handle : TableAlias) :
    (draft.wrapped handle).layout = draft.layout := by
  simp only [layout, wrapped, List.map_map]
  rfl

lemma Labelled.wrapped (h : draft.Labelled) (handle : TableAlias) :
    (draft.wrapped handle).Labelled :=
  List.forall_mem_map.2 h

lemma Wraps.layout {condition : Bool} (hw : Wraps counts draft condition base last) :
    base.layout = draft.layout := by
  cases hw with
  | kept => rfl
  | wrapped => exact layout_wrapped draft _

lemma Wraps.labelled {condition : Bool} (hw : Wraps counts draft condition base last)
    (h : draft.Labelled) : base.Labelled := by
  cases hw with
  | kept => exact h
  | wrapped => exact h.wrapped _

lemma find?_label (columns : List Column) (reference : String) :
    (columns.map Column.label).find? (·.answersTo reference)
      = (columns.find? (·.answersTo reference)).map Column.label := by
  rw [List.find?_map]
  rfl

/-- A reference picks the label of the column that it means. -/
lemma pick_label_cons {reference : String} {rest : List String} {picked : List Column}
    {column : Column} (hl : ∀ column ∈ picked, column.name = column.label.name)
    (hname : column.name = column.label.name)
    (hc : draft.column? (unqualified reference) = some column) :
    Label.pick (draft.columns.map Column.label) (picked.map Column.label) (reference :: rest) =
      if column.name ∈ picked.map (·.name)
      then Label.pick (draft.columns.map Column.label) (picked.map Column.label) rest
      else Label.pick (draft.columns.map Column.label) ((picked ++ [column]).map Column.label)
        rest := by
  have hfound : (draft.columns.map Column.label).find? (·.answersTo (unqualified reference))
      = some column.label := by
    rw [find?_label]
    exact congrArg (Option.map Column.label) hc
  have hany : (picked.map Column.label).any (·.name == column.label.name) = true ↔
      column.name ∈ picked.map (·.name) := by
    rw [← Column.map_name_label hl, hname]
    simp
  simp only [Label.pick, hfound, hany, List.map_append, List.map_singleton]

lemma pick_label (h : draft.Labelled) {fields : List String} {picked columns : List Column}
    (hl : ∀ column ∈ picked, column.name = column.label.name)
    (hp : draft.pick picked fields = .ok columns) :
    columns.map Column.label
        = Label.pick (draft.columns.map Column.label) (picked.map Column.label) fields ∧
      ∀ column ∈ columns, column.name = column.label.name := by
  replace hp := picks_of_pick hp
  induction hp with
  | done => exact ⟨rfl, hl⟩
  | again hc hin _ ih =>
    rw [pick_label_cons hl (h _ (column?_mem hc)) hc, if_pos hin]
    exact ih hl
  | new hc hin _ ih =>
    have hname := h _ (column?_mem hc)
    rw [pick_label_cons hl hname hc, if_neg hin]
    exact ih (List.forall_mem_append.2 ⟨hl, List.forall_mem_singleton.2 hname⟩)

end Draft

lemma Column.renameFirst_label {old new : String} {columns renamed : List Column}
    (hl : ∀ column ∈ columns, column.name = column.label.name)
    (h : Column.renameFirst old new columns = some renamed) :
    renamed.map Column.label = Label.renameFirst old new (columns.map Column.label) ∧
      ∀ column ∈ renamed, column.name = column.label.name := by
  induction columns generalizing renamed with
  | nil => cases h
  | cons first rest ih =>
    obtain ⟨hfirst, hrest⟩ := List.forall_mem_cons.1 hl
    simp only [renameFirst] at h
    split at h
    · rename_i ha
      cases h
      exact ⟨(if_pos ha).symm, List.forall_mem_cons.2 ⟨rfl, hrest⟩⟩
    · rename_i ha
      obtain ⟨others, ho, rfl⟩ := Option.map_eq_some_iff.1 h
      obtain ⟨hlabels, hnames⟩ := ih hrest ho
      refine ⟨?_, List.forall_mem_cons.2 ⟨hfirst, hnames⟩⟩
      rw [List.map_cons, hlabels]
      exact (if_neg ha).symm

namespace Draft

variable {draft base result : Draft} {name : String} {type : ObjectType}

lemma layout_startDraft {handle : TableAlias} {condition : Expression}
    (ht : catalog.type? name = some type) :
    (startDraft name type handle condition).layout = .ofType catalog name ∧
      (startDraft name type handle condition).Labelled := by
  refine ⟨?_, List.forall_mem_map.2 fun entry _ => rfl⟩
  simp only [layout, startDraft, Layout.ofType, ht, Column.ofType, OrderedMap.keys, Named.keys,
    List.map_map]
  rfl

lemma layout_attach (column : Column) :
    (draft.attach column).layout = { draft.layout with
      labels := draft.layout.labels.filter (·.field != column.field) ++ [column.label] } := by
  simp only [layout, attach, List.map_append, List.map_singleton, List.filter_map]
  rfl

end Draft

lemma start_layout {name : String} {ids : Option (List Int64)} {tied : Option Tie} {result : Draft}
    (h : (start catalog name ids tied).run counts = .ok (result, last)) :
    result.layout = .ofType catalog name ∧ result.Labelled := by
  obtain ⟨type, e, chosen, htype, -, -, rfl⟩ := start_ok h
  exact Draft.layout_startDraft htype

/-- An edge that can be followed from a draft leads from its layout. -/
lemma edge?_layout {draft : Draft} {name : String} {found : Edge × Tie}
    (h : follow catalog draft name = .ok found) :
    draft.layout.edge? catalog name = some found.1 := by
  obtain ⟨type, target, htype, hedge, -⟩ := follow_ok h
  simp only [Layout.edge?, Draft.layout, htype, Option.bind_some, hedge]

lemma edgeColumn_label {name : String} {cardinality : Cardinality} {reached : Draft}
    {column : Column} (h : (edgeColumn name cardinality reached).run counts = .ok (column, last)) :
    column.label = ⟨name, false⟩ ∧ column.name = name := by
  rcases edgeColumn_ok h with ⟨-, -, rfl⟩ | ⟨-, _, -, rfl⟩ <;> exact ⟨rfl, rfl⟩

mutual

/-- The columns of a draft follow the layout of the operations. -/
lemma operation_layout (step : Operation) {draft result : Draft} {counts last : AliasCounts}
    (h : draft.Labelled) (ho : (operation catalog draft step).run counts = .ok (result, last)) :
    result.layout = draft.layout.after catalog step ∧ result.Labelled := by
  cases operation_ok ho with
  | project hc =>
    obtain ⟨hlabels, hnames⟩ := Draft.pick_label h (by simp) hc
    refine ⟨?_, hnames⟩
    simp only [Layout.after, Draft.layout, hlabels, List.map_nil]
  | rename hc =>
    obtain ⟨hlabels, hnames⟩ := Column.renameFirst_label h hc
    refine ⟨?_, hnames⟩
    simp only [Layout.after, Draft.layout, hlabels]
  | filter hw | take hw | skip hw | orderBy hw => exact ⟨hw.layout, hw.labelled h⟩
  | count | nest => exact ⟨rfl, List.forall_mem_singleton.2 rfl⟩
  | groupBy => exact ⟨rfl, List.forall_mem_cons.2 ⟨rfl, List.forall_mem_singleton.2 rfl⟩⟩
  | @edge name _ _ _ _ _ column _ _ _ _ hw _ _ _ hcolumn =>
    obtain ⟨hlabel, hname⟩ := edgeColumn_label hcolumn
    have hfield : column.field = name := congrArg Label.field hlabel
    refine ⟨?_, List.forall_mem_append.2 ⟨fun other ho => ?_, List.forall_mem_singleton.2 ?_⟩⟩
    · rw [Draft.layout_attach, hlabel, hfield, hw.layout, Layout.after]
    · exact hw.labelled h other (List.mem_of_mem_filter ho)
    · rw [hname, hlabel]
      rfl
  | @union queries drafts _ hb =>
    refine ⟨?_, h.wrapped _⟩
    have htypes : drafts.all (·.type == draft.type)
        = Layout.allOfType catalog draft.layout.type queries := branches_layout queries hb
    simp only [Draft.layout, Draft.united, htypes, Layout.after, List.map_map]
    rfl

lemma pipeline_layout : ∀ (steps : List Operation) {draft result : Draft}
    {counts last : AliasCounts}, draft.Labelled →
    (pipeline catalog draft steps).run counts = .ok (result, last) →
    result.layout = draft.layout.afterAll catalog steps ∧ result.Labelled
  | [], _, _, _, _, h, hp => by
    obtain ⟨rfl, -⟩ := run_pure_eq_ok.1 hp
    exact ⟨rfl, h⟩
  | step :: rest, _, _, _, _, h, hp => by
    obtain ⟨next, _, ho, hp⟩ := pipeline_cons_ok hp
    obtain ⟨hnext, hlabelled⟩ := operation_layout step h ho
    obtain ⟨hresult, hlast⟩ := pipeline_layout rest hlabelled hp
    exact ⟨by rw [hresult, hnext, Layout.afterAll], hlast⟩

lemma branches_layout : ∀ (queries : List Query) {expected : List String} {type : Option String}
    {drafts : List Draft} {counts last : AliasCounts},
    (branches catalog expected queries).run counts = .ok (drafts, last) →
    drafts.all (·.type == type) = Layout.allOfType catalog type queries
  | [], _, _, _, _, _, hb => by
    obtain ⟨rfl, -⟩ := run_pure_eq_ok.1 hb
    rfl
  | ⟨source, operations⟩ :: rest, _, type, _, _, _, hb => by
    obtain ⟨first, _, branch, _, others, hstart, hp, -, ho, rfl⟩ := branches_cons_ok hb
    obtain ⟨hfirst, hlabelled⟩ := start_layout hstart
    obtain ⟨hbranch, -⟩ := pipeline_layout operations hlabelled hp
    have htype : branch.type
        = ((Layout.ofType catalog source.objectType).afterAll catalog operations).type := by
      rw [← hfirst, ← hbranch]
      rfl
    rw [Layout.allOfType, List.all_cons, htype, branches_layout rest ho]

end

/-! ### Unambiguous drafts -/

lemma compositional_unambiguous : Compositional Expression.Unambiguous where
  value _ := Expression.unambiguous_value
  cast := Expression.unambiguous_cast.2
  isNull := Expression.unambiguous_isNull.2
  not := Expression.unambiguous_not.2
  or hl hr := Expression.unambiguous_or.2 ⟨hl, hr⟩
  both := Expression.Unambiguous.both
  comparison hl hr := Expression.unambiguous_comparison.2 ⟨hl, hr⟩
  isIn hl hi := Expression.unambiguous_isIn.2 ⟨hl, hi⟩

namespace Draft

variable {draft base result : Draft}

/-- In all selects inside of a draft the outputs have different names; those of the draft itself
may still change. -/
structure Unambiguous (draft : Draft) : Prop where
  relation : draft.relation.Unambiguous
  columns : ∀ column ∈ draft.columns, column.expression.Unambiguous
  condition : draft.condition.Unambiguous
  groupBy : ∀ e ∈ draft.groupBy, e.Unambiguous
  orderBy : ∀ key ∈ draft.orderBy, key.target.Unambiguous

lemma Unambiguous.finish (h : draft.Unambiguous) (hn : draft.names.Nodup) :
    draft.finish.Unambiguous := by
  rw [Select.unambiguous_iff, names_finish]
  refine ⟨hn, h.relation, ?_, h.condition, h.groupBy, h.orderBy⟩
  exact List.forall_mem_map.2 (List.forall_mem_map.2 h.columns)

lemma Unambiguous.wrapped (h : draft.Unambiguous) (hn : draft.names.Nodup) (handle : TableAlias) :
    (draft.wrapped handle).Unambiguous where
  relation := Relation.unambiguous_derived.2 (h.finish hn)
  columns := List.forall_mem_map.2 fun _ _ => Expression.unambiguous_output
  condition := Expression.unambiguous_true
  groupBy := by simp [Draft.wrapped]
  orderBy := by simp [Draft.wrapped]

lemma Wraps.unambiguous {condition : Bool} (hw : Wraps counts draft condition base last)
    (h : draft.Unambiguous) (hn : draft.names.Nodup) : base.Unambiguous := by
  cases hw with
  | kept => exact h
  | wrapped => exact h.wrapped hn _

lemma Unambiguous.resolvesTo (h : draft.Unambiguous) :
    draft.ResolvesTo catalog Expression.Unambiguous := by
  intro reference target hr
  rcases resolve_ok hr with ⟨column, hc, rfl⟩ | ⟨-, -, field, rfl⟩
  · exact h.columns column (column?_mem hc)
  · exact Expression.unambiguous_column

lemma gathered_unambiguous (h : draft.Unambiguous) (hn : draft.names.Nodup) {handle : TableAlias}
    {target : Expression × Option ScalarType} (ht : target.1.Unambiguous) :
    (draft.gathered handle target).Unambiguous :=
  { h.wrapped hn handle with
    columns :=
      List.forall_mem_cons.2 ⟨ht, List.forall_mem_singleton.2 Expression.unambiguous_jsonRows⟩
    groupBy := List.forall_mem_singleton.2 ht
    orderBy := List.forall_mem_singleton.2 ht }

lemma attach_unambiguous (h : draft.Unambiguous) {column : Column}
    (hc : column.expression.Unambiguous) : (draft.attach column).Unambiguous :=
  { h with
    columns := List.forall_mem_append.2
      ⟨fun other ho => h.columns other (List.mem_of_mem_filter ho),
        List.forall_mem_singleton.2 hc⟩ }

/-- A draft inside of which all is unambiguous, with columns of different names. -/
structure Clear (draft : Draft) : Prop where
  labelled : draft.Labelled
  nodup : draft.layout.names.Nodup
  unambiguous : draft.Unambiguous

lemma Clear.nodup_names (h : draft.Clear) : draft.names.Nodup :=
  h.labelled.names_layout ▸ h.nodup

lemma Clear.finish (h : draft.Clear) : draft.finish.Unambiguous :=
  h.unambiguous.finish h.nodup_names

lemma Clear.wraps {condition : Bool} (h : draft.Clear)
    (hw : Wraps counts draft condition base last) : base.Clear where
  labelled := hw.labelled h.labelled
  nodup := hw.layout ▸ h.nodup
  unambiguous := hw.unambiguous h.unambiguous h.nodup_names

lemma Clear.take {n : UInt32} (h : draft.Clear)
    (ht : (draft.take n).run counts = .ok (result, last)) : result.Clear := by
  obtain ⟨base, hw, rfl⟩ := take_ok ht
  have hb := h.wraps hw
  exact ⟨hb.labelled, hb.nodup, { hb.unambiguous with }⟩

end Draft

/-! ### Where rows come from -/

section Sources

variable {name : String}

lemma start_unambiguous {ids : Option (List Int64)} {tied : Option Tie} {result : Draft}
    (ht : ∀ tie ∈ tied, ∀ e ∈ tie.expressions, e.Unambiguous)
    (h : (start catalog name ids tied).run counts = .ok (result, last)) : result.Unambiguous := by
  have hexistence : OfExistence Expression.Unambiguous := fun hcondition =>
    Expression.unambiguous_exists.2 (Select.unambiguous_iff.2 ⟨List.nodup_nil,
      List.forall_mem_nil _, List.forall_mem_nil _, hcondition, List.forall_mem_nil _,
      List.forall_mem_nil _⟩)
  obtain ⟨type, handle, condition, rfl, hcondition⟩ :=
    compositional_unambiguous.start Expression.unambiguous_column hexistence ht h
  exact {
    relation := Relation.unambiguous_table
    columns := List.forall_mem_map.2 fun _ _ => Expression.unambiguous_column
    condition := hcondition
    groupBy := by simp [startDraft]
    orderBy := by simp [startDraft] }

lemma start_clear {ids : Option (List Int64)} {tied : Option Tie} {result : Draft}
    (hn : catalog.NamesApart name) (ht : ∀ tie ∈ tied, ∀ e ∈ tie.expressions, e.Unambiguous)
    (h : (start catalog name ids tied).run counts = .ok (result, last)) :
    result.layout = .ofType catalog name ∧ result.Clear := by
  obtain ⟨hlayout, hlabelled⟩ := start_layout h
  have hnodup : result.layout.names.Nodup :=
    hlayout ▸ (Layout.nodup_names_ofType_iff catalog name).2 hn
  exact ⟨hlayout, hlabelled, hnodup, start_unambiguous ht h⟩

lemma valueColumn_unambiguous {value : Expression} {reached : Draft} {handle : TableAlias}
    (hr : reached.finish.Unambiguous) (hv : value.Unambiguous) :
    (valueColumn name value reached handle).expression.Unambiguous := by
  exact Expression.unambiguous_subselect.2 (Select.unambiguous_simple.2
    ⟨List.nodup_singleton name, Relation.unambiguous_derived.2 hr, List.forall_mem_singleton.2 hv⟩)

lemma edgeColumn_unambiguous {cardinality : Cardinality} {reached : Draft} {column : Column}
    (hr : reached.Clear)
    (h : (edgeColumn name cardinality reached).run counts = .ok (column, last)) :
    column.expression.Unambiguous := by
  rcases edgeColumn_ok h with ⟨-, -, rfl⟩ | ⟨-, first, hfirst, rfl⟩
  · exact valueColumn_unambiguous hr.finish Expression.unambiguous_jsonArray
  · exact valueColumn_unambiguous (hr.take hfirst).finish Expression.unambiguous_rowToJson

end Sources

/-! ### Whole queries -/

mutual

lemma operation_unambiguous (step : Operation) {draft result : Draft} {counts last : AliasCounts}
    (h : draft.Clear) (ha : step.NamesApart catalog draft.layout)
    (ho : (operation catalog draft step).run counts = .ok (result, last)) :
    result.Unambiguous := by
  cases operation_ok ho with
  | project hc =>
    exact { h.unambiguous with
      columns := fun column hm => h.unambiguous.columns column (Draft.pick_subset hc hm) }
  | rename hc =>
    refine { h.unambiguous with columns := fun column hm => ?_ }
    obtain ⟨original, hm, he⟩ := Draft.renameFirst_expression hc column hm
    exact he ▸ h.unambiguous.columns original hm
  | filter hw he =>
    have hb := (h.wraps hw).unambiguous
    have hcondition := compositional_unambiguous.condition hb.resolvesTo he
    exact { hb with condition := hb.condition.both hcondition }
  | take hw | skip hw => exact { (h.wraps hw).unambiguous with }
  | count hw =>
    exact { (h.wraps hw).unambiguous with
      columns := List.forall_mem_singleton.2 Expression.unambiguous_countRows
      orderBy := List.forall_mem_nil _ }
  | nest =>
    exact { h.unambiguous.wrapped h.nodup_names _ with
      columns := List.forall_mem_singleton.2 Expression.unambiguous_jsonArray }
  | orderBy hw ht =>
    have hb := (h.wraps hw).unambiguous
    exact { hb with orderBy := List.forall_mem_cons.2 ⟨hb.resolvesTo ht, hb.orderBy⟩ }
  | groupBy ht =>
    exact Draft.gathered_unambiguous h.unambiguous h.nodup_names
      ((h.unambiguous.wrapped h.nodup_names _).resolvesTo ht)
  | @edge _ _ _ _ reached found _ _ _ _ _ hw hf hstart hp hcolumn =>
    have hb := h.wraps hw
    obtain ⟨-, -, -, -, -, htie⟩ := follow_ok hf
    -- the condition knows the edge by the layout of the draft, which wrapping keeps
    obtain ⟨htarget, hinner⟩ := ha.2 found.1 (hw.layout ▸ edge?_layout hf)
    have hties : ∀ tie ∈ some found.2, ∀ e ∈ tie.expressions, e.Unambiguous := by
      rintro _ ⟨⟩
      exact Draft.ResolvesTo.tie hb.unambiguous.resolvesTo htie
    obtain ⟨hlayout, hfirst⟩ := start_clear htarget hties hstart
    have hreached : reached.Clear := pipeline_clear _ hfirst (hlayout ▸ hinner) hp
    exact Draft.attach_unambiguous hb.unambiguous (edgeColumn_unambiguous hreached hcolumn)
  | @union _ drafts _ hb =>
    have hbranches : ∀ branch ∈ drafts, branch.finish.Unambiguous :=
      branches_unambiguous _ ha hb
    exact {
      relation := Relation.unambiguous_union.2
        (List.forall_mem_cons.2 ⟨h.finish, List.forall_mem_map.2 hbranches⟩)
      columns := List.forall_mem_map.2 fun _ _ => Expression.unambiguous_output
      condition := Expression.unambiguous_true
      groupBy := List.forall_mem_nil _
      orderBy := List.forall_mem_nil _ }

lemma pipeline_clear : ∀ (steps : List Operation) {draft result : Draft}
    {counts last : AliasCounts}, draft.Clear → stepsNamesApart catalog draft.layout steps →
    (pipeline catalog draft steps).run counts = .ok (result, last) → result.Clear
  | [], _, _, _, _, h, _, hp => by
    obtain ⟨rfl, -⟩ := run_pure_eq_ok.1 hp
    exact h
  | step :: rest, _, _, _, _, h, ha, hp => by
    obtain ⟨next, _, ho, hp⟩ := pipeline_cons_ok hp
    obtain ⟨hlayout, hlabelled⟩ := operation_layout step h.labelled ho
    have hnodup : next.layout.names.Nodup :=
      hlayout ▸ (Layout.nodup_names_after_iff h.nodup step).2 ha.1.keepsApart
    have hnext : next.Clear := ⟨hlabelled, hnodup, operation_unambiguous step h ha.1 ho⟩
    exact pipeline_clear rest hnext (hlayout ▸ ha.2) hp

lemma branches_unambiguous : ∀ (queries : List Query) {expected : List String}
    {drafts : List Draft} {counts last : AliasCounts}, queriesNamesApart catalog queries →
    (branches catalog expected queries).run counts = .ok (drafts, last) →
    ∀ branch ∈ drafts, branch.finish.Unambiguous
  | [], _, _, _, _, _, hb => by
    obtain ⟨rfl, -⟩ := run_pure_eq_ok.1 hb
    simp
  | ⟨source, operations⟩ :: rest, _, _, _, _, ha, hb => by
    obtain ⟨first, _, branch, _, others, hstart, hp, -, ho, rfl⟩ := branches_cons_ok hb
    obtain ⟨⟨htype, hsteps⟩, hrest⟩ := ha
    obtain ⟨hlayout, hfirst⟩ := start_clear htype (by simp) hstart
    have hbranch : branch.Clear := pipeline_clear operations hfirst (hlayout ▸ hsteps) hp
    exact List.forall_mem_cons.2 ⟨hbranch.finish, branches_unambiguous rest hrest ho⟩

end

/-- The outputs of a select are named after the layout of its query.  In the select and all those
inside of it they have different names unless a type that the query reads has a field that is
called as the column of its identity, or one of its operations gives a column the name of
another one. -/
theorem names_select (catalog : Catalog) (query : Query) (select : Select)
    (h : Compile.select catalog query = .ok select) :
    select.list.names = (Layout.ofQuery catalog query).names ∧
      (query.NamesApart catalog → ∀ nested ∈ select.selects, nested.list.names.Nodup) := by
  obtain ⟨result, last, hd, rfl⟩ := select_ok h
  obtain ⟨first, started, hstart, hp⟩ := draft_ok hd
  obtain ⟨hfirst, hlabelled⟩ := start_layout hstart
  obtain ⟨hresult, hresultLabelled⟩ := pipeline_layout query.operations hlabelled hp
  constructor
  · rw [Draft.names_finish, ← hresultLabelled.names_layout, hresult, hfirst, Layout.ofQuery]
  · intro ha
    obtain ⟨-, hclear⟩ := start_clear ha.1 (by simp) hstart
    exact (pipeline_clear query.operations hclear (hfirst ▸ ha.2) hp).finish

/-- The reviews of friends keep their names apart. -/
theorem names_select_reviewsOfFriends :
    ∃ select, Compile.select SocialGraph.catalog reviewsOfFriends = .ok select ∧
      reviewsOfFriends.NamesApart SocialGraph.catalog ∧
      ∀ nested ∈ select.selects, nested.list.names.Nodup := by
  have hok : (Compile.select SocialGraph.catalog reviewsOfFriends).isOk = true := by
    decide +kernel
  have hapart : reviewsOfFriends.NamesApart SocialGraph.catalog :=
    Query.namesApart_iff.2 (by decide +kernel)
  obtain ⟨select, h⟩ := exists_of_isOk hok
  exact ⟨select, h, hapart, (names_select SocialGraph.catalog reviewsOfFriends select h).2 hapart⟩

/-- The name of a user, renamed to that of another column. -/
theorem names_select_age :
    ∃ select, Compile.select SocialGraph.catalog
        ⟨{ objectType := "User" }, [.rename "name" "age"]⟩ = .ok select ∧
      select.list.names = ["id", "age", "age"] ∧
      ¬ ∀ nested ∈ select.selects, nested.list.names.Nodup :=
  ⟨_, rfl, by decide +kernel, by decide +kernel⟩

end ObjectGraph.Compile
