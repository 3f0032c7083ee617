/-
# Selects are well scoped

A draft is built inside the scope of the rows it is tied to.  All its clauses are well scoped
below its own relation, and all aliases in it were handed out before.  An alias that is handed
out later is therefore bound nowhere in it: a draft may be wrapped, and its expressions may be
carried into the selects below it, without an alias hiding another one.
-/
import ObjectGraph.Proofs.Compile.Aliases
import ObjectGraph.Samples.SocialGraph

namespace ObjectGraph.Compile

open Sql (Binding Bindings Expression Relation Select SelectList TableAlias)

variable {counts last : AliasCounts} {catalog : Catalog} {scope : Bindings}

/-! ### Drafts -/

namespace Draft

variable {draft base result : Draft}

/-- The scope of the clauses of a draft that is built inside another scope. -/
def within (draft : Draft) (scope : Bindings) : Bindings := draft.relation.binding :: scope

/-- A draft all of whose clauses are well scoped, with aliases that were handed out. -/
structure WellScoped (counts : AliasCounts) (scope : Bindings) (draft : Draft) : Prop where
  relation : draft.relation.Scoped scope
  issued : ∀ handle ∈ draft.relation.bound, Issued counts handle
  free : scope.Free draft.handle
  columns : ∀ column ∈ draft.columns, Fits counts (draft.within scope) column.expression
  condition : Fits counts (draft.within scope) draft.condition
  groupBy : ∀ e ∈ draft.groupBy, Fits counts (draft.within scope) e
  orderBy : ∀ key ∈ draft.orderBy, Fits counts (draft.within scope) key.target
  /-- Fields that are not among the columns are read from a stored table. -/
  stored : draft.readsTable = true → draft.relation.binding = .stored draft.handle

lemma handle_issued (h : draft.WellScoped counts scope) : Issued counts draft.handle :=
  h.issued _ draft.relation.handle_mem_bound

lemma settled_within (h : draft.WellScoped counts scope) (hs : Settled counts scope) :
    Settled counts (draft.within scope) := by
  refine hs.cons ?_
  rw [Relation.handle_binding]
  exact handle_issued h

lemma WellScoped.grow (h : draft.WellScoped counts scope) (hg : Grows counts last) :
    draft.WellScoped last scope where
  relation := h.relation
  issued handle hh := hg handle (h.issued handle hh)
  free := h.free
  columns column hc := (h.columns column hc).grow hg
  condition := h.condition.grow hg
  groupBy e he := (h.groupBy e he).grow hg
  orderBy key hk := (h.orderBy key hk).grow hg
  stored := h.stored

lemma finish_fits (h : draft.WellScoped counts scope) :
    SelectFits counts scope draft.finish := by
  refine ⟨⟨⟨h.relation, h.free⟩, ?_, h.condition.1, ?_, ?_⟩, fun handle hh => ?_⟩
  · refine Sql.scopedOutputs_iff.2 fun output ho => ?_
    obtain ⟨column, hc, rfl⟩ := List.mem_map.1 ho
    exact (h.columns column hc).1
  · exact Sql.scopedList_iff.2 fun e he => (h.groupBy e he).1
  · exact Sql.scopedKeys_iff.2 fun key hk => (h.orderBy key hk).1
  · simp only [finish, Select.bound, SelectList.bound, List.mem_append, Sql.mem_boundOutputs,
      Sql.mem_boundList, Sql.mem_boundKeys] at hh
    rcases hh with (((hh | ⟨output, ho, hh⟩) | hh) | ⟨e, he, hh⟩) | ⟨key, hk, hh⟩
    · exact h.issued handle hh
    · obtain ⟨column, hc, rfl⟩ := List.mem_map.1 ho
      exact (h.columns column hc).2 handle hh
    · exact h.condition.2 handle hh
    · exact (h.groupBy e he).2 handle hh
    · exact (h.orderBy key hk).2 handle hh

/-- The columns of a draft, read through an alias for selects that all have outputs of the same
names. -/
lemma fits_through {handle : TableAlias} {outputs : List (List String)}
    (hs : ∀ names ∈ outputs, names = draft.names) {column : Column}
    (hc : column ∈ draft.columns.map (·.through handle)) :
    Fits counts (.derived handle outputs :: scope) column.expression := by
  obtain ⟨original, ho, rfl⟩ := List.mem_map.1 hc
  refine fits_output.2 ⟨outputs, List.mem_cons_self, fun names hn => ?_⟩
  rw [hs names hn]
  exact List.mem_map.2 ⟨original, ho, rfl⟩

/-! ### Wrapping -/

lemma wrapped_wellScoped (h : draft.WellScoped counts scope) (hs : Settled counts scope) :
    (draft.wrapped (nextAlias counts "t")).WellScoped (countAlias counts "t") scope where
  relation := (finish_fits h).1
  issued handle hh := by
    rcases List.mem_cons.1 hh with rfl | hh
    · exact issued_nextAlias counts "t"
    · exact grows_countAlias counts "t" handle ((finish_fits h).2 handle hh)
  free := hs.free "t"
  columns column hc := fits_through (by simp [names_finish]) hc
  condition := fits_true
  groupBy := by simp [wrapped]
  orderBy := by simp [wrapped]
  stored := by simp [wrapped]

lemma Wraps.grows {condition : Bool} (hw : Wraps counts draft condition base last) :
    Grows counts last := by
  cases hw with
  | kept => exact .refl counts
  | wrapped => exact grows_countAlias counts "t"

lemma Wraps.wellScoped {condition : Bool} (hw : Wraps counts draft condition base last)
    (h : draft.WellScoped counts scope) (hs : Settled counts scope) :
    base.WellScoped last scope := by
  cases hw with
  | kept => exact h
  | wrapped => exact wrapped_wellScoped h hs

/-! ### References and conditions -/

lemma resolve_fits (h : draft.WellScoped counts scope) {reference : String}
    {target : Expression × Option ScalarType}
    (hr : draft.resolve catalog reference = .ok target) :
    Fits counts (draft.within scope) target.1 := by
  rcases resolve_ok hr with ⟨column, hc, rfl⟩ | ⟨-, hreads, field, rfl⟩
  · exact h.columns column (column?_mem hc)
  · refine fits_column.2 ?_
    rw [within, h.stored hreads]
    exact List.mem_cons_self

end Draft

lemma compositional_fits : Compositional (Fits counts scope) where
  value := fits_value
  cast := fits_cast.2
  isNull := fits_isNull.2
  not := fits_not.2
  or hl hr := fits_or.2 ⟨hl, hr⟩
  both := Fits.both
  comparison hl hr := fits_comparison.2 ⟨hl, hr⟩
  isIn hl hi := fits_isIn.2 ⟨hl, hi⟩

lemma condition_fits {draft : Draft} {e : Expression} (hd : draft.WellScoped counts scope)
    {predicate : Predicate} (h : condition catalog draft predicate = .ok e) :
    Fits counts (draft.within scope) e :=
  compositional_fits.condition (Draft.resolve_fits hd) h

/-! ### Operations on a single draft -/

namespace Draft

variable {draft base result : Draft}

/-- The columns of a draft may be exchanged for others that are well scoped. -/
lemma WellScoped.withColumns (h : draft.WellScoped counts scope) {columns : List Column}
    (hc : ∀ column ∈ columns, Fits counts (draft.within scope) column.expression) :
    { draft with columns }.WellScoped counts scope :=
  { h with columns := hc }

/-- Renamed columns have the expressions of the columns they were. -/
lemma renameFirst_expression {old new : String} {columns renamed : List Column}
    (h : Column.renameFirst old new columns = some renamed) :
    ∀ column ∈ renamed, ∃ original ∈ columns, original.expression = column.expression := by
  induction columns generalizing renamed with
  | nil => cases h
  | cons first rest ih =>
    simp only [Column.renameFirst] at h
    split at h
    · cases h
      intro column hc
      rcases List.mem_cons.1 hc with rfl | hc
      · exact ⟨first, List.mem_cons_self, rfl⟩
      · exact ⟨column, List.mem_cons_of_mem _ hc, rfl⟩
    · obtain ⟨others, ho, rfl⟩ := Option.map_eq_some_iff.1 h
      intro column hc
      rcases List.mem_cons.1 hc with rfl | hc
      · exact ⟨column, List.mem_cons_self, rfl⟩
      · obtain ⟨original, hm, he⟩ := ih ho column hc
        exact ⟨original, List.mem_cons_of_mem _ hm, he⟩

/-- The alias of the relation of a draft is in the scope of its clauses. -/
lemma handle_within (draft : Draft) (scope : Bindings) :
    ∃ binding ∈ draft.within scope, binding.handle = draft.handle :=
  ⟨draft.relation.binding, List.mem_cons_self, draft.relation.handle_binding⟩

lemma gathered_wellScoped (h : draft.WellScoped counts scope) (hs : Settled counts scope)
    {key : String} {target : Expression × Option ScalarType}
    (ht : (draft.wrapped (nextAlias counts "t")).resolve catalog key = .ok target) :
    (draft.gathered (nextAlias counts "t") target).WellScoped (countAlias counts "t") scope := by
  have hb := wrapped_wellScoped h hs
  have htarget := resolve_fits hb ht
  have hrows := handle_within (draft.wrapped (nextAlias counts "t")) scope
  refine { hb with columns := ?_, groupBy := ?_, orderBy := ?_ }
  · exact List.forall_mem_cons.2 ⟨htarget, List.forall_mem_singleton.2 (fits_jsonRows hrows)⟩
  · exact List.forall_mem_singleton.2 htarget
  · exact List.forall_mem_singleton.2 htarget

lemma attach_wellScoped (h : draft.WellScoped counts scope) {column : Column}
    (hc : Fits counts (draft.within scope) column.expression) :
    (draft.attach column).WellScoped counts scope := by
  refine h.withColumns fun c hm => ?_
  rcases List.mem_append.1 hm with hm | hm
  · exact h.columns c (List.mem_filter.1 hm).1
  · rw [List.mem_singleton.1 hm]
    exact hc

lemma united_wellScoped (h : draft.WellScoped counts scope) (hs : Settled counts scope)
    {drafts : List Draft} (hd : ∀ branch ∈ drafts, branch.WellScoped counts scope)
    (hn : ∀ branch ∈ drafts, branch.names = draft.names) :
    (draft.united drafts (nextAlias counts "t")).WellScoped (countAlias counts "t") scope := by
  have hgrows := grows_countAlias counts "t"
  have hfits : ∀ select ∈ draft.finish :: drafts.map finish, SelectFits counts scope select := by
    refine List.forall_mem_cons.2 ⟨finish_fits h, fun select hm => ?_⟩
    obtain ⟨branch, hb, rfl⟩ := List.mem_map.1 hm
    exact finish_fits (hd branch hb)
  have hnames : ∀ names ∈ (draft.finish :: drafts.map finish).map (·.list.names),
      names = draft.names := by
    intro names hm
    obtain ⟨select, hselect, rfl⟩ := List.mem_map.1 hm
    rcases List.mem_cons.1 hselect with rfl | hselect
    · exact draft.names_finish
    · obtain ⟨branch, hb, rfl⟩ := List.mem_map.1 hselect
      rw [names_finish, hn branch hb]
  refine {
    relation := Sql.scopedSelects_iff.2 fun select hm => (hfits select hm).1
    issued := fun handle hh => ?_
    free := hs.free "t"
    columns := fun column hc => fits_through hnames hc
    condition := fits_true
    groupBy := by simp [united]
    orderBy := by simp [united]
    stored := by simp [united] }
  rcases List.mem_cons.1 hh with rfl | hh
  · exact issued_nextAlias counts "t"
  · obtain ⟨select, hm, hb⟩ := Sql.mem_boundSelects.1 hh
    exact hgrows handle ((hfits select hm).2 handle hb)

end Draft

/-! ### Where rows come from -/

/-- A tie whose expressions are well scoped at the rows that it starts from. -/
def Tie.Fits (counts : AliasCounts) (scope : Bindings) : Tie → Prop
  | .columns pairs => ∀ pair ∈ pairs, Compile.Fits counts scope pair.2
  | .through _ _ _ row => Compile.Fits counts scope row

section Sources

variable {draft : Draft} {e : Expression} {name : String} {type : ObjectType}
  {table : TableAlias}

lemma tie_fits (h : draft.WellScoped counts scope) {join : Join} {t : Tie}
    (ht : tie catalog draft join = .ok t) : t.Fits counts (draft.within scope) := by
  have hfits := Draft.ResolvesTo.tie (Draft.resolve_fits h) ht
  cases t with
  | columns pairs => exact List.forall_mem_map.1 hfits
  | through pairs source target row => exact hfits row List.mem_cons_self

lemma storedColumn_fits {field : String} (h : storedColumn name type table field = .ok e)
    (ht : .stored table ∈ scope) : Fits counts scope e := by
  obtain ⟨column, rfl⟩ := storedColumn_ok h
  exact fits_column.2 ht

/-- The condition of a tie on a table that was given its alias just before.  The expressions of
the tie are older than the alias, so they may stand below it. -/
lemma tie_condition_fits {t : Tie} (ht : t.Fits counts scope) (hs : Settled counts scope)
    (hn : ¬ Issued counts table) {started : AliasCounts} (hg : Grows counts started)
    (hi : Issued started table) (h : (t.condition name type table).run started = .ok (e, last)) :
    Grows started last ∧ Fits last (.stored table :: scope) e := by
  cases t with
  | columns pairs =>
    simp only [Tie.condition, run_lift_eq_ok] at h
    obtain ⟨h, rfl⟩ := h
    have hpairs : ∀ pair ∈ pairs, Fits last (.stored table :: scope) pair.2 := fun pair hp =>
      ((ht pair hp).below (.stored table) hn).grow hg
    exact ⟨.refl _, compositional_fits.tieCondition (fun _ => fits_column.2 List.mem_cons_self)
      hpairs fits_true h⟩
  | through pairs source target row =>
    simp only [Tie.condition, run_bind_eq_ok, run_freshAlias_eq_ok, run_lift_eq_ok,
      run_pure_eq_ok] at h
    obtain ⟨_, _, ⟨rfl, rfl⟩, identity, _, ⟨hidentity, rfl⟩, rfl, rfl⟩ := h
    have hgrows := grows_countAlias started pairs.table
    have hsettled : Settled started (.stored table :: scope) := (hs.grow hg).cons hi
    -- The expression of the row is older than both aliases, so it may stand below them.
    have hrow : Fits started (.stored table :: scope) row :=
      (ht.below (.stored table) hn).grow hg
    have hbelow : Fits started
        (.stored (nextAlias started pairs.table) :: .stored table :: scope) row :=
      hrow.below (.stored _) (not_issued_nextAlias started pairs.table)
    have hidentity : Fits (countAlias started pairs.table)
        (.stored (nextAlias started pairs.table) :: .stored table :: scope) identity :=
      storedColumn_fits hidentity (by simp)
    refine ⟨hgrows, fits_exists.2 ?_⟩
    have hcondition : Fits (countAlias started pairs.table)
        (.stored (nextAlias started pairs.table) :: .stored table :: scope)
        (Expression.both (.equal (.column (nextAlias started pairs.table) target) identity)
          (.equal (.column (nextAlias started pairs.table) source) row)) :=
      Fits.both (fits_comparison.2 ⟨fits_column.2 List.mem_cons_self, hidentity⟩)
        (fits_comparison.2 ⟨fits_column.2 List.mem_cons_self, hbelow.grow hgrows⟩)
    refine ⟨⟨⟨⟨pairs, rfl⟩, hsettled.free pairs.table⟩, trivial, hcondition.1, trivial, trivial⟩,
      fun handle hh => ?_⟩
    simp only [Select.bound, SelectList.bound, Relation.bound, Sql.boundFrom, Sql.boundList,
      Sql.boundKeys, Select.simple, List.append_nil, List.mem_append, List.mem_singleton] at hh
    rcases hh with rfl | hh
    · exact issued_nextAlias started pairs.table
    · exact hcondition.2 handle hh

lemma start_wellScoped {ids : Option (List Int64)} {t : Option Tie} {result : Draft}
    (hs : Settled counts scope) (ht : ∀ tie ∈ t, tie.Fits counts scope)
    (h : (start catalog name ids t).run counts = .ok (result, last)) :
    Grows counts last ∧ result.WellScoped last scope := by
  obtain ⟨type, tied, chosen, -, htied, hchosen, rfl⟩ := start_ok h
  have hgrows := grows_countAlias counts type.table
  have hissued := issued_nextAlias counts type.table
  have hcondition : Grows (countAlias counts type.table) last ∧
      Fits last (.stored (nextAlias counts type.table) :: scope) tied := by
    cases t with
    | none =>
      obtain ⟨rfl, rfl⟩ := run_pure_eq_ok.1 htied
      exact ⟨.refl _, fits_true⟩
    | some tie =>
      exact tie_condition_fits (ht tie rfl) hs (not_issued_nextAlias counts type.table) hgrows
        hissued htied
  obtain ⟨hlast, htied⟩ := hcondition
  refine ⟨hgrows.trans hlast, {
    relation := ⟨_, rfl⟩
    issued := ?_
    free := hs.free type.table
    columns := fun column hc => ?_
    condition := htied.both (compositional_fits.sourceCondition
      (fun _ => fits_column.2 List.mem_cons_self) hchosen)
    groupBy := by simp [startDraft]
    orderBy := by simp [startDraft]
    stored := fun _ => rfl }⟩
  · exact List.forall_mem_singleton.2 (hlast _ hissued)
  · obtain ⟨entry, -, rfl⟩ := List.mem_map.1 hc
    exact fits_column.2 List.mem_cons_self

/-- The subselect of an edge, read at the rows it is tied to. -/
lemma valueColumn_fits {reached : Draft} {value : Expression} {handle : TableAlias}
    (h : reached.WellScoped counts scope) (hf : scope.Free handle) (hi : Issued counts handle)
    (hv : ∀ outputs, Fits counts (.derived handle outputs :: scope) value) :
    Fits counts scope (valueColumn name value reached handle).expression := by
  have hselect := Draft.finish_fits h
  have hvalue := hv [reached.finish.list.names]
  have htrue : Fits counts (.derived handle [reached.finish.list.names] :: scope) .true :=
    fits_true
  refine fits_subselect.2 ⟨⟨⟨hselect.1, hf⟩, ⟨hvalue.1, trivial⟩, htrue.1, trivial, trivial⟩, ?_⟩
  intro other ho
  simp only [Select.simple, Select.bound, SelectList.bound, Relation.bound, Sql.boundFrom,
    Sql.boundOutputs, Sql.boundList, Sql.boundKeys, List.append_nil, List.mem_append,
    List.mem_cons] at ho
  rcases ho with ((rfl | ho) | ho) | ho
  · exact hi
  · exact hselect.2 other ho
  · exact hvalue.2 other ho
  · exact htrue.2 other ho

lemma edgeColumn_fits {cardinality : Cardinality} {reached : Draft} {column : Column}
    (hr : reached.WellScoped counts scope) (hs : Settled counts scope)
    (h : (edgeColumn name cardinality reached).run counts = .ok (column, last)) :
    Grows counts last ∧ Fits last scope column.expression := by
  have hgrows := grows_countAlias counts name
  have hissued := issued_nextAlias counts name
  have hrow (outputs : List (List String)) :
      ∃ binding ∈ Binding.derived (nextAlias counts name) outputs :: scope,
        binding.handle = nextAlias counts name :=
    ⟨_, List.mem_cons_self, rfl⟩
  rcases edgeColumn_ok h with ⟨-, rfl, rfl⟩ | ⟨-, first, hfirst, rfl⟩
  · exact ⟨hgrows, valueColumn_fits (hr.grow hgrows) (hs.free name) hissued
      fun outputs => fits_jsonArray (hrow outputs)⟩
  · obtain ⟨base, hw, rfl⟩ := Draft.take_ok hfirst
    have hbase := hw.wellScoped (hr.grow hgrows) (hs.grow hgrows)
    exact ⟨hgrows.trans hw.grows,
      valueColumn_fits { hbase with } (hs.free name) (hw.grows _ hissued)
        fun outputs => fits_rowToJson.2 (hrow outputs)⟩

end Sources

/-! ### Whole queries -/

mutual

/-- The operations below an edge are built inside the scope of the row that the edge starts
from. -/
lemma operation_wellScoped (step : Operation) {draft result : Draft} {counts last : AliasCounts}
    {scope : Bindings} (h : draft.WellScoped counts scope) (hs : Settled counts scope)
    (ho : (operation catalog draft step).run counts = .ok (result, last)) :
    Grows counts last ∧ result.WellScoped last scope := by
  cases operation_ok ho with
  | project hc =>
    exact ⟨.refl _, h.withColumns fun column hm => h.columns column (Draft.pick_subset hc hm)⟩
  | rename hc =>
    refine ⟨.refl _, { h with columns := fun column hm => ?_ }⟩
    obtain ⟨original, hm, he⟩ := Draft.renameFirst_expression hc column hm
    exact he ▸ h.columns original hm
  | filter hw he =>
    have hb := hw.wellScoped h hs
    exact ⟨hw.grows, { hb with condition := hb.condition.both (condition_fits hb he) }⟩
  | take hw | skip hw => exact ⟨hw.grows, { hw.wellScoped h hs with }⟩
  | orderBy hw ht =>
    have hb := hw.wellScoped h hs
    exact ⟨hw.grows,
      { hb with orderBy := List.forall_mem_cons.2 ⟨Draft.resolve_fits hb ht, hb.orderBy⟩ }⟩
  | count hw =>
    refine ⟨hw.grows, { hw.wellScoped h hs with columns := ?_, orderBy := ?_, stored := ?_ }⟩
    · simp [Column.computed]
    · simp
    · simp
  | nest =>
    have hrows := Draft.handle_within (draft.wrapped (nextAlias counts "t")) scope
    exact ⟨grows_countAlias counts "t", { Draft.wrapped_wellScoped h hs with
      columns := List.forall_mem_singleton.2 (fits_jsonArray hrows) }⟩
  | groupBy ht => exact ⟨grows_countAlias counts "t", Draft.gathered_wellScoped h hs ht⟩
  | edge hw hf hstart hp hc =>
    have hbase := hw.wellScoped h hs
    -- What the edge reaches is built within the scope of the draft it starts from.
    have hbaseSettled := Draft.settled_within hbase (hs.grow hw.grows)
    obtain ⟨-, -, -, -, -, htie⟩ := follow_ok hf
    obtain ⟨hg₁, hfirst⟩ := start_wellScoped hbaseSettled
      (by rintro _ ⟨⟩; exact tie_fits hbase htie) hstart
    obtain ⟨hg₂, hreached⟩ := pipeline_wellScoped _ hfirst (hbaseSettled.grow hg₁) hp
    have hg₁₂ := hg₁.trans hg₂
    obtain ⟨hg₃, hcolumn⟩ := edgeColumn_fits hreached (hbaseSettled.grow hg₁₂) hc
    have hg := hg₁₂.trans hg₃
    exact ⟨hw.grows.trans hg, Draft.attach_wellScoped (hbase.grow hg) hcolumn⟩
  | union hb =>
    obtain ⟨hg, hdrafts, hnames⟩ := branches_wellScoped _ hs hb
    exact ⟨hg.trans (grows_countAlias _ "t"),
      Draft.united_wellScoped (h.grow hg) (hs.grow hg) hdrafts hnames⟩

lemma pipeline_wellScoped : ∀ (steps : List Operation) {draft result : Draft}
    {counts last : AliasCounts} {scope : Bindings}, draft.WellScoped counts scope →
    Settled counts scope → (pipeline catalog draft steps).run counts = .ok (result, last) →
    Grows counts last ∧ result.WellScoped last scope
  | [], _, _, _, _, _, h, _, hp => by
    obtain ⟨rfl, rfl⟩ := run_pure_eq_ok.1 hp
    exact ⟨.refl _, h⟩
  | step :: rest, _, _, _, _, _, h, hs, hp => by
    obtain ⟨next, between, ho, hp⟩ := pipeline_cons_ok hp
    obtain ⟨hg₁, hnext⟩ := operation_wellScoped step h hs ho
    obtain ⟨hg₂, hresult⟩ := pipeline_wellScoped rest hnext (hs.grow hg₁) hp
    exact ⟨hg₁.trans hg₂, hresult⟩

lemma branches_wellScoped : ∀ (queries : List Query) {expected : List String}
    {drafts : List Draft} {counts last : AliasCounts} {scope : Bindings}, Settled counts scope →
    (branches catalog expected queries).run counts = .ok (drafts, last) →
    Grows counts last ∧ (∀ branch ∈ drafts, branch.WellScoped last scope) ∧
      ∀ branch ∈ drafts, branch.names = expected
  | [], _, _, _, _, _, _, hb => by
    obtain ⟨rfl, rfl⟩ := run_pure_eq_ok.1 hb
    exact ⟨.refl _, by simp, by simp⟩
  | ⟨source, operations⟩ :: rest, _, _, _, _, _, hs, hb => by
    obtain ⟨first, started, branch, between, others, hstart, hp, hn, ho, rfl⟩ :=
      branches_cons_ok hb
    obtain ⟨hg₁, hfirst⟩ := start_wellScoped hs (by simp) hstart
    obtain ⟨hg₂, hbranch⟩ := pipeline_wellScoped operations hfirst (hs.grow hg₁) hp
    have hg₁₂ := hg₁.trans hg₂
    obtain ⟨hg₃, hothers, hnames⟩ := branches_wellScoped rest (hs.grow hg₁₂) ho
    exact ⟨hg₁₂.trans hg₃, List.forall_mem_cons.2 ⟨hbranch.grow hg₃, hothers⟩,
      List.forall_mem_cons.2 ⟨hn, hnames⟩⟩

end

/-- The select of a query is well scoped: columns are read through aliases that are in scope
where they are read, and from derived tables that have them, and no alias hides another. -/
theorem select_scoped (catalog : Catalog) (query : Query) (select : Select)
    (h : Compile.select catalog query = .ok select) : select.Scoped [] := by
  obtain ⟨result, last, hd, rfl⟩ := select_ok h
  obtain ⟨first, started, hstart, hp⟩ := draft_ok hd
  have hnone : Settled [] [] := by simp [Settled]
  obtain ⟨hg, hfirst⟩ := start_wellScoped hnone (by simp) hstart
  obtain ⟨-, hresult⟩ := pipeline_wellScoped query.operations hfirst (hnone.grow hg) hp
  exact (Draft.finish_fits hresult).1

/-- Users sorted by the reviews they wrote, after other users, with the reviews of friends of
friends. -/
def reviewsOfFriends : Query :=
  ⟨{ objectType := "User" },
    [.edge "reviews" [.edge "author" [.project ["name"]], .take 2],
     .orderBy "reviews" .descending,
     .union [⟨{ objectType := "User", ids := some [1] }, [.edge "reviews" [.count]]⟩],
     .edge "friends" [.edge "friends" [.edge "reviews" []]]]⟩

theorem select_scoped_reviewsOfFriends :
    ∃ select, Compile.select SocialGraph.catalog reviewsOfFriends = .ok select ∧
      select.Scoped [] := by
  have hok : (Compile.select SocialGraph.catalog reviewsOfFriends).isOk = true := by
    decide +kernel
  obtain ⟨select, h⟩ := exists_of_isOk hok
  exact ⟨select, h, select_scoped _ _ select h⟩

end ObjectGraph.Compile
