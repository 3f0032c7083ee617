/-
# Stages in order

Whatever operations come in which order, every stage is one that Malloy takes: no clause stands
twice where one is allowed, rows that are counted are not selected from, and nothing that a limit
would change the meaning of comes behind it.  Which clause may come behind which other is a
relation between their kinds, so that a stage is in order as soon as every two of its clauses
are.  And every name in a later stage is a field that the stage before it puts out.
-/
import ObjectGraph.Proofs.Malloy.Pipelines

namespace ObjectGraph

namespace Malloy

open Compile (TextCondition)

/-! ### Kinds of clauses -/

namespace Clause

/-- Which clause it is, apart from what is in it. -/
inductive Kind
  | select
  | filter
  | orderBy
  | limit
  | count
deriving DecidableEq

/-- The kind of a clause. -/
def kind : Clause → Kind
  | select _ => .select
  | filter _ => .filter
  | orderBy _ => .orderBy
  | limit _ => .limit
  | count => .count

/-- Whether a clause is a condition on rows. -/
def isFilter : Clause → Bool
  | filter _ => true
  | _ => false

section Kinds

variable {clause : Clause}

lemma kind_of_isSelect (h : clause.isSelect = true) : clause.kind = .select := by
  cases clause <;> first | rfl | cases h

lemma kind_of_isOrderBy (h : clause.isOrderBy = true) : clause.kind = .orderBy := by
  cases clause <;> first | rfl | cases h

lemma kind_of_isLimit (h : clause.isLimit = true) : clause.kind = .limit := by
  cases clause <;> first | rfl | cases h

lemma kind_of_isCount (h : clause.isCount = true) : clause.kind = .count := by
  cases clause <;> first | rfl | cases h

end Kinds

/-- Whether a clause of one kind may come anywhere before one of another kind in a stage. -/
def Kind.mayPrecede : Kind → Kind → Bool
  | filter, _ => true
  | select, later => later != select && later != count
  | orderBy, later => later != orderBy && later != count
  | limit, later => later == select
  | count, _ => false

/-- The fields of its input that a clause names. -/
def reads : Clause → List String
  | select columns => columns.map Column.source
  | filter condition => condition.subjects
  | orderBy keys => keys.map SortKey.field
  | limit _ | count => []

end Clause

namespace Stage

variable {stage : Stage} {clause : Clause}

/-- The kinds of the clauses of a stage, in order. -/
def kinds (stage : Stage) : List Clause.Kind := stage.map Clause.kind

/-- The columns that the clauses of a stage refer to. -/
def reads (stage : Stage) : List String := stage.flatMap Clause.reads

/-- The output fields of a stage, given those of its input. -/
def outputs (input : List String) (stage : Stage) : List String :=
  if stage.counts then ["count"]
  else match stage.columns? with
    | some columns => columns.map Column.name
    | none => input

/-- A stage that Malloy takes, with nothing behind a limit that would have to come before it. -/
structure WellFormed (stage : Stage) : Prop where
  select : stage.countP Clause.isSelect ≤ 1
  orderBy : stage.countP Clause.isOrderBy ≤ 1
  limit : stage.countP Clause.isLimit ≤ 1
  count : stage.countP Clause.isCount ≤ 1
  /-- Rows that are counted are neither selected from nor sorted nor limited. -/
  alone : stage.counts = true → ∀ clause ∈ stage,
    clause.isSelect = false ∧ clause.isOrderBy = false ∧ clause.isLimit = false
  /-- No condition and no sort key comes behind a limit. -/
  limited : stage.Pairwise fun earlier later =>
    earlier.isLimit = true → later.isFilter = false ∧ later.isOrderBy = false

/-- Every two clauses of a stage may come in their order. -/
def InOrder (stage : Stage) : Prop :=
  stage.kinds.Pairwise fun earlier later => earlier.mayPrecede later = true

lemma pairwise_of_inOrder (h : stage.InOrder) :
    stage.Pairwise fun earlier later => earlier.kind.mayPrecede later.kind = true :=
  List.pairwise_map.1 h

lemma inOrder_of_kinds {other : Stage} (h : stage.InOrder) (hk : other.kinds = stage.kinds) :
    other.InOrder := by
  rw [InOrder, hk]
  exact h

lemma InOrder.push (h : stage.InOrder)
    (hc : ∀ earlier ∈ stage, earlier.kind.mayPrecede clause.kind = true) :
    Stage.InOrder (stage ++ [clause]) := by
  refine List.pairwise_map.2 (List.pairwise_append.2 ⟨pairwise_of_inOrder h,
    List.pairwise_singleton _ _, ?_⟩)
  intro earlier hm later hlater
  obtain rfl := List.mem_singleton.1 hlater
  exact hc earlier hm

lemma InOrder.sublist {other : Stage} (h : stage.InOrder) (hs : other.Sublist stage) :
    other.InOrder :=
  List.Pairwise.sublist (hs.map Clause.kind) h

/-- Clauses of the same kind do not follow each other, conditions apart. -/
lemma InOrder.countP_le_one (h : stage.InOrder) {kind : Clause.Kind} (hk : kind ≠ .filter)
    {p : Clause → Bool} (hp : ∀ clause, p clause = true → clause.kind = kind) :
    stage.countP p ≤ 1 := by
  have hself : kind.mayPrecede kind = false := by
    cases kind <;> first | rfl | exact absurd rfl hk
  induction stage with
  | nil => exact Nat.zero_le 1
  | cons clause rest ih =>
    obtain ⟨hfirst, hrest⟩ := List.pairwise_cons.1 (pairwise_of_inOrder h)
    rw [List.countP_cons]
    by_cases hclause : p clause = true
    · have hnone : rest.countP p = 0 := by
        rw [List.countP_eq_zero]
        intro later hm hlater
        have hprecedes := hfirst later hm
        rw [hp clause hclause, hp later hlater, hself] at hprecedes
        cases hprecedes
      rw [hnone, if_pos hclause]
    · rw [if_neg hclause]
      exact ih (List.pairwise_map.2 hrest)

lemma InOrder.wellFormed (h : stage.InOrder) : stage.WellFormed where
  select := h.countP_le_one (by decide) fun _ => Clause.kind_of_isSelect
  orderBy := h.countP_le_one (by decide) fun _ => Clause.kind_of_isOrderBy
  limit := h.countP_le_one (by decide) fun _ => Clause.kind_of_isLimit
  count := h.countP_le_one (by decide) fun _ => Clause.kind_of_isCount
  alone := by
    intro hcounts clause hclause
    obtain ⟨counted, hm, hcount⟩ := List.any_eq_true.1 hcounts
    obtain ⟨before, behind, rfl⟩ := List.append_of_mem hm
    obtain ⟨-, hbehind, hbefore⟩ := List.pairwise_append.1 (pairwise_of_inOrder h)
    have hkind := Clause.kind_of_isCount hcount
    rcases List.mem_append.1 hclause with hclause | hclause
    · -- Nothing but conditions may come before a count.
      have hprecedes := hbefore clause hclause counted List.mem_cons_self
      rw [hkind] at hprecedes
      cases clause with
      | filter c => exact ⟨rfl, rfl, rfl⟩
      | select | orderBy | limit | count => cases hprecedes
    · rcases List.mem_cons.1 hclause with rfl | hclause
      · cases clause with
        | count => exact ⟨rfl, rfl, rfl⟩
        | select | filter | orderBy | limit => cases hkind
      · -- Nothing at all may come behind it.
        have hprecedes := (List.pairwise_cons.1 hbehind).1 clause hclause
        rw [hkind] at hprecedes
        cases hprecedes
  limited := by
    refine (pairwise_of_inOrder h).imp ?_
    intro earlier later hprecedes hlimit
    cases earlier with
    | limit n =>
      cases later with
      | select columns => exact ⟨rfl, rfl⟩
      | filter | orderBy | limit | count => cases hprecedes
    | select | filter | orderBy | count => cases hlimit

/-! ### Names and fields of a stage -/

lemma reads_append : Stage.reads (stage ++ [clause]) = stage.reads ++ clause.reads := by
  rw [reads, List.flatMap_append, List.flatMap_singleton]
  rfl

/-- The columns that are selected are named. -/
lemma reads_of_columns? {columns : List Column} (h : stage.columns? = some columns) :
    columns.map Column.source ⊆ stage.reads := by
  obtain ⟨clause, hm, hclause⟩ := List.exists_of_findSome?_eq_some h
  cases clause with
  | select selected =>
    obtain rfl := Option.some.inj hclause
    exact fun name hn => List.mem_flatMap.2 ⟨_, hm, hn⟩
  | filter | orderBy | limit | count => cases hclause

lemma outputs_of_columns? (hcounts : stage.counts = false) {columns : List Column}
    (h : stage.columns? = some columns) (input : List String) :
    stage.outputs input = columns.map Column.name := by
  rw [outputs, hcounts, h]
  rfl

lemma outputs_of_none (hcounts : stage.counts = false) (h : stage.columns? = none)
    (input : List String) : stage.outputs input = input := by
  rw [outputs, hcounts, h]
  rfl

end Stage

/-! ### Stages that read each other -/

/-- The output fields of the last of several stages, given the columns of the table. -/
def outputs (columns : List String) (stages : List Stage) : List String :=
  stages.foldl Stage.outputs columns

lemma outputs_concat (columns : List String) (stages : List Stage) (stage : Stage) :
    outputs columns (stages ++ [stage]) = stage.outputs (outputs columns stages) := by
  rw [outputs, List.foldl_append]
  rfl

/-- Stages in order, each of which but the first names output fields of the one before it only. -/
structure Connected (columns : List String) (stages : List Stage) : Prop where
  inOrder : ∀ stage ∈ stages, stage.InOrder
  reads : ∀ before stage, before ++ [stage] <+: stages → before ≠ [] →
    stage.reads ⊆ outputs columns before

lemma connected_nil (columns : List String) : Connected columns [] where
  inOrder := List.forall_mem_nil _
  reads := by
    intro before stage hinitial
    obtain ⟨-, hstage⟩ := List.append_eq_nil_iff.1 (List.prefix_nil.1 hinitial)
    cases hstage

lemma connected_concat {columns : List String} {stages : List Stage} {stage : Stage} :
    Connected columns (stages ++ [stage]) ↔ Connected columns stages ∧ stage.InOrder ∧
      (stages ≠ [] → stage.reads ⊆ outputs columns stages) := by
  constructor
  · rintro ⟨horder, hreads⟩
    obtain ⟨hstages, hstage⟩ := List.forall_mem_append.1 horder
    refine ⟨⟨hstages, ?_⟩, List.forall_mem_singleton.1 hstage, ?_⟩
    · intro before other hinitial
      exact hreads before other (hinitial.trans (List.prefix_append _ _))
    · exact hreads stages stage (List.prefix_refl _)
  · rintro ⟨⟨horder, hreads⟩, hstage, hlast⟩
    refine ⟨List.forall_mem_append.2 ⟨horder, List.forall_mem_singleton.2 hstage⟩, ?_⟩
    intro before other hinitial hnil
    rcases List.prefix_concat_iff.1 hinitial with heq | hinitial
    · obtain ⟨rfl, rfl⟩ := List.append_singleton_inj.1 heq
      exact hlast hnil
    · exact hreads before other hinitial hnil

/-! ### The invariant -/

/-- A draft with connected stages that knows which fields the last one puts out. -/
structure Draft.Sound (columns : List String) (draft : Draft) : Prop where
  connected : Connected columns draft.stages
  fields : draft.fields = outputs columns draft.stages
  /-- A stage that neither renames nor counts selects its output fields, if it selects any. -/
  plain : draft.renamed = false → draft.last.counts = false →
    draft.last.columns? = none ∨
      draft.last.columns? = some (draft.fields.map fun source => { source })

namespace Draft.Sound

variable {columns : List String} {draft base result : Draft} {stage : Stage}

lemma inOrder (h : draft.Sound columns) : draft.last.InOrder :=
  (connected_concat.1 h.connected).2.1

lemma reads (h : draft.Sound columns) (hd : draft.done ≠ []) :
    draft.last.reads ⊆ outputs columns draft.done :=
  (connected_concat.1 h.connected).2.2 hd

/-- A last stage behind the same others, and what it puts out. -/
lemma withLast (h : draft.Sound columns) {fields : List String} {renamed : Bool}
    (horder : stage.InOrder)
    (hreads : draft.done ≠ [] → stage.reads ⊆ outputs columns draft.done)
    (hfields : fields = stage.outputs (outputs columns draft.done))
    (hplain : renamed = false → stage.counts = false → stage.columns? = none ∨
      stage.columns? = some (fields.map fun source => { source })) :
    Draft.Sound columns { draft with last := stage, fields, renamed } where
  connected := connected_concat.2 ⟨(connected_concat.1 h.connected).1, horder, hreads⟩
  fields := hfields.trans (outputs_concat columns draft.done stage).symm
  plain := hplain

/-- A last stage that selects the same columns. -/
lemma withClauses (h : draft.Sound columns) (horder : stage.InOrder)
    (hreads : draft.done ≠ [] → stage.reads ⊆ outputs columns draft.done)
    (hcolumns : stage.columns? = draft.last.columns?) (hcounts : stage.counts = draft.last.counts) :
    Draft.Sound columns { draft with last := stage } := by
  refine h.withLast horder hreads ?_ ?_
  · rw [h.fields, Draft.stages, outputs_concat, Stage.outputs, Stage.outputs, hcounts, hcolumns]
  · rw [hcolumns, hcounts]
    exact h.plain

lemma enters (h : draft.Sound columns) {inTheWay : Clause → Bool}
    (he : draft.Enters inTheWay base) : base.Sound columns := by
  rcases he.next_or_same with rfl | rfl
  · refine ⟨?_, ?_, fun _ _ => .inl rfl⟩
    · exact connected_concat.2 ⟨h.connected, List.Pairwise.nil, fun _ => List.nil_subset _⟩
    · exact h.fields.trans (outputs_concat columns draft.stages []).symm
  · exact h

/-! ### References -/

/-- The output fields of an open stage are fields of its input, even if it selects some. -/
lemma mem_outputs (h : draft.Sound columns) (ho : draft.Open) (hd : draft.done ≠ []) {name : String}
    (hn : name ∈ draft.fields) : name ∈ outputs columns draft.done := by
  rcases h.plain ho.renamed ho.counts with hcolumns | hcolumns
  · rwa [h.fields, Draft.stages, outputs_concat, Stage.outputs_of_none ho.counts hcolumns] at hn
  · have hselected := Stage.reads_of_columns? hcolumns
    rw [List.map_map] at hselected
    exact h.reads hd (hselected (List.mem_map.2 ⟨name, hn, rfl⟩))

/-- Behind the first stage a reference is resolved to a field of the input. -/
lemma resolve_mem (h : draft.Sound columns) (ho : draft.Open) (hd : draft.done ≠ [])
    {reference name : String} (hr : draft.resolve reference = .ok name) :
    name ∈ outputs columns draft.done := by
  -- Only the first stage knows fields that no stage before it puts out.
  have hstored (looked : String) : draft.stored? looked = none := by
    rw [Draft.stored?, List.isEmpty_eq_false_iff.2 hd]
    rfl
  simp only [Draft.resolve, hstored] at hr
  generalize (if unqualified reference = "id" then idKey else unqualified reference) = looked at hr
  split at hr
  · rename_i hfield
    obtain rfl := Except.ok.inj hr
    exact h.mem_outputs ho hd hfield
  · cases hr

lemma resolveAll_subset (h : draft.Sound columns) (ho : draft.Open) (hd : draft.done ≠ [])
    {references names : List String} (hr : draft.resolveAll references = .ok names) :
    names ⊆ outputs columns draft.done := by
  induction references generalizing names with
  | nil =>
    obtain rfl := Compile.pure_eq_ok.1 hr
    exact List.nil_subset _
  | cons reference rest ih =>
    obtain ⟨name, hname, hr⟩ := Compile.bind_eq_ok.1 hr
    obtain ⟨others, hothers, hr⟩ := Compile.bind_eq_ok.1 hr
    obtain rfl := Compile.pure_eq_ok.1 hr
    exact List.cons_subset.2 ⟨h.resolve_mem ho hd hname, ih hothers⟩

end Draft.Sound

/-! ### Clauses that change -/

/-- A sort key joins others in their place, or comes behind everything else. -/
lemma kinds_addSortKey (key : SortKey) (stage : Stage) :
    Stage.kinds (Draft.addSortKey key stage) = stage.kinds ∨
      stage.any Clause.isOrderBy = false ∧
        Draft.addSortKey key stage = stage ++ [.orderBy [key]] := by
  induction stage with
  | nil => exact .inr ⟨rfl, rfl⟩
  | cons clause rest ih =>
    cases clause with
    | orderBy keys => exact .inl rfl
    | select | filter | limit | count =>
      refine ih.imp (congrArg (_ :: ·)) ?_
      rintro ⟨hnone, hadded⟩
      exact ⟨hnone, congrArg (_ :: ·) hadded⟩

lemma reads_addSortKey (key : SortKey) (stage : Stage) :
    Stage.reads (Draft.addSortKey key stage) ⊆ key.field :: stage.reads := by
  induction stage with
  | nil => exact List.Subset.refl _
  | cons clause rest ih =>
    cases clause with
    | orderBy keys => exact List.Subset.refl _
    | select | filter | limit | count =>
      intro name hn
      rcases List.mem_append.1 hn with hn | hn
      · exact List.mem_cons_of_mem _ (List.mem_append_left _ hn)
      · rcases List.mem_cons.1 (ih hn) with rfl | hn
        · exact List.mem_cons_self
        · exact List.mem_cons_of_mem _ (List.mem_append_right _ hn)

/-- Renaming selected columns changes neither what is selected from nor any other clause. -/
lemma of_renameSelected {old new : String} {stage other : Stage}
    (h : Draft.renameSelected old new stage = some other) :
    other.kinds = stage.kinds ∧ other.reads = stage.reads := by
  induction stage generalizing other with
  | nil => cases h
  | cons clause rest ih =>
    cases clause with
    | select columns =>
      obtain rfl := Option.some.inj h
      refine ⟨rfl, congrArg (· ++ Stage.reads rest) ?_⟩
      show (columns.map _).map Column.source = columns.map Column.source
      rw [List.map_map]
      refine List.map_congr_left fun column _ => ?_
      rw [Function.comp_apply]
      split
      · rename_i hcolumn
        rw [hcolumn]
      · rfl
    | filter | orderBy | limit | count =>
      obtain ⟨others, hothers, rfl⟩ := Option.map_eq_some_iff.1 h
      obtain ⟨hkinds, hreads⟩ := ih hothers
      exact ⟨congrArg (_ :: ·) hkinds, congrArg (_ ++ ·) hreads⟩

lemma any_isSelect_of_renameSelected {old new : String} {stage : Stage}
    (h : Draft.renameSelected old new stage = none) : stage.any Clause.isSelect = false := by
  induction stage with
  | nil => rfl
  | cons clause rest ih =>
    cases clause with
    | select columns => cases h
    | filter | orderBy | limit | count => exact ih (Option.map_eq_none_iff.1 h)

/-- A renaming selects all fields, unless the columns are already there. -/
lemma last_rename (draft : Draft) (old new : String) :
    (draft.last.any Clause.isSelect = false ∧ (draft.rename old new).last
        = draft.last ++ [Draft.selectRenamed old new draft.fields]) ∨
      (draft.rename old new).last.kinds = draft.last.kinds ∧
        (draft.rename old new).last.reads = draft.last.reads := by
  cases h : Draft.renameSelected old new draft.last with
  | none =>
    refine .inl ⟨any_isSelect_of_renameSelected h, ?_⟩
    simp only [Draft.rename, h]
  | some stage =>
    refine .inr ?_
    simp only [Draft.rename, h]
    exact of_renameSelected h

/-! ### Operations -/

namespace Draft.Sound

variable {columns : List String} {draft base result : Draft}

/-- One more clause that neither selects nor counts. -/
lemma push (h : draft.Sound columns) {clause : Clause}
    (hc : ∀ earlier ∈ draft.last, earlier.kind.mayPrecede clause.kind = true)
    (hreads : draft.done ≠ [] → clause.reads ⊆ outputs columns draft.done)
    (hcolumns : clause.columns? = none) (hcounts : clause.isCount = false) :
    (draft.push clause).Sound columns := by
  refine h.withClauses (h.inOrder.push hc) ?_ ?_ ?_
  · intro hd
    rw [Stage.reads_append]
    exact List.append_subset.2 ⟨h.reads hd, hreads hd⟩
  · rw [Stage.columns?_append, hcolumns, Option.or_none]
  · rw [Stage.counts_append, hcounts, Bool.or_false]

lemma filter {predicate : Predicate} (h : draft.Sound columns)
    (he : draft.Enters (fun clause => clause.isLimit || clause.isCount) base)
    {c : TextCondition String} (hcondition : base.condition predicate = .ok c) :
    (base.push (.filter c)).Sound columns := by
  have hbase := h.enters he
  obtain ⟨ho, -⟩ := he.unlimited
  refine hbase.push ?_ ?_ rfl rfl
  · intro earlier hm
    have hnot := List.any_eq_false.1 he.free earlier hm
    cases earlier <;> first | rfl | exact absurd rfl hnot
  · intro hd name hm
    obtain ⟨reference, hr⟩ := (renders_condition hcondition).exists_reference name hm
    exact hbase.resolve_mem ho hd hr

lemma sortBy {key : String} {direction : Direction} (h : draft.Sound columns)
    (he : draft.Enters (fun clause => clause.isLimit || clause.isCount) base) {field : String}
    (hfield : base.resolve key = .ok field) :
    { base with last := addSortKey ⟨field, direction⟩ base.last }.Sound columns := by
  have hbase := h.enters he
  obtain ⟨ho, -⟩ := he.unlimited
  have hsorts := addSortKey_sorts ⟨field, direction⟩ base.last
  refine hbase.withClauses ?_ ?_ hsorts.columns? hsorts.counts
  · rcases kinds_addSortKey ⟨field, direction⟩ base.last with hkinds | ⟨hnone, hadded⟩
    · exact Stage.inOrder_of_kinds hbase.inOrder hkinds
    · rw [hadded]
      refine hbase.inOrder.push fun earlier hm => ?_
      have hnot := List.any_eq_false.1 he.free earlier hm
      have hother := List.any_eq_false.1 hnone earlier hm
      cases earlier <;> first | rfl | exact absurd rfl hnot | exact absurd rfl hother
  · intro hd
    have hkey : field ∈ outputs columns base.done := hbase.resolve_mem ho hd hfield
    exact List.Subset.trans (reads_addSortKey _ _) (List.cons_subset.2 ⟨hkey, hbase.reads hd⟩)

lemma take {n : UInt32} (h : draft.Sound columns)
    (he : draft.Enters (fun clause => clause.isLimit || clause.isCount) base) :
    (base.push (.limit n)).Sound columns := by
  refine (h.enters he).push ?_ (fun _ => List.nil_subset _) rfl rfl
  intro earlier hm
  have hnot := List.any_eq_false.1 he.free earlier hm
  cases earlier <;> first | rfl | exact absurd rfl hnot

/-- Rows are counted in a stage of nothing but conditions. -/
lemma count (h : draft.Sound columns)
    (he : draft.Enters (fun clause => clause.isSelect || clause.isLimit || clause.isCount) base) :
    base.count.Sound columns := by
  have hbase := h.enters he
  have hcounts : Stage.counts (base.last.filter (!·.isOrderBy) ++ [.count]) = true := by
    rw [Stage.counts_append]
    exact Bool.or_true _
  refine hbase.withLast ?_ ?_ ?_ ?_
  · refine (hbase.inOrder.sublist List.filter_sublist).push fun earlier hm => ?_
    obtain ⟨hm, hunsorted⟩ := List.mem_filter.1 hm
    have hnot := List.any_eq_false.1 he.free earlier hm
    cases earlier <;> first | rfl | exact absurd rfl hnot | cases hunsorted
  · intro hd
    rw [Stage.reads_append]
    refine List.append_subset.2 ⟨?_, List.nil_subset _⟩
    intro name hn
    obtain ⟨clause, hm, hn⟩ := List.mem_flatMap.1 hn
    exact hbase.reads hd (List.mem_flatMap.2 ⟨clause, (List.mem_filter.1 hm).1, hn⟩)
  · rw [Stage.outputs, if_pos hcounts]
  · intro _ hnot
    rw [hcounts] at hnot
    cases hnot

lemma project {references names : List String} (h : draft.Sound columns)
    (he : draft.Enters (fun clause => clause.isSelect || clause.isCount) base)
    (hnames : base.resolveAll references = .ok names) :
    ({ base with fields := names }.push (.select (names.map fun source => { source }))).Sound
      columns := by
  have hbase := h.enters he
  obtain ⟨ho, hcolumns⟩ := he.unselected
  have hsources : (names.map fun source => ({ source } : Column)).map Column.source = names := by
    rw [List.map_map]
    exact List.map_id _
  have hselected : Stage.columns? (base.last ++ [.select (names.map fun source => { source })])
      = some (names.map fun source => { source }) := by
    rw [Stage.columns?_append, hcolumns]
    rfl
  have hcounts : Stage.counts (base.last ++ [.select (names.map fun source => { source })])
      = false := by
    rw [Stage.counts_append]
    exact (Bool.or_false _).trans ho.counts
  refine hbase.withLast (hbase.inOrder.push ?_) ?_ ?_ fun _ _ => .inr hselected
  · intro earlier hm
    have hnot := List.any_eq_false.1 he.free earlier hm
    cases earlier <;> first | rfl | exact absurd rfl hnot
  · intro hd
    rw [Stage.reads_append]
    refine List.append_subset.2 ⟨hbase.reads hd, ?_⟩
    rw [Clause.reads, hsources]
    exact hbase.resolveAll_subset ho hd hnames
  · rw [Stage.outputs_of_columns? hcounts hselected, List.map_map]
    exact (List.map_id _).symm

lemma inOrder_rename (h : draft.Sound columns) (ho : draft.Open) (old new : String) :
    (draft.rename old new).last.InOrder := by
  rcases last_rename draft old new with ⟨hselect, hlast⟩ | ⟨hkinds, -⟩
  · rw [hlast]
    refine h.inOrder.push fun earlier hm => ?_
    have hnot := List.any_eq_false.1 hselect earlier hm
    have hother := List.any_eq_false.1 ho.counts earlier hm
    cases earlier <;> first | rfl | exact absurd rfl hnot | exact absurd rfl hother
  · exact Stage.inOrder_of_kinds h.inOrder hkinds

/-- All fields are selected from, if none were before. -/
lemma reads_rename (h : draft.Sound columns) (ho : draft.Open) (hd : draft.done ≠ [])
    (old new : String) : (draft.rename old new).last.reads ⊆ outputs columns draft.done := by
  rcases last_rename draft old new with ⟨-, hlast⟩ | ⟨-, hsame⟩
  · rw [hlast, Stage.reads_append]
    refine List.append_subset.2 ⟨h.reads hd, ?_⟩
    intro source hm
    obtain ⟨column, hcolumn, rfl⟩ := List.mem_map.1 hm
    obtain ⟨field, hfield, rfl⟩ := List.mem_map.1 hcolumn
    show (renamedColumn old new field).source ∈ _
    rw [source_renamedColumn]
    exact h.mem_outputs ho hd hfield
  · rw [hsame]
    exact h.reads hd

/-- The stage that renames a field puts it out under its new name. -/
lemma rename (h : draft.Sound columns) (ho : draft.Open) (old new : String) :
    (draft.rename old new).Sound columns := by
  obtain ⟨_, rfl, -, hcounts, hcolumns⟩ := exists_renamed ho (h.plain ho.renamed ho.counts) old new
  have hfields : (draft.rename old new).fields
      = (draft.rename old new).last.outputs (outputs columns draft.done) := by
    rw [Stage.outputs_of_columns? hcounts hcolumns, List.map_map]
    exact List.map_congr_left fun field _ => (name_renamedColumn old new field).symm
  -- Nothing is asked of the columns of a stage that renames: the next operation leaves it behind.
  exact h.withLast (h.inOrder_rename ho old new) (fun hd => h.reads_rename ho hd old new) hfields
    (by rintro ⟨⟩)

lemma apply {operation : Operation} (h : draft.Sound columns)
    (hr : draft.apply operation = .ok result) : result.Sound columns := by
  cases applied_of_apply hr with
  | project he hnames => exact h.project he hnames
  | filter he hcondition => exact h.filter he hcondition
  | orderBy he hfield => exact h.sortBy he hfield
  | take he => exact h.take he
  | count he => exact h.count he
  | rename he _ => exact (h.enters he).rename he.isOpen _ _

lemma applyAll {operations : List Operation} (h : draft.Sound columns)
    (hr : draft.applyAll operations = .ok result) : result.Sound columns := by
  induction operations generalizing draft with
  | nil =>
    obtain rfl := Compile.pure_eq_ok.1 hr
    exact h
  | cons operation rest ih =>
    obtain ⟨next, hnext, hr⟩ := Compile.bind_eq_ok.1 hr
    exact ih (h.apply hnext) hr

end Draft.Sound

/-! ### Whole queries -/

lemma start_sound (name : String) (type : ObjectType) :
    (Draft.start name type).Sound (type.fields.values.map (·.column)) where
  connected := connected_concat.2 ⟨connected_nil _, List.Pairwise.nil, fun _ => List.nil_subset _⟩
  fields := rfl
  plain _ _ := .inl rfl

/-- The identities of a source are one more condition of the first stage. -/
lemma restrict_sound {columns : List String} {draft result : Draft} (h : draft.Sound columns)
    (hl : draft.stages = [[]]) {ids : Option (List Int64)} (hr : draft.restrict ids = .ok result) :
    result.Sound columns := by
  obtain ⟨hd, hlast⟩ : draft.done = [] ∧ draft.last = [] := List.append_singleton_inj.1 hl
  cases ids with
  | none =>
    obtain rfl := Compile.pure_eq_ok.1 hr
    exact h
  | some ids =>
    obtain ⟨name, -, hr⟩ := Compile.bind_eq_ok.1 hr
    obtain rfl := Compile.pure_eq_ok.1 hr
    refine h.push ?_ (fun hnot => absurd hd hnot) rfl rfl
    rw [hlast]
    exact List.forall_mem_nil _

/-- Every stage of a pipeline is well formed, and every field that a stage after the first one
names is an output field of the stage before it. -/
theorem wellFormed_stages (catalog : Catalog) (query : Query) (connection : String)
    (pipeline : Pipeline) (type : ObjectType)
    (ht : catalog.type? query.source.objectType = some type)
    (h : compile catalog query connection = .ok pipeline) :
    (∀ stage ∈ pipeline.stages, stage.WellFormed) ∧
      ∀ before stage, before ++ [stage] <+: pipeline.stages → before ≠ [] →
        stage.reads ⊆ outputs (type.fields.values.map (·.column)) before := by
  obtain ⟨_, hrequired, h⟩ := Compile.bind_eq_ok.1 h
  obtain rfl := Option.some.inj (ht.symm.trans (Compile.requireType_ok.1 hrequired))
  obtain ⟨first, hfirst, h⟩ := Compile.bind_eq_ok.1 h
  obtain ⟨draft, hdraft, h⟩ := Compile.bind_eq_ok.1 h
  obtain rfl := Compile.pure_eq_ok.1 h
  have hstart := start_sound query.source.objectType type
  obtain ⟨horder, hreads⟩ := ((restrict_sound hstart rfl hfirst).applyAll hdraft).connected
  exact ⟨fun stage hm => (horder stage hm).wellFormed, hreads⟩

/-- The pipeline of the oldest users has three stages, each of which reads the one before it. -/
theorem wellFormed_stages_oldestUsers :
    ∃ pipeline, SocialGraph.catalog.type? "User" = some SocialGraph.user ∧
      compile SocialGraph.catalog oldestUsers "db" = .ok pipeline ∧
      pipeline.stages.map Stage.kinds
        = [[.filter, .orderBy, .filter, .limit, .select], [.filter, .select], [.count]] ∧
      (∀ stage ∈ pipeline.stages, stage.WellFormed) ∧
      ∀ before stage, before ++ [stage] <+: pipeline.stages → before ≠ [] →
        stage.reads ⊆ outputs ["id", "name", "age"] before := by
  have hkinds : ((compile SocialGraph.catalog oldestUsers "db").map fun pipeline =>
      pipeline.stages.map Stage.kinds).toOption
        = some [[.filter, .orderBy, .filter, .limit, .select], [.filter, .select], [.count]] := by
    decide +kernel
  cases h : compile SocialGraph.catalog oldestUsers "db" with
  | error e =>
    rw [h] at hkinds
    cases hkinds
  | ok pipeline =>
    rw [h] at hkinds
    have ht : SocialGraph.catalog.type? "User" = some SocialGraph.user := by decide
    exact ⟨pipeline, ht, rfl, Option.some.inj hkinds, wellFormed_stages SocialGraph.catalog
      oldestUsers "db" pipeline SocialGraph.user ht h⟩

end Malloy
end ObjectGraph
