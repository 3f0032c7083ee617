/-
# Operations on stages

What an operation does to a draft of stages it does to the listing that the draft shows.  It joins
the clauses of the last stage where these are evaluated in the order in which they came, and where
they are not, or the stage counts or renames, it opens the next one.
-/
import ObjectGraph.Proofs.Malloy.Showing

namespace ObjectGraph.Malloy

open Compile (TextCondition)

variable {δ ε : Type} {D : Domain δ} {stored : Listing δ}

/-! ### Clauses of a stage -/

namespace Stage

variable {stage other : Stage}

lemma limit?_eq_none (h : stage.any Clause.isLimit = false) : stage.limit? = none := by
  rw [limit?, List.findSome?_eq_none_iff]
  intro clause hc
  have hnot := List.any_eq_false.1 h clause hc
  cases clause <;> simp_all [Clause.limit?, Clause.isLimit]

lemma columns?_eq_none (h : stage.any Clause.isSelect = false) : stage.columns? = none := by
  rw [columns?, List.findSome?_eq_none_iff]
  intro clause hc
  have hnot := List.any_eq_false.1 h clause hc
  cases clause <;> simp_all [Clause.columns?, Clause.isSelect]

/-- Neither of two kinds of clauses is in the way. -/
lemma any_or {p q : Clause → Bool} (h : stage.any (fun clause => p clause || q clause) = false) :
    stage.any p = false ∧ stage.any q = false := by
  simp only [List.any_eq_false, Bool.or_eq_true, not_or] at h ⊢
  exact ⟨fun clause hc => (h clause hc).1, fun clause hc => (h clause hc).2⟩

/-- Stages that leave the same rows of an input, before columns are selected from them. -/
structure LeavesSame (stage other : Stage) : Prop where
  conditions : other.conditions = stage.conditions
  sortKeys : other.sortKeys = stage.sortKeys
  limit? : other.limit? = stage.limit?

lemma LeavesSame.left_eq (h : stage.LeavesSame other) (input : Listing δ) :
    other.left D input = stage.left D input := by
  rw [left, left, tests, tests, keys, keys, h.conditions, h.sortKeys, h.limit?]

lemma LeavesSame.cons (h : stage.LeavesSame other) (clause : Clause) :
    Stage.LeavesSame (clause :: stage) (clause :: other) where
  conditions := by rw [conditions_cons, conditions_cons, h.conditions]
  sortKeys := by rw [sortKeys_cons, sortKeys_cons, h.sortKeys]
  limit? := by rw [limit?_cons, limit?_cons, h.limit?]

lemma leavesSame_select (stage : Stage) (columns : List Column) :
    stage.LeavesSame (stage ++ [.select columns]) where
  conditions := (conditions_append _ _).trans (List.append_nil _)
  sortKeys := (sortKeys_append _ _).trans (List.append_nil _)
  limit? := (limit?_append _ _).trans Option.or_none

/-- A stage with one more sort key in front of its own, and nothing else that is new. -/
structure Sorts (key : SortKey) (stage other : Stage) : Prop where
  conditions : other.conditions = stage.conditions
  sortKeys : other.sortKeys = key :: stage.sortKeys
  limit? : other.limit? = stage.limit?
  columns? : other.columns? = stage.columns?
  counts : other.counts = stage.counts

lemma Sorts.cons {key : SortKey} (h : stage.Sorts key other) {clause : Clause}
    (hclause : clause.sortKeys = []) : Stage.Sorts key (clause :: stage) (clause :: other) where
  conditions := by rw [conditions_cons, conditions_cons, h.conditions]
  sortKeys := by rw [sortKeys_cons, sortKeys_cons, h.sortKeys, hclause, List.nil_append,
    List.nil_append]
  limit? := by rw [limit?_cons, limit?_cons, h.limit?]
  columns? := by rw [columns?_cons, columns?_cons, h.columns?]
  counts := by rw [counts_cons, counts_cons, h.counts]

end Stage

lemma addSortKey_sorts (key : SortKey) (stage : Stage) :
    stage.Sorts key (Draft.addSortKey key stage) := by
  induction stage with
  | nil => exact ⟨rfl, rfl, rfl, rfl, rfl⟩
  | cons clause rest ih =>
    cases clause with
    | orderBy keys => exact ⟨rfl, rfl, rfl, rfl, rfl⟩
    | filter | select | limit | count => exact ih.cons rfl

/-- Without selected columns there is none to rename. -/
lemma renameSelected_eq_none (old new : String) {stage : Stage} (h : stage.columns? = none) :
    Draft.renameSelected old new stage = none := by
  induction stage with
  | nil => rfl
  | cons clause rest ih =>
    cases clause with
    | select columns => cases h
    | filter | orderBy | limit | count =>
      rw [Draft.renameSelected, ih h]
      · rfl
      · rintro _ ⟨⟩

/-- A selected field takes its new name, and no other clause changes. -/
lemma exists_renameSelected (old new : String) {stage : Stage} {fields : List String}
    (h : stage.columns? = some (fields.map fun source => { source })) :
    ∃ other, Draft.renameSelected old new stage = some other ∧ stage.LeavesSame other ∧
      other.counts = stage.counts ∧
      other.columns? = some (fields.map (renamedColumn old new)) := by
  induction stage with
  | nil => cases h
  | cons clause rest ih =>
    cases clause with
    | select columns =>
      obtain rfl := Option.some.inj h
      refine ⟨_, rfl, ⟨rfl, rfl, rfl⟩, rfl, ?_⟩
      refine congrArg some ?_
      rw [List.map_map]
      refine List.map_congr_left fun source _ => ?_
      simp only [Function.comp_apply, Column.mk.injEq, and_true, renamedColumn]
      split
      · rename_i hsource
        rw [hsource]
      · rfl
    | filter | orderBy | limit | count =>
      obtain ⟨other, hother, hsame, hcounts, hcolumns⟩ := ih h
      exact ⟨_ :: other, congrArg (Option.map (_ :: ·)) hother, hsame.cons _,
        by rw [Stage.counts_cons, Stage.counts_cons, hcounts], hcolumns⟩

/-- The last stage of an open draft with a new name for one of its fields, whether it selects
fields already or not. -/
lemma exists_renamed {draft : Draft} (ho : draft.Open)
    (hplain : draft.last.columns? = none ∨
      draft.last.columns? = some (draft.fields.map fun source => { source })) (old new : String) :
    ∃ stage, (draft.rename old new).last = stage ∧ draft.last.LeavesSame stage ∧
      stage.counts = false ∧
      stage.columns? = some (draft.fields.map (renamedColumn old new)) := by
  rcases hplain with hcolumns | hcolumns
  · have hrename := renameSelected_eq_none old new hcolumns
    refine ⟨_, rfl, ?_⟩
    simp only [Draft.rename, hrename]
    refine ⟨Stage.leavesSame_select _ _, ?_, ?_⟩
    · exact (Stage.counts_append _ _).trans (by rw [ho.counts]; rfl)
    · refine (Stage.columns?_append _ _).trans ?_
      rw [hcolumns]
      rfl
  · obtain ⟨stage, hrename, hsame, hcounts, hselected⟩ := exists_renameSelected old new hcolumns
    refine ⟨stage, ?_, hsame, hcounts.trans ho.counts, hselected⟩
    simp only [Draft.rename, hrename]

/-- Rows are counted without sorting them. -/
lemma leavesSame_unsorted (stage : Stage) :
    Stage.conditions (stage.filter (!·.isOrderBy) ++ [.count]) = stage.conditions ∧
      Stage.limit? (stage.filter (!·.isOrderBy) ++ [.count]) = stage.limit? := by
  induction stage with
  | nil => exact ⟨rfl, rfl⟩
  | cons clause rest ih =>
    rw [Stage.conditions_cons, Stage.limit?_cons, ← ih.1, ← ih.2]
    cases clause with
    | orderBy => exact ⟨rfl, rfl⟩
    | filter | select | limit | count => exact ⟨Stage.conditions_cons _ _, Stage.limit?_cons _ _⟩

lemma length_left_unsorted {stage : Stage} (h : stage.limit? = none) (input : Listing δ) :
    (Stage.left D (stage.filter (!·.isOrderBy) ++ [.count]) input).length
      = (stage.left D input).length := by
  obtain ⟨hconditions, hlimit⟩ := leavesSame_unsorted stage
  rw [Stage.left, Stage.left, hlimit, h, Sql.slice_none, Sql.slice_none, Stage.tests, Stage.tests,
    hconditions]
  exact length_arrange _ _

/-! ### The next stage -/

/-- The draft that an operation goes on with if clauses of some kinds would be in its way: the next
stage has no clauses yet, and it is not opened only if the last one has none of these. -/
structure Draft.Enters (draft : Draft) (inTheWay : Clause → Bool) (base : Draft) : Prop where
  eq : draft.nextStageIf inTheWay = base
  renamed : base.renamed = false
  free : base.last.any inTheWay = false

namespace Draft

variable {draft base result : Draft} {inTheWay : Clause → Bool}

lemma enters_nextStageIf (draft : Draft) (inTheWay : Clause → Bool) :
    draft.Enters inTheWay (draft.nextStageIf inTheWay) := by
  refine ⟨rfl, ?_, ?_⟩ <;> rw [nextStageIf] <;> split
  · rfl
  · rename_i hkept
    exact (Bool.or_eq_false_iff.1 (Bool.eq_false_iff.2 hkept)).2
  · rfl
  · rename_i hkept
    exact (Bool.or_eq_false_iff.1 (Bool.eq_false_iff.2 hkept)).1

lemma Enters.next_or_same (h : draft.Enters inTheWay base) :
    base = { draft with done := draft.stages, last := [], renamed := false } ∨ base = draft := by
  rw [← h.eq, nextStageIf]
  split
  · exact .inl rfl
  · exact .inr rfl

lemma Enters.unlimited (h : draft.Enters (fun clause => clause.isLimit || clause.isCount) base) :
    base.Open ∧ base.last.limit? = none := by
  obtain ⟨hlimit, hcount⟩ := Stage.any_or h.free
  exact ⟨⟨h.renamed, hcount⟩, Stage.limit?_eq_none hlimit⟩

lemma Enters.unselected (h : draft.Enters (fun clause => clause.isSelect || clause.isCount) base) :
    base.Open ∧ base.last.columns? = none := by
  obtain ⟨hselect, hcount⟩ := Stage.any_or h.free
  exact ⟨⟨h.renamed, hcount⟩, Stage.columns?_eq_none hselect⟩

lemma Enters.isOpen (h : draft.Enters Clause.isCount base) : base.Open := ⟨h.renamed, h.free⟩

/-- What an operation that is not refused finds, and what it makes of the draft. -/
inductive Applied (draft : Draft) : Operation → Draft → Prop
  | project {references names : List String} {base : Draft}
    (enters : draft.Enters (fun clause => clause.isSelect || clause.isCount) base)
    (resolved : base.resolveAll references = .ok names) :
    Applied draft (.project references)
      ({ base with fields := names }.push (.select (names.map fun source => { source })))
  | filter {predicate : Predicate} {base : Draft} {c : TextCondition String}
    (enters : draft.Enters (fun clause => clause.isLimit || clause.isCount) base)
    (compiled : base.condition predicate = .ok c) :
    Applied draft (.filter predicate) (base.push (.filter c))
  | orderBy {key field : String} {direction : Direction} {base : Draft}
    (enters : draft.Enters (fun clause => clause.isLimit || clause.isCount) base)
    (resolved : base.resolve key = .ok field) :
    Applied draft (.orderBy key direction)
      { base with last := addSortKey ⟨field, direction⟩ base.last }
  | take {n : UInt32} {base : Draft}
    (enters : draft.Enters (fun clause => clause.isLimit || clause.isCount) base) :
    Applied draft (.take n) (base.push (.limit n))
  | count {base : Draft}
    (enters : draft.Enters (fun clause => clause.isSelect || clause.isLimit || clause.isCount)
      base) :
    Applied draft .count base.count
  | rename {old new name : String} {base : Draft} (enters : draft.Enters Clause.isCount base)
    (resolved : base.resolve old = .ok name) :
    Applied draft (.rename old new) (base.rename name (unqualified new))

/-- Whatever holds of an operation that is not refused is read off these rules. -/
lemma applied_of_apply {operation : Operation} (h : draft.apply operation = .ok result) :
    draft.Applied operation result := by
  cases operation with
  | project references =>
    obtain ⟨names, hnames, h⟩ := Compile.bind_eq_ok.1 h
    obtain rfl := Compile.pure_eq_ok.1 h
    exact .project (draft.enters_nextStageIf _) hnames
  | filter predicate =>
    obtain ⟨c, hc, h⟩ := Compile.bind_eq_ok.1 h
    obtain rfl := Compile.pure_eq_ok.1 h
    exact .filter (draft.enters_nextStageIf _) hc
  | orderBy key direction =>
    obtain ⟨field, hfield, h⟩ := Compile.bind_eq_ok.1 h
    obtain rfl := Compile.pure_eq_ok.1 h
    exact .orderBy (draft.enters_nextStageIf _) hfield
  | take n =>
    obtain rfl := Except.ok.inj h
    exact .take (draft.enters_nextStageIf _)
  | count =>
    obtain rfl := Except.ok.inj h
    exact .count (draft.enters_nextStageIf _)
  | rename old new =>
    obtain ⟨name, hname, h⟩ := Compile.bind_eq_ok.1 h
    obtain rfl := Compile.pure_eq_ok.1 h
    exact .rename (draft.enters_nextStageIf _) hname
  | skip | nest | groupBy | edge | union => cases h

end Draft

namespace Shows

variable {draft base : Draft} {listing : Listing δ}

/-- A stage without clauses puts out its input. -/
lemma run_nil (input : Listing δ) : Stage.run D [] input = input := by
  have hleft : Stage.left D [] input = input.rows := arrange_nil
  rw [Stage.run, hleft]
  have hrows : input.rows.map (Stage.output []) = input.rows := List.map_id _
  exact congrArg (Listing.mk input.header) hrows

/-- Whether or not the next stage is opened, the rows stay the same. -/
lemma enters (h : Shows D stored draft listing) {inTheWay : Clause → Bool}
    (he : draft.Enters inTheWay base) : Shows D stored base listing := by
  rcases he.next_or_same with rfl | rfl
  · refine ⟨h.identity, h.named, ?_, h.names, h.rows, h.unmarked, fun _ _ => .inl rfl⟩
    rw [Draft.input, Draft.stages, runAll_append]
    exact (run_nil _).trans h.run
  · exact h

/-- With other clauses that select the same columns, an open stage shows other rows of the same
kind. -/
lemma withLast (h : Shows D stored draft listing) (ho : draft.Open) {stage : Stage}
    {rows : List (Record δ)} (hcolumns : stage.columns? = draft.last.columns?)
    (hcounts : stage.counts = draft.last.counts) (hsub : rows ⊆ listing.rows)
    (hrows : (stage.left D (draft.input D stored)).map draft.last.output = rows) :
    Shows D stored { draft with last := stage } { listing with rows } where
  identity := h.identity
  named := h.named
  run := by
    have houtput {ε : Type} : (stage.output : Record ε → Record ε) = draft.last.output := by
      funext record
      rw [Stage.output, Stage.output, hcolumns]
    have hinput : { draft with last := stage }.input D stored = draft.input D stored := rfl
    rw [hinput, Stage.run, hcounts, ho.counts, houtput, houtput, hrows, h.listing_eq ho]
    rfl
  names := h.names
  rows row hr := h.rows row (hsub hr)
  unmarked := h.unmarked
  plain hr hc := by
    rw [hcounts] at hc
    rw [hcolumns]
    exact h.plain hr hc

/-! ### Operations that keep the fields -/

/-- One more condition, if the rows are not limited yet. -/
lemma addCondition (h : Shows D stored draft listing) (ho : draft.Open)
    (hl : draft.last.limit? = none) {c : TextCondition String} {test : Record δ → Truth}
    (ht : ∀ record, c.truth D (Record.cell (draft.input D stored).header) (Record.cell record)
      = test (draft.last.output record)) :
    Shows D stored (draft.push (.filter c))
      { listing with rows := listing.rows.filter fun record => test record == some true } := by
  refine h.withLast ho ?_ ?_ (List.filter_subset_self _) ?_
  · rw [Stage.columns?_append]
    exact Option.or_none
  · rw [Stage.counts_append]
    exact Bool.or_false _
  · rw [congrArg Listing.rows (h.listing_eq ho), List.filter_map]
    refine congrArg _ ?_
    have htests : Stage.tests D (draft.last ++ [.filter c]) (draft.input D stored).header
        = draft.last.tests D (draft.input D stored).header
            ++ [fun record => test (draft.last.output record)] := by
      rw [Stage.tests, Stage.conditions_append, List.map_append]
      refine congrArg _ (congrArg (fun t => [t]) (funext fun record => ?_))
      exact ht record
    have hkeys : Stage.keys (δ := δ) (draft.last ++ [.filter c]) = draft.last.keys := by
      rw [Stage.keys, Stage.sortKeys_append, Stage.keys]
      exact congrArg _ (List.append_nil _)
    rw [Stage.left, Stage.left, Stage.limit?_append, hl, htests, hkeys]
    exact (filter_arrange fun record => test (draft.last.output record)).symm

/-- What the stage of an open draft means by names is what references to the output mean. -/
lemma means (h : Shows D stored draft listing) (ho : draft.Open) (record : Record δ) :
    draft.Means listing.header (draft.last.output record)
      (Record.cell (draft.input D stored).header) record.cell := by
  intro reference name hr hn
  obtain ⟨column, hc⟩ := Option.isSome_iff_exists.1 hr
  rw [h.resolve_eq hc] at hn
  obtain rfl := Except.ok.inj hn
  have hmem : column.1 ∈ draft.fields :=
    h.mem_fields (List.mem_map_of_mem (Header.column?_eq_some hc).1)
  constructor
  · rw [Header.type?_eq h.nodup hc, ← h.cell_output ho _ hmem, h.listing_eq ho]
  · rw [Header.cell, hc]
    exact (h.cell_output ho record hmem).symm

/-- A condition joins the others in front of the sort, as it would drop the same rows after it. -/
lemma filter {predicate : Predicate} (h : Shows D stored draft listing)
    (hp : predicate.Within listing.header)
    (he : draft.Enters (fun clause => clause.isLimit || clause.isCount) base)
    {c : TextCondition String} (hc : base.condition predicate = .ok c) :
    Shows D stored (base.push (.filter c)) (listing.filter D predicate) := by
  have hshows := h.enters he
  obtain ⟨ho, hlimit⟩ := he.unlimited
  refine hshows.addCondition ho hlimit fun record => ?_
  exact (renders_condition hc).truth (hshows.means ho record) hp

/-- A sort key in front of the others sorts like a sort after theirs. -/
lemma sortBy {key : String} {direction : Direction} (h : Shows D stored draft listing)
    (hk : listing.header.Has key)
    (he : draft.Enters (fun clause => clause.isLimit || clause.isCount) base) {field : String}
    (hf : base.resolve key = .ok field) :
    Shows D stored { base with last := Draft.addSortKey ⟨field, direction⟩ base.last }
      (listing.sortBy D key direction) := by
  have hshows := h.enters he
  obtain ⟨ho, hlimit⟩ := he.unlimited
  have hsorts := addSortKey_sorts ⟨field, direction⟩ base.last
  refine hshows.withLast ho hsorts.columns? hsorts.counts (fun row hr => Stable.mem_sort.1 hr) ?_
  -- The operation sorts by cells of the output, the key by those of the input.
  have horder : (fun a b => listing.order D key direction (base.last.output a)
      (base.last.output b)) = fun a b : Record δ =>
        D.directed direction (a.cell field) (b.cell field) := by
    funext a b
    rw [Listing.order, (hshows.means ho a key field hk hf).2,
      (hshows.means ho b key field hk hf).2]
  rw [congrArg Listing.rows (hshows.listing_eq ho), Stable.sort_map, horder]
  refine congrArg _ ?_
  rw [Stage.left, Stage.left, Stage.tests, Stage.tests, Stage.keys, Stage.keys, hsorts.conditions,
    hsorts.sortKeys, hsorts.limit?, hlimit]
  exact (sort_arrange direction fun record : Record δ => record.cell field).symm

lemma take {n : UInt32} (h : Shows D stored draft listing)
    (he : draft.Enters (fun clause => clause.isLimit || clause.isCount) base) :
    Shows D stored (base.push (.limit n)) (listing.take n) := by
  have hshows := h.enters he
  obtain ⟨ho, hlimit⟩ := he.unlimited
  refine hshows.withLast ho ?_ ?_ (List.take_subset _ _) ?_
  · exact (Stage.columns?_append _ _).trans Option.or_none
  · exact (Stage.counts_append _ _).trans (Bool.or_false _)
  · rw [congrArg Listing.rows (hshows.listing_eq ho), ← List.map_take]
    refine congrArg _ ?_
    rw [Stage.left, Stage.left, Stage.tests, Stage.tests, Stage.keys, Stage.keys,
      Stage.conditions_append, Stage.sortKeys_append, Stage.limit?_append, hlimit]
    simp [Clause.condition?, Clause.sortKeys, Clause.limit?, Sql.slice]

/-- Rows are counted in any order. -/
lemma count (h : Shows D stored draft listing)
    (he : draft.Enters (fun clause => clause.isSelect || clause.isLimit || clause.isCount) base) :
    Shows D stored base.count (listing.count D) := by
  have hnext := h.enters he
  have hrenamed := he.renamed
  obtain ⟨hway, hcount⟩ := Stage.any_or he.free
  obtain ⟨-, hlimit⟩ := Stage.any_or hway
  -- Nothing is selected in the stage that counts, so it has one row for each of the listing.
  have hrows : listing.rows.length = (base.last.left D (base.input D stored)).length := by
    rw [congrArg Listing.rows (hnext.listing_eq ⟨hrenamed, hcount⟩), List.length_map]
  have hcounts : Stage.counts (base.last.filter (!·.isOrderBy) ++ [.count]) = true := by
    rw [Stage.counts_append]
    exact Bool.or_true _
  refine ⟨hnext.identity, hnext.named, ?_, rfl, ?_, ?_, ?_⟩
  · have hinput : base.count.input D stored = base.input D stored := rfl
    have hlast : base.count.last = base.last.filter (!·.isOrderBy) ++ [.count] := rfl
    rw [hlast, hinput, Stage.run, if_pos hcounts,
      length_left_unsorted (Stage.limit?_eq_none hlimit), Listing.count, hrows]
  · intro row hr
    rw [List.mem_singleton.1 hr]
    rfl
  · show idKey ∉ ["count"]
    decide
  · intro _ hnot
    rw [Draft.count, hcounts] at hnot
    cases hnot

/-! ### Operations on the fields -/

/-- An open draft shows the output fields of the rows that are left. -/
lemma listing_choose (h : Shows D stored draft listing) (ho : draft.Open) :
    listing = ⟨Record.choose draft.fields (draft.input D stored).header,
      (draft.last.left D (draft.input D stored)).map (Record.choose draft.fields)⟩ := by
  have hself : listing = ⟨Record.choose draft.fields listing.header,
      listing.rows.map (Record.choose draft.fields)⟩ := by
    have hrow : ∀ row ∈ listing.rows, row.choose draft.fields = row := fun row hr =>
      Record.choose_eq_self ((h.rows row hr).trans h.names)
    have hrows : listing.rows.map (Record.choose draft.fields) = listing.rows :=
      (List.map_congr_left hrow).trans (List.map_id _)
    rw [hrows]
    exact congrArg (Listing.mk · listing.rows) (Record.choose_eq_self h.names).symm
  have hchoose {ε : Type} : Record.choose draft.fields ∘ draft.last.output
      = (Record.choose draft.fields : Record ε → Record ε) := by
    funext record
    refine List.map_congr_left fun name hn => ?_
    rw [h.cell_output ho record (List.mem_eraseDups.1 hn)]
  calc
    listing = ⟨Record.choose draft.fields listing.header,
        listing.rows.map (Record.choose draft.fields)⟩ := hself
    _ = ⟨Record.choose draft.fields (draft.last.output (draft.input D stored).header),
        ((draft.last.left D (draft.input D stored)).map draft.last.output).map
          (Record.choose draft.fields)⟩ := by rw [congrArg Listing.rows (h.listing_eq ho),
            congrArg Listing.header (h.listing_eq ho)]
    _ = _ := by rw [List.map_map, hchoose, ← Function.comp_apply (f := Record.choose _), hchoose]

/-- Without selected columns, an open draft shows all fields of the rows that are left. -/
lemma listing_unselected (h : Shows D stored draft listing) (ho : draft.Open)
    (hc : draft.last.columns? = none) :
    listing = ⟨(draft.input D stored).header, draft.last.left D (draft.input D stored)⟩ := by
  have houtput {ε : Type} : (draft.last.output : Record ε → Record ε) = id := by
    funext record
    rw [Stage.output, hc]
    rfl
  rw [h.listing_eq ho, houtput, houtput, List.map_id]
  rfl

end Shows

/-- What a stage with selected columns puts out, given one that leaves the same rows. -/
lemma run_select {stage other : Stage} {columns : List Column} (hsame : stage.LeavesSame other)
    (hcounts : other.counts = false) (hcolumns : other.columns? = some columns)
    (input : Listing δ) :
    other.run D input = ⟨pick columns input.header, (stage.left D input).map (pick columns)⟩ := by
  have houtput {ε : Type} : (other.output : Record ε → Record ε) = pick columns := by
    funext record
    rw [Stage.output, hcolumns]
  rw [Stage.run, hcounts, hsame.left_eq, houtput, houtput]
  rfl

namespace Shows

variable {draft base : Draft} {listing : Listing δ}

lemma project {fields : List String} (h : Shows D stored draft listing)
    (hf : ∀ field ∈ fields, listing.header.Has field)
    (he : draft.Enters (fun clause => clause.isSelect || clause.isCount) base)
    {names : List String} (hnames : base.resolveAll fields = .ok names) :
    Shows D stored
      ({ base with fields := names }.push (.select (names.map fun source => { source })))
      (listing.project fields) := by
  have hshows := h.enters he
  obtain ⟨ho, hcolumns⟩ := he.unselected
  rw [hshows.resolveAll_eq hf] at hnames
  have hmeant : listing.header.meant fields = names := Except.ok.inj hnames
  have hselect : Stage.columns? (base.last ++ [.select (names.map fun source => { source })])
      = some (names.map fun source => { source }) := by
    rw [Stage.columns?_append, hcolumns]
    rfl
  have hcounts : Stage.counts (base.last ++ [.select (names.map fun source => { source })])
      = false := by
    rw [Stage.counts_append, ho.counts]
    rfl
  have hlisting := hshows.listing_unselected ho hcolumns
  rw [Listing.project_eq hshows.nodup, hmeant]
  refine ⟨hshows.identity, hshows.named, ?_, Record.names_choose, ?_, ?_, fun _ _ => .inr hselect⟩
  · rw [congrArg Listing.rows hlisting, congrArg Listing.header hlisting]
    refine (run_select (Stage.leavesSame_select _ _) hcounts hselect _).trans ?_
    rw [pick_plain, funext (pick_plain names)]
    rfl
  · intro row hr
    obtain ⟨record, -, rfl⟩ := List.mem_map.1 hr
    exact Record.names_choose.trans Record.names_choose.symm
  · intro hkey
    have hname : idKey ∈ names.eraseDups := by
      rw [← Record.names_choose]
      exact hkey
    rw [← hmeant] at hname
    exact hshows.unmarked (Header.mem_names_of_meant (List.mem_eraseDups.1 hname))

lemma rename {old new : String} (h : Shows D stored draft listing)
    (ho : listing.header.Has old) (hid : unqualified new ∉ ["id", idKey])
    (hnew : unqualified new ∉ listing.header.names) (he : draft.Enters Clause.isCount base)
    {name : String} (hname : base.resolve old = .ok name) :
    Shows D stored (base.rename name (unqualified new)) (listing.rename old new) := by
  have hshows := h.enters he
  obtain ⟨column, hc⟩ := Option.isSome_iff_exists.1 ho
  rw [hshows.resolve_eq hc] at hname
  obtain rfl := Except.ok.inj hname
  obtain ⟨stage, hlast, hsame, hcounts, hcolumns⟩ :=
    exists_renamed he.isOpen (hshows.plain he.renamed he.free) column.1 (unqualified new)
  have hlisting : listing.rename old new
      = ⟨Record.rename listing.header column.1 (unqualified new),
        listing.rows.map (·.rename column.1 (unqualified new))⟩ := by
    simp only [Listing.rename, hc]
    rfl
  have hnames : Header.names (Record.rename listing.header column.1 (unqualified new))
      = listing.header.names.map (Record.newName column.1 (unqualified new)) :=
    Record.names_rename _ _
  rw [hlisting]
  refine ⟨hshows.identity, hshows.named, ?_, ?_, ?_, ?_, ?_⟩
  · -- Whatever was selected before, the new columns are chosen from the rows that are left.
    have hchoose := hshows.listing_choose he.isOpen
    rw [hlast, congrArg Listing.rows hchoose, congrArg Listing.header hchoose]
    refine (run_select hsame hcounts hcolumns _).trans ?_
    rw [pick_renamed, funext (pick_renamed _ _ _), List.map_map]
    rfl
  · have hfresh : unqualified new ∉ base.fields := by
      rw [hshows.names] at hnew
      exact fun hn => hnew (List.mem_eraseDups.2 hn)
    rw [hnames, hshows.names]
    exact (Record.eraseDups_newName column.1 hfresh).symm
  · intro row hr
    obtain ⟨record, hm, rfl⟩ := List.mem_map.1 hr
    rw [Record.names_rename, hshows.rows record hm]
    exact hnames.symm
  · intro hkey
    rw [hnames] at hkey
    obtain ⟨name, hn, hkey⟩ := List.mem_map.1 hkey
    have hmark : unqualified new ≠ idKey := fun heq => hid (by simp [heq])
    have hold : name ≠ idKey := fun heq => hshows.unmarked (heq ▸ hn)
    exact Record.newName_ne hmark hold hkey
  · intro hnot
    cases hnot

end Shows

end ObjectGraph.Malloy
