/-
# Operations that join the clauses of a draft

What an operation does to a draft it does to the listing that the draft shows.  An operation
that joins the clauses of a draft meets them in the order in which they are evaluated: a
condition may go in front of a sort, a sort key in front of older ones, a skip behind a skip.
-/
import ObjectGraph.Proofs.Compile.Showing

namespace ObjectGraph.Compile

open Sql (Expression Relation RowEnvironment SortKey TableAlias)

variable {δ : Type} {D : Domain δ} {db : Database δ} {around : RowEnvironment δ}
  {catalog : Catalog} {counts last : AliasCounts}

/-! ### Operations on a single draft -/

/-- How many rows a draft drops already that a skip would add to, if it joins its clauses. -/
def Draft.pending (draft : Draft) : Nat :=
  if draft.limit.isSome || draft.isSealed then 0 else (draft.offset.getD 0).toNat

namespace Draft.Wraps

variable {draft base : Draft}

lemma offset_eq (hw : Wraps counts draft (draft.limit.isSome || draft.isSealed) base last) :
    (base.offset.getD 0).toNat = draft.pending := by
  rw [Draft.pending]
  generalize (draft.limit.isSome || draft.isSealed) = b at hw
  cases hw <;> rfl

end Draft.Wraps

lemma toNat_saturatingAdd {a b : UInt32} (h : a.toNat + b.toNat < UInt32.size) :
    (saturatingAdd a b).toNat = a.toNat + b.toNat := by
  rw [saturatingAdd, min_eq_left (by omega), UInt32.toNat_ofNat_of_lt' h]

namespace Shows

variable {draft base result : Draft} {listing : Listing δ}

lemma rows_whole (h : Shows D db around draft listing) (hl : draft.limit = none)
    (ho : draft.offset = none) (hs : draft.isSealed = false) :
    listing.rows = (draft.sorted D db around).map fun rows =>
      Draft.record D db draft.columns ⟨rows, []⟩ := by
  rw [h.rows_open hs, hl, ho]
  rfl

/-- With other clauses an open draft shows other rows under the same header. -/
lemma withClauses (h : Shows D db around base listing) (hs : base.isSealed = false)
    (condition : Expression) (orderBy : List SortKey) (limit offset : Option UInt32)
    {rows : List (Record δ)}
    (hrows : (Sql.slice limit offset
      ({ base with condition, orderBy, limit, offset }.sorted D db around)).map (fun rows =>
        Draft.record D db base.columns ⟨rows, []⟩) = rows) :
    Shows D db around { base with condition, orderBy, limit, offset } { listing with rows } where
  heads := h.heads
  rows := by
    refine (Draft.rows_plain ?_ ?_).trans hrows
    · exact (h.plain hs).1
    · exact h.aggregates_eq_false hs
  reads := h.reads
  plain _ := h.plain hs
  uniform := h.uniform

/-- A condition joins the others in front of the sort, as it would drop the same rows after
it. -/
lemma filter {predicate : Predicate} (h : Shows D db around draft listing)
    (hp : predicate.Within listing.header)
    (hf : (draft.filter catalog predicate).run counts = .ok (result, last)) :
    Shows D db around result (listing.filter D predicate) := by
  obtain ⟨base, e, hw, he, rfl⟩ := Draft.filter_ok hf
  have hbase := h.wraps hw
  obtain ⟨hl, ho, hs⟩ := hw.opened
  refine hbase.withClauses hs _ _ _ _ ?_
  rw [hbase.rows_whole hl ho hs, List.filter_map]
  simp only [hl, ho, Sql.slice_none]
  refine congrArg _ ?_
  rw [Draft.sorted, Draft.sorted, Stable.filter_sort, List.filter_filter]
  refine congrArg _ (List.filter_congr fun rows _ => ?_)
  rw [Function.comp_apply, ← truth_condition hbase rows hp he, Sql.truth_both, Truth.and_holds,
    Bool.and_comm]

/-- A sort key in front of the others sorts like a sort after theirs. -/
lemma sortBy {key : String} {direction : Direction} (h : Shows D db around draft listing)
    (hk : listing.header.Has key)
    (hr : (draft.sortBy catalog key direction).run counts = .ok (result, last)) :
    Shows D db around result (listing.sortBy D key direction) := by
  obtain ⟨base, target, hw, ht, rfl⟩ := Draft.sortBy_ok hr
  have hbase := h.wraps hw
  obtain ⟨hl, ho, hs⟩ := hw.opened
  refine hbase.withClauses hs _ _ _ _ ?_
  have hfirst : Std.TransCmp fun a b : RowEnvironment δ =>
      D.directed direction (target.1.eval D db a []) (target.1.eval D db b []) :=
    Sql.trans_on fun rows => target.1.eval D db rows []
  have hkeys : Sql.orderKeys D db (⟨target.1, direction⟩ :: base.orderBy) = compareLex
      (fun a b => D.directed direction (target.1.eval D db a []) (target.1.eval D db b []))
      (Sql.orderKeys D db base.orderBy) := by
    funext a b
    rw [Sql.orderKeys, compareLex]
  rw [hbase.rows_whole hl ho hs, Stable.sort_map]
  simp only [hl, ho, Sql.slice_none]
  refine congrArg _ ?_
  have horder : (fun a b => listing.order D key direction
      (Draft.record D db base.columns ⟨a, []⟩) (Draft.record D db base.columns ⟨b, []⟩))
        = fun a b => D.directed direction (target.1.eval D db a []) (target.1.eval D db b []) := by
    funext a b
    rw [Listing.order, ← (eval_column hbase a hk ht).1, ← (eval_column hbase b hk ht).1]
  rw [Draft.sorted, Draft.sorted, hkeys, horder, Stable.sort_sort]
  rfl

lemma take {n : UInt32} (h : Shows D db around draft listing)
    (ht : (draft.take n).run counts = .ok (result, last)) :
    Shows D db around result (listing.take n) := by
  obtain ⟨base, hw, rfl⟩ := Draft.take_ok ht
  have hbase := h.wraps hw
  obtain ⟨hl, hs⟩ := hw.unlimited
  refine hbase.withClauses hs _ _ _ _ ?_
  rw [hbase.rows_open hs, hl, ← List.map_take]
  rfl

/-- Skips add up, as long as their sum is not too large. -/
lemma skip {n : UInt32} (h : Shows D db around draft listing)
    (hn : draft.pending + n.toNat < UInt32.size)
    (ht : (draft.skip n).run counts = .ok (result, last)) :
    Shows D db around result (listing.skip n) := by
  obtain ⟨base, hw, rfl⟩ := Draft.skip_ok ht
  have hbase := h.wraps hw
  obtain ⟨hl, hs⟩ := hw.unlimited
  refine hbase.withClauses hs _ _ _ _ ?_
  rw [hbase.rows_open hs, hl, ← List.map_drop]
  rw [← hw.offset_eq] at hn
  simp only [Sql.slice, List.drop_drop, Option.getD_some, toNat_saturatingAdd hn]
  rfl

/-- Rows are counted in any order. -/
lemma count (h : Shows D db around draft listing)
    (hc : draft.count.run counts = .ok (result, last)) :
    Shows D db around result (listing.count D) := by
  obtain ⟨base, hw, rfl⟩ := Draft.count_ok hc
  have hbase := h.wraps hw
  obtain ⟨hl, ho, hs⟩ := hw.opened
  refine {
    heads := .of_computed rfl (by simp) (by simp [Column.computed])
    rows := ?_
    reads := by simp
    plain := by simp
    uniform := fun _ => ⟨true, by simp [Column.computed, Expression.aggregates]⟩ }
  refine (Draft.rows_aggregated ?_ ?_).trans ?_
  · exact (hbase.plain hs).1
  · simp [Draft.aggregates, Column.computed, Expression.aggregates]
  · simp only [hl, ho, Sql.slice_none, Draft.record, Column.computed, List.map_cons, List.map_nil,
      Expression.eval, Listing.count]
    rw [hbase.rows_whole hl ho hs, List.length_map]
    simp only [Draft.sorted, Stable.length_sort]
    rfl

/-- The environments of a draft that reads another one without clauses. -/
lemma environments_wrapped (h : Shows D db around draft listing) (handle : TableAlias) :
    (draft.wrapped handle).environments D db around
      = listing.rows.map fun row => (handle, row) :: around := by
  rw [← h.rows, Draft.environments, Draft.wrapped, Relation.rows]
  rfl

/-- The rows of an alias as an array of objects. -/
lemma eval_jsonRows (handle : TableAlias) (rows : List (Record δ)) (hne : rows ≠ [])
    (environment : RowEnvironment δ) :
    (Expression.jsonRows handle).eval D db environment
        (rows.map fun row => (handle, row) :: around) = Listing.array D rows := by
  simp only [Expression.jsonRows, Expression.eval, Sql.evalList, Listing.array, List.flatMap_map,
    Sql.row?_cons_self, Option.map_some, List.isEmpty_map, List.isEmpty_iff, hne, if_false]
  rw [← List.map_eq_flatMap]

lemma eval_jsonArray (handle : TableAlias) (rows : List (Record δ))
    (environment : RowEnvironment δ) :
    (Expression.jsonArray handle).eval D db environment
        (rows.map fun row => (handle, row) :: around) = Listing.array D rows := by
  rw [Expression.jsonArray, Expression.eval]
  simp only [Sql.evalList, List.findSome?_cons, id]
  by_cases hne : rows = []
  · subst hne
    simp [Expression.jsonRows, Expression.eval, Sql.Value.cell, Listing.array]
  · rw [eval_jsonRows handle rows hne]
    rfl

lemma nest {key : String} (h : Shows D db around draft listing)
    (hn : (draft.nest key).run counts = .ok (result, last)) :
    Shows D db around result (listing.nest D key) := by
  obtain ⟨rfl, rfl⟩ := Draft.nest_ok hn
  have haggregates : (Expression.jsonArray (nextAlias counts "t")).aggregates = true := by
    simp [Expression.jsonArray, Expression.jsonRows, Expression.aggregates, Sql.aggregatesList]
  refine {
    heads := .of_computed rfl (by simp) (by simp [Column.computed])
    rows := ?_
    reads := by simp [Draft.wrapped]
    plain := by simp
    uniform := fun _ => ⟨true, by simpa [Column.computed] using haggregates⟩ }
  refine (Draft.rows_aggregated ?_ ?_).trans ?_
  · rfl
  · simpa [Draft.aggregates, Column.computed] using haggregates
  · have hleft : Draft.sorted D db around { draft.wrapped (nextAlias counts "t") with
        columns := [.computed key (.jsonArray (nextAlias counts "t"))]
        type := none
        isSealed := true } = listing.rows.map fun row => (nextAlias counts "t", row) :: around :=
      (Draft.sorted_of_open rfl rfl).trans (h.environments_wrapped _)
    simp only [Draft.wrapped, Sql.slice_none] at hleft ⊢
    rw [hleft]
    simp only [Draft.record, Column.computed, List.map_cons, List.map_nil, eval_jsonArray]
    rfl

/-- A reference resolved in a wrapped draft reads the cell of the row behind the alias. -/
lemma eval_wrapped (h : Shows D db around draft listing) {handle : TableAlias} {key : String}
    {target : Expression × Option ScalarType} (hk : listing.header.Has key)
    (ht : (draft.wrapped handle).resolve catalog key = .ok target) (row : Record δ)
    (group : List (RowEnvironment δ)) :
    target.1.eval D db ((handle, row) :: around) group = listing.header.cell row key := by
  obtain ⟨column, hc, rfl, hcolumn⟩ := (h.wrapped handle).resolve_column hk ht
  obtain ⟨original, -, rfl⟩ := List.mem_map.1 hc
  rw [Header.cell, hcolumn]
  simp only [Column.through, Expression.eval, Sql.cell_cons_self]
  rfl

instance (key : String) (direction : Direction) :
    Std.TransCmp (listing.order D key direction) :=
  Sql.trans_on fun row => listing.header.cell row key

/-- Sorting brings rows of one group together, so grouping what is sorted splits it where the
key changes. -/
lemma contexts_gathered {key : String} {handle : TableAlias}
    {target : Expression × Option ScalarType} (h : Shows D db around draft listing)
    (hk : listing.header.Has key)
    (ht : (draft.wrapped handle).resolve catalog key = .ok target) :
    (draft.gathered handle target).contexts D db around
      = (Stable.runs (listing.order D key .ascending)
          (Stable.sort (listing.order D key .ascending) listing.rows)).map fun group =>
            ⟨(group.map fun row => (handle, row) :: around).headD around,
              group.map fun row => (handle, row) :: around⟩ := by
  -- All clauses see a row of the listing behind one alias.
  let below (row : Record δ) : RowEnvironment δ := (handle, row) :: around
  have heval (row : Record δ) : target.1.eval D db (below row) [] = listing.header.cell row key :=
    h.eval_wrapped hk ht row []
  have hsort : (fun a b => Sql.orderKeys D db [⟨target.1, .ascending⟩] (below a) (below b))
      = listing.order D key .ascending := by
    funext a b
    simp only [Sql.orderKeys, heval, Ordering.then_eq]
    rfl
  have hsame : (fun a b => D.orderList (Sql.evalList D db [target.1] (below a) [])
      (Sql.evalList D db [target.1] (below b) [])) = listing.order D key .ascending := by
    funext a b
    simp only [Sql.evalList, Domain.orderList, heval, Ordering.then_eq]
    rfl
  have hsorted : (draft.gathered handle target).sorted D db around
        = (Stable.sort (listing.order D key .ascending) listing.rows).map below := by
    rw [Draft.sorted_of_true rfl, ← hsort, ← Stable.sort_map, ← h.environments_wrapped handle]
    rfl
  rw [Draft.contexts, hsorted, ← Stable.classes_eq_runs (Stable.inOrder_sort _), ← hsame]
  simp only [Draft.gathered, Draft.wrapped, List.isEmpty_cons, Bool.false_eq_true, if_false,
    Sql.contexts, Sql.slice_none, Stable.classes_map, List.map_map]
  rfl

lemma gatherBy {key : String} (h : Shows D db around draft listing)
    (hk : listing.header.Has key)
    (hg : (draft.gatherBy catalog key).run counts = .ok (result, last)) :
    Shows D db around result (listing.gatherBy D key) := by
  obtain ⟨target, rfl, ht, rfl⟩ := Draft.gatherBy_ok hg
  refine {
    heads := .of_computed ?_ (by simp [Draft.gathered, Column.computed])
      (by simp [Draft.gathered, Column.computed])
    rows := ?_
    reads := by simp [Draft.gathered, Draft.wrapped]
    plain := by simp [Draft.gathered]
    uniform := by simp [Draft.gathered] }
  · obtain ⟨column, -, rfl, hcolumn⟩ := (h.wrapped (nextAlias counts "t")).resolve_column hk ht
    simp only [Listing.gatherBy, Heads.type?_eq hcolumn]
    rfl
  · rw [Draft.rows_finish, h.contexts_gathered hk ht, List.map_map]
    refine List.map_congr_left fun group hm => ?_
    have hne : group ≠ [] := List.ne_nil_of_mem_splitBy hm
    obtain ⟨first, rest, rfl⟩ := List.exists_cons_of_ne_nil hne
    simp only [Function.comp_apply, Draft.record, Draft.gathered, Column.computed, List.map_cons,
      List.map_nil, List.headD_cons, h.eval_wrapped hk ht]
    have hitems : (Expression.jsonRows (nextAlias counts "t")).eval D db
        ((nextAlias counts "t", first) :: around)
        ((first :: rest).map fun row => (nextAlias counts "t", row) :: around)
          = Listing.array D (first :: rest) :=
      eval_jsonRows _ _ hne _
    exact congrArg (fun items => [("key", _), ("items", items)]) hitems

/-! ### Columns -/

lemma project {fields : List String} (h : Shows D db around draft listing) (hf : fields ≠ [])
    (hp : draft.project fields = .ok result) :
    Shows D db around result (listing.project fields) := by
  obtain ⟨columns, hc, rfl⟩ := Draft.project_ok hp
  have hheader : listing.header.pick [] fields = columns.map fun c => (c.name, c.type) :=
    h.heads.pick_header hc
  have hsubset : columns ⊆ draft.columns := Draft.pick_subset hc
  have hheads := h.heads.of_subset (Draft.pick_nodup (by simp) hc) hsubset
  -- A column is left, so rows are counted or collected as much as before.
  have hcontexts : { draft with columns }.contexts D db around = draft.contexts D db around := by
    refine Draft.contexts_withColumns fun hg => ?_
    obtain ⟨b, hb⟩ := h.uniform hg
    have hne := Draft.pick_ne_nil (.inr hf) hc
    have hdraft : draft.columns ≠ [] := fun hnil => hne (by simpa [hnil] using hsubset)
    exact (Draft.any_of_forall hne fun column hm => hb column (hsubset hm)).trans
      (Draft.any_of_forall hdraft hb).symm
  refine {
    heads := by rw [← hheader] at hheads; exact hheads
    rows := ?_
    reads := fun hr column hm => h.reads hr column (hsubset hm)
    plain := fun hs => ⟨(h.plain hs).1, fun column hm => (h.plain hs).2 column (hsubset hm)⟩
    uniform := fun hg => (h.uniform hg).imp fun b hb column hm => hb column (hsubset hm) }
  rw [Draft.rows_finish, hcontexts, Listing.project, ← h.rows, Draft.rows_finish, List.map_map,
    hheader]
  refine List.map_congr_left fun context _ => ?_
  simp only [Function.comp_apply, Record.restrict, List.map_map]
  refine List.map_congr_left fun column hm => ?_
  have hcell : Record.cell (Draft.record D db draft.columns context) column.name
      = column.expression.eval D db context.row context.group :=
    Record.cell_map h.heads.nodup (hsubset hm)
  rw [Function.comp_apply, hcell]

lemma rename {old new : String} (h : Shows D db around draft listing)
    (hid : unqualified new ∉ ["id", idKey]) (hnew : unqualified new ∉ listing.header.names)
    (hr : draft.rename old new = .ok result) :
    Shows D db around result (listing.rename old new) := by
  obtain ⟨columns, hc, rfl⟩ := Draft.rename_ok hr
  obtain ⟨column, hm, ha, rfl⟩ := Column.renameFirst_eq h.heads.nodup hc
  have hcolumn := h.heads.column?_of_answersTo hm ha
  have hlisting : listing.rename old new
      = ⟨listing.header.rename column.name (unqualified new),
          listing.rows.map (·.rename column.name (unqualified new))⟩ := by
    simp only [Listing.rename, hcolumn]
  rw [hlisting]
  refine {
    heads := h.heads.renamed column.name hid hnew
    rows := ?_
    reads := fun hr => List.forall_mem_map.2 fun other ho => ?_
    plain := by simp
    uniform := fun hg => (h.uniform hg).imp fun b hb => List.forall_mem_map.2 fun other ho => by
      rw [Column.expression_renamedIf, hb other ho] }
  · rw [Draft.rows_finish, Draft.contexts_withColumns, ← h.rows, Draft.rows_finish, List.map_map]
    · refine List.map_congr_left fun context _ => ?_
      simp only [Function.comp_apply, Draft.record, Record.rename, List.map_map,
        Function.comp_def, Column.name_renamedIf hid, Column.expression_renamedIf]
    · intro _
      simp only [List.any_map, Function.comp_def, Column.expression_renamedIf]
      rfl
  · unfold Column.renamedIf
    split
    · rw [Column.renamed_eq hid]
      intro he
      have hn : unqualified new = "id" := he
      exact absurd hid (by simp [hn])
    · exact h.reads hr other ho

end Shows

end ObjectGraph.Compile
