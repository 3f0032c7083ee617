/-
# Drafts that show rows

A draft shows a listing if its select has the rows of the listing and the header describes its
columns.  As long as it is not sealed, it has one row for every row that its clauses leave, and
what a predicate says of a row of the listing its condition says of the row behind it.
-/
import ObjectGraph.Proofs.Compile.Heads

namespace ObjectGraph.Compile

open Sql (Expression Relation RowEnvironment TableAlias)

variable {δ : Type} {D : Domain δ} {db : Database δ} {around : RowEnvironment δ}
  {catalog : Catalog} {counts last : AliasCounts}

/-! ### The invariant -/

/-- A draft whose select has the rows of a listing, with columns that the header describes. -/
structure Shows (D : Domain δ) (db : Database δ) (around : RowEnvironment δ) (draft : Draft)
    (listing : Listing δ) : Prop where
  heads : Heads listing.header draft.columns
  rows : draft.finish.rows D db around = listing.rows
  /-- While the table is read, the column of its identity answers for it. -/
  reads : draft.readsTable = true →
    ∀ column ∈ draft.columns, column.name = "id" → column.isIdentity = true
  /-- An open draft has one row for every row that its clauses leave. -/
  plain : draft.isSealed = false → draft.groupBy = [] ∧
    ∀ column ∈ draft.columns, column.expression.aggregates = false
  /-- Without groups, either all columns count or collect rows or none does. -/
  uniform : draft.groupBy = [] →
    ∃ b, ∀ column ∈ draft.columns, column.expression.aggregates = b

namespace Shows

variable {draft base result : Draft} {listing : Listing δ}

lemma aggregates_eq_false (h : Shows D db around draft listing) (ho : draft.isSealed = false) :
    draft.aggregates = false := by
  simpa [Draft.aggregates] using (h.plain ho).2

lemma rows_open (h : Shows D db around draft listing) (ho : draft.isSealed = false) :
    listing.rows
      = (Sql.slice draft.limit draft.offset (draft.sorted D db around)).map fun rows =>
          Draft.record D db draft.columns ⟨rows, []⟩ := by
  rw [← h.rows]
  exact Draft.rows_plain (h.plain ho).1 (h.aggregates_eq_false ho)

/-- A draft that reads the rows of a listing from a relation with the same columns. -/
lemma reading {relation : Relation} {columns : List Column} {type : Option String}
    (hheads : Heads listing.header columns)
    (hrows : relation.rows D db around = listing.rows)
    (hnames : ∀ row ∈ listing.rows, row.map Prod.fst = columns.map (·.name)) :
    Shows D db around (Draft.reading relation columns type) listing where
  heads := hheads.through relation.handle
  rows := by
    rw [← hrows] at hnames
    exact (Draft.rows_reading hheads.nodup hnames).trans hrows
  reads := by simp [Draft.reading]
  plain _ := ⟨rfl, List.forall_mem_map.2 fun column _ => rfl⟩
  uniform _ := ⟨false, List.forall_mem_map.2 fun column _ => rfl⟩

/-- The rows of a listing have the names of the columns. -/
lemma names_of_mem (h : Shows D db around draft listing) :
    ∀ row ∈ listing.rows, row.map Prod.fst = draft.columns.map (·.name) := by
  intro row hr
  rw [← h.rows] at hr
  exact Draft.names_of_mem_rows hr

lemma wrapped (h : Shows D db around draft listing) (handle : TableAlias) :
    Shows D db around (draft.wrapped handle) listing := by
  have hrows : (Relation.derived draft.finish handle).rows D db around = listing.rows := by
    rw [Relation.rows, h.rows]
  exact reading h.heads hrows h.names_of_mem

lemma wraps {condition : Bool} (h : Shows D db around draft listing)
    (hw : Draft.Wraps counts draft condition base last) : Shows D db around base listing := by
  cases hw with
  | kept => exact h
  | wrapped => exact h.wrapped _

/-- A reference to a column that is resolved stands for the expression of this column. -/
lemma resolve_column (h : Shows D db around draft listing) {reference : String}
    {target : Expression × Option ScalarType} (hh : listing.header.Has reference)
    (hr : draft.resolve catalog reference = .ok target) :
    ∃ column ∈ draft.columns, target = (column.expression, column.type) ∧
      listing.header.column? reference = some (column.name, column.type) := by
  rcases Draft.resolve_ok hr with ⟨column, hc, rfl⟩ | ⟨hc, hreads, -⟩
  · have hmem := Draft.column?_mem hc
    exact ⟨column, hmem, rfl, h.heads.column?_of_answersTo hmem (Draft.answersTo_of_column? hc)⟩
  · -- Then the reference was found among the fields of the table, but means no column.
    have hnone : ∀ column ∈ draft.columns,
        column.answersTo (unqualified reference) = false := by
      simpa using List.find?_eq_none.1 hc
    have hnot : ∀ name, (name = unqualified reference ∨
        name = "id" ∧ unqualified reference = idKey) →
        listing.header.find? (·.1 == name) = none := by
      intro name hname
      refine List.find?_eq_none.2 fun entry he hk => ?_
      rw [h.heads.header_eq] at he
      obtain ⟨column, hm, rfl⟩ := List.mem_map.1 he
      have hcolumn : column.name = name := by simpa using hk
      have hfield := h.heads.named column hm
      have hanswers := hnone column hm
      rcases hname with rfl | ⟨rfl, href⟩
      · simp [Column.answersTo, hfield, hcolumn] at hanswers
      · simp [Column.answersTo, href, h.reads hreads column hm hcolumn] at hanswers
    rw [Header.Has, Header.column?, hnot _ (.inl rfl), Option.none_or] at hh
    split at hh
    · rename_i hkey
      rw [hnot "id" (.inr ⟨rfl, hkey⟩)] at hh
      cases hh
    · cases hh

end Shows

/-! ### Conditions -/

section Conditions

variable {draft : Draft} {listing : Listing δ} {e : Expression}

lemma eval_literal {field : String} {type : Option ScalarType} {value : Literal}
    (h : literal field type value = .ok e) (rows : RowEnvironment δ) :
    e.eval D db rows [] = value.cell D type := by
  rcases literal_ok h with ⟨s, t, rfl, rfl, htext, rfl⟩ | ⟨htext, rfl⟩
  · rw [Sql.eval_cast]
    simp [Expression.eval, Sql.Value.cell, Literal.cell, htext]
  · cases value with
    | null | boolean b | integer i | float x => rfl
    | string s =>
      cases type with
      | none => rfl
      | some t => simp [Expression.eval, untyped, Sql.Value.cell, Literal.cell, htext s t rfl rfl]

lemma evalList_literals {field : String} {type : Option ScalarType} {values : List Literal}
    {es : List Expression} (h : literals field type values = .ok es) (rows : RowEnvironment δ) :
    Sql.evalList D db es rows [] = values.map (Literal.cell D type) := by
  induction values generalizing es with
  | nil =>
    cases h
    simp [Sql.evalList]
  | cons value rest ih =>
    obtain ⟨e, others, he, ho, rfl⟩ := literals_cons_ok h
    rw [Sql.evalList, eval_literal he, ih ho, List.map_cons]

/-- The row of a draft in an environment of its clauses. -/
lemma eval_column (hd : Shows D db around draft listing) (rows : RowEnvironment δ)
    {reference : String} {target : Expression × Option ScalarType}
    (hh : listing.header.Has reference) (hr : draft.resolve catalog reference = .ok target) :
    target.1.eval D db rows []
        = listing.header.cell (Draft.record D db draft.columns ⟨rows, []⟩) reference ∧
      target.2 = listing.header.type? reference := by
  obtain ⟨column, hc, rfl, hcolumn⟩ := hd.resolve_column hh hr
  exact ⟨(hd.heads.cell_record hc hcolumn ⟨rows, []⟩).symm, (Heads.type?_eq hcolumn).symm⟩

lemma truth_comparison (hd : Shows D db around draft listing) (rows : RowEnvironment δ)
    {field : String} {operator : ComparisonOperator} {value : Literal}
    (hw : listing.header.Has field)
    (h : comparison catalog draft field operator value = .ok e) :
    D.toTruth (e.eval D db rows [])
      = (Predicate.comparison field operator value).truth D listing.header
          (Draft.record D db draft.columns ⟨rows, []⟩) := by
  obtain ⟨⟨left, type⟩, hr, hcases⟩ := comparison_ok h
  obtain ⟨heval, rfl⟩ := eval_column hd rows hw hr
  rw [Predicate.truth, ← heval]
  rcases hcases with ⟨rfl, hcheck⟩ | ⟨hnull, right, hright, rfl⟩
  · cases operator <;> cases hcheck
    · simp [Literal.truth, Expression.eval, Domain.toTruth, D.truth_boolean]
    · simp [Literal.truth, Expression.eval, Domain.toTruth, Domain.ofTruth, Truth.not,
        D.truth_boolean]
  · rw [Sql.eval_comparison, Domain.toTruth_ofTruth, eval_literal hright]
    cases value <;> first | rfl | exact absurd rfl hnull

lemma truth_membership (hd : Shows D db around draft listing) (rows : RowEnvironment δ)
    {field : String} {values : List Literal}
    (hw : listing.header.Has field) (h : membership catalog draft field values = .ok e) :
    D.toTruth (e.eval D db rows [])
      = (Predicate.oneOf field values).truth D listing.header
          (Draft.record D db draft.columns ⟨rows, []⟩) := by
  obtain ⟨⟨left, type⟩, hr, hcases⟩ := membership_ok h
  obtain ⟨heval, rfl⟩ := eval_column hd rows hw hr
  rw [Predicate.truth, ← heval]
  rcases hcases with ⟨rfl, rfl⟩ | ⟨es, hes, rfl⟩
  · rw [Sql.truth_false]
    rfl
  · rw [Expression.eval, Domain.toTruth_ofTruth, evalList_literals hes]

mutual

/-- The condition of a predicate says of a row that the clauses of a draft see what the predicate
says of the row in the list. -/
lemma truth_condition (hd : Shows D db around draft listing) (rows : RowEnvironment δ) :
    ∀ {predicate : Predicate} {e : Expression},
    predicate.Within listing.header → condition catalog draft predicate = .ok e →
    D.toTruth (e.eval D db rows [])
      = predicate.truth D listing.header (Draft.record D db draft.columns ⟨rows, []⟩)
  | .all parts, _, hw, h => by
    simp only [condition] at h
    simp only [Predicate.Within] at hw
    rw [Predicate.truth, truth_conjunction hd rows hw h, Sql.truth_true, Truth.true_and]
  | .any [], _, _, h => by
    simp only [condition] at h
    cases h
    rw [Predicate.truth, Predicate.anyTruth, Sql.truth_false]
  | .any (part :: rest), _, hw, h => by
    simp only [condition, bind_eq_ok] at h
    obtain ⟨first, hf, h⟩ := h
    simp only [Predicate.Within, Predicate.partsWithin] at hw
    rw [truth_disjunction hd rows hw.2 h, truth_condition hd rows hw.1 hf, Predicate.truth,
      Predicate.anyTruth]
  | .negation part, _, hw, h => by
    simp only [condition, bind_eq_ok, pure_eq_ok] at h
    obtain ⟨inner, hi, rfl⟩ := h
    simp only [Predicate.Within] at hw
    rw [Expression.eval, Domain.toTruth_ofTruth, truth_condition hd rows hw hi, Predicate.truth]
  | .comparison field operator value, _, hw, h => by
    simp only [condition] at h
    simp only [Predicate.Within] at hw
    exact truth_comparison hd rows hw h
  | .oneOf field values, _, hw, h => by
    simp only [condition] at h
    simp only [Predicate.Within] at hw
    exact truth_membership hd rows hw h
  | .isNull field, _, hw, h => by
    simp only [condition, bind_eq_ok, pure_eq_ok] at h
    obtain ⟨target, ht, rfl⟩ := h
    simp only [Predicate.Within] at hw
    obtain ⟨heval, -⟩ := eval_column hd rows hw ht
    simp [Expression.eval, Predicate.truth, heval, Domain.toTruth, D.truth_boolean]

lemma truth_conjunction (hd : Shows D db around draft listing) (rows : RowEnvironment δ) :
    ∀ {parts : List Predicate} {before e : Expression},
    Predicate.partsWithin listing.header parts →
    conjunction catalog draft before parts = .ok e →
    D.toTruth (e.eval D db rows [])
      = Truth.and (D.toTruth (before.eval D db rows []))
          (Predicate.allTruth D listing.header (Draft.record D db draft.columns ⟨rows, []⟩) parts)
  | [], _, _, _, h => by
    simp only [conjunction, pure_eq_ok] at h
    rw [h, Predicate.allTruth, Truth.and_true]
  | part :: rest, _, _, hw, h => by
    simp only [conjunction, bind_eq_ok] at h
    obtain ⟨next, hn, h⟩ := h
    simp only [Predicate.partsWithin] at hw
    rw [truth_conjunction hd rows hw.2 h, Sql.truth_both, truth_condition hd rows hw.1 hn,
      Predicate.allTruth, Truth.and_assoc]

lemma truth_disjunction (hd : Shows D db around draft listing) (rows : RowEnvironment δ) :
    ∀ {parts : List Predicate} {before e : Expression},
    Predicate.partsWithin listing.header parts →
    disjunction catalog draft before parts = .ok e →
    D.toTruth (e.eval D db rows [])
      = Truth.or (D.toTruth (before.eval D db rows []))
          (Predicate.anyTruth D listing.header (Draft.record D db draft.columns ⟨rows, []⟩) parts)
  | [], _, _, _, h => by
    simp only [disjunction, pure_eq_ok] at h
    rw [h, Predicate.anyTruth, Truth.or_false]
  | part :: rest, _, _, hw, h => by
    simp only [disjunction, bind_eq_ok] at h
    obtain ⟨next, hn, h⟩ := h
    simp only [Predicate.partsWithin] at hw
    rw [truth_disjunction hd rows hw.2 h, Expression.eval, Domain.toTruth_ofTruth,
      truth_condition hd rows hw.1 hn, Predicate.anyTruth, Truth.or_assoc]

end

end Conditions

end ObjectGraph.Compile
