/-
# Types of columns

A draft marks columns with types, and literals that are compared with a column are checked against
its mark.  A mark that starts as the type of a stored field goes with the column through all
operations.  A union is the only one that puts other cells under it: its columns keep the marks of
the first rows, so these must be those of all others.
-/
import ObjectGraph.Proofs.Compile.Origins
import ObjectGraph.Proofs.Compile.Regular

namespace ObjectGraph

variable {δ : Type} {D : Domain δ}

/-! ### Typed values -/

/-- Which values are of which type, the numbers of rows being among those of `bigint`. -/
structure Typing (D : Domain δ) where
  IsOf : ScalarType → δ → Prop
  count : ∀ n : Nat, IsOf .bigint (D.integer n)

/-- A cell that is null or has a value of a type. -/
def Typing.Holds (T : Typing D) (type : ScalarType) (cell : Cell δ) : Prop :=
  ∀ v ∈ cell, T.IsOf type v

/-- A database whose tables hold values of the types that fields are declared with. -/
def Catalog.StoresTyped (catalog : Catalog) (T : Typing D) (db : Database δ) : Prop :=
  ∀ name type, catalog.type? name = some type → ∀ entry ∈ type.fields.entries,
    ∀ row ∈ db (Compile.tableName type), T.Holds entry.2.type (row.cell entry.2.column)

/-- The type of a value to try things out with. -/
def Datum.hasType (type : ScalarType) : Datum → Bool
  | .boolean _ => type == .boolean
  | .integer _ => type.isInteger
  | .float _ => type.isFloat
  | .text _ => type.isText || type.isStringEncoded
  | .array _ | .record _ => type == .json

/-- The types of these values. -/
def Datum.typing : Typing Datum.domain where
  IsOf type value := Datum.hasType type value = true
  count _ := rfl

lemma Datum.holds_typing_iff {type : ScalarType} {cell : Cell Datum} :
    Datum.typing.Holds type cell ↔ cell.all (Datum.hasType type) = true := by
  cases cell <;> simp [Typing.Holds, Datum.typing]

/-! ### Unions of columns of the same types -/

open Compile (Origins)

/-- What the columns of a query hold when it starts from the objects of a type. -/
def Compile.Origins.ofSource (catalog : Catalog) (name : String) : Origins :=
  match catalog.type? name with
  | none => []
  | some type => .ofType type

/-- Whether columns have the types that are known of the first ones. -/
def Compile.Origins.Agree (first other : Origins) : Prop :=
  ∀ pair ∈ first.zip other, pair.1.2.type? = none ∨ pair.2.2.type? = pair.1.2.type?

mutual

/-- Whether the queries of a union have columns of the types of those before it. -/
def Operation.TypesAgree (catalog : Catalog) (origins : Origins) : Operation → Prop
  | .union queries => queriesTypesAgree catalog origins queries
  | _ => True

/-- Whether each of the operations unites columns of the same types only. -/
def stepsTypesAgree (catalog : Catalog) (origins : Origins) : List Operation → Prop
  | [] => True
  | step :: rest =>
    step.TypesAgree catalog origins ∧ stepsTypesAgree catalog (origins.after step) rest

/-- Whether the operations of all queries unite columns of the same types only, and leave columns of
the given types. -/
def queriesTypesAgree (catalog : Catalog) (origins : Origins) : List Query → Prop
  | [] => True
  | ⟨source, operations⟩ :: rest =>
    (stepsTypesAgree catalog (.ofSource catalog source.objectType) operations ∧
      origins.Agree ((Origins.ofSource catalog source.objectType).afterAll operations)) ∧
      queriesTypesAgree catalog origins rest

end

namespace Compile

open Sql (Expression Relation RowEnvironment TableAlias)

variable {T : Typing D} {db : Database δ} {around : RowEnvironment δ} {catalog : Catalog}
  {counts last : AliasCounts} {draft base result : Draft} {origins : Origins}

/-! ### The invariant -/

/-- A draft whose columns have different names and are all read off rows in the same way. -/
structure Draft.Tidy (draft : Draft) : Prop where
  apart : draft.Apart
  regular : draft.Regular

lemma start_tidy {name : String} {ids : Option (List Int64)} {tied : Option Tie}
    (hn : catalog.NamesApart name)
    (h : (start catalog name ids tied).run counts = .ok (result, last)) :
    result.layout = .ofType catalog name ∧ result.Tidy :=
  ⟨(start_apart hn h).1, (start_apart hn h).2, start_regular h⟩

lemma operation_tidy {step : Operation} (h : draft.Tidy)
    (ha : step.NamesApart catalog draft.layout)
    (ho : (operation catalog draft step).run counts = .ok (result, last)) : result.Tidy :=
  ⟨operation_apart h.apart ha ho, operation_regular h.regular ho⟩

/-- A column is marked with the type of what it holds. -/
def Marked (column : Column) (origin : Origin) : Prop := column.type = origin.type?

/-- A draft in which a column that is marked with a type has cells of it. -/
structure Typed (T : Typing D) (db : Database δ) (around : RowEnvironment δ) (catalog : Catalog)
    (draft : Draft) (origins : Origins) : Prop where
  marked : Hold Marked draft.columns origins
  cells : ∀ column ∈ draft.columns, ∀ type, column.type = some type → ∀ rows group,
    (column.expression.aggregates = true ∨ rows ∈ draft.environments D db around) →
      T.Holds type (column.expression.eval D db rows group)
  /-- While the table is read, it is the one of the type of the rows. -/
  stored : draft.readsTable = true → ∃ name type handle, draft.type = some name ∧
    catalog.type? name = some type ∧ draft.relation = .table (tableName type) handle

namespace Typed

/-- The cells of a row under the name of a column. -/
lemma cell (h : Typed T db around catalog draft origins) (hd : draft.Tidy) {column : Column}
    (hc : column ∈ draft.columns) {type : ScalarType} (ht : column.type = some type) :
    ∀ row ∈ draft.finish.rows D db around, T.Holds type (row.cell column.name) := by
  intro row hrow
  rw [Draft.rows_finish] at hrow
  obtain ⟨context, hcontext, rfl⟩ := List.mem_map.1 hrow
  have hcell : Record.cell (Draft.record D db draft.columns context) column.name
      = column.expression.eval D db context.row context.group :=
    Record.cell_map hd.apart.nodup_names hc
  rw [hcell]
  exact h.cells column hc type ht _ _ ((hd.regular.row_mem hcontext).imp_left (· column hc))

/-- A draft that reads the columns of another one through the alias of a relation, the rows of
which have cells of the types that the columns are marked with. -/
lemma reading (h : Typed T db around catalog draft origins) {relation : Relation}
    {type : Option String} (hc : ∀ column ∈ draft.columns, ∀ t, column.type = some t →
      ∀ row ∈ relation.rows D db around, T.Holds t (row.cell column.name)) :
    Typed T db around catalog (Draft.reading relation draft.columns type) origins where
  marked := h.marked.map _ fun _ _ => ⟨rfl, fun _ => id⟩
  cells := List.forall_mem_map.2 fun column hcolumn t ht rows group hrows => by
    have hread := hrows.resolve_left (by simp [Column.through, Expression.aggregates])
    obtain ⟨row, hrow, rfl⟩ := List.mem_map.1 hread
    have hcell : (column.through relation.handle).expression.eval D db
        ((relation.handle, row) :: around) group = row.cell column.name := by
      rw [Column.through, Expression.eval, Sql.cell_cons_self]
    rw [Draft.handle, Draft.reading, hcell]
    exact hc column hcolumn t ht row hrow
  stored := by simp [Draft.reading]

lemma wrapped (h : Typed T db around catalog draft origins) (hd : draft.Tidy)
    (handle : TableAlias) : Typed T db around catalog (draft.wrapped handle) origins := by
  have hrows : ∀ column ∈ draft.columns, ∀ t, column.type = some t →
      ∀ row ∈ (Relation.derived draft.finish handle).rows D db around,
        T.Holds t (row.cell column.name) := by
    intro column hc t ht row hrow
    rw [Relation.rows] at hrow
    exact h.cell hd hc ht row hrow
  exact h.reading hrows

lemma wraps {condition : Bool} (h : Typed T db around catalog draft origins) (hd : draft.Tidy)
    (hw : Draft.Wraps counts draft condition base last) :
    Typed T db around catalog base origins := by
  cases hw with
  | kept => exact h
  | wrapped => exact h.wrapped hd _

/-- The clauses of a draft have no part in what its columns hold. -/
lemma withClauses (h : Typed T db around catalog base origins) {condition : Expression}
    {orderBy : List Sql.SortKey} {limit offset : Option UInt32} :
    Typed T db around catalog { base with condition, orderBy, limit, offset } origins where
  marked := h.marked
  cells := h.cells
  stored := h.stored

/-- A reference that is resolved to an expression of some type has cells of it in all rows. -/
lemma resolve (h : Typed T db around catalog draft origins) (hdb : catalog.StoresTyped T db)
    {reference : String} {e : Expression} {type : ScalarType}
    (hr : draft.resolve catalog reference = .ok (e, some type)) :
    ∀ rows ∈ draft.environments D db around, ∀ group, T.Holds type (e.eval D db rows group) := by
  intro rows hrows group
  cases hc : draft.column? (unqualified reference) with
  | some column =>
    simp only [Draft.resolve, hc, pure_eq_ok, Prod.mk.injEq] at hr
    obtain ⟨rfl, ht⟩ := hr
    exact h.cells column (Draft.column?_mem hc) type ht rows group (.inr hrows)
  | none =>
    have hreads : draft.readsTable = true := by
      rcases Draft.resolve_ok hr with ⟨column, hcolumn, -⟩ | ⟨-, hreads, -⟩
      · rw [hc] at hcolumn
        cases hcolumn
      · exact hreads
    obtain ⟨name, found, handle, hname, hfound, hrelation⟩ := h.stored hreads
    obtain ⟨-, entry, hentry, heq⟩ := Draft.resolve_stored hname hfound hc hr
    obtain ⟨rfl, ht⟩ := Prod.mk.inj heq
    obtain rfl := Option.some.inj ht
    obtain ⟨field, hfield, rfl⟩ := Option.map_eq_some_iff.1 hentry
    obtain ⟨row, hrow, rfl⟩ := List.mem_map.1 hrows
    rw [Expression.eval, Sql.cell_cons_self]
    rw [hrelation, Relation.rows] at hrow
    exact hdb name found hfound _ (OrderedMap.get?_eq_some.1 hfield) row hrow

end Typed

/-! ### Operations -/

lemma start_typed (hdb : catalog.StoresTyped T db) {name : String} {ids : Option (List Int64)}
    {tied : Option Tie} (h : (start catalog name ids tied).run counts = .ok (result, last)) :
    Typed T db around catalog result (.ofSource catalog name) := by
  obtain ⟨type, condition, chosen, htype, -, -, rfl⟩ := start_ok h
  refine ⟨?_, List.forall_mem_map.2 fun entry he t ht rows group hrows => ?_,
    fun _ => ⟨name, type, _, rfl, htype, rfl⟩⟩
  · simp only [Origins.ofSource, htype]
    exact hold_ofType fun column field _ _ ht => ht
  · obtain rfl := Option.some.inj ht
    obtain ⟨row, hrow, rfl⟩ := List.mem_map.1 (hrows.resolve_left (by simp [Expression.aggregates]))
    have hcell : (Expression.column (nextAlias counts type.table) entry.2.column).eval D db
        ((nextAlias counts type.table, row) :: around) group = row.cell entry.2.column := by
      rw [Expression.eval, Sql.cell_cons_self]
    simp only [startDraft, Relation.rows] at hrow
    exact hcell ▸ hdb name type htype entry he row hrow

/-- Among columns of the same names, one that agrees with another one is marked with its type. -/
lemma exists_agreeing {columns others : List Column} {first other : Origins}
    (h : Hold Marked columns first) (ho : Hold Marked others other)
    (hn : others.map (·.name) = columns.map (·.name)) (ha : first.Agree other) :
    ∀ column ∈ columns, ∀ t, column.type = some t →
      ∃ found ∈ others, found.name = column.name ∧ found.type = some t := by
  induction h generalizing others other with
  | nil => simp
  | @cons column entry columns rest hentry _ ih =>
    cases ho with
    | nil => cases hn
    | @cons found otherEntry others otherRest hfound hothers =>
      obtain ⟨hname, hnames⟩ := List.cons.inj hn
      obtain ⟨hagree, hagrees⟩ := List.forall_mem_cons.1 ha
      refine List.forall_mem_cons.2 ⟨fun t ht => ?_, fun column hc t ht => ?_⟩
      · refine ⟨found, List.mem_cons_self, hname, ?_⟩
        have htype : entry.2.type? = some t := hentry.2.symm.trans ht
        rw [hfound.2]
        exact (hagree.resolve_left (by simp [htype])).trans htype
      · obtain ⟨same, hm, he⟩ := ih hothers hnames hagrees column hc t ht
        exact ⟨same, List.mem_cons_of_mem _ hm, he⟩

/-- The rows of a union have cells of the types that its first columns are marked with. -/
lemma united_typed {drafts : List Draft} {handle : TableAlias}
    (h : Typed T db around catalog draft origins)
    (hd : draft.Tidy) (hb : ∀ branch ∈ drafts, branch.names = draft.names ∧ branch.Tidy ∧
      ∃ other, Typed T db around catalog branch other ∧ origins.Agree other) :
    Typed T db around catalog (draft.united drafts handle) origins := by
  have hnames : ∀ branch ∈ draft :: drafts, branch.names = draft.names :=
    List.forall_mem_cons.2 ⟨rfl, fun branch hm => (hb branch hm).1⟩
  have hrows : (Relation.union (draft.finish :: drafts.map Draft.finish) handle).rows D db around
        = (draft :: drafts).flatMap fun branch => branch.finish.rows D db around := by
    rw [Relation.rows, Sql.unionNames, draft.names_finish, ← List.map_cons, unionRows_eq hnames]
  refine h.reading fun column hc t ht row hrow => ?_
  rw [hrows] at hrow
  obtain ⟨branch, hbranch, hmem⟩ := List.mem_flatMap.1 hrow
  rcases List.mem_cons.1 hbranch with rfl | hbranch
  · exact h.cell hd hc ht row hmem
  · obtain ⟨hsame, htidy, other, htyped, hagree⟩ := hb branch hbranch
    obtain ⟨found, hfound, hname, hmark⟩ :=
      exists_agreeing h.marked htyped.marked hsame hagree column hc t ht
    exact hname ▸ htyped.cell htidy hfound hmark row hmem

/-- Grouping marks the key with the type of the column it is read off. -/
lemma gathered_typed {key : String} {handle : TableAlias}
    {target : Expression × Option ScalarType} (h : Typed T db around catalog draft origins)
    (hd : draft.Tidy) (ht : (draft.wrapped handle).resolve catalog key = .ok target) :
    Typed T db around catalog (draft.gathered handle target) (origins.after (.groupBy key)) := by
  have hb := h.wrapped hd handle
  -- the wrapped draft reads no table, so the key is one of its columns
  obtain ⟨column, hcolumn, rfl⟩ :=
    (Draft.resolve_ok ht).resolve_right fun hstored => by simp [Draft.wrapped] at hstored
  have hmem : column ∈ (draft.wrapped handle).columns := Draft.column?_mem hcolumn
  have hmarked : column.type = ((origins.find? key).getD .objects).type? := by
    rcases hb.marked.find? key with ⟨hnone, -⟩ | ⟨found, origin, hfound, hentry, hmark⟩
    · exact absurd (hcolumn.symm.trans hnone) (by simp)
    · obtain rfl : column = found := Option.some.inj (hcolumn.symm.trans hfound)
      rw [Origins.find?, hentry]
      exact hmark
  refine ⟨.cons ⟨rfl, hmarked⟩ (.cons ⟨rfl, rfl⟩ .nil), ?_,
    by simp [Draft.gathered, Draft.wrapped]⟩
  refine List.forall_mem_cons.2 ⟨hb.cells column hmem, List.forall_mem_singleton.2 ?_⟩
  intro type ht
  cases ht

mutual

/-- Every operation keeps the marks of columns true. -/
lemma operation_typed (hdb : catalog.StoresTyped T db) (step : Operation) {draft result : Draft}
    {origins : Origins} {counts last : AliasCounts}
    (h : Typed T db around catalog draft origins) (hd : draft.Tidy)
    (ha : step.NamesApart catalog draft.layout) (hu : step.TypesAgree catalog origins)
    (ho : (operation catalog draft step).run counts = .ok (result, last)) :
    Typed T db around catalog result (origins.after step) := by
  cases operation_ok ho with
  | project hc =>
    have hmarked := h.marked.pick hd.apart.labelled (List.forall_mem_nil _) .nil hc
    exact ⟨hmarked, fun column hm => h.cells column (Draft.pick_subset hc hm), h.stored⟩
  | rename hc =>
    refine ⟨h.marked.renameFirst (fun _ _ => id) hc, ?_, h.stored⟩
    obtain ⟨before, column, behind, hcolumns, -, -, rfl⟩ := Column.renameFirst_split hc
    have hcells := h.cells
    rw [hcolumns] at hcells
    obtain ⟨hbefore, hrest⟩ := List.forall_mem_append.1 hcells
    obtain ⟨hcolumn, hbehind⟩ := List.forall_mem_cons.1 hrest
    exact List.forall_mem_append.2 ⟨hbefore, List.forall_mem_cons.2 ⟨hcolumn, hbehind⟩⟩
  | filter hw | take hw | skip hw | orderBy hw => exact (h.wraps hd hw).withClauses
  | count =>
    refine ⟨.cons ⟨rfl, rfl⟩ .nil, ?_, by simp⟩
    refine List.forall_mem_singleton.2 fun type ht rows group _ => ?_
    obtain rfl := Option.some.inj ht
    rw [Column.computed, Expression.eval]
    rintro _ ⟨⟩
    exact T.count group.length
  | nest =>
    exact ⟨.cons ⟨rfl, rfl⟩ .nil, List.forall_mem_singleton.2 nofun, by simp [Draft.wrapped]⟩
  | groupBy ht => exact gathered_typed h hd ht
  | @edge name _ _ _ _ _ column _ _ _ _ hw _ _ _ hcolumn =>
    have hb := h.wraps hd hw
    obtain ⟨hlabel, -⟩ := edgeColumn_label hcolumn
    have hfield : column.field = name := congrArg Label.field hlabel
    -- The column of an edge has no type, so nothing is said of its cells.
    have hmark : column.type = none := by
      rcases edgeColumn_ok hcolumn with ⟨-, -, rfl⟩ | ⟨-, _, -, rfl⟩ <;> rfl
    refine ⟨?_, List.forall_mem_append.2 ⟨fun other hm => ?_,
      List.forall_mem_singleton.2 fun type ht => ?_⟩, hb.stored⟩
    · rw [Draft.attach, hfield]
      exact List.rel_append (hb.marked.filter name) (.cons ⟨hlabel, hmark⟩ .nil)
    · exact hb.cells other (List.mem_of_mem_filter hm)
    · rw [hmark] at ht
      cases ht
  | union hb => exact united_typed h hd (branches_typed hdb _ ha hu hb)

lemma pipeline_typed (hdb : catalog.StoresTyped T db) : ∀ (steps : List Operation)
    {draft result : Draft} {origins : Origins} {counts last : AliasCounts},
    Typed T db around catalog draft origins → draft.Tidy →
    stepsNamesApart catalog draft.layout steps → stepsTypesAgree catalog origins steps →
    (pipeline catalog draft steps).run counts = .ok (result, last) →
    Typed T db around catalog result (origins.afterAll steps) ∧ result.Tidy
  | [], _, _, _, _, _, h, hd, _, _, hp => by
    obtain ⟨rfl, -⟩ := run_pure_eq_ok.1 hp
    exact ⟨h, hd⟩
  | step :: rest, _, _, _, _, _, h, hd, ha, hu, hp => by
    obtain ⟨next, _, ho, hp⟩ := pipeline_cons_ok hp
    obtain ⟨hlayout, -⟩ := operation_layout step hd.apart.labelled ho
    exact pipeline_typed hdb rest (operation_typed hdb step h hd ha.1 hu.1 ho)
      (operation_tidy hd ha.1 ho) (hlayout ▸ ha.2) hu.2 hp

lemma branches_typed (hdb : catalog.StoresTyped T db) : ∀ (queries : List Query)
    {expected : List String} {drafts : List Draft} {origins : Origins}
    {counts last : AliasCounts}, queriesNamesApart catalog queries →
    queriesTypesAgree catalog origins queries →
    (branches catalog expected queries).run counts = .ok (drafts, last) →
    ∀ branch ∈ drafts, branch.names = expected ∧ branch.Tidy ∧ ∃ other,
      Typed T db around catalog branch other ∧ origins.Agree other
  | [], _, _, _, _, _, _, _, hb => by
    obtain ⟨rfl, -⟩ := run_pure_eq_ok.1 hb
    simp
  | ⟨source, operations⟩ :: rest, _, _, _, _, _, ha, hu, hb => by
    obtain ⟨first, _, branch, _, others, hstart, hp, hn, ho, rfl⟩ := branches_cons_ok hb
    obtain ⟨⟨hsource, hsteps⟩, hrest⟩ := ha
    obtain ⟨⟨hagrees, hagree⟩, hagreeRest⟩ := hu
    obtain ⟨hlayout, htidy⟩ := start_tidy hsource hstart
    obtain ⟨hbranch, hbranchTidy⟩ := pipeline_typed hdb operations (start_typed hdb hstart) htidy
      (hlayout ▸ hsteps) hagrees hp
    exact List.forall_mem_cons.2 ⟨⟨hn, hbranchTidy, _, hbranch, hagree⟩,
      branches_typed hdb rest hrest hagreeRest ho⟩

end

/-! ### Literals -/

/-- Literals that suit the type of the cells they are compared with, wherever it is known. -/
def Draft.Suits (T : Typing D) (db : Database δ) (around : RowEnvironment δ) (catalog : Catalog)
    (draft : Draft) (field : String) (values : List Literal) : Prop :=
  ∃ e mark, draft.resolve catalog field = .ok (e, mark) ∧ ∀ type, mark = some type →
    (∀ value ∈ values, (suitable? type value).isSome = true) ∧
    ∀ rows ∈ draft.environments D db around, ∀ group, T.Holds type (e.eval D db rows group)

section Literals

variable {field : String} {type : ScalarType} {value : Literal} {values : List Literal}
  {e : Expression}

lemma Typed.comparison_suits (h : Typed T db around catalog draft origins)
    (hdb : catalog.StoresTyped T db) {operator : ComparisonOperator}
    (hc : comparison catalog draft field operator value = .ok e) (hv : value ≠ .null) :
    draft.Suits T db around catalog field [value] := by
  obtain ⟨⟨left, mark⟩, hr, hcases⟩ := comparison_ok hc
  refine ⟨left, mark, hr, ?_⟩
  rintro type rfl
  obtain ⟨hnull, -⟩ | ⟨-, right, hright, -⟩ := hcases
  · exact absurd hnull hv
  · exact ⟨List.forall_mem_singleton.2 (suitable_of_literal hright), h.resolve hdb hr⟩

lemma Typed.membership_suits (h : Typed T db around catalog draft origins)
    (hdb : catalog.StoresTyped T db) (hm : membership catalog draft field values = .ok e) :
    draft.Suits T db around catalog field values := by
  obtain ⟨⟨left, mark⟩, hr, hcases⟩ := membership_ok hm
  refine ⟨left, mark, hr, ?_⟩
  rintro type rfl
  obtain ⟨rfl, -⟩ | ⟨es, hes, -⟩ := hcases
  · exact ⟨List.forall_mem_nil _, h.resolve hdb hr⟩
  · exact ⟨suitable_of_literals hes, h.resolve hdb hr⟩

end Literals

/-! ### Whole queries -/

/-- At every point of a query, inside of edges and unions too, a column that is marked with a type
has null or values of this type in all rows, and a literal that is accepted for a field suits the
type that its cells have.  The columns have different names up to there, and those that are put
under others by a union have the types that are known of them. -/
theorem cells_of_columns (T : Typing D) (db : Database δ) (around : RowEnvironment δ)
    (catalog : Catalog) (hdb : catalog.StoresTyped T db) (name : String)
    (ids : Option (List Int64)) (tied : Option Tie) (steps : List Operation)
    (hn : catalog.NamesApart name) (ha : stepsNamesApart catalog (.ofType catalog name) steps)
    (hu : stepsTypesAgree catalog (.ofSource catalog name) steps)
    (counts started last : AliasCounts) (first draft : Draft)
    (hs : (start catalog name ids tied).run counts = .ok (first, started))
    (hp : (pipeline catalog first steps).run started = .ok (draft, last)) :
    (∀ column ∈ draft.columns, ∀ type, column.type = some type →
      ∀ row ∈ draft.finish.rows D db around, T.Holds type (row.cell column.name)) ∧
    ∀ condition base opened, (draft.wrapIf condition).run last = .ok (base, opened) →
      (∀ field operator value e, comparison catalog base field operator value = .ok e →
        value ≠ .null → base.Suits T db around catalog field [value]) ∧
      ∀ field values e, membership catalog base field values = .ok e →
        base.Suits T db around catalog field values := by
  obtain ⟨hlayout, htidy⟩ := start_tidy hn hs
  obtain ⟨hdraft, hdraftTidy⟩ :=
    pipeline_typed hdb steps (start_typed hdb hs) htidy (hlayout ▸ ha) hu hp
  refine ⟨fun column hc type ht => hdraft.cell hdraftTidy hc ht,
    fun condition base opened hw => ?_⟩
  have hbase := hdraft.wraps hdraftTidy (Draft.wrapIf_ok hw)
  exact ⟨fun field operator value e hc hv => hbase.comparison_suits hdb hc hv,
    fun field values e hm => hbase.membership_suits hdb hm⟩

/-- A table with one user. -/
def oneUser : Database Datum :=
  tableOf [[("id", some (.integer 1)), ("name", some (.text "a")), ("age", some (.integer 17))]]

lemma storesTyped_oneUser : SocialGraph.catalog.StoresTyped Datum.typing oneUser := by
  intro name type htype
  have hmem : (name, type) ∈ [("Review", SocialGraph.review), ("User", SocialGraph.user)] :=
    Named.mem_of_lookup htype
  simp only [Datum.holds_typing_iff]
  rcases List.mem_pair.1 hmem with h | h <;> cases h <;> decide

/-- Users by their age, one of them added by a union. -/
theorem cells_of_columns_usersByAge :
    ∃ draft last,
      (Compile.draft SocialGraph.catalog (usersByAge.upTo 9)).run [] = .ok (draft, last) ∧
      draft.columns.map (fun column => (column.name, column.type))
        = [("key", some .integer), ("items", none)] ∧
      ∀ column ∈ draft.columns, ∀ type, column.type = some type →
        ∀ row ∈ draft.finish.rows Datum.domain oneUser [],
          Datum.typing.Holds type (row.cell column.name) := by
  have hcompiled : ((Compile.draft SocialGraph.catalog (usersByAge.upTo 9)).run []).toOption.map
      (fun built => built.1.columns.map fun column => (column.name, column.type))
        = some [("key", some .integer), ("items", none)] := by decide +kernel
  have hapart : (usersByAge.upTo 9).NamesApart SocialGraph.catalog :=
    Query.namesApart_iff.2 (by decide +kernel)
  have hagree : stepsTypesAgree SocialGraph.catalog (.ofSource SocialGraph.catalog "User")
      (usersByAge.upTo 9).operations := by
    simp [usersByAge, Query.upTo, stepsTypesAgree, Operation.TypesAgree, queriesTypesAgree]
    unfold Origins.Agree
    decide
  cases hok : (Compile.draft SocialGraph.catalog (usersByAge.upTo 9)).run [] with
  | error e =>
    rw [hok] at hcompiled
    cases hcompiled
  | ok built =>
    rw [hok] at hcompiled
    obtain ⟨draft, last⟩ := built
    obtain ⟨first, started, hs, hp⟩ := draft_ok hok
    exact ⟨draft, last, rfl, Option.some.inj hcompiled,
      (cells_of_columns Datum.typing oneUser [] SocialGraph.catalog storesTyped_oneUser "User" none
        none (usersByAge.upTo 9).operations hapart.1 hapart.2 hagree [] started last first draft
        hs hp).1⟩

/-- Two types with a field of the same name, which holds whole numbers in one of them only. -/
def measures : Catalog :=
  Catalog.empty
    |>.withType "A" (ObjectType.named "A" |>.withField "v" .bigint true)
    |>.withType "B" (ObjectType.named "B" |>.withField "v" .doublePrecision true)

/-- A table with one object of the second type. -/
def oneMeasure : Database Datum := fun table =>
  if table.table = "b" then [[("v", some (.float .zero))]] else []

/-- The column of a union is marked with the type of its first rows, whatever the others hold. -/
theorem cells_of_columns_measures :
    measures.StoresTyped Datum.typing oneMeasure ∧ ∃ draft last,
      (Compile.draft measures
        ⟨{ objectType := "A" }, [.union [.collection "B"]]⟩).run [] = .ok (draft, last) ∧
      ∃ column ∈ draft.columns, column.type = some .bigint ∧
        ∃ row ∈ draft.finish.rows Datum.domain oneMeasure [],
          ¬ Datum.typing.Holds .bigint (row.cell column.name) := by
  refine ⟨?_, _, _, rfl, _, List.mem_cons_self, rfl, _, List.mem_cons_self, ?_⟩
  · intro name type htype
    have hmem : (name, type) ∈ measures.types.entries := Named.mem_of_lookup htype
    simp only [Datum.holds_typing_iff]
    rcases List.mem_pair.1 hmem with h | h <;> cases h <;> decide
  · rw [Datum.holds_typing_iff]
    decide

end Compile
end ObjectGraph
