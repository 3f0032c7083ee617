/-
# SQL and the spelling of the identity

A column that holds the identity answers to `id` and to `:id`, whatever it is called; any other
column answers to its own name alone.  So the two mean the same as long as no column is called one
of them without holding the identity.  This is true of the columns of a type whose identity is
plain, and every operation keeps it but one that gives such a name to something else: an edge or a
list of all rows.
-/
import ObjectGraph.Proofs.Compile.Heads
import ObjectGraph.Proofs.Compile.Mirrors
import ObjectGraph.Proofs.Listing
import ObjectGraph.Proofs.Query.Marks
import Mathlib.Data.List.Find

namespace ObjectGraph

/-- Whether neither an edge nor a list of all rows is stored under a spelling of the identity. -/
def Operation.SparesIdentity : Operation → Prop
  | .nest key | .edge key _ => key ∉ identityMarks
  | _ => True

lemma sparesIdentity_marked (step : Operation) :
    step.marked.SparesIdentity ↔ step.SparesIdentity := by
  cases step <;> exact .rfl

namespace Compile

open Sql (Expression)

variable {catalog : Catalog} {counts last : AliasCounts} {draft result : Draft}

/-! ### Columns -/

/-- Whether a column is not called like the identity, or holds it. -/
def Column.Identifies (column : Column) : Prop :=
  column.field ∈ identityMarks → column.isIdentity = true

/-- Whether all columns that are called like the identity hold it. -/
def Draft.Identifies (draft : Draft) : Prop :=
  ∀ column ∈ draft.columns, column.Identifies

namespace Column

variable {column : Column}

lemma Identifies.answersTo {reference : String} (h : column.Identifies)
    (hr : reference ∈ identityMarks) : column.answersTo reference = column.isIdentity := by
  have hmark : (reference == idKey || reference == identityColumn) = true := by
    rcases List.mem_pair.1 hr with rfl | rfl <;> decide
  rw [Column.answersTo, hmark, Bool.and_true]
  by_cases hfield : column.field = reference
  · rw [h (hfield ▸ hr), Bool.or_true]
  · rw [beq_eq_false_iff_ne.2 hfield, Bool.false_or]

lemma Identifies.same (h : column.Identifies) :
    column.answersTo idKey = column.answersTo "id" := by
  rw [h.answersTo (by decide), h.answersTo (by decide)]

lemma identifies_computed {field : String} (h : field ∉ identityMarks) (e : Expression)
    (type : Option ScalarType) : (computed field e type).Identifies :=
  fun hfield => absurd hfield h

lemma identifies_renamed (column : Column) (new : String) : (column.renamed new).Identifies := by
  intro hnew
  have hnew : new = "id" ∨ new = idKey := List.mem_pair.1 hnew
  rw [renamed, Bool.or_eq_true, beq_iff_eq, beq_iff_eq]
  exact hnew.symm

/-- The first column that a reference means is the same for both spellings. -/
lemma renameFirst_marked (new : String) {columns : List Column}
    (h : ∀ column ∈ columns, column.Identifies) :
    renameFirst idKey new columns = renameFirst "id" new columns := by
  induction columns with
  | nil => rfl
  | cons column rest ih =>
    obtain ⟨hcolumn, hrest⟩ := List.forall_mem_cons.1 h
    rw [renameFirst, renameFirst, hcolumn.same, ih hrest]

end Column

/-! ### Drafts -/

namespace Draft

lemma Identifies.through (h : draft.Identifies) (handle : Sql.TableAlias) :
    ∀ column ∈ draft.columns.map (·.through handle), column.Identifies :=
  List.forall_mem_map.2 fun column hm => h column hm

lemma Identifies.wraps {condition : Bool} (h : draft.Identifies)
    (hw : Wraps counts draft condition result last) : result.Identifies := by
  cases hw with
  | kept => exact h
  | wrapped => exact h.through _

lemma Identifies.column?_eq (h : draft.Identifies) : draft.column? idKey = draft.column? "id" :=
  List.find?_congr fun column hm => (h column hm).same

lemma storedField?_eq (draft : Draft) :
    draft.storedField? catalog idKey = draft.storedField? catalog "id" := by
  have hkey : (if idKey = identityColumn then idKey else idKey)
      = if "id" = identityColumn then idKey else "id" := by decide
  unfold storedField?
  simp only [hkey]

lemma Identifies.resolve_marked (h : draft.Identifies) (reference : String) :
    Mirrors id (draft.resolve catalog reference)
      (draft.resolve catalog (markedReference reference)) := by
  rcases unqualified_markedReference reference with hsame | ⟨hid, hkey⟩
  · simp only [resolve, hsame]
    exact mirrors_same _
  · simp only [resolve, hid, hkey, h.column?_eq, storedField?_eq]
    split
    · exact mirrors_ok _
    · refine (mirrors_same _).bind fun field => ?_
      cases field with
      | none => exact mirrors_error _ _
      | some field => exact mirrors_ok _

end Draft

/-! ### Conditions -/

section Conditions

variable {name other : String}

/-- The name of a field is only needed to say what is wrong. -/
lemma nullCheck_named (operator : ComparisonOperator) (e : Expression) :
    Mirrors id (nullCheck name operator e) (nullCheck other operator e) := by
  cases operator <;> first | exact mirrors_ok _ | exact mirrors_error _ _

lemma checkOperator_named (operator : ComparisonOperator) (type : Option ScalarType) :
    Mirrors id (checkOperator name operator type) (checkOperator other operator type) := by
  cases type with
  | none => exact mirrors_ok _
  | some type =>
    simp only [checkOperator]
    cases type.supports operator with
    | true => exact mirrors_ok _
    | false => exact mirrors_error _ _

lemma literal_named (type : Option ScalarType) (value : Literal) :
    Mirrors id (literal name type value) (literal other type value) := by
  unfold literal
  split
  · exact mirrors_error _ _
  · exact mirrors_ok _
  · split
    · exact mirrors_ok _
    · exact mirrors_error _ _

lemma literals_named (type : Option ScalarType) (values : List Literal) :
    Mirrors id (literals name type values) (literals other type values) := by
  induction values with
  | nil => exact mirrors_ok _
  | cons value rest ih =>
    refine (literal_named type value).bind fun e => ?_
    exact ih.bind fun es => mirrors_ok (e :: es)

namespace Draft.Identifies

lemma comparison_marked (h : draft.Identifies) (field : String) (operator : ComparisonOperator)
    (value : Literal) : Mirrors id (comparison catalog draft field operator value)
      (comparison catalog draft (markedReference field) operator value) := by
  refine (h.resolve_marked field).bind fun target => ?_
  cases value with
  | null => exact nullCheck_named operator target.1
  | boolean | integer | float | string =>
    refine (checkOperator_named operator target.2).bind fun _ => ?_
    exact (literal_named target.2 _).bind fun right => mirrors_ok _

lemma membership_marked (h : draft.Identifies) (field : String) (values : List Literal) :
    Mirrors id (membership catalog draft field values)
      (membership catalog draft (markedReference field) values) := by
  refine (h.resolve_marked field).bind fun target => ?_
  refine (checkOperator_named .equals target.2).bind fun _ => ?_
  cases values with
  | nil => exact mirrors_ok _
  | cons value rest => exact (literals_named target.2 (value :: rest)).bind fun es => mirrors_ok _

mutual

lemma condition_marked (h : draft.Identifies) : ∀ predicate : Predicate,
    Mirrors id (Compile.condition catalog draft predicate)
      (Compile.condition catalog draft predicate.marked)
  | .all parts => by
    simp only [Predicate.marked, Compile.condition]
    exact h.conjunction_marked parts .true
  | .any [] => mirrors_same _
  | .any (part :: rest) => by
    simp only [Predicate.marked, Predicate.markedParts, Compile.condition]
    exact (h.condition_marked part).bind fun e => h.disjunction_marked rest e
  | .negation part => by
    simp only [Predicate.marked, Compile.condition]
    exact (h.condition_marked part).bind fun e => mirrors_ok (Expression.not e)
  | .comparison field operator value => by
    simp only [Predicate.marked, Compile.condition]
    exact h.comparison_marked field operator value
  | .oneOf field values => by
    simp only [Predicate.marked, Compile.condition]
    exact h.membership_marked field values
  | .isNull field => by
    simp only [Predicate.marked, Compile.condition]
    exact (h.resolve_marked field).bind fun target => mirrors_ok (Expression.isNull target.1)

lemma conjunction_marked (h : draft.Identifies) : ∀ (parts : List Predicate) (before : Expression),
    Mirrors id (conjunction catalog draft before parts)
      (conjunction catalog draft before (Predicate.markedParts parts))
  | [], before => mirrors_same _
  | part :: rest, before => by
    simp only [Predicate.markedParts, conjunction]
    exact (h.condition_marked part).bind fun e => h.conjunction_marked rest (before.both e)

lemma disjunction_marked (h : draft.Identifies) : ∀ (parts : List Predicate) (before : Expression),
    Mirrors id (disjunction catalog draft before parts)
      (disjunction catalog draft before (Predicate.markedParts parts))
  | [], before => mirrors_same _
  | part :: rest, before => by
    simp only [Predicate.markedParts, disjunction]
    exact (h.condition_marked part).bind fun e => h.disjunction_marked rest (.or before e)

end

end Draft.Identifies

end Conditions

/-! ### Operations -/

section Operations

variable {base : Draft}

namespace Draft

lemma Identifies.pick_marked (h : draft.Identifies) (fields : List String)
    (picked : List Column) :
    Mirrors id (draft.pick picked fields) (draft.pick picked (fields.map markedReference)) := by
  induction fields generalizing picked with
  | nil => exact mirrors_ok picked
  | cons reference rest ih =>
    have hcolumn : draft.column? (unqualified (markedReference reference))
        = draft.column? (unqualified reference) := by
      rcases unqualified_markedReference reference with hsame | ⟨hid, hkey⟩
      · rw [hsame]
      · rw [hkey, hid, h.column?_eq]
    simp only [List.map_cons, pick, hcolumn]
    split
    · exact mirrors_error _ _
    · split
      · exact ih picked
      · exact ih _

lemma Identifies.rename_marked (h : draft.Identifies) (old new : String) :
    Mirrors id (draft.rename old new) (draft.rename (markedReference old) new) := by
  have hcolumns : Column.renameFirst (unqualified (markedReference old)) (unqualified new)
      draft.columns = Column.renameFirst (unqualified old) (unqualified new) draft.columns := by
    rcases unqualified_markedReference old with hsame | ⟨hid, hkey⟩
    · rw [hsame]
    · rw [hkey, hid, Column.renameFirst_marked _ h]
  simp only [rename, hcolumns]
  split
  · exact mirrors_error _ _
  · exact mirrors_ok _

lemma Identifies.filter_marked (h : draft.Identifies) (predicate : Predicate) :
    BuildMirrors id (draft.filter catalog predicate) (draft.filter catalog predicate.marked) := by
  refine (buildMirrors_same draft.opened).bind_of_ok fun base _ _ hopened => ?_
  have hbase : base.Identifies := h.wraps (opened_ok hopened)
  exact (buildMirrors_lift (hbase.condition_marked predicate)).bind fun e => buildMirrors_same _

lemma Identifies.sortBy_marked (h : draft.Identifies) (key : String) (direction : Direction) :
    BuildMirrors id (draft.sortBy catalog key direction)
      (draft.sortBy catalog (markedReference key) direction) := by
  refine (buildMirrors_same draft.opened).bind_of_ok fun base _ _ hopened => ?_
  have hbase : base.Identifies := h.wraps (opened_ok hopened)
  exact (buildMirrors_lift (hbase.resolve_marked key)).bind fun target => buildMirrors_same _

lemma Identifies.gatherBy_marked (h : draft.Identifies) (key : String) :
    BuildMirrors id (draft.gatherBy catalog key)
      (draft.gatherBy catalog (markedReference key)) := by
  refine (buildMirrors_same draft.wrap).bind_of_ok fun base counts _ hwrap => ?_
  obtain ⟨-, rfl⟩ := wrap_ok hwrap
  have hbase : (draft.wrapped (nextAlias counts "t")).Identifies := h.through _
  exact (buildMirrors_lift (hbase.resolve_marked key)).bind fun target => buildMirrors_same _

lemma Identifies.attach (h : draft.Identifies) {column : Column} (hc : column.Identifies) :
    (draft.attach column).Identifies := by
  intro found hm
  rcases List.mem_append.1 hm with hm | hm
  · exact h found (List.mem_of_mem_filter hm)
  · rw [List.mem_singleton.1 hm]
    exact hc

end Draft

lemma edgeColumn_identifies {name : String} {cardinality : Cardinality} {reached : Draft}
    {column : Column} (hn : name ∉ identityMarks)
    (hcolumn : (edgeColumn name cardinality reached).run counts = .ok (column, last)) :
    column.Identifies := by
  rcases edgeColumn_ok hcolumn with ⟨-, -, rfl⟩ | ⟨-, first, -, rfl⟩
  · exact Column.identifies_computed hn _ _
  · exact Column.identifies_computed hn _ _

/-- What an operation leaves is called like the identity only if it holds it. -/
lemma operation_identifies {step : Operation} (h : draft.Identifies) (hs : step.SparesIdentity)
    (hstep : (operation catalog draft step).run counts = .ok (result, last)) :
    result.Identifies := by
  cases operation_ok hstep with
  | project hpick => exact fun column hm => h column (Draft.pick_subset hpick hm)
  | filter hw | take hw | skip hw | orderBy hw =>
    have hbase := h.wraps hw
    exact hbase
  | count => exact List.forall_mem_singleton.2 (Column.identifies_computed (by decide) _ _)
  | nest => exact List.forall_mem_singleton.2 (Column.identifies_computed hs _ _)
  | rename hcolumns =>
    obtain ⟨before, column, behind, hsplit, -, -, rfl⟩ := Column.renameFirst_split hcolumns
    intro found hm
    have hdraft (other : Column) (ho : other ∈ before ++ column :: behind) : other.Identifies :=
      h other (hsplit ▸ ho)
    rcases List.mem_append.1 hm with hm | hm
    · exact hdraft found (List.mem_append_left _ hm)
    · rcases List.mem_cons.1 hm with rfl | hm
      · exact column.identifies_renamed _
      · exact hdraft found (List.mem_append_right _ (.tail _ hm))
  | groupBy =>
    exact List.forall_mem_cons.2 ⟨Column.identifies_computed (by decide) _ _,
      List.forall_mem_singleton.2 (Column.identifies_computed (by decide) _ _)⟩
  | edge hw _ _ _ hcolumn => exact (h.wraps hw).attach (edgeColumn_identifies hs hcolumn)
  | union => exact h.through _

/-- The columns of a type whose identity is plain. -/
lemma start_identifies {name : String} {ids : Option (List Int64)} {tied : Option Tie}
    (hplain : ∀ type, catalog.type? name = some type → type.PlainIdentity)
    (hstart : (start catalog name ids tied).run counts = .ok (result, last)) :
    result.Identifies := by
  obtain ⟨type, _, _, htype, -, -, rfl⟩ := start_ok hstart
  obtain ⟨hid, hmarked⟩ := hplain type htype
  refine List.forall_mem_map.2 fun entry hm hfield => ?_
  rcases List.mem_pair.1 hfield with hname | hname
  · exact beq_iff_eq.2 (hname.trans hid.symm)
  · exact absurd (List.mem_map.2 ⟨entry, hm, hname⟩) hmarked

end Operations

/-! ### Whole queries -/

section Queries

mutual

lemma operation_marked
    (hplain : ∀ name type, catalog.type? name = some type → type.PlainIdentity) :
    ∀ (step : Operation) {draft : Draft}, draft.Identifies →
      step.Throughout Operation.SparesIdentity →
      BuildMirrors id (operation catalog draft step) (operation catalog draft step.marked)
  | .project fields, draft, h, _ => by
    simp only [Operation.marked, operation]
    exact buildMirrors_lift ((h.pick_marked fields []).bind fun columns => mirrors_ok _)
  | .filter predicate, draft, h, _ => by
    simp only [Operation.marked, operation]
    exact h.filter_marked predicate
  | .rename old new, draft, h, _ => by
    simp only [Operation.marked, operation]
    exact buildMirrors_lift (h.rename_marked old new)
  | .orderBy key direction, draft, h, _ => by
    simp only [Operation.marked, operation]
    exact h.sortBy_marked key direction
  | .groupBy key, draft, h, _ => by
    simp only [Operation.marked, operation]
    exact h.gatherBy_marked key
  | .edge name inner, draft, _, hs => by
    simp only [Operation.marked, operation]
    refine (buildMirrors_same _).bind fun base => ?_
    refine (buildMirrors_same _).bind fun ⟨edge, t⟩ => ?_
    refine (buildMirrors_same _).bind_of_ok fun first _ _ hstart => ?_
    have hfirst := start_identifies (hplain edge.target) hstart
    refine (pipeline_marked hplain inner hfirst hs.2).bind fun reached => ?_
    exact buildMirrors_same _
  | .union queries, draft, _, hs => by
    simp only [Operation.marked, operation]
    exact (branches_marked hplain queries hs.2 draft.names).bind fun drafts => buildMirrors_same _
  | .take n, draft, _, _ | .skip n, draft, _, _ | .count, draft, _, _ | .nest key, draft, _, _ =>
    buildMirrors_same _

lemma pipeline_marked
    (hplain : ∀ name type, catalog.type? name = some type → type.PlainIdentity) :
    ∀ (steps : List Operation) {draft : Draft}, draft.Identifies →
      Operation.stepsThroughout Operation.SparesIdentity steps →
      BuildMirrors id (pipeline catalog draft steps)
        (pipeline catalog draft (Operation.markedSteps steps))
  | [], draft, _, _ => buildMirrors_same _
  | step :: rest, draft, h, hs => by
    simp only [Operation.markedSteps, pipeline]
    refine (operation_marked hplain step h hs.1).bind_of_ok fun next _ _ hnext => ?_
    exact pipeline_marked hplain rest (operation_identifies h hs.1.here hnext) hs.2

lemma branches_marked
    (hplain : ∀ name type, catalog.type? name = some type → type.PlainIdentity) :
    ∀ queries : List Query, Operation.branchesThroughout Operation.SparesIdentity queries →
      ∀ expected : List String, BuildMirrors id (branches catalog expected queries)
        (branches catalog expected (Operation.markedBranches queries))
  | [], _, _ => buildMirrors_same _
  | ⟨source, operations⟩ :: rest, hs, expected => by
    simp only [Operation.markedBranches, branches]
    refine (buildMirrors_same _).bind_of_ok fun first _ _ hstart => ?_
    have hfirst := start_identifies (hplain source.objectType) hstart
    refine (pipeline_marked hplain operations hfirst hs.1).bind fun branch => ?_
    simp only [id]
    split
    · exact (branches_marked hplain rest hs.2 expected).bind fun others => buildMirrors_same _
    · exact buildMirrors_throw _ _

end

/-- A query and its marked form are refused together, or have the same plan. -/
lemma plan_marked
    (hplain : ∀ name type, catalog.type? name = some type → type.PlainIdentity) {query : Query}
    (hs : query.Throughout Operation.SparesIdentity) :
    (plan catalog query.marked).toOption = (plan catalog query).toOption := by
  have hdraft : BuildMirrors id (draft catalog query) (draft catalog query.marked) := by
    refine (buildMirrors_same _).bind_of_ok fun first _ _ hstart => ?_
    exact pipeline_marked hplain query.operations
      (start_identifies (hplain query.source.objectType) hstart) hs
  have hbuild : BuildMirrors id
      (draft catalog query >>= fun rows =>
        freshAlias "universe" >>= fun handle => pure (asArray rows.finish handle))
      (draft catalog query.marked >>= fun rows =>
        freshAlias "universe" >>= fun handle => pure (asArray rows.finish handle)) :=
    hdraft.bind fun rows => buildMirrors_same _
  have hselect : Mirrors id _ _ := (hbuild []).map (u := Prod.fst) (v := Prod.fst) fun _ => rfl
  have hplan : Mirrors id (plan catalog query) (plan catalog query.marked) :=
    hselect.map fun _ => rfl
  exact hplan.trans (congrFun Option.map_id _)

end Queries

end Compile
end ObjectGraph
