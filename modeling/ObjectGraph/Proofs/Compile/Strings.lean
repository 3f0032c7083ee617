/-
# Strings never become code

Changing every string a query compares with changes the parameters of the statement it is
compiled to, and nothing else.  Two queries that differ only in their strings are compiled side by
side: they fail together, and at every point the draft of the second is the draft of the first
with the strings changed.
-/
import ObjectGraph.Proofs.Compile.Mirrors
import ObjectGraph.Proofs.Compile.Words

namespace ObjectGraph.Compile

open Sql (Expression Relation Select TableAlias)

/-! ### Operations on a single draft -/

namespace Draft

variable {f} {catalog : Catalog} (draft : Draft)

lemma pick_mirrors (fields : List String) (picked : List Column) :
    Mirrors (List.map (Column.mapStrings f)) (draft.pick picked fields)
      ((draft.mapStrings f).pick (picked.map (Column.mapStrings f)) fields) := by
  induction fields generalizing picked with
  | nil => exact mirrors_ok _
  | cons reference rest ih =>
    simp only [pick, column?_mapStrings]
    cases draft.column? (unqualified reference) with
    | none => exact mirrors_error _ _
    | some column =>
      have hany : (picked.map (Column.mapStrings f)).any (·.name == (column.mapStrings f).name)
          = picked.any (·.name == column.name) := by
        rw [List.any_map]
        rfl
      simp only [Option.map_some, hany]
      split
      · exact ih picked
      · have h := ih (picked ++ [column])
        rw [List.map_append] at h
        exact h

lemma project_mirrors (fields : List String) :
    Mirrors (mapStrings f) (draft.project fields) ((draft.mapStrings f).project fields) :=
  (draft.pick_mirrors fields []).bind fun columns => mirrors_ok { draft with columns }

lemma filter_mirrors (predicate : Predicate) :
    BuildMirrors (mapStrings f) (draft.filter catalog predicate)
      ((draft.mapStrings f).filter catalog (predicate.mapStrings f)) := by
  refine draft.opened_mirrors.bind fun base => ?_
  refine (buildMirrors_lift (condition_mirrors base predicate)).bind fun e => ?_
  have h := buildMirrors_pure (g := mapStrings f) { base with condition := base.condition.both e }
  simp only [mapStrings, both_mapStrings] at h
  exact h

lemma take_mirrors (n : UInt32) :
    BuildMirrors (mapStrings f) (draft.take n) ((draft.mapStrings f).take n) :=
  draft.unlimited_mirrors.bind fun base => buildMirrors_pure { base with limit := some n }

lemma skip_mirrors (n : UInt32) :
    BuildMirrors (mapStrings f) (draft.skip n) ((draft.mapStrings f).skip n) :=
  draft.unlimited_mirrors.bind fun base =>
    buildMirrors_pure { base with offset := some (saturatingAdd (base.offset.getD 0) n) }

lemma count_mirrors : BuildMirrors (mapStrings f) draft.count (draft.mapStrings f).count :=
  draft.opened_mirrors.bind fun base =>
    buildMirrors_pure { base with
      columns := [.computed "count" .countRows (some .bigint)]
      orderBy := []
      type := none
      readsTable := false
      isSealed := true }

lemma nest_mirrors (key : String) :
    BuildMirrors (mapStrings f) (draft.nest key) ((draft.mapStrings f).nest key) := by
  refine draft.wrap_mirrors.bind fun base => ?_
  have h := buildMirrors_pure (g := mapStrings f) { base with
    columns := [.computed key (.jsonArray base.handle)]
    type := none
    isSealed := true }
  have hhandle : (base.mapStrings f).handle = base.handle := handle_mapStrings f base.relation
  rw [hhandle]
  exact h

lemma renameFirst_mapStrings (old new : String) (columns : List Column) :
    Column.renameFirst old new (columns.map (Column.mapStrings f))
      = (Column.renameFirst old new columns).map (List.map (Column.mapStrings f)) := by
  induction columns with
  | nil => rfl
  | cons column rest ih =>
    have hanswers : (column.mapStrings f).answersTo old = column.answersTo old := rfl
    simp only [List.map_cons, Column.renameFirst, ih, hanswers]
    split
    · rfl
    · rw [Option.map_map, Option.map_map]
      rfl

lemma rename_mirrors (old new : String) :
    Mirrors (mapStrings f) (draft.rename old new) ((draft.mapStrings f).rename old new) := by
  have hcolumns : (draft.mapStrings f).columns = draft.columns.map (Column.mapStrings f) := rfl
  simp only [rename, hcolumns, renameFirst_mapStrings]
  cases Column.renameFirst (unqualified old) (unqualified new) draft.columns with
  | none => exact mirrors_error _ _
  | some columns => exact mirrors_ok { draft with columns, isSealed := true }

lemma sortBy_mirrors (key : String) (direction : Direction) :
    BuildMirrors (mapStrings f) (draft.sortBy catalog key direction)
      ((draft.mapStrings f).sortBy catalog key direction) := by
  refine draft.opened_mirrors.bind fun base => ?_
  exact (buildMirrors_lift (base.resolve_mirrors key)).bind fun target =>
    buildMirrors_pure { base with orderBy := ⟨target.1, direction⟩ :: base.orderBy }

lemma gatherBy_mirrors (key : String) :
    BuildMirrors (mapStrings f) (draft.gatherBy catalog key)
      ((draft.mapStrings f).gatherBy catalog key) := by
  refine draft.wrap_mirrors.bind fun base => ?_
  refine (buildMirrors_lift (base.resolve_mirrors key)).bind fun ⟨target, type⟩ => ?_
  have h := buildMirrors_pure (g := mapStrings f) { base with
    columns := [.computed "key" target type, .computed "items" (.jsonRows base.handle)]
    groupBy := [target]
    orderBy := [⟨target, .ascending⟩]
    type := none
    isSealed := true }
  have hhandle : (base.mapStrings f).handle = base.handle := handle_mapStrings f base.relation
  rw [hhandle]
  exact h

lemma attach_mapStrings (column : Column) :
    (draft.attach column).mapStrings f = (draft.mapStrings f).attach (column.mapStrings f) := by
  simp only [attach, mapStrings, List.map_append, List.map_cons, List.map_nil, List.filter_map]
  rfl

lemma union_mirrors (branches : List Draft) :
    BuildMirrors (mapStrings f) (draft.union branches)
      ((draft.mapStrings f).union (branches.map (mapStrings f))) := by
  refine (buildMirrors_same (freshAlias "t")).bind fun handle => ?_
  have h := buildMirrors_pure (g := mapStrings f) {
    relation := .union (draft.finish :: branches.map finish) handle
    columns := draft.columns.map (·.through handle)
    type := if branches.all (·.type == draft.type) then draft.type else none }
  have htypes : (branches.map (mapStrings f)).all (·.type == (draft.mapStrings f).type)
      = branches.all (·.type == draft.type) := by
    rw [List.all_map]
    rfl
  have hselects : (branches.map (mapStrings f)).map finish
      = (branches.map finish).map (Select.mapStrings f) := by
    simp only [List.map_map, Function.comp_def, finish_mapStrings]
  have hcolumns : (draft.mapStrings f).columns.map (·.through handle)
      = (draft.columns.map (·.through handle)).map (Column.mapStrings f) := by
    simp only [mapStrings, List.map_map]
    rfl
  simp only [mapStrings, Relation.mapStrings, Sql.mapStringsSelects_eq, List.map_cons,
    List.map_nil] at h
  simp only [id, htypes, hselects, hcolumns, finish_mapStrings]
  exact h

end Draft

/-! ### Where rows come from -/

section Sources

variable {f} {catalog : Catalog} (draft : Draft)

lemma tieColumns_mirrors (entries : List (String × String)) :
    Mirrors (List.map fun pair => (pair.1, pair.2.mapStrings f))
      (tieColumns catalog draft entries) (tieColumns catalog (draft.mapStrings f) entries) := by
  induction entries with
  | nil => exact mirrors_ok _
  | cons entry rest ih =>
    obtain ⟨source, target⟩ := entry
    refine (draft.resolve_mirrors source).bind fun found => ?_
    exact ih.bind fun pairs => mirrors_ok ((target, found.1) :: pairs)

lemma tie_mirrors (join : Join) :
    Mirrors (Tie.mapStrings f) (tie catalog draft join)
      (tie catalog (draft.mapStrings f) join) := by
  cases join with
  | columns mapping =>
    exact (tieColumns_mirrors draft mapping.entries).bind fun pairs =>
      mirrors_ok (Tie.columns pairs)
  | through schema table source target =>
    exact (draft.resolve_mirrors idKey).bind fun found =>
      mirrors_ok (Tie.through ⟨schema, table⟩ source target found.1)

lemma storedColumn_mirrors (name : String) (type : ObjectType) (table : TableAlias)
    (field : String) :
    Mirrors (Expression.mapStrings f) (storedColumn name type table field)
      (storedColumn name type table field) := by
  unfold storedColumn
  cases type.lookupField field with
  | none => exact mirrors_error _ _
  | some found => exact mirrors_ok (Expression.column table found.2.column)

lemma tieCondition_mirrors (name : String) (type : ObjectType) (table : TableAlias)
    (pairs : List (String × Expression)) (before : Expression) :
    Mirrors (Expression.mapStrings f) (tieCondition name type table before pairs)
      (tieCondition name type table (before.mapStrings f)
        (pairs.map fun pair => (pair.1, pair.2.mapStrings f))) := by
  induction pairs generalizing before with
  | nil => exact mirrors_ok before
  | cons pair rest ih =>
    obtain ⟨field, e⟩ := pair
    refine (storedColumn_mirrors (f := f) name type table field).bind fun column => ?_
    have h := ih (before.both (.equal column e))
    rw [both_mapStrings] at h
    exact h

lemma tie_condition_mirrors (name : String) (type : ObjectType) (table : TableAlias) (t : Tie) :
    BuildMirrors (Expression.mapStrings f) (t.condition name type table)
      ((t.mapStrings f).condition name type table) := by
  cases t with
  | columns pairs => exact buildMirrors_lift (tieCondition_mirrors name type table pairs .true)
  | through pairs source target row =>
    refine (buildMirrors_same (freshAlias pairs.table)).bind fun handle => ?_
    have hidentity := storedColumn_mirrors (f := f) name type table idKey
    refine (buildMirrors_lift hidentity).bind fun identity => ?_
    have h := buildMirrors_pure (g := Expression.mapStrings f)
      (.exists { Select.simple .one (.table pairs handle) with
        condition := Expression.both (.equal (.column handle target) identity)
          (.equal (.column handle source) row) })
    simp only [Expression.mapStrings, Select.mapStrings, both_mapStrings] at h
    exact h

lemma identityCondition_mirrors (name : String) (type : ObjectType) (table : TableAlias)
    (ids : List Int64) :
    Mirrors (Expression.mapStrings f) (identityCondition name type table ids)
      (identityCondition name type table ids) := by
  cases ids with
  | nil => exact mirrors_ok Expression.false
  | cons id rest =>
    refine (mirrors_same (type.requireIdentity name)).bind fun identity => ?_
    have h := mirrors_ok (ε := CompileError) (g := Expression.mapStrings f)
      (.isIn (.column table identity.column)
        ((id :: rest).map fun id => .value (.integer id)))
    simp only [Expression.mapStrings, Sql.mapStringsList_eq, List.map_map] at h
    exact h

lemma ofType_mapStrings (type : ObjectType) (table : TableAlias) :
    (Column.ofType type table).map (Column.mapStrings f) = Column.ofType type table := by
  simp only [Column.ofType, List.map_map]
  rfl

lemma start_mirrors (name : String) (ids : Option (List Int64)) (t : Option Tie) :
    BuildMirrors (Draft.mapStrings f) (start catalog name ids t)
      (start catalog name ids (t.map (Tie.mapStrings f))) := by
  unfold start
  refine (buildMirrors_lift (mirrors_same (catalog.requireType name))).bind fun type => ?_
  refine (buildMirrors_same (freshAlias type.table)).bind fun handle => ?_
  have htied : BuildMirrors (Expression.mapStrings f) (tiedCondition name type handle t)
      (tiedCondition name type handle (t.map (Tie.mapStrings f))) := by
    cases t with
    | none => exact buildMirrors_pure Expression.true
    | some t => exact tie_condition_mirrors name type handle t
  have hfrom (tied : Expression) : BuildMirrors (Draft.mapStrings f)
      (liftM (sourceCondition name type handle ids) >>= fun identified =>
        pure (startDraft name type handle (tied.both identified)))
      (liftM (sourceCondition name type handle ids) >>= fun identified =>
        pure (startDraft name type handle ((tied.mapStrings f).both identified))) := by
    have hids : Mirrors (Expression.mapStrings f) (sourceCondition name type handle ids)
        (sourceCondition name type handle ids) := by
      cases ids with
      | none => exact mirrors_ok Expression.true
      | some ids => exact identityCondition_mirrors name type handle ids
    refine (buildMirrors_lift hids).bind fun identified => ?_
    have h := buildMirrors_pure (g := Draft.mapStrings f)
      (startDraft name type handle (tied.both identified))
    simp only [Draft.mapStrings, startDraft, Relation.mapStrings, both_mapStrings,
      ofType_mapStrings] at h
    exact h
  have h := BuildMirrors.bind (v := fun tied => liftM (sourceCondition name type handle ids) >>=
    fun identified => pure (startDraft name type handle (tied.both identified))) htied hfrom
  cases t <;> cases ids <;> exact h

lemma follow_mirrors (edge : String) :
    Mirrors (Prod.map id (Tie.mapStrings f)) (follow catalog draft edge)
      (follow catalog (draft.mapStrings f) edge) := by
  have htype : (draft.mapStrings f).type = draft.type := rfl
  simp only [follow, htype]
  cases draft.type with
  | none => exact mirrors_error _ _
  | some type =>
    refine (mirrors_same (catalog.requireEdge type edge)).bind fun found => ?_
    exact (tie_mirrors draft found.1.join).bind fun t => mirrors_ok (found.1, t)

lemma valueColumn_mapStrings (name : String) (value : Expression) (handle : TableAlias) :
    (valueColumn name value draft handle).mapStrings f
      = valueColumn name (value.mapStrings f) (draft.mapStrings f) handle := by
  simp only [valueColumn, Draft.finish_mapStrings]
  rfl

lemma edgeColumn_mirrors (name : String) (cardinality : Cardinality) :
    BuildMirrors (Column.mapStrings f) (edgeColumn name cardinality draft)
      (edgeColumn name cardinality (draft.mapStrings f)) := by
  refine (buildMirrors_same (freshAlias name)).bind fun handle => ?_
  cases cardinality with
  | many =>
    have h := buildMirrors_pure (g := Column.mapStrings f)
      (valueColumn name (.jsonArray handle) draft handle)
    rw [valueColumn_mapStrings] at h
    exact h
  | one =>
    have hfirst (first : Draft) : BuildMirrors (Column.mapStrings f)
        (pure (valueColumn name (.rowToJson handle) first handle))
        (pure (valueColumn name (.rowToJson handle) (first.mapStrings f) handle)) := by
      have h := buildMirrors_pure (g := Column.mapStrings f)
        (valueColumn name (.rowToJson handle) first handle)
      rw [valueColumn_mapStrings] at h
      exact h
    exact (draft.take_mirrors 1).bind hfirst

end Sources

/-! ### Whole queries -/

section Queries

variable {f} {catalog : Catalog}

mutual

lemma operation_mirrors : ∀ (step : Operation) (draft : Draft),
    BuildMirrors (Draft.mapStrings f) (operation catalog draft step)
      (operation catalog (draft.mapStrings f) (step.mapStrings f))
  | .project fields, draft => by
    simp only [Operation.mapStrings, operation]
    exact buildMirrors_lift (draft.project_mirrors fields)
  | .filter predicate, draft => by
    simp only [Operation.mapStrings, operation]
    exact draft.filter_mirrors predicate
  | .take n, draft => by
    simp only [Operation.mapStrings, operation]
    exact draft.take_mirrors n
  | .skip n, draft => by
    simp only [Operation.mapStrings, operation]
    exact draft.skip_mirrors n
  | .count, draft => by
    simp only [Operation.mapStrings, operation]
    exact draft.count_mirrors
  | .nest key, draft => by
    simp only [Operation.mapStrings, operation]
    exact draft.nest_mirrors key
  | .rename old new, draft => by
    simp only [Operation.mapStrings, operation]
    exact buildMirrors_lift (draft.rename_mirrors old new)
  | .orderBy key direction, draft => by
    simp only [Operation.mapStrings, operation]
    exact draft.sortBy_mirrors key direction
  | .groupBy key, draft => by
    simp only [Operation.mapStrings, operation]
    exact draft.gatherBy_mirrors key
  | .edge name inner, draft => by
    simp only [Operation.mapStrings, operation]
    refine (draft.wrapIf_mirrors draft.isSealed).bind fun base => ?_
    refine (buildMirrors_lift (follow_mirrors base name)).bind fun ⟨edge, t⟩ => ?_
    refine (start_mirrors edge.target none (some t)).bind fun first => ?_
    refine (pipeline_mirrors inner first).bind fun reached => ?_
    refine (edgeColumn_mirrors reached name edge.cardinality).bind fun column => ?_
    rw [← Draft.attach_mapStrings]
    exact buildMirrors_pure (base.attach column)
  | .union queries, draft => by
    simp only [Operation.mapStrings, operation, Draft.names_mapStrings]
    exact (branches_mirrors queries draft.names).bind fun drafts => draft.union_mirrors drafts

lemma pipeline_mirrors : ∀ (steps : List Operation) (draft : Draft),
    BuildMirrors (Draft.mapStrings f) (pipeline catalog draft steps)
      (pipeline catalog (draft.mapStrings f) (Operation.mapStringsSteps f steps))
  | [], draft => by
    simp only [Operation.mapStringsSteps, pipeline]
    exact buildMirrors_pure draft
  | step :: rest, draft => by
    simp only [Operation.mapStringsSteps, pipeline]
    exact (operation_mirrors step draft).bind fun next => pipeline_mirrors rest next

lemma branches_mirrors : ∀ (queries : List Query) (expected : List String),
    BuildMirrors (List.map (Draft.mapStrings f)) (branches catalog expected queries)
      (branches catalog expected (Operation.mapStringsBranches f queries))
  | [], expected => by
    simp only [Operation.mapStringsBranches, branches]
    exact buildMirrors_pure []
  | ⟨source, operations⟩ :: rest, expected => by
    simp only [Operation.mapStringsBranches, branches]
    refine (start_mirrors (f := f) source.objectType source.ids none).bind fun first => ?_
    refine (pipeline_mirrors operations first).bind fun branch => ?_
    simp only [Draft.names_mapStrings]
    split
    · refine (branches_mirrors rest expected).bind fun others => ?_
      exact buildMirrors_pure (branch :: others)
    · exact buildMirrors_throw _ _

end

lemma draft_mirrors (query : Query) :
    BuildMirrors (Draft.mapStrings f) (draft catalog query)
      (draft catalog (query.mapStrings f)) :=
  (start_mirrors query.source.objectType query.source.ids none).bind fun first =>
    pipeline_mirrors query.operations first

lemma plan_mirrors (query : Query) :
    Mirrors (fun p : Plan => ⟨p.root, p.select.mapStrings f⟩) (plan catalog query)
      (plan catalog (query.mapStrings f)) := by
  have hbuild : BuildMirrors (Select.mapStrings f)
      (draft catalog query >>= fun rows =>
        freshAlias "universe" >>= fun handle => pure (asArray rows.finish handle))
      (draft catalog (query.mapStrings f) >>= fun rows =>
        freshAlias "universe" >>= fun handle => pure (asArray rows.finish handle)) := by
    refine (draft_mirrors query).bind fun rows => ?_
    refine (buildMirrors_same (freshAlias "universe")).bind fun handle => ?_
    rw [rows.finish_mapStrings]
    exact buildMirrors_pure (asArray rows.finish handle)
  have hselect : Mirrors (Select.mapStrings f) _ _ :=
    (hbuild []).map (u := Prod.fst) (v := Prod.fst) fun _ => rfl
  exact hselect.map fun _ => rfl

end Queries

/-- Strings never become code.  Whether a query is compiled does not depend on the strings in its
predicates, nor does the text of its statement; the strings are parameters, one for each
placeholder, and change as those of the query do. -/
theorem plan_mapStrings (catalog : Catalog) (query : Query) (f : String → String) :
    ((plan catalog (query.mapStrings f)).isOk = (plan catalog query).isOk) ∧
      ∀ p q, plan catalog query = .ok p → plan catalog (query.mapStrings f) = .ok q →
        q.select.statement.text = p.select.statement.text ∧
        q.select.statement.parameters = p.select.statement.parameters.map f ∧
        Sql.placeholders (Sql.readText p.select.statement.text)
          = (List.range' 1 p.select.statement.parameters.length).map toString := by
  have h : Mirrors (fun p : Plan => ⟨p.root, p.select.mapStrings f⟩) (plan catalog query)
      (plan catalog (query.mapStrings f)) := plan_mirrors query
  refine ⟨?_, fun p q hp hq => ?_⟩
  · unfold Mirrors at h
    cases hp : plan catalog query <;> cases hq : plan catalog (query.mapStrings f) <;>
      simp_all [Except.toOption, Except.isOk, Except.toBool]
  · have hqp : q = ⟨p.root, p.select.mapStrings f⟩ := by
      simpa [Mirrors, hp, hq, Except.toOption] using h
    obtain ⟨htext, hparameters⟩ := Sql.statement_mapStrings f p.select
    have hwords : Sql.AllLack Sql.marks p.select.words := fun text hm =>
      (plan_worded hp text hm).unmarked
    subst hqp
    exact ⟨htext, hparameters, Sql.placeholders_statement hwords⟩

end ObjectGraph.Compile
