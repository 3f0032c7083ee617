/-
# Names in scope

The clauses of a part use variables of its path, and may sort by the names that its columns are
given.  The variables are never lost, as hops only come to the end of a path.  But a key that is
sorted by a name stays when an operation behind it takes the name from the columns: a projection
and a hop take all names, and renaming a column takes the one it had.  Only an aggregation replaces
the keys together with the columns.

The invariant of a draft is that every name it is sorted by is still given to a column or one of
the names that have been lost since the keys were replaced for the last time.
-/
import ObjectGraph.Proofs.Cypher.Walks

namespace ObjectGraph.Cypher

variable {naming : String → String} {catalog : Catalog} {draft result : Draft}
  {operation : Operation} {query : Query} {lost : List String}

/-! ### Scope -/

/-- The name of a column that rows are sorted by. -/
def SortTarget.name? : SortTarget → Option String
  | property _ => none
  | named name => some name

namespace Part

/-- The variables that the conditions and the columns of a part use. -/
def used (part : Part) : List String :=
  (part.conditions.flatMap Compile.TextCondition.subjects).map Property.node ++
    match part.returns with
    | none => [part.path.last.name]
    | some items => items.flatMap fun item =>
      item.value.properties.map Property.node ++ item.value.collected?.toList

/-- The names that the columns of a part are given. -/
def aliases (part : Part) : List String :=
  part.columns.filterMap ReturnItem.givenName

/-- The names that a part is sorted by. -/
def sortNames (part : Part) : List String :=
  part.orderBy.filterMap (·.target.name?)

end Part

/-- Whether a key is a property of a node of the path or the name of a column. -/
def SortKey.InScope (part : Part) (key : SortKey) : Prop :=
  match key.target with
  | .property property => property.node ∈ part.path.variables
  | .named name => name ∈ part.aliases

instance (part : Part) (key : SortKey) : Decidable (key.InScope part) :=
  match h : key.target with
  | .property property =>
    decidable_of_iff (property.node ∈ part.path.variables) (by rw [SortKey.InScope, h])
  | .named name => decidable_of_iff (name ∈ part.aliases) (by rw [SortKey.InScope, h])

/-! ### Names that are lost -/

/-- Whether a step replaces the keys together with the columns. -/
def Step.aggregates : Step → Bool
  | .operation operation => operation.isAggregation
  | .hop _ => false

/-- The names a draft is sorted by that a step takes from the columns. -/
def Draft.taken (draft : Draft) : Step → List String
  | .operation (.project _) | .hop _ => draft.part.sortNames
  | .operation (.rename old new) =>
    draft.part.sortNames.filter fun name => name = unqualified old ∧ name ≠ unqualified new
  | .operation _ => []

/-! ### What is known of a draft -/

/-- Whether the names that columns are given are those they are called by. -/
def Labelled (items : List ReturnItem) : Prop :=
  ∀ item ∈ items, ∀ given ∈ item.givenName, given = item.name

/-- Whether the names a draft is sorted by are given to columns or have been lost. -/
structure Draft.Scoped (lost : List String) (draft : Draft) : Prop where
  labelled : Labelled draft.part.columns
  sorted : ∀ name ∈ draft.part.sortNames, name ∈ draft.part.aliases ∨ name ∈ lost

lemma mem_aliases_of_hasGivenName {name : String} (hl : Labelled draft.part.columns)
    (h : draft.hasGivenName name = true) : name ∈ draft.part.aliases := by
  obtain ⟨item, hitem, hgiven⟩ := List.any_eq_true.1 h
  rw [Bool.and_eq_true, beq_iff_eq, Option.isSome_iff_exists] at hgiven
  obtain ⟨rfl, given, hgiven⟩ := hgiven
  refine List.mem_filterMap.2 ⟨item, hitem, ?_⟩
  rw [hgiven, hl item hitem given hgiven]

lemma unnamed_propertyItems {references : List String} {items : List ReturnItem}
    (h : draft.propertyItems catalog references = .ok items) :
    Labelled items ∧ items.filterMap ReturnItem.givenName = [] := by
  have hnone : ∀ item ∈ items, item.givenName = none := fun item hitem =>
    (mem_propertyItems h item hitem).1
  refine ⟨fun item hitem given hgiven => ?_, List.filterMap_eq_nil_iff.2 hnone⟩
  rw [hnone item hitem] at hgiven
  cases hgiven

/-- Renaming a column gives the new name, and takes none but the old one. -/
lemma labelled_renameItem {old new : String} {items renamed : List ReturnItem}
    (hl : Labelled items) (h : Draft.renameItem old new items = some renamed) :
    Labelled renamed ∧ new ∈ renamed.filterMap ReturnItem.givenName ∧
      ∀ name ∈ items.filterMap ReturnItem.givenName, name ≠ old →
        name ∈ renamed.filterMap ReturnItem.givenName := by
  induction items generalizing renamed with
  | nil => cases h
  | cons item rest ih =>
    obtain ⟨hitem, hrest⟩ := List.forall_mem_cons.1 hl
    rw [Draft.renameItem] at h
    split at h
    · rename_i hold
      obtain rfl := Option.some.inj h
      refine ⟨List.forall_mem_cons.2 ⟨?_, hrest⟩, List.mem_cons_self, fun name hname hne => ?_⟩
      · rintro _ ⟨⟩
        rfl
      · -- the name that the renamed column was given, if any, is the old one
        refine List.mem_cons_of_mem _ ?_
        obtain ⟨other, hother, hgiven⟩ := List.mem_filterMap.1 hname
        rcases List.mem_cons.1 hother with rfl | hother
        · exact absurd ((hitem name hgiven).trans hold) hne
        · exact List.mem_filterMap.2 ⟨other, hother, hgiven⟩
    · obtain ⟨others, hothers, rfl⟩ := Option.map_eq_some_iff.1 h
      obtain ⟨hlabelled, hnew, hkept⟩ := ih hrest hothers
      have hbehind {name : String} (h : name ∈ others.filterMap ReturnItem.givenName) :
          name ∈ (item :: others).filterMap ReturnItem.givenName := by
        obtain ⟨other, hother, hgiven⟩ := List.mem_filterMap.1 h
        exact List.mem_filterMap.2 ⟨other, List.mem_cons_of_mem _ hother, hgiven⟩
      refine ⟨List.forall_mem_cons.2 ⟨hitem, hlabelled⟩, hbehind hnew, fun name hname hne => ?_⟩
      obtain ⟨other, hother, hgiven⟩ := List.mem_filterMap.1 hname
      rcases List.mem_cons.1 hother with rfl | hother
      · exact List.mem_filterMap.2 ⟨other, List.mem_cons_self, hgiven⟩
      · exact hbehind (hkept name (List.mem_filterMap.2 ⟨other, hother, hgiven⟩) hne)

/-! ### Steps -/

/-- The names that are lost behind a step. -/
def Draft.lostBehind (draft : Draft) (lost : List String) (step : Step) : List String :=
  if step.aggregates then [] else lost ++ draft.taken step

namespace Draft.Scoped

/-- A step that takes no names and leaves the columns and the keys leaves what is in scope. -/
lemma same (h : draft.Scoped lost) (hr : result.part.returns = draft.part.returns)
    (ho : result.part.orderBy = draft.part.orderBy) : result.Scoped (lost ++ []) := by
  rw [List.append_nil]
  refine ⟨?_, fun name hname => ?_⟩
  · rw [Part.columns, hr]
    exact h.labelled
  · rw [Part.sortNames, ho] at hname
    rw [Part.aliases, Part.columns, hr]
    exact h.sorted name hname

/-- When all names are taken from the columns, those that rows are sorted by are lost. -/
lemma emptied (ho : result.part.orderBy = draft.part.orderBy) (hl : Labelled result.part.columns) :
    result.Scoped (lost ++ draft.part.sortNames) := by
  refine ⟨hl, fun name hname => .inr (List.mem_append_right _ ?_)⟩
  rwa [Part.sortNames, ho] at hname

lemma apply (h : draft.Scoped lost) (ha : draft.Applied naming catalog operation result) :
    result.Scoped (draft.lostBehind lost (.operation operation)) := by
  cases ha with
  | project _ hitems => exact emptied rfl (unnamed_propertyItems hitems).1
  | filter | take | skip | edge | union => exact h.same rfl rfl
  | count _ =>
    refine ⟨List.forall_mem_singleton.2 ?_, List.forall_mem_nil _⟩
    rintro _ ⟨⟩
  | nest key _ =>
    refine ⟨List.forall_mem_singleton.2 ?_, List.forall_mem_nil _⟩
    rintro _ ⟨⟩
    rfl
  | groupBy _ hproperty =>
    refine ⟨List.forall_mem_cons.2 ⟨?_, List.forall_mem_singleton.2 ?_⟩,
      List.forall_mem_singleton.2 (.inl List.mem_cons_self)⟩
    · rintro _ ⟨⟩
      rfl
    · rintro _ ⟨⟩
      rfl
  | @rename old new items renamed hitems hrenamed =>
    -- if no columns were returned yet, no names were given, and none is taken
    have hitems : Labelled items ∧
        ∀ name ∈ draft.part.aliases, name ∈ items.filterMap ReturnItem.givenName := by
      rcases returnItems_ok hitems with hreturns | ⟨hreturns, references, hfields⟩
      · have hcolumns : draft.part.columns = items := by rw [Part.columns, hreturns]; rfl
        exact ⟨hcolumns ▸ h.labelled, fun name hname => by rwa [Part.aliases, hcolumns] at hname⟩
      · refine ⟨(unnamed_propertyItems hfields).1, fun name hname => ?_⟩
        rw [Part.aliases, Part.columns, hreturns] at hname
        cases hname
    obtain ⟨hlabelled, hnew, hkept⟩ := labelled_renameItem hitems.1 hrenamed
    refine ⟨hlabelled, fun name hname => ?_⟩
    rcases h.sorted name hname with halias | hlost
    · by_cases hold : name = unqualified old
      · by_cases hsame : name = unqualified new
        · exact .inl (hsame ▸ hnew)
        · exact .inr (List.mem_append_right _
            (List.mem_filter.2 ⟨hname, decide_eq_true ⟨hold, hsame⟩⟩))
      · exact .inl (hkept name (hitems.2 name halias) hold)
    · exact .inr (List.mem_append_left _ hlost)
  | orderBy _ htarget =>
    rw [Draft.lostBehind]
    refine ⟨h.labelled, fun name hname => ?_⟩
    obtain ⟨key, hkey, hnamed⟩ := List.mem_filterMap.1 hname
    rcases List.mem_cons.1 hkey with rfl | hkey
    · rcases sortTarget_cases htarget with ⟨hgiven, rfl⟩ | ⟨property, -, rfl⟩
      · obtain rfl := Option.some.inj hnamed
        exact .inl (mem_aliases_of_hasGivenName h.labelled hgiven)
      · cases hnamed
    · exact (h.sorted name (List.mem_filterMap.2 ⟨key, hkey, hnamed⟩)).imp_right
        fun hlost => List.mem_append_left _ hlost

lemma perform {step : Step} (h : draft.Scoped lost)
    (hp : draft.perform naming catalog step = .ok result) :
    result.Scoped (draft.lostBehind lost step) := by
  cases step with
  | operation operation => exact h.apply (perform_operation_ok hp).2
  | hop chain =>
    -- the keys stay, but the node is returned in place of the columns
    obtain ⟨edge, target, -, -, rfl⟩ := perform_hop_ok hp
    exact emptied rfl (List.forall_mem_nil _)

end Draft.Scoped

/-- The names that steps take from the columns, with those that have been lost before. -/
def lostAmong (naming : String → String) (catalog : Catalog) :
    Draft → List String → List Step → List String
  | _, lost, [] => lost
  | draft, lost, step :: rest =>
    match draft.perform naming catalog step with
    | .ok next => lostAmong naming catalog next (draft.lostBehind lost step) rest
    | .error _ => lost

/-- The names of columns that rows are still sorted by when a step of the query takes them from
the columns, since the keys were replaced for the last time. -/
def lostNames (naming : String → String) (catalog : Catalog) (query : Query) : List String :=
  match Draft.ofSource catalog query.source with
  | .ok first => lostAmong naming catalog first [] (steps none query.operations)
  | .error _ => []

lemma performAll_scoped {steps : List Step} (h : draft.Scoped lost)
    (hp : draft.performAll naming catalog steps = .ok result) :
    result.Scoped (lostAmong naming catalog draft lost steps) := by
  induction steps generalizing draft lost with
  | nil =>
    obtain rfl := Except.ok.inj hp
    exact h
  | cons step rest ih =>
    obtain ⟨next, hnext, hrest⟩ := performAll_cons.1 hp
    rw [lostAmong, hnext]
    exact ih (h.perform hnext) hrest

/-! ### Statements -/

lemma Part.IsOf.scoped {part : Part} (h : part.IsOf naming catalog query) :
    ∀ name ∈ part.sortNames, name ∈ part.aliases ∨ name ∈ lostNames naming catalog query := by
  obtain ⟨draft, hdraft, rfl⟩ := h
  obtain ⟨type, first, htype, hfirst, hsteps⟩ := ofQuery_ok hdraft
  have hscoped : first.Scoped [] := by
    rcases restrict_ok hfirst with rfl | ⟨_, _, -, rfl⟩ <;>
      exact ⟨List.forall_mem_nil _, List.forall_mem_nil _⟩
  rw [lostNames, ofSource_eq_ok htype hfirst]
  exact (performAll_scoped hscoped hsteps).sorted

/-- What a part uses are variables of its path. -/
lemma Draft.Walked.used_subset {types : List String} (h : draft.Walked catalog types) :
    draft.part.used ⊆ draft.part.path.variables := by
  have hnode {property : Property}
      (hp : property.IsField catalog (draft.part.path.stops types)) :
      property.node ∈ draft.part.path.variables := by
    obtain ⟨typeName, type, hstop, -⟩ := hp
    exact (List.of_mem_zip hstop).1
  intro name hname
  rcases List.mem_append.1 hname with hname | hname
  · obtain ⟨property, hproperty, rfl⟩ := List.mem_map.1 hname
    obtain ⟨c, hc, hm⟩ := List.mem_flatMap.1 hproperty
    exact hnode (h.speaks.conditions c hc property hm)
  · cases hreturns : draft.part.returns with
    | none =>
      rw [hreturns] at hname
      obtain rfl := List.mem_singleton.1 hname
      exact h.node_mem
    | some items =>
      rw [hreturns] at hname
      obtain ⟨item, hitem, hname⟩ := List.mem_flatMap.1 hname
      have hcolumn : item ∈ draft.part.columns := by rwa [Part.columns, hreturns]
      obtain ⟨hproperties, hcollected⟩ := h.speaks.columns item hcolumn
      rcases List.mem_append.1 hname with hname | hname
      · obtain ⟨property, hproperty, rfl⟩ := List.mem_map.1 hname
        exact hnode (hproperties property hproperty)
      · exact hcollected name (Option.mem_toList.1 hname)

/-- The conditions and the columns of a part use nothing but variables of its path, and so do the
keys that are no names.  A key that is a name is that of a column, unless the name has been lost. -/
theorem names_in_scope (naming : String → String) (catalog : Catalog) (query : Query)
    (statement : Statement) (h : compile catalog query naming = .ok statement) :
    List.Forall₂ (fun query part => part.used ⊆ part.path.variables ∧
      ∀ key ∈ part.orderBy, key.InScope part ∨
        ∃ name ∈ lostNames naming catalog query, key.target = .named name)
      query.united statement := by
  refine (isOf_of_compile h).imp fun query part hpart => ?_
  obtain ⟨draft, behind, rfl, -, -, -, hwalked⟩ := hpart.walked
  refine ⟨hwalked.used_subset, fun key hkey => ?_⟩
  rw [SortKey.InScope]
  cases htarget : key.target with
  | property property =>
    have hread : property ∈ key.target.property? := by
      rw [htarget]
      rfl
    obtain ⟨typeName, type, hstop, -⟩ := hwalked.speaks.orderBy key hkey property hread
    exact .inl (List.of_mem_zip hstop).1
  | named name =>
    have hname : name ∈ draft.part.sortNames := by
      refine List.mem_filterMap.2 ⟨key, hkey, ?_⟩
      rw [htarget]
      rfl
    exact (hpart.scoped name hname).imp_right fun hlost => ⟨name, hlost, rfl⟩

/-- The names of the oldest users. -/
def labels : Query :=
  ⟨{ objectType := "User" },
    [.rename "name" "label", .orderBy "label" .ascending, .orderBy "user.age" .descending,
     .rename "age" "years", .take 3]⟩

theorem names_in_scope_labels :
    ∃ part, compile SocialGraph.catalog labels = .ok [part] ∧
      part.lines = ["MATCH (u:User)", "RETURN u.id, u.name AS label, u.age AS years",
        "ORDER BY u.age DESC, label", "LIMIT 3"] ∧
      ∀ key ∈ part.orderBy, key.InScope part := by
  have hlost : lostNames Text.upperSnakeCase SocialGraph.catalog labels = [] := by decide +kernel
  refine ⟨_, rfl, by decide +kernel, fun key hkey => ?_⟩
  have hall := names_in_scope Text.upperSnakeCase SocialGraph.catalog labels _ rfl
  obtain ⟨⟨-, hkeys⟩, -⟩ := List.forall₂_cons.1 hall
  refine (hkeys key hkey).resolve_right ?_
  rw [hlost]
  rintro ⟨name, hname, -⟩
  cases hname

/-- Users by their age, which is called otherwise behind the groups. -/
def usersByYears : Query :=
  ⟨{ objectType := "User" }, [.groupBy "age", .rename "key" "years"]⟩

/-- Groups are sorted by the name of their key, although the column has been given another one. -/
theorem names_in_scope_years :
    ∃ part, compile SocialGraph.catalog usersByYears = .ok [part] ∧
      part.lines = ["MATCH (u:User)", "RETURN u.age AS years, collect(u) AS items",
        "ORDER BY key"] ∧
      lostNames Text.upperSnakeCase SocialGraph.catalog usersByYears = ["key"] ∧
      ¬∀ key ∈ part.orderBy, key.InScope part :=
  ⟨_, rfl, by decide +kernel, by decide +kernel, by decide +kernel⟩

end ObjectGraph.Cypher
