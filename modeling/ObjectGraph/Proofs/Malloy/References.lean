/-
# References to fields in every stage

The first stage of a pipeline reads the table, and a reference there is resolved to the column of
the field that it means.  A later stage reads what the stage before it puts out, which are columns,
and is asked for the reference itself; only for the marks of the identity the type is looked at
again.  So a later stage knows a field by the marks of the identity or because the column is called
like the field, and by nothing else.  What carries the argument is that the column of a field is an
output field of every stage, as long as each projection lists it.
-/
import ObjectGraph.Proofs.Malloy.Operations

namespace ObjectGraph

/-- The field that a reference means, under its own name; `id` and `:id` mean the identity. -/
def ObjectType.meant? (type : ObjectType) (reference : String) : Option (String × Field) :=
  type.lookupField (if unqualified reference = "id" then idKey else unqualified reference)

/-- Whether an operation neither renames fields nor replaces the rows by their number. -/
def Operation.keepsNames : Operation → Bool
  | rename _ _ | count => false
  | _ => true

namespace Malloy

/-- Whether every stage knows the column of a field by a reference that means the field: it is a
mark of the identity, or the column is called like the field. -/
def KnownEverywhere (entry : String × Field) (reference : String) : Prop :=
  unqualified reference ∈ ["id", idKey] ∨ entry.2.column = entry.1

namespace Draft

/-- Whether the last stage knows the column of a field by a reference that means the field; the
first stage knows all columns. -/
def Knows (draft : Draft) (entry : String × Field) (reference : String) : Prop :=
  draft.done = [] ∨ KnownEverywhere entry reference

/-- Whether operations on a draft keep a field: every projection lists it by a reference that the
stage of the projection knows it by. -/
def Keeps (entry : String × Field) : Draft → List Operation → Prop
  | _, [] => True
  | draft, step :: rest =>
    (∀ references, step = .project references → ∃ reference ∈ references,
      draft.type.meant? reference = some entry ∧
        (draft.nextStageIf fun clause => clause.isSelect || clause.isCount).Knows entry
          reference) ∧
    ∀ next, draft.apply step = .ok next → next.Keeps entry rest

end Draft

variable {draft result : Draft} {entry : String × Field} {reference : String}

/-! ### References -/

/-- The first stage asks the type for the column of a field. -/
lemma resolve_of_first (hd : draft.done = []) (hm : draft.type.meant? reference = some entry) :
    draft.resolve reference = .ok entry.2.column := by
  have hstored : draft.stored? (if unqualified reference = "id" then idKey
      else unqualified reference) = some entry.2 := by
    rw [ObjectType.meant?] at hm
    rw [Draft.stored?, hd, hm]
    rfl
  simp only [Draft.resolve, hstored]

/-- A later stage looks for the name of a reference among the output fields. -/
lemma resolve_of_later (hd : draft.done ≠ []) {name column : String}
    (hn : draft.outputName (if unqualified reference = "id" then idKey else unqualified reference)
      = name) :
    draft.resolve reference = .ok column ↔ column = name ∧ column ∈ draft.fields := by
  have hstored (looked : String) : draft.stored? looked = none := by
    rw [Draft.stored?, List.isEmpty_eq_false_iff.2 hd]
    rfl
  simp only [Draft.resolve, hstored, hn]
  split
  · rename_i hfield
    constructor
    · intro hresolved
      obtain rfl := Except.ok.inj hresolved
      exact ⟨rfl, hfield⟩
    · rintro ⟨rfl, -⟩
      rfl
  · rename_i hfield
    constructor
    · rintro ⟨⟩
    · rintro ⟨rfl, hcolumn⟩
      exact absurd hcolumn hfield

/-- The marks of the identity lead to its column in every stage. -/
lemma outputName_mark (hm : draft.type.meant? reference = some entry)
    (hr : unqualified reference ∈ ["id", idKey]) :
    draft.outputName (if unqualified reference = "id" then idKey else unqualified reference)
      = entry.2.column := by
  have hkey : (if unqualified reference = "id" then idKey else unqualified reference) = idKey := by
    rcases List.mem_pair.1 hr with hr | hr
    · rw [if_pos hr]
    · rw [hr, ite_self]
  rw [ObjectType.meant?, hkey, ObjectType.lookupField, if_pos rfl] at hm
  obtain ⟨field, hfield, rfl⟩ := Option.map_eq_some_iff.1 hm
  have hidentity : draft.type.identity? = some field := hfield
  rw [hkey, Draft.outputName, if_pos rfl, hidentity]

/-- Any other reference is the name of its field, which is taken for the name of a column. -/
lemma outputName_name (hm : draft.type.meant? reference = some entry)
    (hr : unqualified reference ∉ ["id", idKey]) :
    draft.outputName (if unqualified reference = "id" then idKey else unqualified reference)
      = entry.1 := by
  obtain ⟨hid, hkey⟩ : unqualified reference ≠ "id" ∧ unqualified reference ≠ idKey := by
    simpa using hr
  rw [ObjectType.meant?, if_neg hid, ObjectType.lookupField, if_neg hkey] at hm
  obtain ⟨field, -, rfl⟩ := Option.map_eq_some_iff.1 hm
  rw [if_neg hid, Draft.outputName, if_neg hkey]

/-- A stage that has the column of a field among its fields resolves exactly the references to it
that it knows it by. -/
lemma resolve_eq_column_iff (hm : draft.type.meant? reference = some entry)
    (hf : entry.2.column ∈ draft.fields) :
    draft.resolve reference = .ok entry.2.column ↔ draft.Knows entry reference := by
  by_cases hd : draft.done = []
  · exact iff_of_true (resolve_of_first hd hm) (.inl hd)
  · by_cases hr : unqualified reference ∈ ["id", idKey]
    · rw [resolve_of_later hd (outputName_mark hm hr)]
      exact iff_of_true ⟨rfl, hf⟩ (.inr (.inl hr))
    · rw [resolve_of_later hd (outputName_name hm hr)]
      simp only [Draft.Knows, KnownEverywhere, hd, hr, hf, false_or, and_true]

lemma resolve_mem_of_mem {references names : List String} {name : String}
    (hr : draft.resolveAll references = .ok names) (hm : reference ∈ references)
    (hn : draft.resolve reference = .ok name) : name ∈ names := by
  induction references generalizing names with
  | nil => cases hm
  | cons first rest ih =>
    obtain ⟨found, hfound, hr⟩ := Compile.bind_eq_ok.1 hr
    obtain ⟨others, hothers, hr⟩ := Compile.bind_eq_ok.1 hr
    obtain rfl := Compile.pure_eq_ok.1 hr
    rcases List.mem_cons.1 hm with rfl | hm
    · obtain rfl := Except.ok.inj (hn.symm.trans hfound)
      exact List.mem_cons_self
    · exact List.mem_cons_of_mem _ (ih hothers hm)

/-! ### Operations -/

/-- The next stage has the fields of the one before it. -/
lemma Draft.Enters.same {base : Draft} {inTheWay : Clause → Bool} (h : draft.Enters inTheWay base) :
    base.type = draft.type ∧ base.fields = draft.fields := by
  rcases h.next_or_same with rfl | rfl <;> exact ⟨rfl, rfl⟩

/-- Only a projection changes the fields of a stage. -/
lemma apply_fields {step : Operation} (hs : step.keepsNames = true)
    (hr : draft.apply step = .ok result) :
    result.type = draft.type ∧
      (result.fields = draft.fields ∨ ∃ references, step = .project references ∧
        (draft.nextStageIf fun clause => clause.isSelect || clause.isCount).resolveAll references
          = .ok result.fields) := by
  cases Draft.applied_of_apply hr with
  | project he hnames => exact ⟨he.same.1, .inr ⟨_, rfl, he.eq ▸ hnames⟩⟩
  | filter he | orderBy he | take he => exact ⟨he.same.1, .inl he.same.2⟩
  | count | rename => cases hs

/-- A column that a stage puts out is put out by the next one too, if the field is kept. -/
lemma apply_keeps {step : Operation} {rest : List Operation} (hs : step.keepsNames = true)
    (hk : draft.Keeps entry (step :: rest)) (hf : entry.2.column ∈ draft.fields)
    (hr : draft.apply step = .ok result) :
    result.Keeps entry rest ∧ result.type = draft.type ∧ entry.2.column ∈ result.fields := by
  rw [Draft.Keeps] at hk
  obtain ⟨htype, hfields⟩ := apply_fields hs hr
  refine ⟨hk.2 result hr, htype, ?_⟩
  rcases hfields with hsame | ⟨references, rfl, hnames⟩
  · rwa [hsame]
  · obtain ⟨reference, hm, hmeant, hknown⟩ := hk.1 references rfl
    obtain ⟨hnext, hsame⟩ :=
      (draft.enters_nextStageIf fun clause => clause.isSelect || clause.isCount).same
    rw [← hnext] at hmeant
    rw [← hsame] at hf
    exact resolve_mem_of_mem hnames hm ((resolve_eq_column_iff hmeant hf).2 hknown)

lemma applyAll_keeps {operations : List Operation}
    (hs : ∀ step ∈ operations, step.keepsNames = true) (hk : draft.Keeps entry operations)
    (hf : entry.2.column ∈ draft.fields) (hr : draft.applyAll operations = .ok result) :
    result.type = draft.type ∧ entry.2.column ∈ result.fields := by
  induction operations generalizing draft with
  | nil =>
    obtain rfl := Compile.pure_eq_ok.1 hr
    exact ⟨rfl, hf⟩
  | cons step rest ih =>
    obtain ⟨next, hnext, hr⟩ := Compile.bind_eq_ok.1 hr
    obtain ⟨hfirst, hrest⟩ := List.forall_mem_cons.1 hs
    obtain ⟨hk, htype, hf⟩ := apply_keeps hfirst hk hf hnext
    obtain ⟨hsame, hf⟩ := ih hrest hk hf hr
    exact ⟨hsame.trans htype, hf⟩

/-- A field is kept if every projection lists it by a reference that all stages know it by. -/
lemma keeps_of_listed {operations : List Operation}
    (hs : ∀ step ∈ operations, step.keepsNames = true)
    (hp : ∀ references, .project references ∈ operations → ∃ listed ∈ references,
      draft.type.meant? listed = some entry ∧ KnownEverywhere entry listed) :
    draft.Keeps entry operations := by
  induction operations generalizing draft with
  | nil => trivial
  | cons step rest ih =>
    obtain ⟨hfirst, hrest⟩ := List.forall_mem_cons.1 hs
    refine ⟨?_, fun next hnext => ih hrest ?_⟩
    · rintro references rfl
      obtain ⟨listed, hm, hmeant, hknown⟩ := hp references List.mem_cons_self
      exact ⟨listed, hm, hmeant, .inr hknown⟩
    · intro references hm
      rw [(apply_fields hfirst hnext).1]
      exact hp references (List.mem_cons_of_mem _ hm)

/-! ### Whole queries -/

/-- Every column of the table is an output field as long as nothing was projected. -/
lemma restrict_fields {name : String} {type : ObjectType} {ids : Option (List Int64)}
    (hr : (Draft.start name type).restrict ids = .ok result) :
    result.type = type ∧ result.fields = type.fields.values.map (·.column) := by
  cases ids with
  | none =>
    obtain rfl := Compile.pure_eq_ok.1 hr
    exact ⟨rfl, rfl⟩
  | some ids =>
    obtain ⟨column, -, hr⟩ := Compile.bind_eq_ok.1 hr
    obtain rfl := Compile.pure_eq_ok.1 hr
    exact ⟨rfl, rfl⟩

lemma column_mem_of_meant {type : ObjectType} (hm : type.meant? reference = some entry) :
    entry.2.column ∈ type.fields.values.map (·.column) := by
  obtain ⟨field, hfield, rfl⟩ := Option.map_eq_some_iff.1 hm
  exact List.mem_map_of_mem (List.mem_map_of_mem (Named.mem_of_lookup hfield))

/-- Behind accepted operations that neither rename nor count and whose projections keep a field, a
reference to the field is resolved to its column exactly if the stage of the next operation knows
the field by it.  So if the column is called like the field, every reference is resolved to it in
every stage, as long as every projection lists the field. -/
theorem resolve_kept (name : String) (type : ObjectType) (ids : Option (List Int64))
    (operations : List Operation) (first draft : Draft) (entry : String × Field)
    (reference : String) (inTheWay : Clause → Bool)
    (hf : (Draft.start name type).restrict ids = .ok first)
    (hs : ∀ step ∈ operations, step.keepsNames = true)
    (hr : first.applyAll operations = .ok draft)
    (hm : type.meant? reference = some entry) :
    (first.Keeps entry operations →
      ((draft.nextStageIf inTheWay).resolve reference = .ok entry.2.column ↔
        (draft.nextStageIf inTheWay).Knows entry reference)) ∧
    ((∀ references, .project references ∈ operations → ∃ listed ∈ references,
        type.meant? listed = some entry ∧ KnownEverywhere entry listed) →
      KnownEverywhere entry reference →
      (draft.nextStageIf inTheWay).resolve reference = .ok entry.2.column) := by
  obtain ⟨htype, hfields⟩ := restrict_fields hf
  have hcolumn : entry.2.column ∈ first.fields := hfields ▸ column_mem_of_meant hm
  have hiff (hk : first.Keeps entry operations) :
      (draft.nextStageIf inTheWay).resolve reference = .ok entry.2.column ↔
        (draft.nextStageIf inTheWay).Knows entry reference := by
    obtain ⟨hsame, hkept⟩ := applyAll_keeps hs hk hcolumn hr
    obtain ⟨hnext, hout⟩ := (draft.enters_nextStageIf inTheWay).same
    refine resolve_eq_column_iff ?_ ?_
    · rw [hnext, hsame, htype, hm]
    · rwa [hout]
  refine ⟨hiff, fun hp hknown => (hiff ?_).2 (.inr hknown)⟩
  exact keeps_of_listed hs (htype.symm ▸ hp)

/-- People with a nickname, which is stored in a column that is called like another field. -/
def person : ObjectType where
  table := "person"
  fields := .ofList
    [("id", { column := "person_id", type := .bigint, nullable := false }),
     ("name", { column := "full_name", type := .text }),
     ("nick", { column := "name", type := .text }),
     ("age", { column := "age", type := .integer })]

/-- Some people with an age, in two stages that each list the fields they put out. -/
def knownAges : List Operation :=
  [.project ["person.id", "name", "age"], .take 3, .filter (.negation (.isNull "age")),
   .project [":id", "person.age"]]

theorem resolve_kept_knownAges :
    ∃ draft, (Draft.start "Person" person).restrict none = .ok (Draft.start "Person" person) ∧
      (∀ step ∈ knownAges, step.keepsNames = true) ∧
      (Draft.start "Person" person).applyAll knownAges = .ok draft ∧
      person.meant? "id"
        = some ("id", { column := "person_id", type := .bigint, nullable := false }) ∧
      (draft.nextStageIf Clause.isSelect).stages.length = 3 ∧
      (draft.nextStageIf Clause.isSelect).resolve "id" = .ok "person_id" := by
  have hs : ∀ step ∈ knownAges, step.keepsNames = true := by decide
  have hm : person.meant? "id"
      = some ("id", { column := "person_id", type := .bigint, nullable := false }) := by decide
  have hp : ∀ references, .project references ∈ knownAges → ∃ listed ∈ references,
      person.meant? listed
          = some ("id", { column := "person_id", type := .bigint, nullable := false }) ∧
        KnownEverywhere ("id", { column := "person_id", type := .bigint, nullable := false })
          listed := by
    intro references hm
    simp only [knownAges, List.mem_cons, reduceCtorEq, Operation.project.injEq, List.not_mem_nil,
      false_or, or_false] at hm
    rcases hm with rfl | rfl
    · exact ⟨"person.id", List.mem_cons_self, by decide, .inl (by decide)⟩
    · exact ⟨":id", List.mem_cons_self, by decide, .inl (by decide)⟩
  exact ⟨_, rfl, hs, rfl, hm, rfl, (resolve_kept "Person" person none knownAges _ _ _ "id"
    Clause.isSelect rfl hs rfl hm).2 hp (.inl (by decide))⟩

/-- Behind a limit a reference to the name is resolved to the column of the nickname. -/
theorem resolve_kept_nick :
    ∃ draft, (Draft.start "Person" person).restrict none = .ok (Draft.start "Person" person) ∧
      (Draft.start "Person" person).applyAll [.take 3] = .ok draft ∧
      person.meant? "name" = some ("name", { column := "full_name", type := .text }) ∧
      person.meant? "nick" = some ("nick", { column := "name", type := .text }) ∧
      (draft.nextStageIf Clause.isLimit).resolve "name" = .ok "name" :=
  ⟨_, rfl, rfl, by decide, by decide, by decide⟩

end Malloy
end ObjectGraph
