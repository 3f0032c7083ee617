/-
# Cypher and the spelling of the identity

A property is looked up alike for `id` and `:id`.  The columns of a result remember the reference
they were chosen by, but this name is not written; only a column that was given a name is.  So a
query and its marked form lead to drafts that differ in the names of some columns without a given
name.  A rename looks for columns by these names, and a sort key looks for given names first, and
the two spellings stay alike as long as neither has to do with the identity.
-/
import ObjectGraph.Proofs.Cypher.Steps
import ObjectGraph.Proofs.Listing
import ObjectGraph.Proofs.Query.Marks

namespace ObjectGraph

/-- Whether no column is found by a spelling of the identity for another name, and none is given
such a name. -/
def Operation.SparesColumns : Operation → Prop
  | .nest key => key ∉ identityMarks
  | .rename old new => unqualified old ∉ identityMarks ∧ unqualified new ∉ identityMarks
  | _ => True

lemma sparesColumns_marked (step : Operation) :
    step.marked.SparesColumns ↔ step.SparesColumns := by
  cases step with
  | rename old new => exact and_congr_left' (not_congr unqualified_markedReference_mem)
  | project | filter | take | skip | count | nest | orderBy | groupBy | edge | union => exact .rfl

namespace Cypher

open Compile (TextCondition)

/-! ### Computations side by side -/

section Alike

variable {α β γ δ ε : Type} {related : α → β → Prop} {other : γ → δ → Prop}

/-- Two computations fail together, or give related results. -/
inductive Alike (related : α → β → Prop) : Except ε α → Except ε β → Prop
  | ok {a : α} {b : β} (h : related a b) : Alike related (.ok a) (.ok b)
  | error (e e' : ε) : Alike related (.error e) (.error e')

lemma Alike.refl (x : Except ε α) : Alike Eq x x := by
  cases x with
  | error e => exact .error e e
  | ok a => exact .ok rfl

lemma Alike.bind {x : Except ε α} {y : Except ε β} {f : α → Except ε γ} {g : β → Except ε δ}
    (h : Alike related x y) (hf : ∀ a b, related a b → Alike other (f a) (g b)) :
    Alike other (x >>= f) (y >>= g) := by
  cases h with
  | ok hab => exact hf _ _ hab
  | error e e' => exact .error e e'

/-- Nothing differs before computations go on. -/
lemma Alike.after (x : Except ε α) {f : α → Except ε γ} {g : α → Except ε δ}
    (hf : ∀ a, x = .ok a → Alike other (f a) (g a)) : Alike other (x >>= f) (x >>= g) := by
  cases x with
  | error e => exact .error e e
  | ok a => exact hf a rfl

/-- Computations are alike if both are refused for the same reason. -/
lemma Alike.unless {refused refused' : Bool} (hr : refused' = refused) {x : Except ε α}
    {y : Except ε β} {e e' : ε} (h : Alike related x y) :
    Alike related (if refused then .error e else x) (if refused' then .error e' else y) := by
  subst hr
  split
  · exact .error e e'
  · exact h

end Alike

/-! ### Columns and drafts -/

/-- Two columns are the same, or both are named after the identity, in whichever spelling; a column
that was given a name is not called like the identity. -/
inductive ReturnItem.Alike : ReturnItem → ReturnItem → Prop
  | same {item : ReturnItem} (h : item.givenName ≠ none → item.name ∉ identityMarks) :
    Alike item item
  | spelled {value : Value} {name other : String} (hn : name ∈ identityMarks)
    (ho : other ∈ identityMarks) : Alike { name, value } { name := other, value }

/-- Columns that are alike one by one. -/
abbrev Columns.Alike : List ReturnItem → List ReturnItem → Prop := List.Forall₂ ReturnItem.Alike

/-- A part differs from another one in nothing but columns that are alike. -/
inductive Part.Alike (part : Part) : Part → Prop
  | mk {returns : Option (List ReturnItem)}
    (h : Option.Rel Columns.Alike part.returns returns) : Alike part { part with returns }

/-- A draft differs from another one in nothing but columns that are alike. -/
inductive Draft.Alike (draft : Draft) : Draft → Prop
  | mk {returns : Option (List ReturnItem)} {others : List Part}
    (h : Option.Rel Columns.Alike draft.part.returns returns)
    (ho : List.Forall₂ Part.Alike draft.others others) :
    Alike draft { draft with part := { draft.part with returns }, others }

lemma ReturnItem.Alike.text_eq {item other : ReturnItem} (h : item.Alike other) :
    other.text = item.text := by
  cases h <;> rfl

lemma Columns.Alike.texts_eq {items others : List ReturnItem} (h : Columns.Alike items others) :
    others.map ReturnItem.text = items.map ReturnItem.text := by
  induction h with
  | nil => rfl
  | cons hitem _ ih => rw [List.map_cons, List.map_cons, hitem.text_eq, ih]

/-- The names of columns are not written. -/
lemma Part.Alike.text_eq {part other : Part} (h : part.Alike other) : other.text = part.text := by
  have hreturns : other.returnText = part.returnText := by
    cases h with
    | mk h =>
      cases hreturns : part.returns with
      | none =>
        rw [hreturns] at h
        cases h
        rw [Part.returnText, Part.returnText, hreturns]
      | some items =>
        rw [hreturns] at h
        cases h with
        | some hitems =>
          rw [Part.returnText, Part.returnText, hreturns]
          exact congrArg (fun texts => "RETURN " ++ ", ".intercalate texts)
            (Columns.Alike.texts_eq hitems)
  cases h with
  | mk h => rw [Part.text, Part.text, Part.lines, Part.lines, hreturns]

lemma Draft.Alike.text_eq {draft other : Draft} (h : draft.Alike other) :
    Statement.text other.statement = Statement.text draft.statement := by
  have hparts : List.Forall₂ Part.Alike draft.statement other.statement := by
    cases h with
    | mk h ho => exact .cons (.mk h) ho
  have htexts : other.statement.map Part.text = draft.statement.map Part.text :=
    (List.forall₂_eq_eq_eq ▸ List.forall₂_map_right_iff.2 (List.forall₂_map_left_iff.2
      (hparts.imp fun _ _ hpart => hpart.text_eq.symm)) : _ = _).symm
  rw [Statement.text, Statement.text, htexts]

/-! ### References -/

/-- The name of a field is only needed to say what is wrong. -/
lemma comparison_named (property : Property) {field other : String}
    (operator : ComparisonOperator) (value : Literal) :
    Alike Eq (Draft.comparison field property operator value)
      (Draft.comparison other property operator value) := by
  cases value with
  | null => cases operator <;> first | exact .ok rfl | exact .error _ _
  | boolean | integer | float | string => exact .ok rfl

/-- Drafts that differ in columns alone look for the same properties. -/
lemma Draft.Alike.resolve_eq {catalog : Catalog} {draft other : Draft} (h : draft.Alike other)
    (reference : String) : other.resolve catalog reference = draft.resolve catalog reference := by
  cases h
  rfl

section References

variable {catalog : Catalog} {draft other : Draft}

namespace Draft.Alike

/-- A type has its identity under the name `id`, so it does not matter whether it is asked for
this name or for the identity. -/
lemma resolve_marked (h : draft.Alike other)
    (hplain : ∀ name type, catalog.type? name = some type → type.PlainIdentity)
    (reference : String) : Cypher.Alike Eq (draft.resolve catalog reference)
      (other.resolve catalog (markedReference reference)) := by
  rw [h.resolve_eq]
  rcases unqualified_markedReference reference with hsame | ⟨hid, hkey⟩
  · rw [resolve, resolve, hsame]
    exact .refl _
  · simp only [resolve, hid, hkey]
    refine .after _ fun type htype => ?_
    have hidField := (hplain _ _ (Compile.requireType_ok.1 htype)).idField
    have hfield : type.lookupField "id" = type.lookupField idKey := by
      rw [ObjectType.lookupField, ObjectType.lookupField, hidField]
      rfl
    have hname : type.lookupField (if True ∧ ¬ type.fields.contains "id" = true then idKey
        else "id") = type.lookupField idKey := by
      split
      · rfl
      · exact hfield
    have hkeep : ¬ (idKey = "id" ∧ ¬ type.fields.contains "id" = true) :=
      fun h => idKey_ne_id h.1
    simp only [hname, if_neg hkeep]
    split
    · exact .ok rfl
    · exact .error _ _

mutual

lemma condition_marked (h : draft.Alike other)
    (hplain : ∀ name type, catalog.type? name = some type → type.PlainIdentity) :
    ∀ predicate : Predicate, Cypher.Alike Eq (draft.condition catalog predicate)
      (other.condition catalog predicate.marked)
  | .all parts => (h.conditions_marked hplain parts).bind fun _ _ hcs => .ok (hcs ▸ rfl)
  | .any parts => (h.conditions_marked hplain parts).bind fun _ _ hcs => .ok (hcs ▸ rfl)
  | .negation part => (h.condition_marked hplain part).bind fun _ _ hc => .ok (hc ▸ rfl)
  | .comparison field operator value => by
    refine (h.resolve_marked hplain field).bind fun property _ hproperty => ?_
    exact hproperty ▸ comparison_named property operator value
  | .oneOf field values => (h.resolve_marked hplain field).bind fun _ _ hp => .ok (hp ▸ rfl)
  | .isNull field => (h.resolve_marked hplain field).bind fun _ _ hp => .ok (hp ▸ rfl)

lemma conditions_marked (h : draft.Alike other)
    (hplain : ∀ name type, catalog.type? name = some type → type.PlainIdentity) :
    ∀ parts : List Predicate, Cypher.Alike Eq (draft.conditions catalog parts)
      (other.conditions catalog (Predicate.markedParts parts))
  | [] => .ok rfl
  | part :: rest => (h.condition_marked hplain part).bind fun _ _ hc =>
    (h.conditions_marked hplain rest).bind fun _ _ hcs => .ok (hc ▸ hcs ▸ rfl)

end

/-- The columns that are chosen by references. -/
lemma propertyItems_marked (h : draft.Alike other)
    (hplain : ∀ name type, catalog.type? name = some type → type.PlainIdentity)
    (references : List String) : Cypher.Alike Columns.Alike (draft.propertyItems catalog references)
      (other.propertyItems catalog (references.map markedReference)) := by
  induction references with
  | nil => exact .ok .nil
  | cons reference rest ih =>
    have hitem : Cypher.Alike ReturnItem.Alike (draft.propertyItem catalog reference)
        (other.propertyItem catalog (markedReference reference)) := by
      refine (h.resolve_marked hplain reference).bind fun property _ hproperty => ?_
      subst hproperty
      refine .ok ?_
      rcases unqualified_markedReference reference with hsame | ⟨hid, hkey⟩
      · rw [hsame]
        exact .same fun hne => absurd rfl hne
      · rw [hid, hkey]
        exact .spelled (by decide) (by decide)
    exact hitem.bind fun _ _ hitem => ih.bind fun _ _ hitems => .ok (.cons hitem hitems)

lemma propertyItems_same (h : draft.Alike other) (references : List String) :
    Cypher.Alike Columns.Alike (draft.propertyItems catalog references)
      (other.propertyItems catalog references) := by
  induction references with
  | nil => exact .ok .nil
  | cons reference rest ih =>
    rw [propertyItems, propertyItems, propertyItem, propertyItem, h.resolve_eq]
    refine .after _ fun item hitem => ?_
    obtain ⟨property, -, hitem⟩ := Compile.bind_eq_ok.1 hitem
    obtain rfl := Compile.pure_eq_ok.1 hitem
    exact ih.bind fun _ _ hitems => .ok (.cons (.same fun hne => absurd rfl hne) hitems)

lemma returnItems (h : draft.Alike other) :
    Cypher.Alike Columns.Alike (draft.returnItems catalog) (other.returnItems catalog) := by
  have hdrafts := h
  cases h with
  | mk h ho =>
    unfold Draft.returnItems
    cases hreturns : draft.part.returns with
    | none =>
      rw [hreturns] at h
      cases h
      exact .after _ fun type _ => hdrafts.propertyItems_same _
    | some items =>
      rw [hreturns] at h
      cases h with
      | some hitems => exact .ok hitems

end Draft.Alike

end References

/-! ### Columns -/

namespace Columns.Alike

variable {items others : List ReturnItem} {old new name : String}

/-- What is collected does not depend on the names of columns that were given none. -/
lemma entries_eq (h : Columns.Alike items others) :
    others.filterMap Draft.entry? = items.filterMap Draft.entry? := by
  induction h with
  | nil => rfl
  | cons hitem _ ih =>
    have hentry {item other : ReturnItem} (hitem : item.Alike other) :
        Draft.entry? other = Draft.entry? item := by cases hitem <;> rfl
    rw [List.filterMap_cons, List.filterMap_cons, hentry hitem, ih]

/-- A rename that has nothing to do with the identity finds the same columns. -/
lemma renameItem (hold : old ∉ identityMarks) (hnew : new ∉ identityMarks)
    (h : Columns.Alike items others) : Option.Rel Columns.Alike (Draft.renameItem old new items)
      (Draft.renameItem old new others) := by
  have hmap {x y : Option (List ReturnItem)} {item other : ReturnItem} (hitem : item.Alike other)
      (h : Option.Rel Columns.Alike x y) :
      Option.Rel Columns.Alike (x.map (item :: ·)) (y.map (other :: ·)) := by
    cases h with
    | none => exact .none
    | some hitems => exact .some (.cons hitem hitems)
  induction h with
  | nil => exact .none
  | @cons item other items others hitem hitems ih =>
    cases hitem with
    | same hgiven =>
      simp only [Draft.renameItem]
      split
      · exact .some (.cons (.same fun _ => hnew) hitems)
      · exact hmap (.same hgiven) ih
    | spelled hn ho =>
      have hname {name : String} (hm : name ∈ identityMarks) : name ≠ old :=
        fun he => hold (he ▸ hm)
      simp only [Draft.renameItem, if_neg (hname hn), if_neg (hname ho)]
      exact hmap (.spelled hn ho) ih

/-- The names that columns were given. -/
lemma any_given_eq (h : Columns.Alike items others) :
    (others.any fun item => item.name == name && item.givenName.isSome)
      = items.any fun item => item.name == name && item.givenName.isSome := by
  induction h with
  | nil => rfl
  | cons hitem _ ih =>
    rw [List.any_cons, List.any_cons, ih]
    cases hitem with
    | same => rfl
    | spelled => simp only [Option.isSome_none, Bool.and_false]

lemma any_given_of_mem (hn : name ∈ identityMarks) (h : Columns.Alike items others) :
    (items.any fun item => item.name == name && item.givenName.isSome) = false := by
  induction h with
  | nil => rfl
  | @cons item _ _ _ hitem _ ih =>
    rw [List.any_cons, ih, Bool.or_false]
    cases hitem with
    | same hgiven =>
      cases hname : item.givenName with
      | none => exact Bool.and_false _
      | some given =>
        have hne : item.name ≠ name := fun he => hgiven (by rw [hname]; simp) (he ▸ hn)
        rw [beq_eq_false_iff_ne.2 hne, Bool.false_and]
    | spelled => exact Bool.and_false _

end Columns.Alike

/-! ### Operations -/

section Operations

variable {catalog : Catalog} {draft other : Draft}

namespace Draft.Alike

lemma columns (h : draft.Alike other) :
    Columns.Alike (draft.part.returns.getD []) (other.part.returns.getD []) := by
  cases h with
  | mk h ho =>
    cases hreturns : draft.part.returns with
    | none =>
      rw [hreturns] at h
      cases h
      exact .nil
    | some items =>
      rw [hreturns] at h
      cases h with
      | some hitems => exact hitems

lemma collected_eq (h : draft.Alike other) : other.collected = draft.collected := by
  have hcolumns := h.columns
  cases h with
  | mk h ho =>
    unfold Draft.collected
    cases hreturns : draft.part.returns with
    | none =>
      rw [hreturns] at h
      cases h
      rfl
    | some items =>
      rw [hreturns] at h
      cases h with
      | some hitems => exact congrArg (Value.collectMaps _) (Columns.Alike.entries_eq hitems)

/-- A key that is the name of a column is none of the spellings. -/
lemma sortTarget_marked (h : draft.Alike other)
    (hplain : ∀ name type, catalog.type? name = some type → type.PlainIdentity) (key : String) :
    Cypher.Alike Eq (draft.sortTarget catalog (unqualified key))
      (other.sortTarget catalog (unqualified (markedReference key))) := by
  have hgiven (name : String) : other.hasGivenName name = draft.hasGivenName name :=
    h.columns.any_given_eq
  have haggregated : other.aggregated = draft.aggregated := by cases h; rfl
  rcases unqualified_markedReference key with hsame | ⟨hid, hkey⟩
  · rw [hsame, sortTarget, sortTarget, hgiven, haggregated, h.resolve_eq]
    exact .refl _
  · have hnone {name : String} (hn : name ∈ identityMarks) : draft.hasGivenName name = false :=
      h.columns.any_given_of_mem hn
    rw [hid, hkey, sortTarget, sortTarget, hgiven, hnone (by decide), hnone (by decide),
      haggregated]
    cases draft.aggregated with
    | true => exact .error _ _
    | false => exact (h.resolve_marked hplain "id").bind fun _ _ hp => .ok (hp ▸ rfl)

/-- The result is replaced by columns that are alike. -/
lemma withReturns (h : draft.Alike other) {items others : List ReturnItem}
    (hitems : Columns.Alike items others) :
    Draft.Alike { draft with part := { draft.part with returns := some items } }
      { other with part := { other.part with returns := some others } } := by
  cases h with
  | mk h ho => exact .mk (.some hitems) ho

lemma aggregate (h : draft.Alike other) {items : List ReturnItem}
    (hi : ∀ item ∈ items, item.givenName ≠ none → item.name ∉ identityMarks)
    (orderBy : List SortKey) :
    (draft.aggregate items orderBy).Alike (other.aggregate items orderBy) := by
  cases h with
  | mk h ho =>
    exact .mk (.some (List.forall₂_same.2 fun item hm => .same (hi item hm))) ho

/-- The operations that neither follow an edge nor append results. -/
lemma apply_marked (h : draft.Alike other)
    (hplain : ∀ name type, catalog.type? name = some type → type.PlainIdentity)
    {step : Operation} (hs : step.SparesColumns) :
    Cypher.Alike Draft.Alike (draft.apply catalog step) (other.apply catalog step.marked) := by
  have hopen (what : String) : other.requireOpen what = draft.requireOpen what := by
    cases h
    rfl
  cases step with
  | project fields =>
    have haggregated : other.aggregated = draft.aggregated := by cases h; rfl
    simp only [apply, Operation.marked]
    exact .unless haggregated <| (h.propertyItems_marked hplain fields).bind fun _ _ hitems =>
      .ok (h.withReturns hitems)
  | filter predicate =>
    simp only [apply, Operation.marked, hopen]
    refine .after _ fun _ _ => (h.condition_marked hplain predicate).bind fun c _ hc => ?_
    subst hc
    cases h with
    | mk h ho => exact .ok (.mk h ho)
  | take n =>
    cases h with
    | mk h ho => exact .ok (.mk h ho)
  | skip n =>
    cases h with
    | mk h ho =>
      simp only [apply, Operation.marked]
      exact .unless rfl (.ok (.mk h ho))
  | count =>
    simp only [apply, Operation.marked, hopen]
    refine .after _ fun _ _ => .ok (h.aggregate (List.forall_mem_singleton.2 ?_) [])
    exact fun hne => absurd rfl hne
  | nest key =>
    simp only [apply, Operation.marked, hopen, h.collected_eq]
    refine .after _ fun _ _ => .ok (h.aggregate ?_ [])
    exact List.forall_mem_singleton.2 fun _ => hs
  | groupBy key =>
    have hnode : other.node = draft.node := by cases h; rfl
    simp only [apply, Operation.marked, hopen, hnode]
    refine .after _ fun _ _ => (h.resolve_marked hplain key).bind fun property _ hproperty => ?_
    subst hproperty
    have hkey : "key" ∉ identityMarks := by decide
    have hitems : "items" ∉ identityMarks := by decide
    refine .ok (h.aggregate ?_ _)
    exact List.forall_mem_cons.2 ⟨fun _ => hkey, List.forall_mem_singleton.2 fun _ => hitems⟩
  | rename old new =>
    -- The old name is neither spelling, so both look for the same name.
    obtain ⟨hold, hnew⟩ := hs
    have hmarked : markedReference old = old := if_neg hold
    simp only [apply, Operation.marked, hmarked]
    refine h.returnItems.bind fun items others hitems => ?_
    have hrenamed := Columns.Alike.renameItem hold hnew hitems
    generalize renameItem (unqualified old) (unqualified new) items = found at hrenamed ⊢
    generalize renameItem (unqualified old) (unqualified new) others = found' at hrenamed ⊢
    cases hrenamed with
    | none => exact .error _ _
    | some hitems => exact .ok (h.withReturns hitems)
  | orderBy key direction =>
    have hlimited : other.isLimited = draft.isLimited := by cases h; rfl
    simp only [apply, Operation.marked]
    refine .unless hlimited <| (h.sortTarget_marked hplain key).bind fun target _ htarget => ?_
    subst htarget
    cases h with
    | mk h ho => exact .ok (.mk h ho)
  | edge name inner => exact .ok h
  | union queries => exact .ok h

end Draft.Alike

end Operations

/-! ### Whole queries -/

section Queries

variable {naming : String → String} {catalog : Catalog} {draft other : Draft}

namespace Draft.Alike

lemma endEdge (h : draft.Alike other) (following : Following) :
    Cypher.Alike Draft.Alike (draft.endEdge naming catalog following)
      (other.endEdge naming catalog following) := by
  cases h with
  | mk h ho => exact .after _ fun _ _ => .ok (.mk .none ho)

lemma arrive (h : draft.Alike other) (following : Option Following) :
    Cypher.Alike Draft.Alike (draft.arrive naming catalog following)
      (other.arrive naming catalog following) := by
  cases following with
  | none => exact .ok h
  | some edge => exact h.endEdge edge

lemma requireSingle_eq (h : draft.Alike other) : other.requireSingle = draft.requireSingle := by
  cases h with
  | mk h ho =>
    unfold requireSingle
    cases hothers : draft.others with
    | nil =>
      rw [hothers] at ho
      cases ho
      rfl
    | cons part rest =>
      rw [hothers] at ho
      cases ho
      rfl

lemma beginEdge_eq (h : draft.Alike other) (traversed : Bool) (name : String) :
    other.beginEdge catalog traversed name = draft.beginEdge catalog traversed name := by
  cases h
  rfl

end Draft.Alike

lemma any_isEdge_marked (steps : List Operation) :
    (Operation.markedSteps steps).any Operation.isEdge = steps.any Operation.isEdge := by
  induction steps with
  | nil => rfl
  | cons step rest ih =>
    rw [Operation.markedSteps, List.any_cons, List.any_cons, ih]
    cases step <;> rfl

lemma followAgain_marked (following : Draft.Following) (steps : List Operation) :
    Draft.followAgain following (Operation.markedSteps steps)
      = Draft.followAgain following steps := by
  show (if (Operation.markedSteps steps).any Operation.isEdge = true then _ else _)
    = (if steps.any Operation.isEdge = true then _ else _)
  rw [any_isEdge_marked]

/-- An operation that neither follows an edge nor appends results is applied where the path
arrives. -/
lemma run_plain {following : Option Draft.Following} {traversed : Bool} {step : Operation}
    {rest : List Operation} (he : ∀ name inner, step ≠ .edge name inner)
    (hu : ∀ queries, step ≠ .union queries) :
    draft.run naming catalog following traversed (step :: rest) = (do
      let draft ← draft.arrive naming catalog following
      draft.requireSingle
      Draft.run naming catalog none traversed (← draft.apply catalog step) rest) := by
  rw [Draft.run]
  · exact he
  · exact hu

namespace Draft.Alike

lemma step_marked (h : draft.Alike other)
    (hplain : ∀ name type, catalog.type? name = some type → type.PlainIdentity)
    {following : Option Following} {traversed : Bool} {step : Operation} {rest : List Operation}
    (he : ∀ name inner, step ≠ .edge name inner) (hu : ∀ queries, step ≠ .union queries)
    (hs : step.SparesColumns)
    (hrest : ∀ {draft other : Draft}, draft.Alike other →
      Cypher.Alike Draft.Alike (draft.run naming catalog none traversed rest)
        (other.run naming catalog none traversed (Operation.markedSteps rest))) :
    Cypher.Alike Draft.Alike (draft.run naming catalog following traversed (step :: rest))
      (other.run naming catalog following traversed (Operation.markedSteps (step :: rest))) := by
  have hmarked : (∀ name inner, step.marked ≠ .edge name inner) ∧
      ∀ queries, step.marked ≠ .union queries := by
    cases step with
    | edge name inner => exact absurd rfl (he name inner)
    | union queries => exact absurd rfl (hu queries)
    | project | filter | take | skip | count | nest | rename | orderBy | groupBy =>
      exact ⟨by rintro _ _ ⟨⟩, by rintro _ ⟨⟩⟩
  rw [Operation.markedSteps, run_plain he hu, run_plain hmarked.1 hmarked.2]
  refine (h.arrive following).bind fun draft other h => ?_
  rw [h.requireSingle_eq]
  refine .after _ fun _ _ => (h.apply_marked hplain hs).bind fun draft other h => hrest h

end Draft.Alike

/-- The draft of a source has no columns yet. -/
lemma ofSource_alike {source : Source} (h : Draft.ofSource catalog source = .ok draft) :
    draft.Alike draft := by
  obtain ⟨type, -, h⟩ := Compile.bind_eq_ok.1 h
  rcases restrict_ok h with rfl | ⟨property, values, -, rfl⟩
  · exact .mk .none .nil
  · exact .mk .none .nil

lemma ofQuery_marked {source : Source} {operations : List Operation}
    (hrun : ∀ {first : Draft}, first.Alike first →
      Alike Draft.Alike (first.run naming catalog none false operations)
        (first.run naming catalog none false (Operation.markedSteps operations))) :
    Alike Draft.Alike (Draft.ofQuery naming catalog ⟨source, operations⟩)
      (Draft.ofQuery naming catalog ⟨source, Operation.markedSteps operations⟩) := by
  rw [Draft.ofQuery, Draft.ofQuery]
  exact .after _ fun first hfirst => hrun (ofSource_alike hfirst)

mutual

lemma run_marked (hplain : ∀ name type, catalog.type? name = some type → type.PlainIdentity) :
    ∀ (steps : List Operation) {following : Option Draft.Following} {traversed : Bool}
      {draft other : Draft}, draft.Alike other →
      Operation.stepsThroughout Operation.SparesColumns steps →
      Alike Draft.Alike (draft.run naming catalog following traversed steps)
        (other.run naming catalog following traversed (Operation.markedSteps steps))
  | [], following, traversed, draft, other, h, _ => h.arrive following
  | .edge name inner :: rest, following, traversed, draft, other, h, hs => by
    have hinner {following traversed} {draft other : Draft} (h : draft.Alike other) :
        Alike Draft.Alike (draft.run naming catalog following traversed inner)
          (other.run naming catalog following traversed (Operation.markedSteps inner)) :=
      run_marked hplain inner h hs.1.2
    have hrest {following traversed} {draft other : Draft} (h : draft.Alike other) :
        Alike Draft.Alike (draft.run naming catalog following traversed rest)
          (other.run naming catalog following traversed (Operation.markedSteps rest)) :=
      run_marked hplain rest h hs.2
    rw [Operation.markedSteps, Operation.marked]
    cases following with
    | none =>
      simp only [Draft.run, h.requireSingle_eq, h.beginEdge_eq]
      refine .after _ fun _ _ => .after _ fun next _ => ?_
      exact (hinner h).bind fun _ _ h => hrest h
    | some edge =>
      simp only [Draft.run]
      split
      · -- One more hop over the edge that is being followed leaves the draft as it is.
        rw [followAgain_marked]
        refine .after _ fun again _ => ?_
        exact (hinner h).bind fun _ _ h => hrest h
      · refine (h.endEdge edge).bind fun draft other h => ?_
        rw [h.beginEdge_eq]
        refine .after _ fun next _ => ?_
        exact (hinner h).bind fun _ _ h => hrest h
  | .union queries :: rest, following, traversed, draft, other, h, hs => by
    simp only [Operation.markedSteps, Operation.marked, Draft.run]
    refine (h.arrive following).bind fun draft other h => ?_
    rw [h.requireSingle_eq]
    refine .after _ fun _ _ => (branches_marked hplain queries hs.1.2).bind fun _ _ hparts => ?_
    refine run_marked hplain rest ?_ hs.2
    cases h with
    | mk h ho => exact .mk h hparts
  | .project fields :: rest, _, _, _, _, h, hs | .filter predicate :: rest, _, _, _, _, h, hs
  | .take n :: rest, _, _, _, _, h, hs | .skip n :: rest, _, _, _, _, h, hs
  | .count :: rest, _, _, _, _, h, hs | .nest key :: rest, _, _, _, _, h, hs
  | .rename old new :: rest, _, _, _, _, h, hs | .orderBy key direction :: rest, _, _, _, _, h, hs
  | .groupBy key :: rest, _, _, _, _, h, hs =>
    h.step_marked hplain (by rintro _ _ ⟨⟩) (by rintro _ ⟨⟩) hs.1.here fun h =>
      run_marked hplain rest h hs.2

lemma branches_marked
    (hplain : ∀ name type, catalog.type? name = some type → type.PlainIdentity) :
    ∀ queries : List Query, Operation.branchesThroughout Operation.SparesColumns queries →
      Alike (List.Forall₂ Part.Alike) (Draft.branches naming catalog queries)
        (Draft.branches naming catalog (Operation.markedBranches queries))
  | [], _ => .ok .nil
  | ⟨source, operations⟩ :: rest, hs => by
    rw [Operation.markedBranches, Draft.branches, Draft.branches]
    refine (ofQuery_marked fun h => run_marked hplain operations h hs.1).bind
      fun draft other h => ?_
    refine (branches_marked hplain rest hs.2).bind fun parts others hparts => .ok ?_
    cases h with
    | mk h ho => exact .cons (.mk h) (List.rel_append ho hparts)

end

/-- A query and its marked form are refused together, or are the same text. -/
lemma compile_marked (hplain : ∀ name type, catalog.type? name = some type → type.PlainIdentity)
    {query : Query} (hs : query.Throughout Operation.SparesColumns) :
    (compile catalog query.marked naming).toOption.map Statement.text
      = (compile catalog query naming).toOption.map Statement.text := by
  have hquery : Alike Draft.Alike (Draft.ofQuery naming catalog query)
      (Draft.ofQuery naming catalog query.marked) := by
    obtain ⟨source, operations⟩ := query
    exact ofQuery_marked fun h => run_marked hplain operations h hs
  rw [compile, compile]
  generalize Draft.ofQuery naming catalog query = x at hquery ⊢
  generalize Draft.ofQuery naming catalog query.marked = y at hquery ⊢
  cases hquery with
  | ok h => exact congrArg some h.text_eq
  | error => rfl

end Queries

end Cypher
end ObjectGraph
