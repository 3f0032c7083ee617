/-
# Builds side by side

Two builds mirror each other if they fail together and, when they do not, the second result is
the image of the first.  Compiling conditions looks at the kind of a literal and at the type of
the field, never at the characters of a string: the conditions of a predicate and of the same
predicate with other strings mirror each other.
-/
import ObjectGraph.Proofs.Compile.Build
import ObjectGraph.Proofs.Sql.Strings

namespace ObjectGraph

/-! ### Other strings in a query -/

/-- The literal with its text changed if it is a string. -/
def Literal.mapString (f : String → String) : Literal → Literal
  | string s => string (f s)
  | literal => literal

mutual

/-- The predicate with another string in the place of each literal one. -/
def Predicate.mapStrings (f : String → String) : Predicate → Predicate
  | all parts => all (mapStringsParts f parts)
  | any parts => any (mapStringsParts f parts)
  | negation part => negation (part.mapStrings f)
  | comparison field operator value => comparison field operator (value.mapString f)
  | oneOf field values => oneOf field (values.map (Literal.mapString f))
  | isNull field => isNull field

/-- The parts with their strings changed. -/
def Predicate.mapStringsParts (f : String → String) : List Predicate → List Predicate
  | [] => []
  | part :: rest => part.mapStrings f :: mapStringsParts f rest

end

mutual

/-- The operation with another string in the place of each literal one in its predicates. -/
def Operation.mapStrings (f : String → String) : Operation → Operation
  | .filter predicate => .filter (predicate.mapStrings f)
  | .edge name operations => .edge name (mapStringsSteps f operations)
  | .union queries => .union (mapStringsBranches f queries)
  | .project fields => .project fields
  | .take n => .take n
  | .skip n => .skip n
  | .count => .count
  | .nest key => .nest key
  | .rename old new => .rename old new
  | .orderBy key direction => .orderBy key direction
  | .groupBy key => .groupBy key

/-- The operations with their strings changed. -/
def Operation.mapStringsSteps (f : String → String) : List Operation → List Operation
  | [] => []
  | step :: rest => step.mapStrings f :: mapStringsSteps f rest

/-- The queries with their strings changed. -/
def Operation.mapStringsBranches (f : String → String) : List Query → List Query
  | [] => []
  | ⟨source, operations⟩ :: rest =>
    ⟨source, mapStringsSteps f operations⟩ :: mapStringsBranches f rest

end

/-- The query with another string in the place of each literal one in its predicates, those of
edges and unions included. -/
def Query.mapStrings (f : String → String) (query : Query) : Query :=
  { query with operations := Operation.mapStringsSteps f query.operations }

namespace Compile

open Sql (Expression Relation Select SelectList SortKey TableAlias)

/-! ### Computations side by side -/

variable {α β γ δ : Type}

/-- Two computations succeed together, the second one with the image of the result of the
first. -/
def Mirrors {ε : Type} (g : α → β) (x : Except ε α) (y : Except ε β) : Prop :=
  y.toOption = x.toOption.map g

lemma Mirrors.bind {ε : Type} {g : α → β} {h : γ → δ} {x : Except ε α} {y : Except ε β}
    {u : α → Except ε γ} {v : β → Except ε δ} (hxy : Mirrors g x y)
    (huv : ∀ a, Mirrors h (u a) (v (g a))) : Mirrors h (x >>= u) (y >>= v) := by
  cases x with
  | error e =>
    cases y with
    | error e' => rfl
    | ok b => exact absurd hxy (by simp [Mirrors, Except.toOption])
  | ok a =>
    cases y with
    | error e' => exact absurd hxy (by simp [Mirrors, Except.toOption])
    | ok b =>
      have hb : b = g a := by simpa [Mirrors, Except.toOption] using hxy
      subst hb
      exact huv a

/-- Checks that do not look at strings are the same on both sides. -/
lemma mirrors_same {ε : Type} (x : Except ε α) : Mirrors id x x := by
  simp [Mirrors]

/-- What follows needs to be compared only where it is reached. -/
lemma Mirrors.bind_of_ok {ε : Type} {x y : Except ε α} {u v : α → Except ε β}
    (hxy : Mirrors id x y) (huv : ∀ a, x = .ok a → Mirrors id (u a) (v a)) :
    Mirrors id (x >>= u) (y >>= v) := by
  cases x with
  | error e =>
    cases y with
    | error e' => rfl
    | ok b => cases hxy
  | ok a =>
    cases y with
    | error e' => cases hxy
    | ok b =>
      obtain rfl : b = a := Option.some.inj hxy
      exact huv b rfl

lemma Mirrors.map {ε : Type} {g : α → β} {h : γ → δ} {x : Except ε α} {y : Except ε β}
    {u : α → γ} {v : β → δ} (hxy : Mirrors g x y) (huv : ∀ a, v (g a) = h (u a)) :
    Mirrors h (x.map u) (y.map v) := by
  have hbind : Mirrors h (x >>= fun a => .ok (u a)) (y >>= fun b => .ok (v b)) := by
    refine hxy.bind fun a => ?_
    rw [huv]
    rfl
  cases x <;> cases y <;> exact hbind

lemma mirrors_ok {ε : Type} {g : α → β} (a : α) :
    Mirrors g (.ok a : Except ε α) (.ok (g a)) := rfl

lemma mirrors_error {ε : Type} {g : α → β} (e e' : ε) :
    Mirrors g (.error e : Except ε α) (.error e') := rfl

/-- Two builds succeed together after any uses of names, with the same uses afterwards and the
second one with the image of the result of the first. -/
def BuildMirrors (g : α → β) (x : Build α) (y : Build β) : Prop :=
  ∀ counts, Mirrors (Prod.map g id) (x.run counts) (y.run counts)

lemma BuildMirrors.bind {g : α → β} {h : γ → δ} {x : Build α} {y : Build β}
    {u : α → Build γ} {v : β → Build δ} (hxy : BuildMirrors g x y)
    (huv : ∀ a, BuildMirrors h (u a) (v (g a))) : BuildMirrors h (x >>= u) (y >>= v) := by
  intro counts
  rw [StateT.run_bind, StateT.run_bind]
  exact (hxy counts).bind fun r => huv r.1 r.2

lemma buildMirrors_pure {g : α → β} (a : α) : BuildMirrors g (pure a) (pure (g a)) :=
  fun _ => rfl

lemma buildMirrors_lift {g : α → β} {x : Except CompileError α} {y : Except CompileError β}
    (h : Mirrors g x y) : BuildMirrors g (liftM x) (liftM y) :=
  fun counts => h.bind fun a => mirrors_ok (a, counts)

lemma buildMirrors_throw {g : α → β} (e e' : CompileError) :
    BuildMirrors g (throw e) (throw e') := fun _ => rfl

lemma BuildMirrors.bind_of_ok {x y : Build α} {u v : α → Build β} (hxy : BuildMirrors id x y)
    (huv : ∀ a counts last, x.run counts = .ok (a, last) → BuildMirrors id (u a) (v a)) :
    BuildMirrors id (x >>= u) (y >>= v) := by
  intro counts
  rw [StateT.run_bind, StateT.run_bind]
  exact (hxy counts).bind_of_ok fun r hr => huv r.1 counts r.2 hr r.2

/-- What does not depend on strings is the same on both sides. -/
lemma buildMirrors_same (x : Build α) : BuildMirrors id x x := by
  intro counts
  simp [Mirrors]

/-! ### Drafts -/

/-- The column with other strings in its expression. -/
def Column.mapStrings (f : String → String) (column : Column) : Column :=
  { column with expression := column.expression.mapStrings f }

/-- The draft with other strings in all its clauses. -/
def Draft.mapStrings (f : String → String) (draft : Draft) : Draft :=
  { draft with
    relation := draft.relation.mapStrings f
    columns := draft.columns.map (Column.mapStrings f)
    condition := draft.condition.mapStrings f
    groupBy := draft.groupBy.map (Expression.mapStrings f)
    orderBy := draft.orderBy.map (SortKey.mapStrings f) }

/-- The tie with the strings in its expressions changed. -/
def Tie.mapStrings (f : String → String) : Tie → Tie
  | .columns pairs => .columns (pairs.map fun pair => (pair.1, pair.2.mapStrings f))
  | .through table source target row => .through table source target (row.mapStrings f)

variable (f : String → String)

lemma both_mapStrings (left right : Expression) :
    (left.both right).mapStrings f = (left.mapStrings f).both (right.mapStrings f) := by
  unfold Expression.both
  rw [Sql.isTrue_mapStrings, Sql.isTrue_mapStrings]
  split
  · rfl
  · split <;> rfl

lemma handle_mapStrings (relation : Relation) :
    (relation.mapStrings f).handle = relation.handle := by
  cases relation <;> rfl

namespace Draft

variable {f} {catalog : Catalog} (draft : Draft)

lemma finish_mapStrings : (draft.mapStrings f).finish = draft.finish.mapStrings f := by
  simp only [finish, mapStrings, Select.mapStrings, SelectList.mapStrings,
    Sql.mapStringsOutputs_eq, Sql.mapStringsList_eq, Sql.mapStringsKeys_eq, List.map_map]
  rfl

lemma wrapped_mapStrings (handle : TableAlias) :
    (draft.wrapped handle).mapStrings f = (draft.mapStrings f).wrapped handle := by
  simp only [wrapped, finish_mapStrings]
  simp only [mapStrings, Relation.mapStrings, List.map_map, List.map_nil]
  rfl

lemma names_mapStrings : (draft.mapStrings f).names = draft.names := by
  simp only [names, mapStrings, List.map_map]
  rfl

lemma column?_mapStrings (reference : String) :
    (draft.mapStrings f).column? reference
      = (draft.column? reference).map (Column.mapStrings f) := by
  simp only [column?, mapStrings, List.find?_map]
  rfl

lemma wrap_mirrors : BuildMirrors (mapStrings f) draft.wrap (draft.mapStrings f).wrap := by
  refine (buildMirrors_same (freshAlias "t")).bind fun handle => ?_
  have h := buildMirrors_pure (g := mapStrings f) (draft.wrapped handle)
  rw [wrapped_mapStrings] at h
  exact h

lemma wrapIf_mirrors (condition : Bool) :
    BuildMirrors (mapStrings f) (draft.wrapIf condition)
      ((draft.mapStrings f).wrapIf condition) := by
  cases condition with
  | false => exact buildMirrors_pure draft
  | true => exact draft.wrap_mirrors

lemma opened_mirrors : BuildMirrors (mapStrings f) draft.opened (draft.mapStrings f).opened :=
  draft.wrapIf_mirrors _

lemma unlimited_mirrors :
    BuildMirrors (mapStrings f) draft.unlimited (draft.mapStrings f).unlimited :=
  draft.wrapIf_mirrors _

/-- References are looked up by names and types, which have no strings in them. -/
lemma resolve_mirrors (reference : String) :
    Mirrors (Prod.map (Expression.mapStrings f) id) (draft.resolve catalog reference)
      ((draft.mapStrings f).resolve catalog reference) := by
  simp only [resolve, column?_mapStrings]
  cases draft.column? (unqualified reference) with
  | some column => exact mirrors_ok _
  | none =>
    have hsame : Mirrors id (draft.storedField? catalog (unqualified reference))
        ((draft.mapStrings f).storedField? catalog (unqualified reference)) := by
      simp only [storedField?, mapStrings, Mirrors, Option.map_id, id]
    refine hsame.bind fun field => ?_
    cases field with
    | none => exact mirrors_error _ _
    | some field =>
      have hhandle : (draft.mapStrings f).handle = draft.handle :=
        handle_mapStrings f draft.relation
      rw [id, hhandle]
      exact mirrors_ok _

end Draft

/-! ### Conditions -/

section Conditions

variable {f} {catalog : Catalog} (draft : Draft)

lemma literal_mirrors (field : String) (type : Option ScalarType) (value : Literal) :
    Mirrors (Expression.mapStrings f) (literal field type value)
      (literal field type (value.mapString f)) := by
  have hfinite : nonFinite? (value.mapString f) = nonFinite? value := by cases value <;> rfl
  have huntyped : untyped (value.mapString f) = (untyped value).mapString f := by
    cases value <;> rfl
  unfold literal
  rw [hfinite]
  cases nonFinite? value with
  | some x => exact mirrors_error _ _
  | none =>
    cases type with
    | none =>
      simp only [huntyped]
      exact mirrors_ok _
    | some type =>
      have hsuitable : suitable? type (value.mapString f)
          = (suitable? type value).map (Expression.mapStrings f) := by
        cases value with
        | null => rfl
        | boolean b | integer i | float x =>
          simp only [Literal.mapString, suitable?]
          split <;> rfl
        | string s =>
          simp only [Literal.mapString, suitable?]
          split
          · rfl
          · split <;> rfl
      simp only [hsuitable]
      cases suitable? type value with
      | none => exact mirrors_error _ _
      | some e => exact mirrors_ok _

lemma literals_mirrors (field : String) (type : Option ScalarType) (values : List Literal) :
    Mirrors (List.map (Expression.mapStrings f)) (literals field type values)
      (literals field type (values.map (Literal.mapString f))) := by
  induction values with
  | nil => exact mirrors_ok _
  | cons value rest ih =>
    refine (literal_mirrors field type value).bind fun e => ?_
    exact ih.bind fun es => mirrors_ok (e :: es)

lemma nullCheck_mirrors (field : String) (operator : ComparisonOperator) (e : Expression) :
    Mirrors (Expression.mapStrings f) (nullCheck field operator e)
      (nullCheck field operator (e.mapStrings f)) := by
  cases operator <;> first | exact mirrors_ok _ | exact mirrors_error _ _

lemma comparison_mirrors (field : String) (operator : ComparisonOperator) (value : Literal) :
    Mirrors (Expression.mapStrings f) (comparison catalog draft field operator value)
      (comparison catalog (draft.mapStrings f) field operator (value.mapString f)) := by
  refine (draft.resolve_mirrors field).bind fun target => ?_
  obtain ⟨e, type⟩ := target
  -- What follows for every literal but `null`, which has a branch of its own.
  have hchecked (value : Literal) : Mirrors (Expression.mapStrings f)
      (do
        checkOperator field operator type
        return .comparison e (Sql.operatorText operator) (← literal field type value))
      (do
        checkOperator field operator type
        return .comparison (e.mapStrings f) (Sql.operatorText operator)
          (← literal field type (value.mapString f))) := by
    refine (mirrors_same (checkOperator field operator type)).bind fun _ => ?_
    exact (literal_mirrors field type value).bind fun right =>
      mirrors_ok (Expression.comparison e (Sql.operatorText operator) right)
  cases value with
  | null => exact nullCheck_mirrors field operator e
  | boolean b => exact hchecked (.boolean b)
  | integer i => exact hchecked (.integer i)
  | float x => exact hchecked (.float x)
  | string s => exact hchecked (.string s)

lemma membership_mirrors (field : String) (values : List Literal) :
    Mirrors (Expression.mapStrings f) (membership catalog draft field values)
      (membership catalog (draft.mapStrings f) field (values.map (Literal.mapString f))) := by
  refine (draft.resolve_mirrors field).bind fun target => ?_
  obtain ⟨e, type⟩ := target
  refine (mirrors_same (checkOperator field .equals type)).bind fun _ => ?_
  cases values with
  | nil => exact mirrors_ok Expression.false
  | cons value rest =>
    refine (literals_mirrors field type (value :: rest)).bind fun es => ?_
    have h := mirrors_ok (ε := CompileError) (g := Expression.mapStrings f) (.isIn e es)
    simp only [Expression.mapStrings, Sql.mapStringsList_eq] at h
    exact h

mutual

lemma condition_mirrors : ∀ predicate : Predicate,
    Mirrors (Expression.mapStrings f) (condition catalog draft predicate)
      (condition catalog (draft.mapStrings f) (predicate.mapStrings f))
  | .all parts => by
    simp only [Predicate.mapStrings, condition]
    exact conjunction_mirrors parts .true
  | .any [] => by
    simp only [Predicate.mapStrings, Predicate.mapStringsParts, condition]
    exact mirrors_ok Expression.false
  | .any (part :: rest) => by
    simp only [Predicate.mapStrings, Predicate.mapStringsParts, condition]
    exact (condition_mirrors part).bind fun e => disjunction_mirrors rest e
  | .negation part => by
    simp only [Predicate.mapStrings, condition]
    exact (condition_mirrors part).bind fun e => mirrors_ok (Expression.not e)
  | .comparison field operator value => by
    simp only [Predicate.mapStrings, condition]
    exact comparison_mirrors draft field operator value
  | .oneOf field values => by
    simp only [Predicate.mapStrings, condition]
    exact membership_mirrors draft field values
  | .isNull field => by
    simp only [Predicate.mapStrings, condition]
    exact (draft.resolve_mirrors field).bind fun target => mirrors_ok (Expression.isNull target.1)

lemma conjunction_mirrors : ∀ (parts : List Predicate) (before : Expression),
    Mirrors (Expression.mapStrings f) (conjunction catalog draft before parts)
      (conjunction catalog (draft.mapStrings f) (before.mapStrings f)
        (Predicate.mapStringsParts f parts))
  | [], before => by
    simp only [Predicate.mapStringsParts, conjunction]
    exact mirrors_ok before
  | part :: rest, before => by
    simp only [Predicate.mapStringsParts, conjunction]
    refine (condition_mirrors part).bind fun e => ?_
    rw [← both_mapStrings]
    exact conjunction_mirrors rest (before.both e)

lemma disjunction_mirrors : ∀ (parts : List Predicate) (before : Expression),
    Mirrors (Expression.mapStrings f) (disjunction catalog draft before parts)
      (disjunction catalog (draft.mapStrings f) (before.mapStrings f)
        (Predicate.mapStringsParts f parts))
  | [], before => by
    simp only [Predicate.mapStringsParts, disjunction]
    exact mirrors_ok before
  | part :: rest, before => by
    simp only [Predicate.mapStringsParts, disjunction]
    exact (condition_mirrors part).bind fun e => disjunction_mirrors rest (.or before e)

end

end Conditions

end Compile
end ObjectGraph
