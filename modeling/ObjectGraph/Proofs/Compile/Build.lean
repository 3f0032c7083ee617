/-
# Builds that succeed

Building a draft takes fresh aliases and may fail.  For every operation on drafts this file says
what a build that succeeds went through: which draft it was given after wrapping, what was
looked up, and which draft came out.  Later files reason about these facts and do not open the
operations themselves.
-/
import ObjectGraph.Compile.Select
import ObjectGraph.Proofs.Sql.Scope

namespace ObjectGraph.Compile

open Sql (Expression Select SelectList TableAlias)

variable {α β : Type} {counts last : AliasCounts} {catalog : Catalog} {draft result : Draft}

/-! ### Steps of a build -/

lemma bind_eq_ok {ε : Type} {x : Except ε α} {f : α → Except ε β} {b : β} :
    (x >>= f) = .ok b ↔ ∃ a, x = .ok a ∧ f a = .ok b := by
  cases x <;> simp [bind, Except.bind]

lemma pure_eq_ok {ε : Type} {a b : α} : (pure a : Except ε α) = .ok b ↔ a = b := by
  simp [pure, Except.pure]

lemma map_eq_ok {ε : Type} {x : Except ε α} {f : α → β} {b : β} :
    x.map f = .ok b ↔ ∃ a, x = .ok a ∧ f a = b := by
  cases x <;> simp [Except.map]

lemma exists_of_isOk {ε : Type} {x : Except ε α} (h : x.isOk = true) : ∃ a, x = .ok a := by
  cases x with
  | error e => simp [Except.isOk, Except.toBool] at h
  | ok a => exact ⟨a, rfl⟩

lemma run_pure_eq_ok {a b : α} :
    (pure a : Build α).run counts = .ok (b, last) ↔ b = a ∧ last = counts := by
  have h : (pure a : Build α).run counts = .ok (a, counts) := rfl
  rw [h, Except.ok.injEq, Prod.mk.injEq, eq_comm, eq_comm (b := last)]

lemma run_bind_eq_ok {x : Build α} {f : α → Build β} {b : β} :
    (x >>= f).run counts = .ok (b, last) ↔
      ∃ a between, x.run counts = .ok (a, between) ∧ (f a).run between = .ok (b, last) := by
  rw [StateT.run_bind, bind_eq_ok]
  simp only [Prod.exists]

lemma run_lift_eq_ok {e : Except CompileError α} {a : α} :
    (liftM e : Build α).run counts = .ok (a, last) ↔ e = .ok a ∧ last = counts := by
  have h : (liftM e : Build α).run counts = e >>= fun a => pure (a, counts) := rfl
  rw [h, bind_eq_ok]
  simp only [pure_eq_ok, Prod.mk.injEq]
  constructor
  · rintro ⟨b, hb, rfl, rfl⟩
    exact ⟨hb, rfl⟩
  · rintro ⟨hb, rfl⟩
    exact ⟨a, hb, rfl, rfl⟩

lemma run_throw_eq_ok {e : CompileError} {a : α} :
    (throw e : Build α).run counts = .ok (a, last) ↔ False := by
  simp [throw, throwThe, MonadExceptOf.throw, StateT.run, StateT.lift, bind, Except.bind]

/-- The alias that is fresh after the given uses of names. -/
def nextAlias (counts : AliasCounts) (name : String) : TableAlias :=
  ⟨name, (counts.lookup name).getD 0⟩

/-- The uses of names after one more of the given name. -/
def countAlias (counts : AliasCounts) (name : String) : AliasCounts :=
  Named.put name ((counts.lookup name).getD 0 + 1) counts

lemma run_freshAlias_eq_ok {name : String} {handle : TableAlias} :
    (freshAlias name).run counts = .ok (handle, last) ↔
      handle = nextAlias counts name ∧ last = countAlias counts name := by
  have h : (freshAlias name).run counts = .ok (nextAlias counts name, countAlias counts name) := rfl
  rw [h, Except.ok.injEq, Prod.mk.injEq, eq_comm, eq_comm (b := last)]

/-! ### Wrapping -/

namespace Draft

lemma names_finish (draft : Draft) : draft.finish.list.names = draft.names := by
  simp only [finish, SelectList.names, names, List.map_map]
  rfl

/-- The draft over the rows of another one, which it reads through an alias. -/
def wrapped (draft : Draft) (handle : TableAlias) : Draft where
  relation := .derived draft.finish handle
  columns := draft.columns.map (·.through handle)
  type := draft.type

lemma wrap_ok (h : draft.wrap.run counts = .ok (result, last)) :
    last = countAlias counts "t" ∧ result = draft.wrapped (nextAlias counts "t") := by
  simp only [wrap, run_bind_eq_ok, run_freshAlias_eq_ok, run_pure_eq_ok] at h
  obtain ⟨_, _, ⟨rfl, rfl⟩, rfl, rfl⟩ := h
  exact ⟨rfl, rfl⟩

/-- What a draft becomes when it is wrapped under a condition. -/
inductive Wraps (counts : AliasCounts) (draft : Draft) : Bool → Draft → AliasCounts → Prop
  | kept : Wraps counts draft false draft counts
  | wrapped : Wraps counts draft true (draft.wrapped (nextAlias counts "t")) (countAlias counts "t")

namespace Wraps

variable {base : Draft}

/-- What an operation that needs an open draft is given. -/
lemma isOpen (hw : Wraps counts draft draft.isSealed base last) : base.isSealed = false := by
  generalize hb : draft.isSealed = b at hw
  cases hw with
  | kept => exact hb
  | wrapped => rfl

/-- What an operation that needs an open draft without limits is given. -/
lemma opened (hw : Wraps counts draft (draft.isLimited || draft.isSealed) base last) :
    base.limit = none ∧ base.offset = none ∧ base.isSealed = false := by
  generalize hb : (draft.isLimited || draft.isSealed) = b at hw
  cases hw with
  | kept => simpa [isLimited, and_assoc] using hb
  | wrapped => exact ⟨rfl, rfl, rfl⟩

/-- What an operation that needs an open draft without an upper limit is given. -/
lemma unlimited (hw : Wraps counts draft (draft.limit.isSome || draft.isSealed) base last) :
    base.limit = none ∧ base.isSealed = false := by
  generalize hb : (draft.limit.isSome || draft.isSealed) = b at hw
  cases hw with
  | kept => simpa using hb
  | wrapped => exact ⟨rfl, rfl⟩

end Wraps

lemma wrapIf_ok {condition : Bool} (h : (draft.wrapIf condition).run counts = .ok (result, last)) :
    Wraps counts draft condition result last := by
  cases condition with
  | false =>
    simp only [wrapIf, Bool.false_eq_true, if_false, run_pure_eq_ok] at h
    obtain ⟨rfl, rfl⟩ := h
    exact .kept
  | true =>
    simp only [wrapIf, if_true] at h
    obtain ⟨rfl, rfl⟩ := wrap_ok h
    exact .wrapped

lemma opened_ok (h : draft.opened.run counts = .ok (result, last)) :
    Wraps counts draft (draft.isLimited || draft.isSealed) result last :=
  wrapIf_ok h

lemma unlimited_ok (h : draft.unlimited.run counts = .ok (result, last)) :
    Wraps counts draft (draft.limit.isSome || draft.isSealed) result last :=
  wrapIf_ok h

/-! ### References -/

/-- A reference is resolved to the column it means or, while the table is read and no column is
meant, to a field of it. -/
lemma resolve_ok {reference : String} {target : Expression × Option ScalarType}
    (h : draft.resolve catalog reference = .ok target) :
    (∃ column, draft.column? (unqualified reference) = some column ∧
        target = (column.expression, column.type)) ∨
      draft.column? (unqualified reference) = none ∧ draft.readsTable = true ∧
        ∃ field : Field, target = (.column draft.handle field.column, some field.type) := by
  simp only [resolve] at h
  split at h
  · rename_i column hc
    exact .inl ⟨column, hc, (pure_eq_ok.1 h).symm⟩
  · rename_i hc
    obtain ⟨found, hf, h⟩ := bind_eq_ok.1 h
    cases hreads : draft.readsTable with
    | false =>
      simp only [storedField?, hreads, pure_eq_ok] at hf
      subst hf
      cases h
    | true =>
      cases found with
      | none => cases h
      | some field => exact .inr ⟨hc, rfl, field, (pure_eq_ok.1 h).symm⟩

/-! ### Operations on a single draft -/

lemma project_ok {fields : List String} (h : draft.project fields = .ok result) :
    ∃ columns, draft.pick [] fields = .ok columns ∧ result = { draft with columns } := by
  simp only [project, bind_eq_ok, pure_eq_ok] at h
  obtain ⟨columns, hc, rfl⟩ := h
  exact ⟨columns, hc, rfl⟩

/-- What is picked for references, behind what was picked before: the column that each of them
means, unless one of its name is there. -/
inductive Picks (draft : Draft) : List Column → List String → List Column → Prop
  | done (picked : List Column) : Picks draft picked [] picked
  | again {picked columns : List Column} {reference : String} {rest : List String} {column : Column}
      (hc : draft.column? (unqualified reference) = some column)
      (hin : column.name ∈ picked.map (·.name)) (h : Picks draft picked rest columns) :
      Picks draft picked (reference :: rest) columns
  | new {picked columns : List Column} {reference : String} {rest : List String} {column : Column}
      (hc : draft.column? (unqualified reference) = some column)
      (hin : column.name ∉ picked.map (·.name))
      (h : Picks draft (picked ++ [column]) rest columns) :
      Picks draft picked (reference :: rest) columns

lemma picks_of_pick {fields : List String} {picked columns : List Column}
    (h : draft.pick picked fields = .ok columns) : draft.Picks picked fields columns := by
  induction fields generalizing picked with
  | nil =>
    cases h
    exact .done _
  | cons reference rest ih =>
    simp only [pick] at h
    split at h
    · cases h
    · rename_i column hc
      have hnames : picked.any (·.name == column.name) = true ↔
          column.name ∈ picked.map (·.name) := by simp
      simp only [hnames] at h
      split at h
      · rename_i hin
        exact .again hc hin (ih h)
      · rename_i hin
        exact .new hc hin (ih h)

lemma column?_mem {reference : String} {column : Column}
    (h : draft.column? reference = some column) : column ∈ draft.columns :=
  List.mem_of_find?_eq_some h

lemma answersTo_of_column? {reference : String} {column : Column}
    (h : draft.column? reference = some column) : column.answersTo reference = true :=
  List.find?_some (p := fun column : Column => column.answersTo reference) h

lemma Picks.subset {fields : List String} {picked columns : List Column}
    (h : draft.Picks picked fields columns) : columns ⊆ picked ++ draft.columns := by
  induction h with
  | done => exact List.subset_append_left _ _
  | again _ _ _ ih => exact ih
  | new hc _ _ ih =>
    intro column hm
    have hmem := ih hm
    simp only [List.mem_append, List.mem_singleton] at hmem ⊢
    rcases hmem with (hp | rfl) | hd
    · exact .inl hp
    · exact .inr (column?_mem hc)
    · exact .inr hd

/-- Picked columns are columns of the draft. -/
lemma pick_subset {fields : List String} {columns : List Column}
    (h : draft.pick [] fields = .ok columns) : columns ⊆ draft.columns := (picks_of_pick h).subset

lemma filter_ok {predicate : Predicate}
    (h : (draft.filter catalog predicate).run counts = .ok (result, last)) :
    ∃ base e, Wraps counts draft (draft.isLimited || draft.isSealed) base last ∧
      Compile.condition catalog base predicate = .ok e ∧
      result = { base with condition := base.condition.both e } := by
  simp only [filter, run_bind_eq_ok, run_lift_eq_ok, run_pure_eq_ok] at h
  obtain ⟨base, _, hw, e, _, ⟨he, rfl⟩, rfl, rfl⟩ := h
  exact ⟨base, e, opened_ok hw, he, rfl⟩

lemma take_ok {n : UInt32} (h : (draft.take n).run counts = .ok (result, last)) :
    ∃ base, Wraps counts draft (draft.limit.isSome || draft.isSealed) base last ∧
      result = { base with limit := some n } := by
  simp only [take, run_bind_eq_ok, run_pure_eq_ok] at h
  obtain ⟨base, _, hw, rfl, rfl⟩ := h
  exact ⟨base, unlimited_ok hw, rfl⟩

lemma skip_ok {n : UInt32} (h : (draft.skip n).run counts = .ok (result, last)) :
    ∃ base, Wraps counts draft (draft.limit.isSome || draft.isSealed) base last ∧
      result = { base with offset := some (saturatingAdd (base.offset.getD 0) n) } := by
  simp only [skip, run_bind_eq_ok, run_pure_eq_ok] at h
  obtain ⟨base, _, hw, rfl, rfl⟩ := h
  exact ⟨base, unlimited_ok hw, rfl⟩

lemma count_ok (h : draft.count.run counts = .ok (result, last)) :
    ∃ base, Wraps counts draft (draft.isLimited || draft.isSealed) base last ∧
      result = { base with
        columns := [.computed "count" .countRows (some .bigint)]
        orderBy := []
        type := none
        readsTable := false
        isSealed := true } := by
  simp only [count, run_bind_eq_ok, run_pure_eq_ok] at h
  obtain ⟨base, _, hw, rfl, rfl⟩ := h
  exact ⟨base, opened_ok hw, rfl⟩

lemma nest_ok {key : String} (h : (draft.nest key).run counts = .ok (result, last)) :
    last = countAlias counts "t" ∧
      result = { draft.wrapped (nextAlias counts "t") with
        columns := [.computed key (.jsonArray (nextAlias counts "t"))]
        type := none
        isSealed := true } := by
  simp only [nest, run_bind_eq_ok, run_pure_eq_ok] at h
  obtain ⟨base, _, hw, rfl, rfl⟩ := h
  obtain ⟨rfl, rfl⟩ := wrap_ok hw
  exact ⟨rfl, rfl⟩

lemma rename_ok {old new : String} (h : draft.rename old new = .ok result) :
    ∃ columns, Column.renameFirst (unqualified old) (unqualified new) draft.columns = some columns ∧
      result = { draft with columns, isSealed := true } := by
  simp only [rename] at h
  split at h
  · cases h
  · rename_i columns hc
    simp only [Except.ok.injEq] at h
    exact ⟨columns, hc, h.symm⟩

lemma sortBy_ok {key : String} {direction : Direction}
    (h : (draft.sortBy catalog key direction).run counts = .ok (result, last)) :
    ∃ base target, Wraps counts draft (draft.isLimited || draft.isSealed) base last ∧
      base.resolve catalog key = .ok target ∧
      result = { base with orderBy := ⟨target.1, direction⟩ :: base.orderBy } := by
  simp only [sortBy, run_bind_eq_ok, run_lift_eq_ok, run_pure_eq_ok] at h
  obtain ⟨base, _, hw, target, _, ⟨ht, rfl⟩, rfl, rfl⟩ := h
  exact ⟨base, target, opened_ok hw, ht, rfl⟩

/-- The draft that groups the rows of another one by a cell it reads through an alias. -/
def gathered (draft : Draft) (handle : TableAlias) (target : Expression × Option ScalarType) :
    Draft :=
  { draft.wrapped handle with
    columns := [.computed "key" target.1 target.2, .computed "items" (.jsonRows handle)]
    groupBy := [target.1]
    orderBy := [⟨target.1, .ascending⟩]
    type := none
    isSealed := true }

lemma gatherBy_ok {key : String}
    (h : (draft.gatherBy catalog key).run counts = .ok (result, last)) :
    ∃ target, last = countAlias counts "t" ∧
      (draft.wrapped (nextAlias counts "t")).resolve catalog key = .ok target ∧
      result = draft.gathered (nextAlias counts "t") target := by
  simp only [gatherBy, run_bind_eq_ok, run_lift_eq_ok, run_pure_eq_ok] at h
  obtain ⟨base, _, hw, target, _, ⟨ht, rfl⟩, rfl, rfl⟩ := h
  obtain ⟨rfl, rfl⟩ := wrap_ok hw
  exact ⟨target, rfl, ht, rfl⟩

/-- The draft over the rows of another one and of further ones behind them, which it reads through
an alias. -/
def united (draft : Draft) (branches : List Draft) (handle : TableAlias) : Draft where
  relation := .union (draft.finish :: branches.map finish) handle
  columns := draft.columns.map (·.through handle)
  type := if branches.all (·.type == draft.type) then draft.type else none

lemma union_ok {branches : List Draft}
    (h : (draft.union branches).run counts = .ok (result, last)) :
    last = countAlias counts "t" ∧ result = draft.united branches (nextAlias counts "t") := by
  simp only [union, run_bind_eq_ok, run_freshAlias_eq_ok, run_pure_eq_ok] at h
  obtain ⟨_, _, ⟨rfl, rfl⟩, rfl, rfl⟩ := h
  exact ⟨rfl, rfl⟩

end Draft

/-! ### Conditions -/

section Conditions

variable {field : String} {operator : ComparisonOperator} {value : Literal}
  {values : List Literal} {e : Expression}

/-- A literal becomes the value it is, unless it is a string that stands for a value of another
type. -/
lemma literal_ok {type : Option ScalarType} (h : literal field type value = .ok e) :
    (∃ s t, value = .string s ∧ type = some t ∧ t.isText = false ∧
        e = .cast (.value (.string s)) t.sqlName) ∨
      (∀ s t, value = .string s → type = some t → t.isText = true) ∧
        e = .value (untyped value) := by
  unfold literal at h
  split at h
  · cases h
  · cases h
    exact .inr ⟨by simp, rfl⟩
  · rename_i t _
    split at h
    · rename_i found hs
      cases h
      cases value with
      | null =>
        cases hs
        exact .inr ⟨by simp, rfl⟩
      | boolean b | integer i | float x =>
        simp only [suitable?] at hs
        split at hs <;> cases hs
        exact .inr ⟨by simp, rfl⟩
      | string s =>
        simp only [suitable?] at hs
        split at hs
        · rename_i htext
          cases hs
          exact .inr ⟨by simp [htext], rfl⟩
        · rename_i htext
          split at hs <;> cases hs
          exact .inl ⟨s, t, rfl, rfl, by simpa using htext, rfl⟩
    · cases h

lemma literals_cons_ok {type : Option ScalarType} {rest : List Literal} {es : List Expression}
    (h : literals field type (value :: rest) = .ok es) :
    ∃ e others, literal field type value = .ok e ∧ literals field type rest = .ok others ∧
      es = e :: others := by
  simp only [literals, bind_eq_ok, pure_eq_ok] at h
  obtain ⟨e, he, others, ho, rfl⟩ := h
  exact ⟨e, others, he, ho, rfl⟩

/-- A literal that is compared with a field of a known type suits it. -/
lemma suitable_of_literal {type : ScalarType} (h : literal field (some type) value = .ok e) :
    (suitable? type value).isSome = true := by
  unfold literal at h
  split at h
  · cases h
  · rename_i heq
    cases heq
  · rename_i heq
    cases heq
    split at h
    · rename_i hs
      rw [hs]
      rfl
    · cases h

lemma suitable_of_literals {type : ScalarType} {es : List Expression}
    (h : literals field (some type) values = .ok es) :
    ∀ value ∈ values, (suitable? type value).isSome = true := by
  induction values generalizing es with
  | nil => simp
  | cons value rest ih =>
    obtain ⟨e, others, he, ho, -⟩ := literals_cons_ok h
    exact List.forall_mem_cons.2 ⟨suitable_of_literal he, ih ho⟩

lemma comparison_ok (h : comparison catalog draft field operator value = .ok e) :
    ∃ target, draft.resolve catalog field = .ok target ∧
      (value = .null ∧ nullCheck field operator target.1 = .ok e ∨
        value ≠ .null ∧ ∃ right, literal field target.2 value = .ok right ∧
          e = .comparison target.1 (Sql.operatorText operator) right) := by
  simp only [comparison, bind_eq_ok] at h
  obtain ⟨⟨left, type⟩, hr, h⟩ := h
  refine ⟨(left, type), hr, ?_⟩
  split at h
  · exact .inl ⟨rfl, h⟩
  · rename_i hnull
    simp only [bind_eq_ok, pure_eq_ok] at h
    obtain ⟨_, _, right, hright, rfl⟩ := h
    exact .inr ⟨hnull, right, hright, rfl⟩

lemma membership_ok (h : membership catalog draft field values = .ok e) :
    ∃ target, draft.resolve catalog field = .ok target ∧
      (values = [] ∧ e = .false ∨
        ∃ es, literals field target.2 values = .ok es ∧ e = .isIn target.1 es) := by
  simp only [membership, bind_eq_ok] at h
  obtain ⟨⟨left, type⟩, hr, _, _, h⟩ := h
  refine ⟨(left, type), hr, ?_⟩
  split at h
  · rename_i hempty
    exact .inl ⟨List.isEmpty_iff.1 hempty, (pure_eq_ok.1 h).symm⟩
  · simp only [bind_eq_ok, pure_eq_ok] at h
    obtain ⟨es, hes, rfl⟩ := h
    exact .inr ⟨es, hes, rfl⟩

end Conditions

/-! ### What conditions inherit from their references -/

/-- Everything that references stand for in a draft has a property. -/
def Draft.ResolvesTo (catalog : Catalog) (P : Expression → Prop) (draft : Draft) : Prop :=
  ∀ {reference : String} {target : Expression × Option ScalarType},
    draft.resolve catalog reference = .ok target → P target.1

/-- A property that a condition has if everything that its references stand for has it. -/
structure Compositional (P : Expression → Prop) : Prop where
  value (v : Sql.Value) : P (.value v)
  cast {e : Expression} {type : ScalarType} (h : P e) : P (.cast e type.sqlName)
  isNull {e : Expression} (h : P e) : P (.isNull e)
  not {e : Expression} (h : P e) : P (.not e)
  or {left right : Expression} (hl : P left) (hr : P right) : P (.or left right)
  both {left right : Expression} (hl : P left) (hr : P right) : P (left.both right)
  comparison {left right : Expression} {operator : ComparisonOperator} (hl : P left)
    (hr : P right) : P (.comparison left (Sql.operatorText operator) right)
  isIn {left : Expression} {items : List Expression} (hl : P left) (hi : ∀ e ∈ items, P e) :
    P (.isIn left items)

namespace Compositional

variable {P : Expression → Prop} {field : String} {operator : ComparisonOperator}
  {value : Literal} {values : List Literal} {e : Expression}

lemma literal (hP : Compositional P) {type : Option ScalarType}
    (h : Compile.literal field type value = .ok e) : P e := by
  rcases literal_ok h with ⟨s, t, -, -, -, rfl⟩ | ⟨-, rfl⟩
  · exact hP.cast (hP.value _)
  · exact hP.value _

lemma literals (hP : Compositional P) {type : Option ScalarType} {es : List Expression}
    (h : Compile.literals field type values = .ok es) : ∀ e ∈ es, P e := by
  induction values generalizing es with
  | nil =>
    cases h
    simp
  | cons value rest ih =>
    obtain ⟨e, others, he, ho, rfl⟩ := literals_cons_ok h
    exact List.forall_mem_cons.2 ⟨hP.literal he, ih ho⟩

lemma nullCheck (hP : Compositional P) {checked : Expression}
    (h : Compile.nullCheck field operator checked = .ok e) (hc : P checked) : P e := by
  cases operator <;> cases h
  · exact hP.isNull hc
  · exact hP.not (hP.isNull hc)

lemma compare (hP : Compositional P) (hr : draft.ResolvesTo catalog P)
    (h : Compile.comparison catalog draft field operator value = .ok e) : P e := by
  obtain ⟨target, ht, hcases⟩ := comparison_ok h
  have hl : P target.1 := hr ht
  rcases hcases with ⟨-, hnull⟩ | ⟨-, right, hright, rfl⟩
  · exact hP.nullCheck hnull hl
  · exact hP.comparison hl (hP.literal hright)

lemma membership (hP : Compositional P) (hr : draft.ResolvesTo catalog P)
    (h : Compile.membership catalog draft field values = .ok e) : P e := by
  obtain ⟨target, ht, hcases⟩ := membership_ok h
  have hl : P target.1 := hr ht
  rcases hcases with ⟨-, rfl⟩ | ⟨es, hes, rfl⟩
  · exact hP.value _
  · exact hP.isIn hl (hP.literals hes)

mutual

lemma condition (hP : Compositional P) (hr : draft.ResolvesTo catalog P) :
    ∀ {predicate : Predicate} {e : Expression},
      Compile.condition catalog draft predicate = .ok e → P e
  | .all parts, _, h => by
    simp only [Compile.condition] at h
    exact hP.conjunction hr (hP.value _) h
  | .any [], _, h => by
    simp only [Compile.condition] at h
    cases h
    exact hP.value _
  | .any (part :: rest), _, h => by
    simp only [Compile.condition, bind_eq_ok] at h
    obtain ⟨first, hf, h⟩ := h
    exact hP.disjunction hr (hP.condition hr hf) h
  | .negation part, _, h => by
    simp only [Compile.condition, bind_eq_ok, pure_eq_ok] at h
    obtain ⟨inner, hi, rfl⟩ := h
    exact hP.not (hP.condition hr hi)
  | .comparison field operator value, _, h => by
    simp only [Compile.condition] at h
    exact hP.compare hr h
  | .oneOf field values, _, h => by
    simp only [Compile.condition] at h
    exact hP.membership hr h
  | .isNull field, _, h => by
    simp only [Compile.condition, bind_eq_ok, pure_eq_ok] at h
    obtain ⟨target, ht, rfl⟩ := h
    exact hP.isNull (hr ht)

lemma conjunction (hP : Compositional P) (hr : draft.ResolvesTo catalog P) :
    ∀ {parts : List Predicate} {before e : Expression}, P before →
      Compile.conjunction catalog draft before parts = .ok e → P e
  | [], _, _, hb, h => by
    simp only [Compile.conjunction, pure_eq_ok] at h
    exact h ▸ hb
  | part :: rest, _, _, hb, h => by
    simp only [Compile.conjunction, bind_eq_ok] at h
    obtain ⟨next, hn, h⟩ := h
    exact hP.conjunction hr (hP.both hb (hP.condition hr hn)) h

lemma disjunction (hP : Compositional P) (hr : draft.ResolvesTo catalog P) :
    ∀ {parts : List Predicate} {before e : Expression}, P before →
      Compile.disjunction catalog draft before parts = .ok e → P e
  | [], _, _, hb, h => by
    simp only [Compile.disjunction, pure_eq_ok] at h
    exact h ▸ hb
  | part :: rest, _, _, hb, h => by
    simp only [Compile.disjunction, bind_eq_ok] at h
    obtain ⟨next, hn, h⟩ := h
    exact hP.disjunction hr (hP.or hb (hP.condition hr hn)) h

end

end Compositional

/-! ### Where rows come from -/

lemma requireType_ok {name : String} {type : ObjectType} :
    catalog.requireType name = .ok type ↔ catalog.type? name = some type := by
  unfold Catalog.requireType
  split <;> rename_i h <;> simp [h]

lemma requireIdentity_ok {type : ObjectType} {name : String} {field : Field} :
    type.requireIdentity name = .ok field ↔ type.identity? = some field := by
  unfold ObjectType.requireIdentity
  split <;> rename_i h <;> simp [h]

lemma requireEdge_ok {type name : String} {found : Edge × ObjectType}
    (h : catalog.requireEdge type name = .ok found) :
    catalog.edge? type name = some found.1 ∧ catalog.type? found.1.target = some found.2 := by
  simp only [Catalog.requireEdge, bind_eq_ok, requireType_ok] at h
  obtain ⟨source, hs, h⟩ := h
  split at h
  · cases h
  · rename_i edge he
    simp only [bind_eq_ok, requireType_ok, pure_eq_ok] at h
    obtain ⟨target, ht, rfl⟩ := h
    exact ⟨by simp [Catalog.edge?, hs, he], ht⟩

/-- The condition that a tie puts on the rows of a table. -/
def tiedCondition (name : String) (type : ObjectType) (table : TableAlias) :
    Option Tie → Build Expression
  | none => pure .true
  | some tie => tie.condition name type table

/-- The condition that the identities of a source put on the rows of a table. -/
def sourceCondition (name : String) (type : ObjectType) (table : TableAlias) :
    Option (List Int64) → Except CompileError Expression
  | none => .ok .true
  | some ids => identityCondition name type table ids

/-- The draft of the objects of a type under a condition. -/
def startDraft (name : String) (type : ObjectType) (handle : TableAlias)
    (condition : Expression) : Draft where
  relation := .table (tableName type) handle
  columns := Column.ofType type handle
  condition
  type := some name
  readsTable := true

lemma start_ok {name : String} {ids : Option (List Int64)} {tie : Option Tie}
    (h : (start catalog name ids tie).run counts = .ok (result, last)) :
    ∃ type tied chosen, catalog.type? name = some type ∧
      (tiedCondition name type (nextAlias counts type.table) tie).run
        (countAlias counts type.table) = .ok (tied, last) ∧
      sourceCondition name type (nextAlias counts type.table) ids = .ok chosen ∧
      result = startDraft name type (nextAlias counts type.table) (tied.both chosen) := by
  simp only [start, run_bind_eq_ok, run_lift_eq_ok, requireType_ok, run_freshAlias_eq_ok] at h
  obtain ⟨type, _, ⟨ht, rfl⟩, _, _, ⟨rfl, rfl⟩, h⟩ := h
  cases tie <;> cases ids <;>
    simp only [run_bind_eq_ok, run_lift_eq_ok, run_pure_eq_ok] at h
  · obtain ⟨_, _, ⟨rfl, rfl⟩, _, _, ⟨rfl, rfl⟩, rfl, rfl⟩ := h
    exact ⟨type, .true, .true, ht, rfl, rfl, rfl⟩
  · obtain ⟨_, _, ⟨rfl, rfl⟩, chosen, _, ⟨hc, rfl⟩, rfl, rfl⟩ := h
    exact ⟨type, .true, chosen, ht, rfl, hc, rfl⟩
  · obtain ⟨tied, _, htied, _, _, ⟨rfl, rfl⟩, rfl, rfl⟩ := h
    exact ⟨type, tied, .true, ht, htied, rfl, rfl⟩
  · obtain ⟨tied, _, htied, chosen, _, ⟨hc, rfl⟩, rfl, rfl⟩ := h
    exact ⟨type, tied, chosen, ht, htied, hc, rfl⟩

lemma follow_ok {name : String} {found : Edge × Tie} (h : follow catalog draft name = .ok found) :
    ∃ type target, draft.type = some type ∧ catalog.edge? type name = some found.1 ∧
      catalog.type? found.1.target = some target ∧
      tie catalog draft found.1.join = .ok found.2 := by
  simp only [follow] at h
  split at h
  · cases h
  · rename_i type ht
    simp only [bind_eq_ok, pure_eq_ok] at h
    obtain ⟨⟨edge, target⟩, he, tied, htied, rfl⟩ := h
    obtain ⟨hedge, htarget⟩ := requireEdge_ok he
    exact ⟨type, target, ht, hedge, htarget, htied⟩

/-- The column that holds the value of an edge, read from a select under an alias. -/
def valueColumn (name : String) (value : Expression) (reached : Draft) (handle : TableAlias) :
    Column :=
  .computed name (.subselect (.simple (.outputs [⟨name, value⟩]) (.derived reached.finish handle)))

lemma edgeColumn_ok {name : String} {cardinality : Cardinality} {reached : Draft}
    {column : Column} (h : (edgeColumn name cardinality reached).run counts = .ok (column, last)) :
    (cardinality = .many ∧ last = countAlias counts name ∧
      column = valueColumn name (.jsonArray (nextAlias counts name)) reached
        (nextAlias counts name)) ∨
    (cardinality = .one ∧ ∃ first,
      (reached.take 1).run (countAlias counts name) = .ok (first, last) ∧
      column = valueColumn name (.rowToJson (nextAlias counts name)) first
        (nextAlias counts name)) := by
  simp only [edgeColumn, run_bind_eq_ok, run_freshAlias_eq_ok] at h
  obtain ⟨_, _, ⟨rfl, rfl⟩, h⟩ := h
  cases cardinality with
  | many =>
    simp only [run_bind_eq_ok, run_pure_eq_ok] at h
    obtain ⟨_, _, ⟨rfl, rfl⟩, rfl, rfl⟩ := h
    exact .inl ⟨rfl, rfl, rfl⟩
  | one =>
    simp only [run_bind_eq_ok, run_pure_eq_ok] at h
    obtain ⟨first, _, hf, _, _, ⟨rfl, rfl⟩, rfl, rfl⟩ := h
    exact .inr ⟨rfl, first, hf, rfl⟩

/-! ### What ties and sources inherit -/

/-- The expressions that a tie compares fields with. -/
def Tie.expressions : Tie → List Expression
  | .columns pairs => pairs.map Prod.snd
  | .through _ _ _ row => [row]

section Sources

variable {P : Expression → Prop} {name : String} {type : ObjectType} {table : TableAlias}
  {e : Expression}

lemma Draft.ResolvesTo.tieColumns (hr : draft.ResolvesTo catalog P)
    {entries : List (String × String)} {pairs : List (String × Expression)}
    (h : Compile.tieColumns catalog draft entries = .ok pairs) : ∀ pair ∈ pairs, P pair.2 := by
  induction entries generalizing pairs with
  | nil =>
    cases h
    simp
  | cons entry rest ih =>
    obtain ⟨source, target⟩ := entry
    simp only [Compile.tieColumns, bind_eq_ok, pure_eq_ok] at h
    obtain ⟨found, hf, others, ho, rfl⟩ := h
    exact List.forall_mem_cons.2 ⟨hr hf, ih ho⟩

lemma Draft.ResolvesTo.tie (hr : draft.ResolvesTo catalog P) {join : Join} {t : Tie}
    (h : Compile.tie catalog draft join = .ok t) : ∀ e ∈ t.expressions, P e := by
  cases join with
  | columns mapping =>
    simp only [Compile.tie, bind_eq_ok, pure_eq_ok] at h
    obtain ⟨pairs, hp, rfl⟩ := h
    exact List.forall_mem_map.2 (hr.tieColumns hp)
  | through schema table source target =>
    simp only [Compile.tie, bind_eq_ok, pure_eq_ok] at h
    obtain ⟨found, hf, rfl⟩ := h
    exact List.forall_mem_singleton.2 (hr hf)

lemma storedColumn_ok {field : String} (h : storedColumn name type table field = .ok e) :
    ∃ column, e = .column table column := by
  unfold storedColumn at h
  split at h
  · cases h
    exact ⟨_, rfl⟩
  · cases h

lemma Compositional.tieCondition (hP : Compositional P)
    (hc : ∀ column, P (.column table column)) {pairs : List (String × Expression)}
    {before : Expression} (hp : ∀ pair ∈ pairs, P pair.2) (hb : P before)
    (h : Compile.tieCondition name type table before pairs = .ok e) : P e := by
  induction pairs generalizing before with
  | nil =>
    cases h
    exact hb
  | cons pair rest ih =>
    obtain ⟨field, right⟩ := pair
    obtain ⟨hright, hrest⟩ := List.forall_mem_cons.1 hp
    simp only [Compile.tieCondition, bind_eq_ok] at h
    obtain ⟨column, hcolumn, h⟩ := h
    obtain ⟨stored, rfl⟩ := storedColumn_ok hcolumn
    exact ih hrest (hP.both hb (hP.comparison (hc stored) hright)) h

lemma Compositional.sourceCondition (hP : Compositional P)
    (hc : ∀ column, P (.column table column)) {ids : Option (List Int64)}
    (h : Compile.sourceCondition name type table ids = .ok e) : P e := by
  cases ids with
  | none =>
    cases h
    exact hP.value _
  | some ids =>
    cases ids with
    | nil =>
      cases h
      exact hP.value _
    | cons first rest =>
      simp only [Compile.sourceCondition, identityCondition, bind_eq_ok, pure_eq_ok] at h
      obtain ⟨identity, -, rfl⟩ := h
      exact hP.isIn (hc _) (List.forall_mem_map.2 fun _ _ => hP.value _)

/-- A property that goes to the existence of rows of a table from their condition. -/
def OfExistence (P : Expression → Prop) : Prop :=
  ∀ {pairs : Sql.TableName} {handle : TableAlias} {condition : Expression}, P condition →
    P (.exists { Select.simple .one (.table (.stored pairs) handle) with condition })

lemma Compositional.tie_condition (hP : Compositional P)
    (hc : ∀ {handle : TableAlias} {column}, P (.column handle column)) (he : OfExistence P)
    {t : Tie} (ht : ∀ e ∈ t.expressions, P e)
    (h : (t.condition name type table).run counts = .ok (e, last)) : P e := by
  cases t with
  | columns pairs =>
    simp only [Tie.condition, run_lift_eq_ok] at h
    exact hP.tieCondition (fun _ => hc) (List.forall_mem_map.1 ht) (hP.value _) h.1
  | through pairs source target row =>
    simp only [Tie.condition, run_bind_eq_ok, run_freshAlias_eq_ok, run_lift_eq_ok,
      run_pure_eq_ok] at h
    obtain ⟨_, _, ⟨rfl, rfl⟩, identity, _, ⟨hidentity, rfl⟩, rfl, rfl⟩ := h
    obtain ⟨stored, rfl⟩ := storedColumn_ok hidentity
    have hrow : P row := ht row List.mem_cons_self
    exact he (hP.both (hP.comparison hc hc) (hP.comparison hc hrow))

/-- The condition on the objects that a draft starts from inherits what the tie has. -/
lemma Compositional.start (hP : Compositional P)
    (hc : ∀ {handle : TableAlias} {column}, P (.column handle column)) (he : OfExistence P)
    {ids : Option (List Int64)} {tied : Option Tie}
    (ht : ∀ tie ∈ tied, ∀ e ∈ tie.expressions, P e)
    (h : (Compile.start catalog name ids tied).run counts = .ok (result, last)) :
    ∃ type handle condition, result = startDraft name type handle condition ∧ P condition := by
  obtain ⟨type, condition, chosen, -, htied, hchosen, rfl⟩ := start_ok h
  have hcondition : P condition := by
    cases tied with
    | none =>
      obtain ⟨rfl, -⟩ := run_pure_eq_ok.1 htied
      exact hP.value _
    | some tie => exact hP.tie_condition hc he (ht tie rfl) htied
  exact ⟨type, _, _, rfl, hP.both hcondition (hP.sourceCondition (fun _ => hc) hchosen)⟩

end Sources

/-! ### Whole queries -/

/-- What a draft becomes by an operation, and the uses of names after it.  The rows of the draft
that limits and aggregates read are those of the draft before it, which is wrapped for this. -/
inductive Draft.Becomes (catalog : Catalog) (counts : AliasCounts) (draft : Draft) :
    Operation → Draft → AliasCounts → Prop
  | project {fields : List String} {columns : List Column}
      (picked : draft.pick [] fields = .ok columns) :
      Becomes catalog counts draft (.project fields) { draft with columns } counts
  | filter {predicate : Predicate} {base : Draft} {e : Expression} {last : AliasCounts}
      (wraps : Wraps counts draft (draft.isLimited || draft.isSealed) base last)
      (compiled : Compile.condition catalog base predicate = .ok e) :
      Becomes catalog counts draft (.filter predicate)
        { base with condition := base.condition.both e } last
  | take {n : UInt32} {base : Draft} {last : AliasCounts}
      (wraps : Wraps counts draft (draft.limit.isSome || draft.isSealed) base last) :
      Becomes catalog counts draft (.take n) { base with limit := some n } last
  | skip {n : UInt32} {base : Draft} {last : AliasCounts}
      (wraps : Wraps counts draft (draft.limit.isSome || draft.isSealed) base last) :
      Becomes catalog counts draft (.skip n)
        { base with offset := some (saturatingAdd (base.offset.getD 0) n) } last
  | count {base : Draft} {last : AliasCounts}
      (wraps : Wraps counts draft (draft.isLimited || draft.isSealed) base last) :
      Becomes catalog counts draft .count { base with
        columns := [.computed "count" .countRows (some .bigint)]
        orderBy := []
        type := none
        readsTable := false
        isSealed := true } last
  | nest {key : String} :
      Becomes catalog counts draft (.nest key) { draft.wrapped (nextAlias counts "t") with
        columns := [.computed key (.jsonArray (nextAlias counts "t"))]
        type := none
        isSealed := true } (countAlias counts "t")
  | rename {old new : String} {columns : List Column}
      (renamed : Column.renameFirst (unqualified old) (unqualified new) draft.columns
        = some columns) :
      Becomes catalog counts draft (.rename old new) { draft with columns, isSealed := true } counts
  | orderBy {key : String} {direction : Direction} {base : Draft}
      {target : Expression × Option ScalarType} {last : AliasCounts}
      (wraps : Wraps counts draft (draft.isLimited || draft.isSealed) base last)
      (resolved : base.resolve catalog key = .ok target) :
      Becomes catalog counts draft (.orderBy key direction)
        { base with orderBy := ⟨target.1, direction⟩ :: base.orderBy } last
  | groupBy {key : String} {target : Expression × Option ScalarType}
      (resolved : (draft.wrapped (nextAlias counts "t")).resolve catalog key = .ok target) :
      Becomes catalog counts draft (.groupBy key) (draft.gathered (nextAlias counts "t") target)
        (countAlias counts "t")
  | edge {name : String} {inner : List Operation} {base first reached : Draft}
      {found : Edge × Tie} {column : Column} {opened started between last : AliasCounts}
      (wraps : Wraps counts draft draft.isSealed base opened)
      (followed : follow catalog base name = .ok found)
      (starts : (start catalog found.1.target none (some found.2)).run opened
        = .ok (first, started))
      (builds : (pipeline catalog first inner).run started = .ok (reached, between))
      (attaches : (edgeColumn name found.1.cardinality reached).run between = .ok (column, last)) :
      Becomes catalog counts draft (.edge name inner) (base.attach column) last
  | union {queries : List Query} {drafts : List Draft} {between : AliasCounts}
      (builds : (branches catalog draft.names queries).run counts = .ok (drafts, between)) :
      Becomes catalog counts draft (.union queries) (draft.united drafts (nextAlias between "t"))
        (countAlias between "t")

/-- Whatever holds of an operation that succeeds is read off these rules. -/
lemma operation_ok {step : Operation}
    (h : (operation catalog draft step).run counts = .ok (result, last)) :
    draft.Becomes catalog counts step result last := by
  cases step with
  | project fields =>
    obtain ⟨hp, rfl⟩ := run_lift_eq_ok.1 h
    obtain ⟨columns, hc, rfl⟩ := Draft.project_ok hp
    exact .project hc
  | filter predicate =>
    obtain ⟨base, e, hw, he, rfl⟩ := Draft.filter_ok h
    exact .filter hw he
  | take n =>
    obtain ⟨base, hw, rfl⟩ := Draft.take_ok h
    exact .take hw
  | skip n =>
    obtain ⟨base, hw, rfl⟩ := Draft.skip_ok h
    exact .skip hw
  | count =>
    obtain ⟨base, hw, rfl⟩ := Draft.count_ok h
    exact .count hw
  | nest key =>
    obtain ⟨rfl, rfl⟩ := Draft.nest_ok h
    exact .nest
  | rename old new =>
    obtain ⟨hr, rfl⟩ := run_lift_eq_ok.1 h
    obtain ⟨columns, hc, rfl⟩ := Draft.rename_ok hr
    exact .rename hc
  | orderBy key direction =>
    obtain ⟨base, target, hw, ht, rfl⟩ := Draft.sortBy_ok h
    exact .orderBy hw ht
  | groupBy key =>
    obtain ⟨target, rfl, ht, rfl⟩ := Draft.gatherBy_ok h
    exact .groupBy ht
  | edge name inner =>
    simp only [operation, run_bind_eq_ok, run_lift_eq_ok, run_pure_eq_ok] at h
    obtain ⟨base, opened, hw, found, _, ⟨hf, rfl⟩, first, started, hs, reached, between, hp,
      column, _, hc, rfl, rfl⟩ := h
    exact .edge (Draft.wrapIf_ok hw) hf hs hp hc
  | union queries =>
    simp only [operation, run_bind_eq_ok] at h
    obtain ⟨drafts, between, hb, hu⟩ := h
    obtain ⟨rfl, rfl⟩ := Draft.union_ok hu
    exact .union hb

lemma pipeline_cons_ok {step : Operation} {rest : List Operation}
    (h : (pipeline catalog draft (step :: rest)).run counts = .ok (result, last)) :
    ∃ next between, (operation catalog draft step).run counts = .ok (next, between) ∧
      (pipeline catalog next rest).run between = .ok (result, last) := by
  simp only [pipeline, run_bind_eq_ok] at h
  exact h

/-- Operations in front of others are applied first. -/
lemma pipeline_append_ok {before behind : List Operation}
    (h : (pipeline catalog draft (before ++ behind)).run counts = .ok (result, last)) :
    ∃ middle between, (pipeline catalog draft before).run counts = .ok (middle, between) ∧
      (pipeline catalog middle behind).run between = .ok (result, last) := by
  induction before generalizing draft counts with
  | nil => exact ⟨draft, counts, rfl, h⟩
  | cons step rest ih =>
    obtain ⟨next, between, ho, hp⟩ := pipeline_cons_ok h
    obtain ⟨middle, reached, hrest, hbehind⟩ := ih hp
    refine ⟨middle, reached, ?_, hbehind⟩
    simp only [pipeline, run_bind_eq_ok]
    exact ⟨next, between, ho, hrest⟩

lemma branches_cons_ok {expected : List String} {source : Source} {operations : List Operation}
    {rest : List Query} {drafts : List Draft}
    (h : (branches catalog expected (⟨source, operations⟩ :: rest)).run counts
      = .ok (drafts, last)) :
    ∃ first started branch between others,
      (start catalog source.objectType source.ids none).run counts = .ok (first, started) ∧
      (pipeline catalog first operations).run started = .ok (branch, between) ∧
      branch.names = expected ∧
      (branches catalog expected rest).run between = .ok (others, last) ∧
      drafts = branch :: others := by
  simp only [branches, run_bind_eq_ok] at h
  obtain ⟨first, started, hs, branch, between, hp, h⟩ := h
  split at h
  · rename_i hn
    simp only [run_bind_eq_ok, run_pure_eq_ok] at h
    obtain ⟨others, _, ho, rfl, rfl⟩ := h
    exact ⟨first, started, branch, between, others, hs, hp, hn, ho, rfl⟩
  · simp only [run_throw_eq_ok] at h

lemma draft_ok {query : Query} (h : (Compile.draft catalog query).run counts = .ok (result, last)) :
    ∃ first started,
      (start catalog query.source.objectType query.source.ids none).run counts
        = .ok (first, started) ∧
      (pipeline catalog first query.operations).run started = .ok (result, last) := by
  simp only [Compile.draft, run_bind_eq_ok] at h
  exact h

lemma select_ok {query : Query} {select : Select}
    (h : Compile.select catalog query = .ok select) :
    ∃ result last, (Compile.draft catalog query).run [] = .ok (result, last) ∧
      select = result.finish := by
  simp only [Compile.select, StateT.run'_eq] at h
  cases hd : (Compile.draft catalog query).run [] with
  | error e => simp [hd, Except.map, Functor.map] at h
  | ok r =>
    simp only [hd, Functor.map, Except.map, Except.ok.injEq] at h
    exact ⟨r.1, r.2, rfl, h.symm⟩

/-- The select of a query that starts like another one is built on the draft of the other. -/
lemma select_append_ok {source : Source} {before behind : List Operation} {select : Select}
    (h : Compile.select catalog ⟨source, before ++ behind⟩ = .ok select) :
    ∃ first started middle between result last,
      (start catalog source.objectType source.ids none).run [] = .ok (first, started) ∧
      (pipeline catalog first before).run started = .ok (middle, between) ∧
      (pipeline catalog middle behind).run between = .ok (result, last) ∧
      Compile.select catalog ⟨source, before⟩ = .ok middle.finish ∧ select = result.finish := by
  obtain ⟨result, last, hd, rfl⟩ := select_ok h
  obtain ⟨first, started, hstart, hp⟩ := draft_ok hd
  obtain ⟨middle, between, hbefore, hbehind⟩ := pipeline_append_ok hp
  refine ⟨first, started, middle, between, result, last, hstart, hbefore, hbehind, ?_, rfl⟩
  have hmiddle : (Compile.draft catalog ⟨source, before⟩).run [] = .ok (middle, between) := by
    simp only [Compile.draft, run_bind_eq_ok]
    exact ⟨first, started, hstart, hbefore⟩
  rw [Compile.select, StateT.run'_eq, hmiddle]
  rfl

end ObjectGraph.Compile
