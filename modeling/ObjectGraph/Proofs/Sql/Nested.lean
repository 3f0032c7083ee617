/-
# Selects inside selects

A select stands inside another one as the source of its rows, as one of several that are put
together, or as a subselect in one of its clauses.  What reads from a select refers to its
outputs by their names, so a select whose outputs share a name cannot be read from.
-/
import ObjectGraph.Proofs.Sql.Scope

namespace ObjectGraph.Sql

mutual

/-- The selects in an expression, those inside of others included. -/
@[simp] def Expression.selects : Expression → List Select
  | .and left right | .or left right | .comparison left _ right => left.selects ++ right.selects
  | .not e | .isNull e | .cast e _ => e.selects
  | .isIn left items => left.selects ++ selectsList items
  | .call _ arguments => selectsList arguments
  | .exists select | .subselect select => select.selects
  | .rowToJson _ | .column _ _ | .output _ _ | .value _ | .countRows => []

/-- The selects in a list of expressions. -/
@[simp] def selectsList : List Expression → List Select
  | [] => []
  | e :: rest => e.selects ++ selectsList rest

/-- The selects in outputs. -/
@[simp] def selectsOutputs : List Output → List Select
  | [] => []
  | ⟨_, e⟩ :: rest => e.selects ++ selectsOutputs rest

/-- The selects in a select list. -/
@[simp] def SelectList.selects : SelectList → List Select
  | .outputs list => selectsOutputs list
  | .one => []

/-- The selects in sort keys. -/
@[simp] def selectsKeys : List SortKey → List Select
  | [] => []
  | ⟨target, _⟩ :: rest => target.selects ++ selectsKeys rest

/-- The selects that a relation reads from, those inside of them included. -/
@[simp] def Relation.selects : Relation → List Select
  | .table _ _ => []
  | .derived select _ => select.selects
  | .union selects _ => selectsOfAll selects

/-- The selects of a union, those inside of them included. -/
@[simp] def selectsOfAll : List Select → List Select
  | [] => []
  | select :: rest => select.selects ++ selectsOfAll rest

/-- The selects in what a select reads, if it reads anything. -/
@[simp] def selectsFrom : Option Relation → List Select
  | none => []
  | some relation => relation.selects

/-- A select and those inside of it. -/
@[simp] def Select.selects : Select → List Select
  | ⟨list, relation, condition, groupBy, orderBy, limit, offset⟩ =>
    ⟨list, relation, condition, groupBy, orderBy, limit, offset⟩ ::
      (selectsFrom relation ++ list.selects ++ condition.selects ++ selectsList groupBy
        ++ selectsKeys orderBy)

end

/-! ### Unambiguous selects -/

variable {e left right : Expression} {select : Select} {table : TableReference}
  {handle : TableAlias}

/-- In every select of an expression the outputs have different names. -/
def Expression.Unambiguous (e : Expression) : Prop :=
  ∀ select ∈ e.selects, select.list.names.Nodup

/-- In every select that a relation reads from the outputs have different names. -/
def Relation.Unambiguous (relation : Relation) : Prop :=
  ∀ select ∈ relation.selects, select.list.names.Nodup

/-- In a select and all those inside of it the outputs have different names. -/
def Select.Unambiguous (select : Select) : Prop :=
  ∀ nested ∈ select.selects, nested.list.names.Nodup

lemma forall_mem_selectsList {p : Select → Prop} {list : List Expression} :
    (∀ select ∈ selectsList list, p select) ↔ ∀ e ∈ list, ∀ select ∈ e.selects, p select := by
  induction list with
  | nil => simp [selectsList]
  | cons e rest ih => simp only [selectsList, List.forall_mem_append, List.forall_mem_cons, ih]

lemma forall_mem_selectsOfAll {p : Select → Prop} {list : List Select} :
    (∀ select ∈ selectsOfAll list, p select) ↔
      ∀ inner ∈ list, ∀ select ∈ inner.selects, p select := by
  induction list with
  | nil => simp [selectsOfAll]
  | cons inner rest ih => simp only [selectsOfAll, List.forall_mem_append, List.forall_mem_cons, ih]

namespace Expression

@[simp] lemma unambiguous_and :
    (Expression.and left right).Unambiguous ↔ left.Unambiguous ∧ right.Unambiguous := by
  simp only [Unambiguous, selects, List.forall_mem_append]

@[simp] lemma unambiguous_or :
    (Expression.or left right).Unambiguous ↔ left.Unambiguous ∧ right.Unambiguous := by
  simp only [Unambiguous, selects, List.forall_mem_append]

@[simp] lemma unambiguous_comparison {operator : String} :
    (Expression.comparison left operator right).Unambiguous
      ↔ left.Unambiguous ∧ right.Unambiguous := by
  simp only [Unambiguous, selects, List.forall_mem_append]

@[simp] lemma unambiguous_not : e.not.Unambiguous ↔ e.Unambiguous := by
  simp only [Unambiguous, selects]

@[simp] lemma unambiguous_isNull : e.isNull.Unambiguous ↔ e.Unambiguous := by
  simp only [Unambiguous, selects]

@[simp] lemma unambiguous_cast {type : String} : (e.cast type).Unambiguous ↔ e.Unambiguous := by
  simp only [Unambiguous, selects]

@[simp] lemma unambiguous_isIn {items : List Expression} :
    (isIn left items).Unambiguous ↔ left.Unambiguous ∧ ∀ e ∈ items, e.Unambiguous := by
  simp only [Unambiguous, selects, List.forall_mem_append, forall_mem_selectsList]

@[simp] lemma unambiguous_call {function : Function} {arguments : List Expression} :
    (call function arguments).Unambiguous ↔ ∀ e ∈ arguments, e.Unambiguous := by
  simp only [Unambiguous, selects, forall_mem_selectsList]

@[simp] lemma unambiguous_exists : (Expression.exists select).Unambiguous ↔ select.Unambiguous := by
  simp only [Unambiguous, selects, Select.Unambiguous]

@[simp] lemma unambiguous_subselect : (subselect select).Unambiguous ↔ select.Unambiguous := by
  simp only [Unambiguous, selects, Select.Unambiguous]

@[simp] lemma unambiguous_rowToJson : (rowToJson table).Unambiguous := by
  simp [Unambiguous, selects]

@[simp] lemma unambiguous_column {name : String} : (column table name).Unambiguous := by
  simp [Unambiguous, selects]

@[simp] lemma unambiguous_output {name : String} : (output table name).Unambiguous := by
  simp [Unambiguous, selects]

@[simp] lemma unambiguous_value {v : Value} : (value v).Unambiguous := by
  simp [Unambiguous, selects]

@[simp] lemma unambiguous_countRows : countRows.Unambiguous := by
  simp [Unambiguous, selects]

@[simp] lemma unambiguous_true : Expression.true.Unambiguous := unambiguous_value

lemma Unambiguous.both (hl : left.Unambiguous) (hr : right.Unambiguous) :
    (left.both right).Unambiguous := by
  unfold Expression.both
  split
  · exact hr
  · split
    · exact hl
    · exact unambiguous_and.2 ⟨hl, hr⟩

@[simp] lemma unambiguous_jsonRows : (jsonRows handle).Unambiguous := by
  simp [jsonRows]

@[simp] lemma unambiguous_jsonArray : (jsonArray handle).Unambiguous := by
  simp [jsonArray]

end Expression

@[simp] lemma Relation.unambiguous_table : (Relation.table table handle).Unambiguous := by
  simp [Relation.Unambiguous, Relation.selects]

@[simp] lemma Relation.unambiguous_derived :
    (Relation.derived select handle).Unambiguous ↔ select.Unambiguous := by
  simp only [Relation.Unambiguous, Relation.selects, Select.Unambiguous]

@[simp] lemma Relation.unambiguous_union {selects : List Select} :
    (Relation.union selects handle).Unambiguous ↔ ∀ select ∈ selects, select.Unambiguous := by
  simp only [Relation.Unambiguous, Relation.selects, Select.Unambiguous, forall_mem_selectsOfAll]

/-- The expressions of the outputs of a select list. -/
def SelectList.expressions : SelectList → List Expression
  | .outputs list => list.map Output.expression
  | .one => []

lemma forall_mem_selectsOutputs {p : Select → Prop} {list : List Output} :
    (∀ select ∈ selectsOutputs list, p select) ↔
      ∀ output ∈ list, ∀ select ∈ output.expression.selects, p select := by
  induction list with
  | nil => simp [selectsOutputs]
  | cons output rest ih =>
    obtain ⟨name, e⟩ := output
    simp only [selectsOutputs, List.forall_mem_append, List.forall_mem_cons, ih]

lemma forall_mem_selectsKeys {p : Select → Prop} {keys : List SortKey} :
    (∀ select ∈ selectsKeys keys, p select) ↔
      ∀ key ∈ keys, ∀ select ∈ key.target.selects, p select := by
  induction keys with
  | nil => simp [selectsKeys]
  | cons key rest ih =>
    obtain ⟨target, direction⟩ := key
    simp only [selectsKeys, List.forall_mem_append, List.forall_mem_cons, ih]

lemma SelectList.forall_mem_selects {p : Select → Prop} {list : SelectList} :
    (∀ select ∈ list.selects, p select) ↔
      ∀ e ∈ list.expressions, ∀ select ∈ e.selects, p select := by
  cases list with
  | outputs list => simp only [selects, expressions, forall_mem_selectsOutputs, List.forall_mem_map]
  | one => simp [selects, expressions]

/-- A select is unambiguous if its outputs have different names and all its clauses are, and what
it reads is. -/
lemma Select.unambiguous_iff : select.Unambiguous ↔
    select.list.names.Nodup ∧ (∀ nested ∈ selectsFrom select.relation, nested.list.names.Nodup) ∧
      (∀ e ∈ select.list.expressions, e.Unambiguous) ∧ select.condition.Unambiguous ∧
      (∀ e ∈ select.groupBy, e.Unambiguous) ∧ ∀ key ∈ select.orderBy, key.target.Unambiguous := by
  obtain ⟨list, relation, condition, groupBy, orderBy, limit, offset⟩ := select
  simp only [Select.Unambiguous, Expression.Unambiguous, Select.selects,
    List.forall_mem_cons, List.forall_mem_append, SelectList.forall_mem_selects,
    forall_mem_selectsList, forall_mem_selectsKeys, and_assoc]

lemma Select.unambiguous_simple {list : SelectList} {relation : Relation} :
    (Select.simple list relation).Unambiguous ↔
      list.names.Nodup ∧ relation.Unambiguous ∧ ∀ e ∈ list.expressions, e.Unambiguous := by
  simp [Select.unambiguous_iff, Select.simple, Relation.Unambiguous]

end ObjectGraph.Sql
