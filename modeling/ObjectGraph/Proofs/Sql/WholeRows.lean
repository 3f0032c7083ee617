/-
# Rows read as a whole

The alias of a derived table stands for a whole row of it where it is turned into a JSON object.
In the text the alias is a bare name, and a bare name means a column that is called so before it
means a row.  So no column of the derived table may be called like its alias.
-/
import ObjectGraph.Proofs.Sql.Nested
import Mathlib.Tactic.Tauto

namespace ObjectGraph.Sql

mutual

/-- What an expression reads whole rows through; subselects read their own. -/
@[simp] def Expression.wholeRows : Expression → List TableReference
  | .and left right | .or left right | .comparison left _ right =>
    left.wholeRows ++ right.wholeRows
  | .not e | .isNull e | .cast e _ => e.wholeRows
  | .isIn left items => left.wholeRows ++ wholeRowsList items
  | .call _ arguments => wholeRowsList arguments
  | .rowToJson table => [table]
  | .exists _ | .subselect _ | .column _ _ | .output _ _ | .value _ | .countRows => []

/-- What the expressions of a list read whole rows through. -/
@[simp] def wholeRowsList : List Expression → List TableReference
  | [] => []
  | e :: rest => e.wholeRows ++ wholeRowsList rest

end

/-- What the clauses of a select read whole rows through. -/
def Select.wholeRows (select : Select) : List TableReference :=
  wholeRowsList (select.list.expressions ++ select.condition :: select.groupBy
    ++ select.orderBy.map SortKey.target)

/-- Whether a reference stands for whole rows of what is read: it is the alias of a derived table in
which no column is called like it. -/
def KeepsWhole (relation : Option Relation) (table : TableReference) : Prop :=
  ∃ rows handle, table = .aliased handle ∧ relation = some (.derived rows handle) ∧
    handle.identifier ∉ rows.list.names

/-- Whether all that a select reads whole rows through stands for whole rows there. -/
def Select.Intact (select : Select) : Prop :=
  ∀ table ∈ select.wholeRows, KeepsWhole select.relation table

/-- An expression that reads whole rows of a relation only, with selects inside that are intact. -/
def Expression.IntactOver (relation : Option Relation) (e : Expression) : Prop :=
  (∀ table ∈ e.wholeRows, KeepsWhole relation table) ∧ ∀ nested ∈ e.selects, nested.Intact

/-- An expression that reads no whole rows, with selects inside that are intact. -/
def Expression.Plain (e : Expression) : Prop :=
  e.wholeRows = [] ∧ ∀ nested ∈ e.selects, nested.Intact

variable {e left right : Expression} {relation : Option Relation} {select : Select}
  {table : TableReference} {handle : TableAlias}

lemma mem_wholeRowsList {list : List Expression} :
    table ∈ wholeRowsList list ↔ ∃ e ∈ list, table ∈ e.wholeRows := by
  induction list with
  | nil => simp
  | cons e rest ih => simp [ih]

lemma wholeRowsList_eq_nil {list : List Expression} :
    wholeRowsList list = [] ↔ ∀ e ∈ list, e.wholeRows = [] := by
  induction list with
  | nil => simp
  | cons e rest ih => simp [ih]

namespace Expression

@[simp] lemma plain_value (v : Value) : (value v).Plain := by simp [Plain]

@[simp] lemma plain_true : Expression.true.Plain := plain_value _

@[simp] lemma plain_countRows : countRows.Plain := by simp [Plain]

@[simp] lemma plain_column {name : String} : (column table name).Plain := by simp [Plain]

@[simp] lemma plain_output {name : String} : (output table name).Plain := by simp [Plain]

lemma plain_cast {type : String} : (e.cast type).Plain ↔ e.Plain := by simp [Plain]

lemma plain_isNull : e.isNull.Plain ↔ e.Plain := by simp [Plain]

lemma plain_not : e.not.Plain ↔ e.Plain := by simp [Plain]

lemma plain_and : (left.and right).Plain ↔ left.Plain ∧ right.Plain := by
  simp only [Plain, wholeRows, selects, List.append_eq_nil_iff, List.forall_mem_append]
  tauto

lemma plain_or : (left.or right).Plain ↔ left.Plain ∧ right.Plain := by
  simp only [Plain, wholeRows, selects, List.append_eq_nil_iff, List.forall_mem_append]
  tauto

lemma plain_comparison {operator : String} :
    (left.comparison operator right).Plain ↔ left.Plain ∧ right.Plain := by
  simp only [Plain, wholeRows, selects, List.append_eq_nil_iff, List.forall_mem_append]
  tauto

lemma plain_isIn {items : List Expression} :
    (left.isIn items).Plain ↔ left.Plain ∧ ∀ e ∈ items, e.Plain := by
  simp only [Plain, wholeRows, selects, List.append_eq_nil_iff, List.forall_mem_append,
    wholeRowsList_eq_nil, forall_mem_selectsList, forall_and]
  tauto

lemma plain_exists :
    (Expression.exists select).Plain ↔ ∀ nested ∈ select.selects, nested.Intact := by
  simp [Plain]

lemma plain_subselect :
    (subselect select).Plain ↔ ∀ nested ∈ select.selects, nested.Intact := by
  simp [Plain]

lemma Plain.both (hl : left.Plain) (hr : right.Plain) : (left.both right).Plain := by
  unfold Expression.both
  split
  · exact hr
  · split
    · exact hl
    · exact plain_and.2 ⟨hl, hr⟩

lemma Plain.intactOver (h : e.Plain) : e.IntactOver relation :=
  ⟨h.1 ▸ List.forall_mem_nil _, h.2⟩

lemma intactOver_rowToJson :
    (rowToJson table).IntactOver relation ↔ KeepsWhole relation table := by
  simp [IntactOver]

lemma intactOver_jsonRows :
    (jsonRows handle).IntactOver relation ↔ KeepsWhole relation handle := by
  simp [IntactOver, jsonRows]

lemma intactOver_jsonArray :
    (jsonArray handle).IntactOver relation ↔ KeepsWhole relation handle := by
  simp [IntactOver, jsonArray, jsonRows]

end Expression

/-- A select and all selects in it are intact if it reads whole rows in its list alone. -/
lemma Select.forall_intact (hr : ∀ nested ∈ selectsFrom select.relation, nested.Intact)
    (hl : ∀ e ∈ select.list.expressions, e.IntactOver select.relation)
    (hc : select.condition.Plain) (hg : ∀ e ∈ select.groupBy, e.Plain)
    (ho : ∀ key ∈ select.orderBy, key.target.Plain) :
    ∀ nested ∈ select.selects, nested.Intact := by
  have hself : select.Intact := by
    intro table hm
    obtain ⟨e, he, hwhole⟩ := mem_wholeRowsList.1 hm
    rcases List.mem_append.1 he with he | he
    · rcases List.mem_append.1 he with he | he
      · exact (hl e he).1 table hwhole
      · have hplain : e.Plain := List.forall_mem_cons.2 ⟨hc, hg⟩ e he
        exact hplain.intactOver.1 table hwhole
    · obtain ⟨key, hkey, rfl⟩ := List.mem_map.1 he
      exact (ho key hkey).intactOver.1 table hwhole
  obtain ⟨list, relation, condition, groupBy, orderBy, limit, offset⟩ := select
  simp only [Select.selects, List.forall_mem_cons, List.forall_mem_append,
    SelectList.forall_mem_selects, forall_mem_selectsList, forall_mem_selectsKeys]
  exact ⟨hself, ⟨⟨⟨hr, fun e he => (hl e he).2⟩, hc.2⟩, fun e he => (hg e he).2⟩,
    fun key hkey => (ho key hkey).2⟩

end ObjectGraph.Sql
