/-
# Strings in statements

Strings are sent beside the text of a statement.  Changing every string of a select changes the
parameters of its statement in the same way, and its text not at all.
-/
import ObjectGraph.Proofs.Sql.Legible

namespace ObjectGraph.Sql

/-- The constant with another string in the place of its own. -/
def Value.mapString (f : String → String) : Value → Value
  | string s => string (f s)
  | v => v

mutual

/-- The expression with another string in the place of each one. -/
def Expression.mapStrings (f : String → String) : Expression → Expression
  | .and left right => .and (left.mapStrings f) (right.mapStrings f)
  | .or left right => .or (left.mapStrings f) (right.mapStrings f)
  | .not e => .not (e.mapStrings f)
  | .comparison left operator right =>
    .comparison (left.mapStrings f) operator (right.mapStrings f)
  | .isIn left items => .isIn (left.mapStrings f) (mapStringsList f items)
  | .isNull e => .isNull (e.mapStrings f)
  | .call function arguments => .call function (mapStringsList f arguments)
  | .exists select => .exists (select.mapStrings f)
  | .subselect select => .subselect (select.mapStrings f)
  | .rowToJson table => .rowToJson table
  | .column table name => .column table name
  | .output table name => .output table name
  | .value v => .value (v.mapString f)
  | .cast e type => .cast (e.mapStrings f) type
  | .countRows => .countRows

/-- The expressions with another string in the place of each one. -/
def mapStringsList (f : String → String) : List Expression → List Expression
  | [] => []
  | e :: rest => e.mapStrings f :: mapStringsList f rest

/-- The outputs with another string in the place of each one; their names stay. -/
def mapStringsOutputs (f : String → String) : List Output → List Output
  | [] => []
  | ⟨name, e⟩ :: rest => ⟨name, e.mapStrings f⟩ :: mapStringsOutputs f rest

/-- The select list with another string in the place of each one. -/
def SelectList.mapStrings (f : String → String) : SelectList → SelectList
  | .outputs list => .outputs (mapStringsOutputs f list)
  | .one => .one

/-- The sort keys with another string in the place of each one. -/
def mapStringsKeys (f : String → String) : List SortKey → List SortKey
  | [] => []
  | ⟨target, direction⟩ :: rest => ⟨target.mapStrings f, direction⟩ :: mapStringsKeys f rest

/-- The relation with another string in the place of each one. -/
def Relation.mapStrings (f : String → String) : Relation → Relation
  | .table reference handle => .table reference handle
  | .derived select handle => .derived (select.mapStrings f) handle
  | .union selects handle => .union (mapStringsSelects f selects) handle

/-- The selects with another string in the place of each one. -/
def mapStringsSelects (f : String → String) : List Select → List Select
  | [] => []
  | select :: rest => select.mapStrings f :: mapStringsSelects f rest

/-- What a select reads, with another string in the place of each one. -/
def mapStringsFrom (f : String → String) : Option Relation → Option Relation
  | none => none
  | some relation => some (relation.mapStrings f)

/-- The select with another string in the place of each one. -/
def Select.mapStrings (f : String → String) : Select → Select
  | ⟨list, relation, condition, groupBy, orderBy, limit, offset⟩ =>
    ⟨list.mapStrings f, mapStringsFrom f relation, condition.mapStrings f, mapStringsList f groupBy,
      mapStringsKeys f orderBy, limit, offset⟩

end

/-- The sort key with another string in the place of each one. -/
def SortKey.mapStrings (f : String → String) (key : SortKey) : SortKey :=
  ⟨key.target.mapStrings f, key.direction⟩

section Lists

variable (f : String → String)

lemma mapStringsList_eq (list : List Expression) :
    mapStringsList f list = list.map (Expression.mapStrings f) := by
  induction list with
  | nil => rfl
  | cons e rest ih => rw [mapStringsList, ih, List.map_cons]

lemma mapStringsOutputs_eq (list : List Output) :
    mapStringsOutputs f list
      = list.map fun output => ⟨output.name, output.expression.mapStrings f⟩ := by
  induction list with
  | nil => rfl
  | cons output rest ih =>
    obtain ⟨name, e⟩ := output
    simp only [mapStringsOutputs, ih, List.map_cons]

lemma mapStringsKeys_eq (keys : List SortKey) :
    mapStringsKeys f keys = keys.map (SortKey.mapStrings f) := by
  induction keys with
  | nil => rfl
  | cons key rest ih =>
    obtain ⟨target, direction⟩ := key
    simp only [mapStringsKeys, ih, List.map_cons, SortKey.mapStrings]

lemma mapStringsSelects_eq (selects : List Select) :
    mapStringsSelects f selects = selects.map (Select.mapStrings f) := by
  induction selects with
  | nil => rfl
  | cons select rest ih => rw [mapStringsSelects, ih, List.map_cons]

end Lists

namespace Fragment

/-- The fragment with another string as its parameter. -/
def mapParameter (f : String → String) : Fragment → Fragment
  | parameter value => parameter (f value)
  | fragment => fragment

variable {f : String → String}

@[simp] lemma mapParameter_code (text : String) : mapParameter f (code text) = code text := rfl

@[simp] lemma mapParameter_identifier (name : String) :
    mapParameter f (identifier name) = identifier name := rfl

lemma texts_map_mapParameter (next : Nat) (l : List Fragment) :
    texts next (l.map (mapParameter f)) = texts next l := by
  induction l generalizing next with
  | nil => rfl
  | cons fragment rest ih => cases fragment <;> simp [mapParameter, texts, ih]

lemma parameters_map_mapParameter (l : List Fragment) :
    (l.map (mapParameter f)).filterMap parameter? = (l.filterMap parameter?).map f := by
  induction l with
  | nil => rfl
  | cons fragment rest ih =>
    cases fragment <;> simp [mapParameter, parameter?, List.filterMap_cons, ih]

end Fragment

open Fragment

/-! ### Changing fragments but not code -/

section Fragments

variable {g : Fragment → Fragment}

lemma map_parenthesized (hg : ∀ text, g (code text) = code text) (l : List Fragment) :
    (parenthesized l).map g = parenthesized (l.map g) := by
  simp [parenthesized, hg]

lemma map_commaSeparated (hg : ∀ text, g (code text) = code text)
    (parts : List (List Fragment)) :
    (commaSeparated parts).map g = commaSeparated (parts.map (List.map g)) := by
  induction parts with
  | nil => rfl
  | cons part rest ih =>
    cases rest with
    | nil => rfl
    | cons next rest =>
      simp only [commaSeparated, List.map_append, List.map_cons, hg] at ih ⊢
      rw [ih]

lemma map_listClause (hg : ∀ text, g (code text) = code text) (keyword : String)
    (parts : List (List Fragment)) :
    (listClause keyword parts).map g = listClause keyword (parts.map (List.map g)) := by
  cases parts with
  | nil => rfl
  | cons part rest =>
    simp only [listClause, List.map_cons, hg, map_commaSeparated hg]

lemma map_limitFragments (hg : ∀ text, g (code text) = code text) (keyword : String)
    (limit : Option UInt32) :
    (limitFragments keyword limit).map g = limitFragments keyword limit := by
  cases limit <;> simp [limitFragments, hg]

end Fragments

variable (f : String → String)

lemma isTrue_mapStrings (e : Expression) : (e.mapStrings f).isTrue = e.isTrue := by
  cases e with
  | value v => cases v <;> rfl
  | _ => rfl

lemma fragments_mapString (v : Value) :
    (v.mapString f).fragments = v.fragments.map (mapParameter f) := by
  cases v <;> rfl

lemma map_tableName (name : TableName) :
    name.fragments.map (mapParameter f) = name.fragments := by
  unfold TableName.fragments
  split <;> rfl

lemma map_alias (handle : TableAlias) :
    handle.fragments.map (mapParameter f) = handle.fragments := rfl

lemma map_reference (reference : TableReference) :
    reference.fragments.map (mapParameter f) = reference.fragments := by
  cases reference with
  | stored name => exact map_tableName f name
  | aliased handle => exact map_alias f handle

lemma map_column (table : TableReference) (name : String) :
    (columnFragments table name).map (mapParameter f) = columnFragments table name := by
  simp only [columnFragments, List.map_append, map_reference, List.map_cons, List.map_nil,
    mapParameter_code, mapParameter_identifier]

mutual

lemma Expression.fragments_mapStrings : ∀ e : Expression,
    (e.mapStrings f).fragments = e.fragments.map (mapParameter f)
  | .and left right | .or left right => by
    simp only [Expression.mapStrings, Expression.fragments, left.fragments_mapStrings,
      right.fragments_mapStrings, map_parenthesized mapParameter_code, List.map_append,
      List.map_cons, mapParameter_code]
  | .not e => by
    simp only [Expression.mapStrings, Expression.fragments, e.fragments_mapStrings, List.map_cons,
      mapParameter_code]
  | .comparison left operator right => by
    simp only [Expression.mapStrings, Expression.fragments, left.fragments_mapStrings,
      right.fragments_mapStrings, map_parenthesized mapParameter_code, List.map_append,
      List.map_cons, mapParameter_code]
  | .isIn left items => by
    simp only [Expression.mapStrings, Expression.fragments, left.fragments_mapStrings,
      fragments_mapStringsList items, map_parenthesized mapParameter_code,
      map_commaSeparated mapParameter_code, List.map_append, List.map_cons, mapParameter_code]
  | .isNull e => by
    simp only [Expression.mapStrings, Expression.fragments, e.fragments_mapStrings,
      map_parenthesized mapParameter_code, List.map_append, List.map_cons, List.map_nil,
      mapParameter_code]
  | .call function arguments => by
    simp only [Expression.mapStrings, Expression.fragments, fragments_mapStringsList arguments,
      map_parenthesized mapParameter_code, map_commaSeparated mapParameter_code, List.map_cons,
      mapParameter_code]
  | .exists select => by
    simp only [Expression.mapStrings, Expression.fragments, select.fragments_mapStrings,
      map_parenthesized mapParameter_code, List.map_cons, mapParameter_code]
  | .subselect select => by
    simp only [Expression.mapStrings, Expression.fragments, select.fragments_mapStrings,
      map_parenthesized mapParameter_code]
  | .rowToJson table => by
    simp only [Expression.mapStrings, Expression.fragments, map_reference,
      map_parenthesized mapParameter_code, List.map_cons, mapParameter_code]
  | .column table name | .output table name => by
    simp only [Expression.mapStrings, Expression.fragments, map_column]
  | .countRows => rfl
  | .value v => fragments_mapString f v
  | .cast e type => by
    simp only [Expression.mapStrings, Expression.fragments, e.fragments_mapStrings,
      map_parenthesized mapParameter_code, List.map_append, List.map_cons, List.map_nil,
      mapParameter_code]

lemma fragments_mapStringsList : ∀ list : List Expression,
    listFragments (mapStringsList f list)
      = (listFragments list).map (List.map (mapParameter f))
  | [] => rfl
  | e :: rest => by
    simp only [mapStringsList, listFragments, e.fragments_mapStrings,
      fragments_mapStringsList rest, List.map_cons]

lemma fragments_mapStringsOutputs : ∀ list : List Output,
    outputFragments (mapStringsOutputs f list)
      = (outputFragments list).map (List.map (mapParameter f))
  | [] => rfl
  | ⟨name, e⟩ :: rest => by
    simp only [mapStringsOutputs, outputFragments, e.fragments_mapStrings,
      fragments_mapStringsOutputs rest, List.map_cons, List.map_append, List.map_nil,
      mapParameter_code, mapParameter_identifier]

lemma SelectList.fragments_mapStrings : ∀ list : SelectList,
    (list.mapStrings f).fragments = list.fragments.map (mapParameter f)
  | .outputs list => by
    simp only [SelectList.mapStrings, SelectList.fragments, fragments_mapStringsOutputs list,
      map_commaSeparated mapParameter_code]
  | .one => rfl

lemma fragments_mapStringsKeys : ∀ keys : List SortKey,
    sortFragments (mapStringsKeys f keys)
      = (sortFragments keys).map (List.map (mapParameter f))
  | [] => rfl
  | ⟨target, direction⟩ :: rest => by
    simp only [mapStringsKeys, sortFragments, target.fragments_mapStrings,
      fragments_mapStringsKeys rest, List.map_cons, List.map_append, List.map_nil,
      mapParameter_code]

lemma Relation.fragments_mapStrings : ∀ relation : Relation,
    (relation.mapStrings f).fragments = relation.fragments.map (mapParameter f)
  | .table reference handle => by
    simp only [Relation.mapStrings, Relation.fragments, List.map_append, List.map_cons,
      map_reference, map_alias, mapParameter_code]
  | .derived select handle => by
    simp only [Relation.mapStrings, Relation.fragments, select.fragments_mapStrings,
      map_parenthesized mapParameter_code, List.map_append, List.map_cons, map_alias,
      mapParameter_code]
  | .union selects handle => by
    simp only [Relation.mapStrings, Relation.fragments, fragments_mapStringsSelects selects,
      map_parenthesized mapParameter_code, List.map_append, List.map_cons, map_alias,
      mapParameter_code]

lemma fragments_mapStringsSelects : ∀ selects : List Select,
    unionFragments (mapStringsSelects f selects)
      = (unionFragments selects).map (mapParameter f)
  | [] => rfl
  | select :: rest => by
    have hempty : (mapStringsSelects f rest).isEmpty = rest.isEmpty := by cases rest <;> rfl
    simp only [mapStringsSelects, unionFragments, select.fragments_mapStrings,
      fragments_mapStringsSelects rest, hempty, map_parenthesized mapParameter_code,
      List.map_append]
    split <;> rfl

lemma fragments_mapStringsFrom : ∀ relation : Option Relation,
    fromFragments (mapStringsFrom f relation) = (fromFragments relation).map (mapParameter f)
  | none => rfl
  | some relation => by
    simp only [mapStringsFrom, fromFragments, relation.fragments_mapStrings, List.map_cons,
      mapParameter_code]

lemma Select.fragments_mapStrings : ∀ select : Select,
    (select.mapStrings f).fragments = select.fragments.map (mapParameter f)
  | ⟨list, relation, condition, groupBy, orderBy, limit, offset⟩ => by
    simp only [Select.mapStrings, Select.fragments, list.fragments_mapStrings,
      fragments_mapStringsFrom relation, condition.fragments_mapStrings, isTrue_mapStrings,
      fragments_mapStringsList groupBy, fragments_mapStringsKeys orderBy, List.map_append,
      List.map_cons, map_listClause mapParameter_code, map_limitFragments mapParameter_code,
      mapParameter_code]
    split <;> rfl

end

/-- Other strings in a select are other parameters of the same text. -/
theorem statement_mapStrings (select : Select) :
    (select.mapStrings f).statement.text = select.statement.text ∧
      (select.mapStrings f).statement.parameters = select.statement.parameters.map f := by
  unfold Select.statement Fragment.statement
  rw [select.fragments_mapStrings f]
  exact ⟨congrArg String.join (texts_map_mapParameter 1 _), parameters_map_mapParameter _⟩

end ObjectGraph.Sql
