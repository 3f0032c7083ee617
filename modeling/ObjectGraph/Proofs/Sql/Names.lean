/-
# Names in statements

No name can leave its quotes.  A reader of the text of a select, or of a statement that defines
tables, finds the names of its tree and no others, in the order in which they are written, each
as it is whatever characters it holds.  What the reader finds around the names does not depend on
them: it is the same for two trees that differ in nothing but names.  All that is asked of a tree is
that the texts in it which are written as they are, operators and types, hold no quotes.

Both follow from the fragments.  Those of a tree are legible, so scanning gives them back one by
one; the names among them are the names of the tree, and leaving the names of a tree blank leaves
those of its fragments blank.
-/
import ObjectGraph.Proofs.Sql.Strings
import ObjectGraph.Sql.Table

namespace ObjectGraph.Sql

/-! ### Names in a text -/

namespace Token

/-- The name that a token is. -/
def name? : Token → Option String
  | quoted name => some name
  | _ => none

/-- The token without the characters of its name. -/
def blank : Token → Token
  | quoted _ => quoted ""
  | token => token

end Token

/-- What a reader sees of a text, with every name left blank. -/
def outline (text : String) : List Token := (readText text).map Token.blank

/-- A reader of the text finds these names, and the end of the text outside of all names. -/
structure Quotes (text : String) (names : List String) : Prop where
  closed : .unterminated ∉ readText text
  names : (readText text).filterMap Token.name? = names

namespace Fragment

/-- The fragment without its name, if it is one. -/
def blank : Fragment → Fragment
  | identifier _ => identifier ""
  | fragment => fragment

@[simp] lemma blank_code (text : String) : blank (code text) = code text := rfl

@[simp] lemma blank_identifier (name : String) : blank (identifier name) = identifier "" := rfl

/-- The names among fragments. -/
def names (l : List Fragment) : List String := l.filterMap identifier?

@[simp] lemma names_nil : names [] = [] := rfl

@[simp] lemma names_code (text : String) (l : List Fragment) :
    names (code text :: l) = names l := rfl

@[simp] lemma names_identifier (name : String) (l : List Fragment) :
    names (identifier name :: l) = name :: names l := rfl

@[simp] lemma names_parameter (value : String) (l : List Fragment) :
    names (parameter value :: l) = names l := rfl

@[simp] lemma names_append (l r : List Fragment) : names (l ++ r) = names l ++ names r :=
  List.filterMap_append

@[simp] lemma names_parenthesized (l : List Fragment) : names (parenthesized l) = names l := by
  simp [parenthesized]

@[simp] lemma names_commaSeparated (parts : List (List Fragment)) :
    names (commaSeparated parts) = parts.flatMap names := by
  induction parts with
  | nil => rfl
  | cons part rest ih =>
    cases rest with
    | nil => simp [commaSeparated]
    | cons next rest => simp only [commaSeparated, names_append, names_code, ih, List.flatMap_cons]

variable {l : List Fragment}

lemma unterminated_not_mem_tokens (next : Nat) : .unterminated ∉ tokens next l := by
  induction l generalizing next with
  | nil => simp [tokens]
  | cons f rest ih => cases f <;> simp [tokens, ih]

lemma names_tokens (next : Nat) : (tokens next l).filterMap Token.name? = names l := by
  induction l generalizing next with
  | nil => rfl
  | cons f rest ih =>
    have hplain (chars : List Char) : (chars.map Token.plain).filterMap Token.name? = [] := by
      simp [List.filterMap_map, Function.comp_def, Token.name?]
    cases f with
    | code text => rw [tokens, List.filterMap_append, hplain, ih, List.nil_append, names_code]
    | identifier name =>
      simp only [tokens, List.filterMap_cons, Token.name?, ih, names_identifier]
    | parameter value =>
      rw [tokens, List.cons_append, List.filterMap_cons_none rfl, List.filterMap_append, hplain,
        ih, List.nil_append, names_parameter]

lemma blank_tokens (next : Nat) :
    (tokens next l).map Token.blank = tokens next (l.map blank) := by
  induction l generalizing next with
  | nil => rfl
  | cons f rest ih =>
    have hplain (chars : List Char) : (chars.map Token.plain).map Token.blank
        = chars.map Token.plain := by
      simp [Token.blank]
    cases f with
    | code text => simp only [tokens, List.map_append, hplain, ih, List.map_cons, blank_code]
    | identifier name => simp only [tokens, List.map_cons, ih, blank_identifier, Token.blank]
    | parameter value =>
      simp only [tokens, List.map_append, List.map_cons, hplain, ih, blank, Token.blank]

/-- A reader finds the names among legible fragments. -/
lemma Legible.quotes (hl : Legible ['"'] l) : Quotes (statement l).text (names l) := by
  have hread : readText (statement l).text = tokens 1 l := scan_texts (by simp) hl 1
  exact ⟨hread ▸ unterminated_not_mem_tokens 1, hread ▸ names_tokens 1⟩

/-- A reader sees the same around the names of legible fragments that differ in names only. -/
lemma Legible.outline_eq {r : List Fragment} (hl : Legible ['"'] l) (hr : Legible ['"'] r)
    (h : l.map blank = r.map blank) : outline (statement l).text = outline (statement r).text := by
  have houtline {l : List Fragment} (hl : Legible ['"'] l) :
      outline (statement l).text = tokens 1 (l.map blank) := by
    have hread : readText (statement l).text = tokens 1 l := scan_texts (by simp) hl 1
    rw [outline, hread, blank_tokens]
  rw [houtline hl, houtline hr, h]

end Fragment

open Fragment

/-! ### The names of a select -/

/-- The names of a table, its schema first. -/
def TableName.identifiers (name : TableName) : List String := name.schema.toList ++ [name.table]

/-- The names of a stored table, or the identifier of an alias. -/
def TableReference.identifiers : TableReference → List String
  | stored name => name.identifiers
  | aliased handle => [handle.identifier]

mutual

/-- The names in an expression, in the order in which they are written. -/
def Expression.identifiers : Expression → List String
  | .and left right | .or left right | .comparison left _ right =>
    left.identifiers ++ right.identifiers
  | .not e | .isNull e | .cast e _ => e.identifiers
  | .isIn left items => left.identifiers ++ identifiersList items
  | .call _ arguments => identifiersList arguments
  | .exists select | .subselect select => select.identifiers
  | .rowToJson table => table.identifiers
  | .column table name | .output table name => table.identifiers ++ [name]
  | .value _ | .countRows => []

/-- The names in a list of expressions. -/
def identifiersList : List Expression → List String
  | [] => []
  | e :: rest => e.identifiers ++ identifiersList rest

/-- The name of an output is written behind the output. -/
def identifiersOutputs : List Output → List String
  | [] => []
  | ⟨name, e⟩ :: rest => e.identifiers ++ name :: identifiersOutputs rest

/-- The names in a select list. -/
def SelectList.identifiers : SelectList → List String
  | .outputs list => identifiersOutputs list
  | .one => []

/-- The names in sort keys. -/
def identifiersKeys : List SortKey → List String
  | [] => []
  | ⟨target, _⟩ :: rest => target.identifiers ++ identifiersKeys rest

/-- What is read comes before the alias it is read through. -/
def Relation.identifiers : Relation → List String
  | .table reference handle => reference.identifiers ++ [handle.identifier]
  | .derived select handle => select.identifiers ++ [handle.identifier]
  | .union selects handle => identifiersSelects selects ++ [handle.identifier]

/-- The names in the selects of a union. -/
def identifiersSelects : List Select → List String
  | [] => []
  | select :: rest => select.identifiers ++ identifiersSelects rest

/-- The names in what a select reads, if it reads anything. -/
def identifiersFrom : Option Relation → List String
  | none => []
  | some relation => relation.identifiers

/-- The names in a select, clause by clause. -/
def Select.identifiers : Select → List String
  | ⟨list, relation, condition, groupBy, orderBy, _, _⟩ =>
    list.identifiers ++ identifiersFrom relation ++ condition.identifiers ++ identifiersList groupBy
      ++ identifiersKeys orderBy

end

lemma names_value (v : Value) : Fragment.names v.fragments = [] := by
  cases v <;> rfl

lemma names_tableName (name : TableName) : Fragment.names name.fragments = name.identifiers := by
  obtain ⟨schema, table⟩ := name
  cases schema <;> rfl

lemma names_reference (table : TableReference) :
    Fragment.names table.fragments = table.identifiers := by
  cases table with
  | stored name => exact names_tableName name
  | aliased handle => rfl

lemma names_column (table : TableReference) (name : String) :
    Fragment.names (columnFragments table name) = table.identifiers ++ [name] := by
  simp only [columnFragments, names_append, names_code, names_identifier, names_nil,
    names_reference]

lemma names_listClause (keyword : String) (parts : List (List Fragment)) :
    Fragment.names (listClause keyword parts) = parts.flatMap Fragment.names := by
  cases parts with
  | nil => rfl
  | cons part rest => simp only [listClause, names_code, names_commaSeparated]

lemma names_limitFragments (keyword : String) (limit : Option UInt32) :
    Fragment.names (limitFragments keyword limit) = [] := by
  cases limit <;> rfl

/-- A condition that is left out names nothing. -/
lemma names_of_isTrue {e : Expression} (h : e.isTrue) : e.identifiers = [] := by
  cases e with
  | value v => rw [Expression.identifiers]
  | _ => cases h

mutual

lemma Expression.names_fragments : ∀ e : Expression, Fragment.names e.fragments = e.identifiers
  | .and left right | .or left right | .comparison left _ right => by
    simp only [Expression.fragments, Expression.identifiers, names_parenthesized, names_append,
      names_code, left.names_fragments, right.names_fragments]
  | .not e | .isNull e | .cast e _ => by
    simp only [Expression.fragments, Expression.identifiers, names_parenthesized, names_append,
      names_code, names_nil, List.append_nil, e.names_fragments]
  | .isIn left items => by
    simp only [Expression.fragments, Expression.identifiers, names_parenthesized, names_append,
      names_code, names_commaSeparated, left.names_fragments, names_listFragments items]
  | .call function arguments => by
    simp only [Expression.fragments, Expression.identifiers, names_parenthesized, names_code,
      names_commaSeparated, names_listFragments arguments]
  | .exists select | .subselect select => by
    simp only [Expression.fragments, Expression.identifiers, names_parenthesized, names_code,
      select.names_fragments]
  | .rowToJson table => by
    simp only [Expression.fragments, Expression.identifiers, names_parenthesized, names_code,
      names_reference]
  | .column table name | .output table name => by
    simp only [Expression.fragments, Expression.identifiers, names_column]
  | .countRows => by
    rw [Expression.identifiers]
    rfl
  | .value v => by
    rw [Expression.identifiers]
    exact names_value v

lemma names_listFragments : ∀ list : List Expression,
    (listFragments list).flatMap Fragment.names = identifiersList list
  | [] => rfl
  | e :: rest => by
    simp only [listFragments, identifiersList, List.flatMap_cons, e.names_fragments,
      names_listFragments rest]

lemma names_outputFragments : ∀ list : List Output,
    (outputFragments list).flatMap Fragment.names = identifiersOutputs list
  | [] => rfl
  | ⟨name, e⟩ :: rest => by
    simp only [outputFragments, identifiersOutputs, List.flatMap_cons, names_append, names_code,
      names_identifier, names_nil, e.names_fragments, names_outputFragments rest,
      List.append_assoc, List.cons_append, List.nil_append]

lemma SelectList.names_fragments : ∀ list : SelectList,
    Fragment.names list.fragments = list.identifiers
  | .outputs list => by
    simp only [SelectList.fragments, SelectList.identifiers, names_commaSeparated,
      names_outputFragments list]
  | .one => rfl

lemma names_sortFragments : ∀ keys : List SortKey,
    (sortFragments keys).flatMap Fragment.names = identifiersKeys keys
  | [] => rfl
  | ⟨target, direction⟩ :: rest => by
    simp only [sortFragments, identifiersKeys, List.flatMap_cons, names_append, names_code,
      names_nil, List.append_nil, target.names_fragments, names_sortFragments rest]

lemma Relation.names_fragments : ∀ relation : Relation,
    Fragment.names relation.fragments = relation.identifiers
  | .table reference handle => by
    simp only [Relation.fragments, Relation.identifiers, TableAlias.fragments, names_append,
      names_code, names_identifier, names_nil, names_reference]
  | .derived select handle => by
    simp only [Relation.fragments, Relation.identifiers, TableAlias.fragments, names_append,
      names_code, names_parenthesized, names_identifier, names_nil, select.names_fragments]
  | .union selects handle => by
    simp only [Relation.fragments, Relation.identifiers, TableAlias.fragments, names_append,
      names_code, names_parenthesized, names_identifier, names_nil, names_unionFragments selects]

lemma names_unionFragments : ∀ selects : List Select,
    Fragment.names (unionFragments selects) = identifiersSelects selects
  | [] => rfl
  | select :: rest => by
    have hword : Fragment.names (if rest.isEmpty then [] else [code " UNION ALL "]) = [] := by
      split <;> rfl
    simp only [unionFragments, identifiersSelects, names_append, names_parenthesized, hword,
      List.append_nil, select.names_fragments, names_unionFragments rest]

lemma names_fromFragments : ∀ relation : Option Relation,
    Fragment.names (fromFragments relation) = identifiersFrom relation
  | none => rfl
  | some relation => by
    simp only [fromFragments, identifiersFrom, names_code, relation.names_fragments]

lemma Select.names_fragments : ∀ select : Select,
    Fragment.names select.fragments = select.identifiers
  | ⟨list, relation, condition, groupBy, orderBy, limit, offset⟩ => by
    have hwhere : Fragment.names
        (if condition.isTrue then [] else code " WHERE " :: condition.fragments)
          = condition.identifiers := by
      split
      · rename_i h
        exact (names_of_isTrue h).symm
      · exact condition.names_fragments
    simp only [Select.fragments, Select.identifiers, names_append, names_code, hwhere,
      names_listClause, names_limitFragments, List.append_nil, list.names_fragments,
      names_fromFragments relation, names_listFragments groupBy, names_sortFragments orderBy]

end

/-! ### Selects without names -/

/-- The name of a table that says only whether there is a schema. -/
def TableName.blank (name : TableName) : TableName := ⟨name.schema.map fun _ => "", ""⟩

/-- The alias without its name, the first of its kind. -/
def TableAlias.blank (_ : TableAlias) : TableAlias := ⟨"", 0⟩

/-- The reference with every name left blank. -/
def TableReference.blank : TableReference → TableReference
  | stored name => stored name.blank
  | aliased handle => aliased handle.blank

mutual

/-- The expression with every name left blank. -/
def Expression.blank : Expression → Expression
  | .and left right => .and left.blank right.blank
  | .or left right => .or left.blank right.blank
  | .not e => .not e.blank
  | .comparison left operator right => .comparison left.blank operator right.blank
  | .isIn left items => .isIn left.blank (blankList items)
  | .isNull e => .isNull e.blank
  | .call function arguments => .call function (blankList arguments)
  | .exists select => .exists select.blank
  | .subselect select => .subselect select.blank
  | .rowToJson table => .rowToJson table.blank
  | .column table _ => .column table.blank ""
  | .output table _ => .output table.blank ""
  | .value v => .value v
  | .cast e type => .cast e.blank type
  | .countRows => .countRows

/-- The expressions with every name left blank. -/
def blankList : List Expression → List Expression
  | [] => []
  | e :: rest => e.blank :: blankList rest

/-- The outputs with every name left blank, their own ones included. -/
def blankOutputs : List Output → List Output
  | [] => []
  | ⟨_, e⟩ :: rest => ⟨"", e.blank⟩ :: blankOutputs rest

/-- The select list with every name left blank. -/
def SelectList.blank : SelectList → SelectList
  | .outputs list => .outputs (blankOutputs list)
  | .one => .one

/-- The sort keys with every name left blank. -/
def blankKeys : List SortKey → List SortKey
  | [] => []
  | ⟨target, direction⟩ :: rest => ⟨target.blank, direction⟩ :: blankKeys rest

/-- The relation with every name left blank. -/
def Relation.blank : Relation → Relation
  | .table reference handle => .table reference.blank handle.blank
  | .derived select handle => .derived select.blank handle.blank
  | .union selects handle => .union (blankSelects selects) handle.blank

/-- The selects with every name left blank. -/
def blankSelects : List Select → List Select
  | [] => []
  | select :: rest => select.blank :: blankSelects rest

/-- What a select reads, with every name left blank. -/
def blankFrom : Option Relation → Option Relation
  | none => none
  | some relation => some relation.blank

/-- The select with every name left blank. -/
def Select.blank : Select → Select
  | ⟨list, relation, condition, groupBy, orderBy, limit, offset⟩ =>
    ⟨list.blank, blankFrom relation, condition.blank, blankList groupBy, blankKeys orderBy, limit,
      offset⟩

end

lemma isTrue_blank (e : Expression) : e.blank.isTrue = e.isTrue := by
  cases e <;> rfl

lemma map_blank_value (v : Value) : v.fragments.map Fragment.blank = v.fragments := by
  cases v <;> rfl

lemma map_blank_tableName (name : TableName) :
    name.fragments.map Fragment.blank = name.blank.fragments := by
  obtain ⟨schema, table⟩ := name
  cases schema <;> rfl

lemma map_blank_alias (handle : TableAlias) :
    handle.fragments.map Fragment.blank = handle.blank.fragments := rfl

lemma map_blank_reference (table : TableReference) :
    table.fragments.map Fragment.blank = table.blank.fragments := by
  cases table with
  | stored name => exact map_blank_tableName name
  | aliased handle => exact map_blank_alias handle

lemma map_blank_column (table : TableReference) (name : String) :
    (columnFragments table name).map Fragment.blank = columnFragments table.blank "" := by
  simp only [columnFragments, List.map_append, List.map_cons, List.map_nil, map_blank_reference,
    blank_code, blank_identifier]

mutual

lemma Expression.fragments_blank : ∀ e : Expression,
    e.blank.fragments = e.fragments.map Fragment.blank
  | .and left right | .or left right | .comparison left _ right => by
    simp only [Expression.blank, Expression.fragments, left.fragments_blank,
      right.fragments_blank, map_parenthesized blank_code, List.map_append, List.map_cons,
      blank_code]
  | .not e | .isNull e | .cast e _ => by
    simp only [Expression.blank, Expression.fragments, e.fragments_blank,
      map_parenthesized blank_code, List.map_append, List.map_cons, List.map_nil, blank_code]
  | .isIn left items => by
    simp only [Expression.blank, Expression.fragments, left.fragments_blank,
      fragments_blankList items, map_parenthesized blank_code, map_commaSeparated blank_code,
      List.map_append, List.map_cons, blank_code]
  | .call function arguments => by
    simp only [Expression.blank, Expression.fragments, fragments_blankList arguments,
      map_parenthesized blank_code, map_commaSeparated blank_code, List.map_cons, blank_code]
  | .exists select | .subselect select => by
    simp only [Expression.blank, Expression.fragments, select.fragments_blank,
      map_parenthesized blank_code, List.map_cons, blank_code]
  | .rowToJson table => by
    simp only [Expression.blank, Expression.fragments, map_parenthesized blank_code,
      List.map_cons, map_blank_reference, blank_code]
  | .column table name | .output table name => by
    simp only [Expression.blank, Expression.fragments, map_blank_column]
  | .value v => by
    simp only [Expression.blank, Expression.fragments, map_blank_value]
  | .countRows => rfl

lemma fragments_blankList : ∀ list : List Expression,
    listFragments (blankList list) = (listFragments list).map (List.map Fragment.blank)
  | [] => rfl
  | e :: rest => by
    simp only [blankList, listFragments, e.fragments_blank, fragments_blankList rest,
      List.map_cons]

lemma fragments_blankOutputs : ∀ list : List Output,
    outputFragments (blankOutputs list) = (outputFragments list).map (List.map Fragment.blank)
  | [] => rfl
  | ⟨name, e⟩ :: rest => by
    simp only [blankOutputs, outputFragments, e.fragments_blank, fragments_blankOutputs rest,
      List.map_cons, List.map_append, List.map_nil, blank_code, blank_identifier]

lemma SelectList.fragments_blank : ∀ list : SelectList,
    list.blank.fragments = list.fragments.map Fragment.blank
  | .outputs list => by
    simp only [SelectList.blank, SelectList.fragments, fragments_blankOutputs list,
      map_commaSeparated blank_code]
  | .one => rfl

lemma fragments_blankKeys : ∀ keys : List SortKey,
    sortFragments (blankKeys keys) = (sortFragments keys).map (List.map Fragment.blank)
  | [] => rfl
  | ⟨target, direction⟩ :: rest => by
    simp only [blankKeys, sortFragments, target.fragments_blank, fragments_blankKeys rest,
      List.map_cons, List.map_append, List.map_nil, blank_code]

lemma Relation.fragments_blank : ∀ relation : Relation,
    relation.blank.fragments = relation.fragments.map Fragment.blank
  | .table reference handle => by
    simp only [Relation.blank, Relation.fragments, List.map_append, List.map_cons,
      map_blank_reference, map_blank_alias, blank_code]
  | .derived select handle => by
    simp only [Relation.blank, Relation.fragments, select.fragments_blank,
      map_parenthesized blank_code, List.map_append, List.map_cons, map_blank_alias, blank_code]
  | .union selects handle => by
    simp only [Relation.blank, Relation.fragments, fragments_blankSelects selects,
      map_parenthesized blank_code, List.map_append, List.map_cons, map_blank_alias, blank_code]

lemma fragments_blankSelects : ∀ selects : List Select,
    unionFragments (blankSelects selects) = (unionFragments selects).map Fragment.blank
  | [] => rfl
  | select :: rest => by
    have hempty : (blankSelects rest).isEmpty = rest.isEmpty := by cases rest <;> rfl
    simp only [blankSelects, unionFragments, select.fragments_blank, fragments_blankSelects rest,
      hempty, map_parenthesized blank_code, List.map_append]
    split <;> rfl

lemma fragments_blankFrom : ∀ relation : Option Relation,
    fromFragments (blankFrom relation) = (fromFragments relation).map Fragment.blank
  | none => rfl
  | some relation => by
    simp only [blankFrom, fromFragments, relation.fragments_blank, List.map_cons, blank_code]

lemma Select.fragments_blank : ∀ select : Select,
    select.blank.fragments = select.fragments.map Fragment.blank
  | ⟨list, relation, condition, groupBy, orderBy, limit, offset⟩ => by
    simp only [Select.blank, Select.fragments, list.fragments_blank,
      fragments_blankFrom relation, condition.fragments_blank, isTrue_blank,
      fragments_blankList groupBy, fragments_blankKeys orderBy, List.map_append, List.map_cons,
      map_listClause blank_code, map_limitFragments blank_code, blank_code]
    split <;> rfl

end

/-! ### Words beside names -/

mutual

lemma Expression.words_blank : ∀ e : Expression, e.blank.words = e.words
  | .and left right | .or left right | .comparison left _ right => by
    simp only [Expression.blank, Expression.words, left.words_blank, right.words_blank]
  | .not e | .isNull e | .cast e _ => by
    simp only [Expression.blank, Expression.words, e.words_blank]
  | .isIn left items => by
    simp only [Expression.blank, Expression.words, left.words_blank, words_blankList items]
  | .call _ arguments => by
    simp only [Expression.blank, Expression.words, words_blankList arguments]
  | .exists select | .subselect select => by
    simp only [Expression.blank, Expression.words, select.words_blank]
  | .rowToJson _ | .column _ _ | .output _ _ | .value _ | .countRows => by
    simp only [Expression.blank, Expression.words]

lemma words_blankList : ∀ list : List Expression, wordsList (blankList list) = wordsList list
  | [] => rfl
  | e :: rest => by simp only [blankList, wordsList, e.words_blank, words_blankList rest]

lemma words_blankOutputs : ∀ list : List Output,
    wordsOutputs (blankOutputs list) = wordsOutputs list
  | [] => rfl
  | ⟨_, e⟩ :: rest => by
    simp only [blankOutputs, wordsOutputs, e.words_blank, words_blankOutputs rest]

lemma SelectList.words_blank : ∀ list : SelectList, list.blank.words = list.words
  | .outputs list => by simp only [SelectList.blank, SelectList.words, words_blankOutputs list]
  | .one => rfl

lemma words_blankKeys : ∀ keys : List SortKey, wordsKeys (blankKeys keys) = wordsKeys keys
  | [] => rfl
  | ⟨target, _⟩ :: rest => by
    simp only [blankKeys, wordsKeys, target.words_blank, words_blankKeys rest]

lemma Relation.words_blank : ∀ relation : Relation, relation.blank.words = relation.words
  | .table _ _ => by simp only [Relation.blank, Relation.words]
  | .derived select _ => by simp only [Relation.blank, Relation.words, select.words_blank]
  | .union selects _ => by simp only [Relation.blank, Relation.words, words_blankSelects selects]

lemma words_blankSelects : ∀ selects : List Select,
    wordsSelects (blankSelects selects) = wordsSelects selects
  | [] => rfl
  | select :: rest => by
    simp only [blankSelects, wordsSelects, select.words_blank, words_blankSelects rest]

lemma words_blankFrom : ∀ relation : Option Relation,
    wordsFrom (blankFrom relation) = wordsFrom relation
  | none => rfl
  | some relation => by simp only [blankFrom, wordsFrom, relation.words_blank]

lemma Select.words_blank : ∀ select : Select, select.blank.words = select.words
  | ⟨list, relation, condition, groupBy, orderBy, _, _⟩ => by
    simp only [Select.blank, Select.words, list.words_blank, words_blankFrom relation,
      condition.words_blank, words_blankList groupBy, words_blankKeys orderBy]

end

/-- The operators and the types of casts in a select hold no quotes. -/
def Select.Unquoted (select : Select) : Prop := AllLack ['"'] select.words

instance (select : Select) : Decidable select.Unquoted :=
  inferInstanceAs (Decidable (AllLack _ _))

/-- Leaving the names of a select blank leaves its operators and types alone. -/
lemma Select.unquoted_of_blank {a b : Select} (h : a.blank = b.blank) (ha : a.Unquoted) :
    b.Unquoted := by
  rwa [Select.Unquoted, ← b.words_blank, ← h, a.words_blank]

/-! ### Table definitions -/

/-- The names in a foreign key, in the order in which they are written. -/
def ForeignKey.identifiers (key : ForeignKey) : List String :=
  key.columns ++ key.table.identifiers ++ key.referenced

/-- The names in a table definition, in the order in which they are written. -/
def CreateTable.identifiers (table : CreateTable) : List String :=
  table.name.identifiers ++ table.columns.map (·.name) ++ table.primaryKey
    ++ table.foreignKeys.flatMap (·.identifiers)

/-- The names in a statement that adds a key. -/
def AddForeignKey.identifiers (addition : AddForeignKey) : List String :=
  addition.table.identifiers ++ addition.key.identifiers

/-- The names of a list, all of them left blank. -/
def blankNames (names : List String) : List String := names.map fun _ => ""

/-- The foreign key with every name left blank. -/
def ForeignKey.blank (key : ForeignKey) : ForeignKey :=
  ⟨blankNames key.columns, key.table.blank, blankNames key.referenced⟩

/-- The table definition with every name left blank. -/
def CreateTable.blank (table : CreateTable) : CreateTable where
  name := table.name.blank
  columns := table.columns.map fun column => { column with name := "" }
  primaryKey := blankNames table.primaryKey
  foreignKeys := table.foreignKeys.map (·.blank)

/-- The statement that adds a key with every name left blank. -/
def AddForeignKey.blank (addition : AddForeignKey) : AddForeignKey :=
  ⟨addition.table.blank, addition.key.blank⟩

/-- The types of the columns hold no quotes. -/
def CreateTable.Unquoted (table : CreateTable) : Prop :=
  ∀ column ∈ table.columns, Lacks ['"'] column.type

instance (table : CreateTable) : Decidable table.Unquoted :=
  List.decidableBAll (fun column : ColumnDefinition => Lacks ['"'] column.type) table.columns

section Definitions

variable {names : List String}

lemma quote_subset_marks : ['"'] ⊆ marks := by decide

lemma legible_nameList : Legible ['"'] (nameList names) := by
  refine legible_parenthesized quote_subset_marks (legible_commaSeparated quote_subset_marks ?_)
  rw [List.forall_mem_map]
  exact fun name _ => legible_identifier name

lemma names_nameList : Fragment.names (nameList names) = names := by
  simp [nameList, List.flatMap_map]

lemma map_blank_nameList :
    (nameList names).map Fragment.blank = nameList (blankNames names) := by
  simp only [nameList, blankNames, map_parenthesized blank_code, map_commaSeparated blank_code,
    List.map_map]
  rfl

lemma ForeignKey.legible (key : ForeignKey) : Legible ['"'] key.fragments :=
  legible_between
    (legible_between (legible_code (by decide) legible_nameList)
      (legible_reference quote_subset_marks key.table) (by decide) (by decide))
    legible_nameList (by decide) (by decide)

lemma ForeignKey.names_fragments (key : ForeignKey) :
    Fragment.names key.fragments = key.identifiers := by
  simp only [ForeignKey.fragments, ForeignKey.identifiers, names_append, names_code, names_nameList,
    names_reference]

lemma ForeignKey.fragments_blank (key : ForeignKey) :
    key.blank.fragments = key.fragments.map Fragment.blank := by
  simp only [ForeignKey.fragments, ForeignKey.blank, List.map_append, List.map_cons, blank_code,
    map_blank_nameList, map_blank_reference]

lemma AddForeignKey.legible (addition : AddForeignKey) : Legible ['"'] addition.fragments :=
  legible_between
    (legible_code (by decide) (legible_reference quote_subset_marks addition.table))
    addition.key.legible (by decide) (by decide)

lemma AddForeignKey.names_fragments (addition : AddForeignKey) :
    Fragment.names addition.fragments = addition.identifiers := by
  simp only [AddForeignKey.fragments, AddForeignKey.identifiers, names_append, names_code,
    names_reference, addition.key.names_fragments]

lemma AddForeignKey.fragments_blank (addition : AddForeignKey) :
    addition.blank.fragments = addition.fragments.map Fragment.blank := by
  simp only [AddForeignKey.fragments, AddForeignKey.blank, List.map_append, List.map_cons,
    blank_code, map_blank_reference, addition.key.fragments_blank]

lemma ColumnDefinition.legible {column : ColumnDefinition} (h : Lacks ['"'] column.type) :
    Legible ['"'] column.fragments := by
  have hnull : Legible ['"'] (if column.notNull then [code " NOT NULL"] else []) := by
    split
    · exact legible_code (by decide) legible_nil
    · exact legible_nil
  have hname : Legible ['"'] ([identifier column.name] ++ code " " :: [code column.type]) :=
    legible_between (legible_identifier _) (legible_code h legible_nil) (by decide) (by decide)
  refine hname.append hnull fun f hf => ?_
  split at hf
  · obtain rfl := Option.some.inj hf
    exact ⟨_, rfl, by decide⟩
  · cases hf

lemma ColumnDefinition.names_fragments (column : ColumnDefinition) :
    Fragment.names column.fragments = [column.name] := by
  have hnull : Fragment.names (if column.notNull then [code " NOT NULL"] else []) = [] := by
    split <;> rfl
  rw [ColumnDefinition.fragments, names_append, hnull]
  rfl

lemma ColumnDefinition.fragments_blank (column : ColumnDefinition) :
    ({ column with name := "" } : ColumnDefinition).fragments
      = column.fragments.map Fragment.blank := by
  simp only [ColumnDefinition.fragments, List.map_append]
  split <;> rfl

lemma CreateTable.legible {table : CreateTable} (h : table.Unquoted) :
    Legible ['"'] table.fragments := by
  have hparts : ∀ part ∈ table.columns.map (·.fragments) ++ primaryKeyFragments table.primaryKey
      ++ table.foreignKeys.map (·.fragments), Legible ['"'] part := by
    simp only [List.forall_mem_append, List.forall_mem_map]
    refine ⟨⟨fun column hc => ColumnDefinition.legible (h column hc), ?_⟩,
      fun key _ => key.legible⟩
    unfold primaryKeyFragments
    split
    · simp
    · exact List.forall_mem_singleton.2 (legible_code (by decide) legible_nameList)
  exact legible_between
    (legible_code (by decide) (legible_reference quote_subset_marks table.name))
    (legible_parenthesized quote_subset_marks (legible_commaSeparated quote_subset_marks hparts))
    (by decide) (by decide)

lemma names_primaryKeyFragments :
    (primaryKeyFragments names).flatMap Fragment.names = names := by
  cases names with
  | nil => rfl
  | cons name rest => simp [primaryKeyFragments, names_nameList]

lemma map_blank_primaryKeyFragments :
    (primaryKeyFragments names).map (List.map Fragment.blank)
      = primaryKeyFragments (blankNames names) := by
  have hempty : (blankNames names).isEmpty = names.isEmpty := by cases names <;> rfl
  simp only [primaryKeyFragments, hempty, ← map_blank_nameList]
  split <;> rfl

lemma CreateTable.names_fragments (table : CreateTable) :
    Fragment.names table.fragments = table.identifiers := by
  have hcolumns : (table.columns.map (·.fragments)).flatMap Fragment.names
      = table.columns.map (·.name) := by
    simp only [List.flatMap_map, ColumnDefinition.names_fragments]
    exact List.map_eq_flatMap.symm
  have hkeys : (table.foreignKeys.map (·.fragments)).flatMap Fragment.names
      = table.foreignKeys.flatMap (·.identifiers) := by
    simp only [List.flatMap_map, ForeignKey.names_fragments]
  simp only [CreateTable.fragments, CreateTable.identifiers, names_append, names_code,
    names_reference, names_parenthesized, names_commaSeparated, List.flatMap_append,
    names_primaryKeyFragments, hcolumns, hkeys, List.append_assoc]

lemma CreateTable.fragments_blank (table : CreateTable) :
    table.blank.fragments = table.fragments.map Fragment.blank := by
  have hcolumn : (fun column : ColumnDefinition => column.fragments.map Fragment.blank)
      = fun column => ({ column with name := "" } : ColumnDefinition).fragments :=
    funext fun column => column.fragments_blank.symm
  have hkey : (fun key : ForeignKey => key.fragments.map Fragment.blank)
      = fun key => key.blank.fragments :=
    funext fun key => key.fragments_blank.symm
  simp only [CreateTable.fragments, CreateTable.blank, List.map_append, List.map_cons, blank_code,
    map_blank_reference, map_parenthesized blank_code, map_commaSeparated blank_code,
    map_blank_primaryKeyFragments, List.map_map, Function.comp_def, hcolumn, hkey]

/-- Leaving the names of a definition blank leaves its types alone. -/
lemma CreateTable.unquoted_of_blank {a b : CreateTable} (h : a.blank = b.blank)
    (ha : a.Unquoted) : b.Unquoted := by
  have htypes (table : CreateTable) :
      table.blank.columns.map (·.type) = table.columns.map (·.type) := by
    simp [CreateTable.blank]
  have hsame : a.columns.map (·.type) = b.columns.map (·.type) := by
    rw [← htypes a, ← htypes b, h]
  intro column hc
  have hmem : column.type ∈ a.columns.map (·.type) := hsame ▸ List.mem_map_of_mem hc
  obtain ⟨other, ho, heq⟩ := List.mem_map.1 hmem
  exact heq ▸ ha other ho

end Definitions

/-! ### Main result -/

/-- The fragments of a select are legible for a reader who looks for names only. -/
lemma Select.Unquoted.legible {select : Select} (h : select.Unquoted) :
    Legible ['"'] select.fragments :=
  Select.legible quote_subset_marks h

/-- A reader of a statement finds exactly its names, each as it is; and two statements that differ
in names only, the numbers of aliases among them, look the same to the reader around the names. -/
theorem quotes_names :
    (∀ select : Select, select.Unquoted → Quotes select.statement.text select.identifiers) ∧
      (∀ table : CreateTable, table.Unquoted → Quotes table.text table.identifiers) ∧
      (∀ addition : AddForeignKey, Quotes addition.text addition.identifiers) ∧
      (∀ a b : Select, a.Unquoted → a.blank = b.blank →
        outline a.statement.text = outline b.statement.text) ∧
      (∀ a b : CreateTable, a.Unquoted → a.blank = b.blank → outline a.text = outline b.text) ∧
      ∀ a b : AddForeignKey, a.blank = b.blank → outline a.text = outline b.text := by
  refine ⟨fun select hs => ?_, fun table ht => ?_, fun addition => ?_, fun a b ha h => ?_,
    fun a b ha h => ?_, fun a b h => ?_⟩
  · exact select.names_fragments ▸ hs.legible.quotes
  · exact table.names_fragments ▸ (CreateTable.legible ht).quotes
  · exact addition.names_fragments ▸ addition.legible.quotes
  · refine ha.legible.outline_eq (Select.unquoted_of_blank h ha).legible ?_
    rw [← a.fragments_blank, ← b.fragments_blank, h]
  · refine (CreateTable.legible ha).outline_eq (CreateTable.legible (a.unquoted_of_blank h ha)) ?_
    rw [← a.fragments_blank, ← b.fragments_blank, h]
  · refine a.legible.outline_eq b.legible ?_
    rw [← a.fragments_blank, ← b.fragments_blank, h]

/-- A table of two columns that refers to another one. -/
def tableNamed (schema table id other : String) : CreateTable where
  name := .stored ⟨some schema, table⟩
  columns := [⟨id, "bigint", true⟩, ⟨other, "bigint", false⟩]
  primaryKey := [id]
  foreignKeys := [⟨[other], .aliased ⟨table, 1⟩, [id]⟩]

/-- The identities in a table that is read through an alias. -/
def identitiesThrough (handle : TableAlias) (output : String) : Select :=
  .simple (.outputs [⟨output, .column handle "id"⟩]) (.table (.stored ⟨none, handle.name⟩) handle)

/-- Whether a column of a stored table holds its whole row, in a select that reads nothing. -/
def wholeRowIn (schema table name : String) : Select where
  list := .outputs [⟨name, .cast (.comparison (.column (.stored ⟨some schema, table⟩) name) "@>"
    (.rowToJson (.stored ⟨some schema, table⟩))) "text[]"⟩]
  relation := none
  condition := .true
  groupBy := []
  orderBy := []
  limit := none
  offset := none

/-- Names that hold quotes, placeholders and code, beside harmless ones. -/
theorem quotes_names_harmful :
    Quotes (tableNamed "\"" "a\"; DROP TABLE \"b" "$1" "\"\"").text
        ["\"", "a\"; DROP TABLE \"b", "$1", "\"\"", "$1", "\"\"", "a\"; DROP TABLE \"b_1", "$1"] ∧
      outline (tableNamed "\"" "a\"; DROP TABLE \"b" "$1" "\"\"").text
        = outline (tableNamed "public" "user" "id" "friend_id").text ∧
      outline (identitiesThrough ⟨"user\"", 2⟩ "$1\"").statement.text
        = outline (identitiesThrough ⟨"user", 0⟩ "id").statement.text ∧
      (wholeRowIn "a" "b" "c").statement.text
        = "SELECT CAST((\"a\".\"b\".\"c\" @> row_to_json(\"a\".\"b\")) AS text[]) AS \"c\"" ∧
      Quotes (wholeRowIn "\"" "). \"" "$1").statement.text
        ["\"", "). \"", "$1", "\"", "). \"", "$1"] ∧
      outline (AddForeignKey.mk (.stored ⟨none, "\" ("⟩)
          ⟨["\"", ""], .stored ⟨none, "b"⟩, ["c"]⟩).text
        = outline (AddForeignKey.mk (.stored ⟨none, "a"⟩)
          ⟨["b", "c"], .stored ⟨none, "d"⟩, ["e"]⟩).text := by
  obtain ⟨hselect, htable, -, hselects, htables, hkey⟩ := quotes_names
  exact ⟨htable (tableNamed "\"" "a\"; DROP TABLE \"b" "$1" "\"\"") (by decide),
    htables _ _ (by decide) rfl, hselects _ _ (by decide) rfl, by decide +kernel,
    hselect (wholeRowIn "\"" "). \"" "$1") (by decide), hkey _ _ rfl⟩

end ObjectGraph.Sql
