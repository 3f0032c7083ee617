/-
# The text of a select is legible

The fragments of every select can be told apart in its text.  No code in it holds a double quote
or a dollar sign, unless an operator or the type of a cast does, which are written as they are:
keywords do not, and neither do numbers.
-/
import ObjectGraph.Proofs.Sql.Scan
import ObjectGraph.Sql.Render

namespace ObjectGraph.Sql

/-- The characters that mean something to a reader of fragments. -/
def marks : List Char := ['"', '$']

/-- A text without marks. -/
abbrev Unmarked (text : String) : Prop := Fragment.Lacks marks text

/-! ### Numbers -/

/-- The characters of numbers. -/
def IsNumeral (c : Char) : Prop := c.isDigit ∨ c ∈ ['-', '+', '.', 'e', 'i', 'n', 'f']

lemma IsNumeral.not_mem_marks {c : Char} (h : IsNumeral c) : c ∉ marks := by
  rintro hm
  simp only [marks, List.mem_cons, List.not_mem_nil, or_false] at hm
  rcases hm with rfl | rfl <;> simp [IsNumeral] at h

lemma isNumeral_of_mem_toDigits {n : Nat} {c : Char} (h : c ∈ Nat.toDigits 10 n) : IsNumeral c :=
  .inl (Nat.isDigit_of_mem_toDigits (by decide) (by decide) h)

lemma isNumeral_nat {n : Nat} {c : Char} (h : c ∈ (toString n).toList) : IsNumeral c :=
  .inl (Fragment.isDigit_of_mem_toString h)

lemma isNumeral_int {i : Int} {c : Char} (h : c ∈ (toString i).toList) : IsNumeral c := by
  cases i with
  | ofNat n => exact isNumeral_nat h
  | negSucc n =>
    have htext : toString (Int.negSucc n) = "-" ++ toString (n + 1) := rfl
    rw [htext, String.toList_append] at h
    rcases List.mem_append.1 h with h | h
    · exact .inr (by simp_all)
    · exact isNumeral_nat h

lemma isNumeral_shortest {x : Double} {c : Char} (h : c ∈ x.shortest.digits) : IsNumeral c := by
  simp only [Double.shortest, Double.stripZeros, List.mem_reverse] at h
  have hd := (List.dropWhile_suffix _).subset h
  exact isNumeral_of_mem_toDigits (List.mem_reverse.1 hd)

lemma isNumeral_writeOut {d : Double.Decimal} (hd : ∀ c ∈ d.digits, IsNumeral c) {c : Char}
    (h : c ∈ Double.writeOut d) : IsNumeral c := by
  have hzero : IsNumeral '0' := .inl rfl
  have hpoint : IsNumeral '.' := .inr (by simp)
  have hpad : ∀ n, c ∈ List.replicate n '0' → IsNumeral c := fun n hm =>
    (List.mem_replicate.1 hm).2 ▸ hzero
  unfold Double.writeOut at h
  split at h
  · simp only [List.cons_append, List.mem_cons, List.mem_append] at h
    rcases h with rfl | rfl | h | h
    · exact hzero
    · exact hpoint
    · exact hpad _ h
    · exact hd c h
  · simp only [List.append_assoc, List.mem_append, List.mem_cons] at h
    rcases h with h | h | rfl | h
    · exact hd c (List.mem_of_mem_take h)
    · exact hpad _ h
    · exact hpoint
    · split at h
      · rw [List.mem_singleton.1 h]
        exact hzero
      · exact hd c (List.mem_of_mem_drop h)

lemma isNumeral_writeScaled {style : Double.Style} {d : Double.Decimal}
    (hd : ∀ c ∈ d.digits, IsNumeral c) {c : Char} (h : c ∈ Double.writeScaled style d) :
    IsNumeral c := by
  unfold Double.writeScaled at h
  simp only [List.append_assoc, List.mem_append, List.cons_append, List.mem_cons] at h
  rcases h with h | rfl | h | h
  · split at h
    · rename_i first second rest hdigits
      rw [hdigits] at hd
      rcases List.mem_cons.1 h with rfl | h
      · exact hd c (by simp)
      · rcases List.mem_cons.1 h with rfl | h
        · exact .inr (by simp)
        · exact hd c (List.mem_cons_of_mem _ h)
    · exact hd c h
  · exact .inr (by simp)
  · split at h
    · exact .inr (by simp_all)
    · cases h
  · exact isNumeral_int h

lemma isNumeral_render {style : Double.Style} {x : Double} {c : Char}
    (h : c ∈ (x.render style).toList) : IsNumeral c := by
  rw [Double.render, String.toList_ofList, List.mem_append] at h
  rcases h with h | h
  · split at h
    · exact .inr (by simp_all)
    · cases h
  · unfold Double.magnitudeText at h
    split at h
    · simp only [List.mem_cons, List.not_mem_nil, or_false] at h
      rcases h with rfl | rfl | rfl <;> simp [IsNumeral]
    · split at h
      · exact .inr (by simp only [List.mem_cons, List.not_mem_nil, or_false] at h ⊢; tauto)
      · dsimp only at h
        split at h
        · exact isNumeral_writeOut (fun _ => isNumeral_shortest) h
        · exact isNumeral_writeScaled (fun _ => isNumeral_shortest) h

/-! ### Clauses -/

open Fragment

variable {avoid : List Char} {l r : List Fragment} {parts : List (List Fragment)}

/-- Code without marks holds none of some of them. -/
lemma lacks_of_unmarked {text : String} (ht : Unmarked text) (ha : avoid ⊆ marks) :
    Lacks avoid text :=
  fun c hc hm => ht c hc (ha hm)

lemma legible_between {text : String} (hl : Legible avoid l) (hr : Legible avoid r)
    (ht : Lacks avoid text) (hs : Separates text) : Legible avoid (l ++ code text :: r) :=
  hl.append (legible_code ht hr) (by simpa using hs)

lemma legible_keyword {text : String} (ha : avoid ⊆ marks) (hr : Legible avoid r)
    (ht : Unmarked text) : Legible avoid (code text :: r) :=
  legible_code (lacks_of_unmarked ht ha) hr

lemma legible_around {text : String} (ha : avoid ⊆ marks) (hl : Legible avoid l)
    (hr : Legible avoid r) (ht : Unmarked text) (hs : Separates text) :
    Legible avoid (l ++ code text :: r) :=
  legible_between hl hr (lacks_of_unmarked ht ha) hs

lemma legible_parenthesized (ha : avoid ⊆ marks) (hl : Legible avoid l) :
    Legible avoid (parenthesized l) :=
  legible_keyword ha (legible_around ha hl legible_nil (by decide) (by decide)) (by decide)

lemma legible_commaSeparated (ha : avoid ⊆ marks) (h : ∀ part ∈ parts, Legible avoid part) :
    Legible avoid (commaSeparated parts) := by
  induction parts with
  | nil => exact legible_nil
  | cons part rest ih =>
    cases rest with
    | nil => exact h part (by simp)
    | cons next rest =>
      exact legible_around ha (h part (by simp)) (ih fun p hp => h p (by simp [hp]))
        (by decide) (by decide)

/-- Fragments that may follow any others: none, or code that separates and what follows it. -/
structure Clause (avoid : List Char) (l : List Fragment) : Prop where
  legible : Legible avoid l
  separates : ∀ f ∈ l.head?, ∃ text, f = code text ∧ Separates text

lemma clause_nil : Clause avoid [] := ⟨legible_nil, by simp⟩

lemma clause_code {text : String} (ha : avoid ⊆ marks) (hr : Legible avoid r) (ht : Unmarked text)
    (hs : Separates text) : Clause avoid (code text :: r) :=
  ⟨legible_keyword ha hr ht, by simpa using hs⟩

lemma legible_append (hl : Legible avoid l) (hr : Clause avoid r) : Legible avoid (l ++ r) :=
  hl.append hr.legible hr.separates

lemma clause_listClause {keyword : String} (ha : avoid ⊆ marks)
    (h : ∀ part ∈ parts, Legible avoid part) (ht : Unmarked keyword) (hs : Separates keyword) :
    Clause avoid (listClause keyword parts) := by
  cases parts with
  | nil => exact clause_nil
  | cons part rest => exact clause_code ha (legible_commaSeparated ha h) ht hs

lemma clause_limit {keyword : String} (ha : avoid ⊆ marks) (limit : Option UInt32)
    (ht : Unmarked keyword) (hs : Separates keyword) :
    Clause avoid (limitFragments keyword limit) := by
  cases limit with
  | none => exact clause_nil
  | some n =>
    exact clause_code ha
      (legible_keyword ha legible_nil fun _ hc => (isNumeral_nat hc).not_mem_marks) ht hs

/-! ### Words that are written as they are -/

mutual

/-- The texts that are written as they are in an expression: its operators, and the types of its
casts. -/
def Expression.words : Expression → List String
  | .and left right | .or left right => left.words ++ right.words
  | .comparison left operator right => operator :: (left.words ++ right.words)
  | .not e | .isNull e => e.words
  | .cast e type => type :: e.words
  | .isIn left items => left.words ++ wordsList items
  | .call _ arguments => wordsList arguments
  | .exists select | .subselect select => select.words
  | .rowToJson _ | .column _ _ | .output _ _ | .value _ | .countRows => []

/-- The texts that are written as they are in a list of expressions. -/
def wordsList : List Expression → List String
  | [] => []
  | e :: rest => e.words ++ wordsList rest

/-- The texts that are written as they are in outputs. -/
def wordsOutputs : List Output → List String
  | [] => []
  | ⟨_, e⟩ :: rest => e.words ++ wordsOutputs rest

/-- The texts that are written as they are in a select list. -/
def SelectList.words : SelectList → List String
  | .outputs list => wordsOutputs list
  | .one => []

/-- The texts that are written as they are in sort keys. -/
def wordsKeys : List SortKey → List String
  | [] => []
  | ⟨target, _⟩ :: rest => target.words ++ wordsKeys rest

/-- The texts that are written as they are in a relation. -/
def Relation.words : Relation → List String
  | .table _ _ => []
  | .derived select _ => select.words
  | .union selects _ => wordsSelects selects

/-- The texts that are written as they are in the selects of a union. -/
def wordsSelects : List Select → List String
  | [] => []
  | select :: rest => select.words ++ wordsSelects rest

/-- The texts that are written as they are in what a select reads, if it reads anything. -/
def wordsFrom : Option Relation → List String
  | none => []
  | some relation => relation.words

/-- The texts that are written as they are in a select. -/
def Select.words : Select → List String
  | ⟨list, relation, condition, groupBy, orderBy, _, _⟩ =>
    list.words ++ wordsFrom relation ++ condition.words ++ wordsList groupBy ++ wordsKeys orderBy

end

/-- Whether none of the words holds one of the characters. -/
def AllLack (avoid : List Char) (words : List String) : Prop :=
  ∀ word ∈ words, Lacks avoid word

instance (avoid : List Char) (words : List String) : Decidable (AllLack avoid words) :=
  List.decidableBAll (Lacks avoid) words

section Words

variable {word : String} {words others : List String}

lemma allLack_cons : AllLack avoid (word :: words) ↔ Lacks avoid word ∧ AllLack avoid words :=
  List.forall_mem_cons

lemma allLack_append :
    AllLack avoid (words ++ others) ↔ AllLack avoid words ∧ AllLack avoid others :=
  List.forall_mem_append

end Words

/-! ### Selects -/

/-- An operator with a blank on both sides. -/
lemma lacks_operator {operator : String} (ha : avoid ⊆ marks) (h : Lacks avoid operator) :
    Lacks avoid (" " ++ operator ++ " ") := by
  have hblank : Lacks avoid " " := lacks_of_unmarked (by decide) ha
  intro c hc
  simp only [String.toList_append, List.mem_append] at hc
  rcases hc with (hc | hc) | hc
  · exact hblank c hc
  · exact h c hc
  · exact hblank c hc

lemma separates_operator (operator : String) : Separates (" " ++ operator ++ " ") :=
  ⟨' ', by simp [String.toList_append], rfl⟩

lemma legible_value (ha : avoid ⊆ marks) (v : Value) : Legible avoid v.fragments := by
  cases v with
  | null => exact legible_keyword ha legible_nil (by decide)
  | boolean b => cases b <;> exact legible_keyword ha legible_nil (by decide)
  | integer i => exact legible_keyword ha legible_nil fun _ hc => (isNumeral_int hc).not_mem_marks
  | float x => exact legible_keyword ha legible_nil fun _ hc => (isNumeral_render hc).not_mem_marks
  | notANumber => exact legible_keyword ha legible_nil (by decide)
  | string s => exact legible_parameter s
  | emptyArray => exact legible_keyword ha legible_nil (by decide)

lemma legible_tableName (ha : avoid ⊆ marks) (name : TableName) : Legible avoid name.fragments := by
  unfold TableName.fragments
  split
  · exact legible_around (l := [identifier _]) ha (legible_identifier _) (legible_identifier _)
      (by decide) (by decide)
  · exact legible_identifier _

lemma legible_reference (ha : avoid ⊆ marks) (table : TableReference) :
    Legible avoid table.fragments := by
  cases table with
  | stored name => exact legible_tableName ha name
  | aliased handle => exact legible_identifier handle.identifier

lemma legible_column (ha : avoid ⊆ marks) (table : TableReference) (name : String) :
    Legible avoid (columnFragments table name) :=
  legible_around ha (legible_reference ha table) (legible_identifier name) (by decide) (by decide)

/-- An alias may stand behind anything. -/
lemma legible_aliased (ha : avoid ⊆ marks) (hl : Legible avoid l) (handle : TableAlias) :
    Legible avoid (l ++ code " AS " :: handle.fragments) :=
  legible_around ha hl (legible_identifier handle.identifier) (by decide) (by decide)

mutual

lemma Expression.legible (ha : avoid ⊆ marks) : ∀ {e : Expression}, AllLack avoid e.words →
    Legible avoid e.fragments
  | .and left right, h | .or left right, h => by
    simp only [Expression.words, allLack_append] at h
    exact legible_parenthesized ha (legible_around ha (left.legible ha h.1) (right.legible ha h.2)
      (by decide) (by decide))
  | .not e, h => by
    simp only [Expression.words] at h
    exact legible_keyword ha (e.legible ha h) (by decide)
  | .comparison left operator right, h => by
    simp only [Expression.words, allLack_cons, allLack_append] at h
    exact legible_parenthesized ha (legible_between (left.legible ha h.2.1)
      (right.legible ha h.2.2) (lacks_operator ha h.1) (separates_operator operator))
  | .isIn left items, h => by
    simp only [Expression.words, allLack_append] at h
    exact legible_parenthesized ha (legible_around ha (left.legible ha h.1)
      (legible_parenthesized ha (legible_commaSeparated ha (legible_list ha items h.2)))
      (by decide) (by decide))
  | .isNull e, h => by
    simp only [Expression.words] at h
    exact legible_parenthesized ha (legible_around ha (e.legible ha h) legible_nil
      (by decide) (by decide))
  | .call function arguments, h => by
    simp only [Expression.words] at h
    exact legible_keyword ha
      (legible_parenthesized ha (legible_commaSeparated ha (legible_list ha arguments h)))
      (by cases function <;> decide)
  | .exists select, h => by
    simp only [Expression.words] at h
    exact legible_keyword ha (legible_parenthesized ha (select.legible ha h)) (by decide)
  | .subselect select, h => by
    simp only [Expression.words] at h
    exact legible_parenthesized ha (select.legible ha h)
  | .rowToJson table, _ =>
    legible_keyword ha (legible_parenthesized ha (legible_reference ha table)) (by decide)
  | .column table name, _ | .output table name, _ => legible_column ha table name
  | .value v, _ => legible_value ha v
  | .cast e type, h => by
    simp only [Expression.words, allLack_cons] at h
    exact legible_keyword ha (legible_parenthesized ha (legible_around ha (e.legible ha h.2)
      (legible_code h.1 legible_nil) (by decide) (by decide))) (by decide)
  | .countRows, _ => legible_keyword ha legible_nil (by decide)

lemma legible_list (ha : avoid ⊆ marks) : ∀ list : List Expression, AllLack avoid (wordsList list) →
    ∀ part ∈ listFragments list, Legible avoid part
  | [], _ => by simp [listFragments]
  | e :: rest, h => by
    simp only [wordsList, allLack_append] at h
    intro part hp
    rcases List.mem_cons.1 hp with rfl | hp
    · exact e.legible ha h.1
    · exact legible_list ha rest h.2 part hp

lemma legible_outputs (ha : avoid ⊆ marks) : ∀ list : List Output,
    AllLack avoid (wordsOutputs list) → ∀ part ∈ outputFragments list, Legible avoid part
  | [], _ => by simp [outputFragments]
  | ⟨name, e⟩ :: rest, h => by
    simp only [wordsOutputs, allLack_append] at h
    intro part hp
    rcases List.mem_cons.1 hp with rfl | hp
    · exact legible_around ha (e.legible ha h.1) (legible_identifier name) (by decide) (by decide)
    · exact legible_outputs ha rest h.2 part hp

lemma SelectList.legible (ha : avoid ⊆ marks) : ∀ {list : SelectList}, AllLack avoid list.words →
    Legible avoid list.fragments
  | .outputs list, h => by
    simp only [SelectList.words] at h
    exact legible_commaSeparated ha (legible_outputs ha list h)
  | .one, _ => legible_keyword ha legible_nil (by decide)

lemma legible_sort (ha : avoid ⊆ marks) : ∀ keys : List SortKey, AllLack avoid (wordsKeys keys) →
    ∀ part ∈ sortFragments keys, Legible avoid part
  | [], _ => by simp [sortFragments]
  | ⟨target, direction⟩ :: rest, h => by
    simp only [wordsKeys, allLack_append] at h
    intro part hp
    rcases List.mem_cons.1 hp with rfl | hp
    · exact legible_around ha (target.legible ha h.1) legible_nil (by cases direction <;> decide)
        (by cases direction <;> decide)
    · exact legible_sort ha rest h.2 part hp

lemma Relation.legible (ha : avoid ⊆ marks) : ∀ {relation : Relation},
    AllLack avoid relation.words → Legible avoid relation.fragments
  | .table reference handle, _ => legible_aliased ha (legible_reference ha reference) handle
  | .derived select handle, h => by
    simp only [Relation.words] at h
    exact legible_aliased ha (legible_parenthesized ha (select.legible ha h)) handle
  | .union selects handle, h => by
    simp only [Relation.words] at h
    exact legible_aliased ha (legible_parenthesized ha (clause_union ha selects h).legible) handle

lemma clause_union (ha : avoid ⊆ marks) : ∀ selects : List Select,
    AllLack avoid (wordsSelects selects) → Clause avoid (unionFragments selects)
  | [], _ => clause_nil
  | select :: rest, h => by
    simp only [wordsSelects, allLack_append] at h
    have hselect := legible_parenthesized ha (select.legible ha h.1)
    have hrest := clause_union ha rest h.2
    have hword : Clause avoid (if rest.isEmpty then [] else [code " UNION ALL "]) := by
      split
      · exact clause_nil
      · exact clause_code ha legible_nil (by decide) (by decide)
    exact ⟨legible_append (legible_append hselect hword) hrest,
      by simp [unionFragments, parenthesized]; decide⟩

lemma clause_from (ha : avoid ⊆ marks) : ∀ relation : Option Relation,
    AllLack avoid (wordsFrom relation) → Clause avoid (fromFragments relation)
  | none, _ => clause_nil
  | some relation, h => by
    simp only [wordsFrom] at h
    exact clause_code ha (relation.legible ha h) (by decide) (by decide)

lemma Select.legible (ha : avoid ⊆ marks) : ∀ {select : Select}, AllLack avoid select.words →
    Legible avoid select.fragments
  | ⟨list, relation, condition, groupBy, orderBy, limit, offset⟩, h => by
    simp only [Select.words, allLack_append] at h
    obtain ⟨⟨⟨⟨hlist, hfrom⟩, hcondition⟩, hgroup⟩, horder⟩ := h
    have hwhere : Clause avoid
        (if condition.isTrue then [] else code " WHERE " :: condition.fragments) := by
      split
      · exact clause_nil
      · exact clause_code ha (condition.legible ha hcondition) (by decide) (by decide)
    have hselect : Legible avoid (code "SELECT " :: list.fragments) :=
      legible_keyword ha (list.legible ha hlist) (by decide)
    have hgroup : Clause avoid (listClause " GROUP BY " (listFragments groupBy)) :=
      clause_listClause ha (legible_list ha groupBy hgroup) (by decide) (by decide)
    have horder : Clause avoid (listClause " ORDER BY " (sortFragments orderBy)) :=
      clause_listClause ha (legible_sort ha orderBy horder) (by decide) (by decide)
    have hlimit : Clause avoid (limitFragments " LIMIT " limit) :=
      clause_limit ha limit (by decide) (by decide)
    have hoffset : Clause avoid (limitFragments " OFFSET " offset) :=
      clause_limit ha offset (by decide) (by decide)
    exact legible_append (legible_append (legible_append (legible_append (legible_append
      (legible_append hselect (clause_from ha relation hfrom)) hwhere) hgroup) horder) hlimit)
      hoffset

end

/-- A reader of the text of a select finds as many placeholders as there are parameters, in
order, and no other dollar sign, if its operators and types hold neither quotes nor such signs. -/
theorem placeholders_statement {select : Select} (hw : AllLack marks select.words) :
    placeholders (readText select.statement.text)
      = (List.range' 1 select.statement.parameters.length).map toString := by
  have h := select.legible (List.Subset.refl marks) hw
  unfold readText Select.statement Fragment.statement
  rw [scan_texts (by decide) h, placeholders_tokens (by decide) h]
  rfl

end ObjectGraph.Sql
