/-
# Strings in texts

A string is printed in the same way in predicates, in Cypher and in Malloy: between single quotes,
with a backslash in front of every backslash and every single quote in it.  In a predicate the
string is then one token, and what follows is cut as if it stood alone.  The text of a Cypher
statement or a Malloy pipeline is a template whose gaps are filled with the printed strings of its
conditions; the template stays the same whatever the strings are.
-/
import ObjectGraph.Cypher.Statement
import ObjectGraph.Malloy.Pipeline
import ObjectGraph.Proofs.Compile.Mirrors
import ObjectGraph.Proofs.Predicate.Shifting
import ObjectGraph.Proofs.Templates

namespace ObjectGraph

/-! ### How strings are printed -/

/-- The characters with a backslash in front of each that is a certain one. -/
def Text.withBackslashes (mark : Char) (cs : List Char) : List Char :=
  cs.flatMap fun c => if c = mark then ['\\', c] else [c]

/-- The backslashes that stand in front of quotes are not those that are doubled. -/
lemma Text.escapeSingle_eq (cs : List Char) :
    escapeSingle cs = withBackslashes '\'' (withBackslashes '\\' cs) := by
  induction cs with
  | nil => rfl
  | cons c rest ih =>
    have hrest : withBackslashes '\'' (withBackslashes '\\' (c :: rest))
        = withBackslashes '\'' (if c = '\\' then ['\\', c] else [c]) ++ escapeSingle rest := by
      rw [ih, withBackslashes, withBackslashes, List.flatMap_cons, List.flatMap_append]
      rfl
    rw [hrest, escapeSingle]
    -- A backslash is no quote, so the two that stand for one stay as they are.
    by_cases hbackslash : c = '\\'
    · subst hbackslash
      rfl
    · by_cases hquote : c = '\''
      · subst hquote
        rfl
      · simp [withBackslashes, hbackslash, hquote]

/-- The string that a literal is. -/
def Literal.strings : Literal → List String
  | string s => [s]
  | _ => []

lemma Literal.isTemplate (value : Literal) :
    IsTemplate (fun f => (value.mapString f).text) value.strings := by
  cases value with
  | string s => exact .gap s
  | null | boolean | integer | float => exact .plain _

/-! ### Conditions -/

namespace Compile

/-- The dialect puts something between each two of the values that it looks for a subject in. -/
def Dialect.Enumerates (dialect : Dialect) : Prop :=
  ∃ opening separator closing : String, ∀ subject values,
    dialect.oneOf subject values = subject ++ opening ++ separator.intercalate values ++ closing

namespace TextCondition

variable {σ : Type} {dialect : Dialect} {name : σ → String}

mutual

/-- The condition with another string in the place of each one. -/
def mapStrings (f : String → String) : TextCondition σ → TextCondition σ
  | all parts => all (mapStringsParts f parts)
  | any parts => any (mapStringsParts f parts)
  | negation part => negation (part.mapStrings f)
  | comparison subject operator value => comparison subject operator (value.mapString f)
  | oneOf subject values => oneOf subject (values.map (Literal.mapString f))
  | never => never
  | isNull subject => isNull subject
  | isNotNull subject => isNotNull subject

/-- The parts with their strings changed. -/
def mapStringsParts (f : String → String) : List (TextCondition σ) → List (TextCondition σ)
  | [] => []
  | part :: rest => part.mapStrings f :: mapStringsParts f rest

end

mutual

/-- The strings of a condition, from left to right. -/
def strings : TextCondition σ → List String
  | all parts | any parts => partStrings parts
  | negation part => part.strings
  | comparison _ _ value => value.strings
  | oneOf _ values => values.flatMap Literal.strings
  | never | isNull _ | isNotNull _ => []

/-- The strings in all parts, in order. -/
def partStrings : List (TextCondition σ) → List String
  | [] => []
  | part :: rest => part.strings ++ partStrings rest

end

lemma partStrings_eq (parts : List (TextCondition σ)) :
    partStrings parts = parts.flatMap strings := by
  induction parts with
  | nil => rfl
  | cons part rest ih => rw [partStrings, ih, List.flatMap_cons]

/-- Other strings do not make a condition compound. -/
lemma guarded_mapStrings (f : String → String) (c : TextCondition σ) :
    (c.mapStrings f).guarded = c.guarded := by
  cases c <;> rfl

/-- The text of a part among others, for every change of its strings. -/
def partText (dialect : Dialect) (name : σ → String) (part : TextCondition σ)
    (f : String → String) : String :=
  part.guarded ((part.mapStrings f).text dialect name)

lemma partTexts_mapStrings (f : String → String) (parts : List (TextCondition σ)) :
    partTexts dialect name (mapStringsParts f parts)
      = parts.map fun part => part.partText dialect name f := by
  induction parts with
  | nil => rfl
  | cons part rest ih =>
    rw [mapStringsParts, partTexts, ih, guarded_mapStrings]
    rfl

lemma isTemplate_joined {parts : List (TextCondition σ)} (word empty : String)
    (h : ∀ part ∈ parts, IsTemplate (part.partText dialect name) part.strings) :
    IsTemplate (fun f => if (mapStringsParts f parts).isEmpty then empty
        else joined word (partTexts dialect name (mapStringsParts f parts)))
      (partStrings parts) := by
  cases parts with
  | nil => exact .plain empty
  | cons part rest =>
    have hall := IsTemplate.intercalate (" " ++ word ++ " ") h
    rw [← partStrings_eq] at hall
    -- Other strings leave as many parts as there are, so the word for no parts does not come up.
    have hnonempty (f : String → String) : (mapStringsParts f (part :: rest)).isEmpty = false := rfl
    simpa only [hnonempty, Bool.false_eq_true, if_false, joined, partTexts_mapStrings] using hall

lemma isTemplate_guarded {c : TextCondition σ}
    (h : IsTemplate (fun f => (c.mapStrings f).text dialect name) c.strings) :
    IsTemplate (c.partText dialect name) c.strings := by
  unfold partText guarded
  split
  · exact (h.before "(").followed ")"
  · exact h

mutual

/-- The strings of a condition fill the gaps of a template that does not depend on them. -/
lemma isTemplate_text (hd : dialect.Enumerates) : ∀ c : TextCondition σ,
    IsTemplate (fun f => (c.mapStrings f).text dialect name) c.strings
  | .all parts => isTemplate_joined dialect.and "true" (isTemplate_of_mem hd parts)
  | .any parts => isTemplate_joined dialect.or "false" (isTemplate_of_mem hd parts)
  | .negation part => ((isTemplate_text hd part).before (dialect.not ++ " (")).followed ")"
  | .comparison subject operator value =>
    value.isTemplate.before (name subject ++ " " ++ dialect.operator operator ++ " ")
  | .oneOf subject values => by
    obtain ⟨opening, separator, closing, honeOf⟩ := hd
    have hvalues := IsTemplate.intercalate separator fun value (_ : value ∈ values) =>
      value.isTemplate
    have hall := (hvalues.before (name subject ++ opening)).followed closing
    simpa only [mapStrings, text, honeOf, List.map_map, Function.comp_def, strings] using hall
  | .never | .isNull _ | .isNotNull _ => .plain _

lemma isTemplate_of_mem (hd : dialect.Enumerates) : ∀ parts : List (TextCondition σ),
    ∀ part ∈ parts, IsTemplate (part.partText dialect name) part.strings
  | [], _, hm => nomatch hm
  | first :: rest, part, hm => by
    rcases List.mem_cons.1 hm with h | hm
    · rw [h]
      exact isTemplate_guarded (isTemplate_text hd first)
    · exact isTemplate_of_mem hd rest part hm

end

end TextCondition
end Compile

/-! ### Cypher -/

namespace Cypher

open Compile (TextCondition)

lemma enumerates_dialect : dialect.Enumerates :=
  ⟨" IN [", ", ", "]", fun _ _ => rfl⟩

/-- The part of a statement with the strings of its conditions changed. -/
def Part.mapStrings (f : String → String) (part : Part) : Part :=
  { part with conditions := part.conditions.map (TextCondition.mapStrings f) }

/-- The strings in the conditions of a part, in order. -/
def Part.strings (part : Part) : List String :=
  part.conditions.flatMap TextCondition.strings

/-- The statement with another string in the place of each one. -/
def Statement.mapStrings (f : String → String) (statement : Statement) : Statement :=
  statement.map (Part.mapStrings f)

/-- The strings of a statement, from left to right. -/
def Statement.strings (statement : Statement) : List String :=
  statement.flatMap Part.strings

lemma isTemplate_conjunct (c : TextCondition Property) :
    IsTemplate (fun f => conjunctText (c.mapStrings f)) c.strings := by
  have htext : IsTemplate (fun f => (c.mapStrings f).text dialect Property.text) c.strings :=
    TextCondition.isTemplate_text enumerates_dialect c
  cases c with
  | any => exact (htext.before "(").followed ")"
  | all | negation | comparison | oneOf | never | isNull | isNotNull => exact htext

/-- The part without its conditions. -/
abbrev Part.unconditional (part : Part) : Part := { part with conditions := [] }

lemma Part.text_conditions (part : Part) {conditions : List (TextCondition Property)}
    (h : conditions ≠ []) : ({ part with conditions := conditions } : Part).text =
      "MATCH " ++ part.path.text ++ "\n" ++ "WHERE "
        ++ " AND ".intercalate (conditions.map conjunctText)
        ++ ("\n" ++ "\n".intercalate part.unconditional.lines.tail) := by
  obtain ⟨c, rest, rfl⟩ := List.exists_cons_of_ne_nil h
  have hlines : ({ part with conditions := c :: rest } : Part).lines =
      ("MATCH " ++ part.path.text)
        :: ("WHERE " ++ " AND ".intercalate ((c :: rest).map conjunctText))
        :: part.unconditional.lines.tail := rfl
  have htail : part.unconditional.lines.tail ≠ [] := List.cons_ne_nil _ _
  rw [text, hlines, String.intercalate_cons_cons, String.intercalate_cons_of_ne_nil htail]
  simp only [String.append_assoc]

lemma Part.isTemplate (part : Part) :
    IsTemplate (fun f => (part.mapStrings f).text) part.strings := by
  -- Only a part with conditions has a line for them.
  by_cases h : part.conditions = []
  · have hsame (f : String → String) : part.mapStrings f = part := by
      cases part
      cases h
      rfl
    rw [strings, h, List.flatMap_nil]
    simpa only [hsame] using IsTemplate.plain part.text
  · have hmap (f : String → String) : part.conditions.map (TextCondition.mapStrings f) ≠ [] :=
      mt List.map_eq_nil_iff.1 h
    have hconjuncts := IsTemplate.intercalate " AND " fun c (_ : c ∈ part.conditions) =>
      isTemplate_conjunct c
    have hall := (hconjuncts.before ("MATCH " ++ part.path.text ++ "\n" ++ "WHERE ")).followed
      ("\n" ++ "\n".intercalate part.unconditional.lines.tail)
    simpa only [mapStrings, part.text_conditions (hmap _), List.map_map, Function.comp_def,
      strings] using hall

lemma Statement.isTemplate (statement : Statement) :
    IsTemplate (fun f => (statement.mapStrings f).text) statement.strings := by
  have hparts := IsTemplate.intercalate "\nUNION ALL\n" fun part (_ : part ∈ statement) =>
    part.isTemplate
  simpa only [mapStrings, text, strings, List.map_map, Function.comp_def] using hparts

end Cypher

/-! ### Malloy -/

namespace Malloy

open Compile (TextCondition)

lemma enumerates_dialect : dialect.Enumerates :=
  ⟨" = ", " | ", "", fun _ _ => String.append_empty.symm⟩

/-- The clause with the strings of its condition changed. -/
def Clause.mapStrings (f : String → String) : Clause → Clause
  | filter condition => filter (condition.mapStrings f)
  | clause => clause

/-- The strings in the condition of a clause, in order. -/
def Clause.strings : Clause → List String
  | filter condition => condition.strings
  | _ => []

/-- The pipeline with another string in the place of each one. -/
def Pipeline.mapStrings (f : String → String) (pipeline : Pipeline) : Pipeline :=
  { pipeline with stages := pipeline.stages.map (List.map (Clause.mapStrings f)) }

/-- The strings of a pipeline, from left to right. -/
def Pipeline.strings (pipeline : Pipeline) : List String :=
  pipeline.stages.flatMap fun stage => stage.flatMap Clause.strings

lemma Clause.isTemplate (clause : Clause) :
    IsTemplate (fun f => (clause.mapStrings f).text) clause.strings := by
  cases clause with
  | filter condition =>
    exact (TextCondition.isTemplate_text enumerates_dialect condition).before "where: "
  | select | orderBy | limit | count => exact .plain _

lemma isTemplate_stage (stage : Stage) :
    IsTemplate (fun f => stageText (stage.map (Clause.mapStrings f)))
      (stage.flatMap Clause.strings) := by
  have hclauses := IsTemplate.join fun clause (_ : clause ∈ stage) =>
    (clause.isTemplate.before "  ").followed "\n"
  have hall := (hclauses.before "\x7b\n").followed "\x7d"
  simpa only [stageText, List.map_map, Function.comp_def] using hall

lemma Pipeline.isTemplate (pipeline : Pipeline) :
    IsTemplate (fun f => (pipeline.mapStrings f).text) pipeline.strings := by
  have hstages := IsTemplate.intercalate " -> " fun stage (_ : stage ∈ pipeline.stages) =>
    isTemplate_stage stage
  have hall := hstages.before
    ("run: " ++ pipeline.connection ++ ".table('" ++ pipeline.tableText ++ "') -> ")
  simpa only [mapStrings, text, tableText, strings, List.map_map, Function.comp_def] using hall

end Malloy

/-! ### Strings end where they are closed -/

open Predicate (shifted tokenize) in
/-- A string is printed between single quotes, with all backslashes in it doubled and then a
backslash put in front of each single quote.  Before any text it is one token, and the text is cut
as if it stood alone, as many bytes later as the printed string has.  In Cypher statements and
Malloy pipelines the strings of conditions are printed in the same way into the gaps of a template,
which stays the same for all strings; read from their opening quotes on, whatever follows, all of
them end where their gaps do. -/
theorem strings_end_where_closed :
    (∀ s : String, (Literal.string s).text.toList
      = '\'' :: Text.withBackslashes '\'' (Text.withBackslashes '\\' s.toList) ++ ['\'']) ∧
    (∀ s rest : String, tokenize ((Literal.string s).text ++ rest)
      = (shifted (Literal.string s).text.utf8ByteSize (tokenize rest)).map
          (⟨.literal (.string s), 0⟩ :: ·)) ∧
    (∀ statement : Cypher.Statement, ∃ template : Template, ∀ (f : String → String) (rest : String),
      template.fill? (statement.strings.map f) = some (statement.mapStrings f).text ∧
      template.read? ((statement.mapStrings f).text ++ rest).toList
        = some (statement.strings.map f, rest.toList)) ∧
    ∀ pipeline : Malloy.Pipeline, ∃ template : Template, ∀ (f : String → String) (rest : String),
      template.fill? (pipeline.strings.map f) = some (pipeline.mapStrings f).text ∧
      template.read? ((pipeline.mapStrings f).text ++ rest).toList
        = some (pipeline.strings.map f, rest.toList) := by
  refine ⟨fun s => ?_, Predicate.tokenize_string_append, fun statement => ?_, fun pipeline => ?_⟩
  · rw [Predicate.text_string, Text.escapeSingle_eq]
    rfl
  · exact statement.isTemplate.exists_read
  · exact pipeline.isTemplate.exists_read

end ObjectGraph
