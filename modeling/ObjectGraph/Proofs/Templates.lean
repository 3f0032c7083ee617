/-
# Texts with gaps

A template is a text with gaps, each of which is filled with a printed string.  Whoever knows the
template finds the strings in a filled one: between the gaps there is nothing but the text of the
template, and a string that is read from its opening quote on, with backslashes as escapes, ends
exactly where its gap does.  So no string can end early, and none can take in what stands behind it.

A text whose strings can be changed is a template if it is the same template for all of them.
-/
import ObjectGraph.Proofs.Predicate.Lexing
import Mathlib.Data.List.Infix

namespace ObjectGraph

/-- A piece of a template: a text as it stands there, or a gap for a string. -/
inductive Piece
  | plain (text : String)
  | gap

/-- A text with gaps, piece by piece. -/
abbrev Template := List Piece

namespace Template

/-- The text with strings in the gaps, as they are printed; none unless there are as many strings as
gaps. -/
def fill? : Template → List String → Option String
  | [], [] => some ""
  | .plain text :: rest, strings => (fill? rest strings).map (text ++ ·)
  | .gap :: rest, s :: strings => (fill? rest strings).map ((Literal.string s).text ++ ·)
  | [], _ :: _ | .gap :: _, [] => none

/-- The strings in the gaps of a template that a text begins with, and what stands behind it. -/
def read? : Template → List Char → Option (List String × List Char)
  | [], cs => some ([], cs)
  | .plain text :: rest, cs => (cs.dropPrefix? text.toList).bind fun cs => read? rest cs
  | .gap :: rest, '\'' :: cs =>
    (Predicate.readString '\'' cs).bind fun (s, cs) =>
      (read? rest cs).map fun (strings, cs) => (String.ofList s :: strings, cs)
  | .gap :: _, _ => none

variable {template other : Template} {strings more : List String} {text behind : String}

lemma fill?_append (h : template.fill? strings = some text) (h' : other.fill? more = some behind) :
    fill? (template ++ other) (strings ++ more) = some (text ++ behind) := by
  fun_induction fill? template strings generalizing text with
  | case1 =>
    obtain rfl := Option.some.inj h
    rw [List.nil_append, List.nil_append, h', String.empty_append]
  | case2 before rest strings ih =>
    obtain ⟨tail, htail, rfl⟩ := Option.map_eq_some_iff.1 h
    rw [List.cons_append, fill?, ih htail, Option.map_some, String.append_assoc]
  | case3 rest s strings ih =>
    obtain ⟨tail, htail, rfl⟩ := Option.map_eq_some_iff.1 h
    rw [List.cons_append, List.cons_append, fill?, ih htail, Option.map_some, String.append_assoc]
  | case4 => cases h
  | case5 => cases h

/-- The strings of a filled template are found in it, whatever follows. -/
lemma read?_of_fill? (h : template.fill? strings = some text) (rest : List Char) :
    template.read? (text.toList ++ rest) = some (strings, rest) := by
  fun_induction fill? template strings generalizing text with
  | case1 =>
    obtain rfl := Option.some.inj h
    rfl
  | case2 before pieces strings ih =>
    obtain ⟨tail, htail, rfl⟩ := Option.map_eq_some_iff.1 h
    rw [String.toList_append, List.append_assoc, read?,
      List.dropPrefix?_append_of_beq _ (beq_self_eq_true _), Option.bind_some]
    exact ih htail
  | case3 pieces s strings ih =>
    obtain ⟨tail, htail, rfl⟩ := Option.map_eq_some_iff.1 h
    -- The string is read up to its closing quote, behind which the rest of the template begins.
    rw [String.toList_append, Predicate.text_string, List.cons_append, List.cons_append,
      List.append_assoc, List.append_assoc, List.singleton_append, read?,
      Predicate.readString_escapeSingle, Option.bind_some]
    dsimp only
    rw [ih htail, Option.map_some, String.ofList_toList]
  | case4 => cases h
  | case5 => cases h

/-- The first string ends in a backslash and the second is a quote. -/
example : read? [.plain "x = ", .gap, .plain " | ", .gap] "x = 'a\\\\' | '\\'' and".toList
    = some (["a\\", "'"], " and".toList) := by
  decide

end Template

/-! ### Texts that are templates -/

/-- A text, given for every change of the strings in it, that is one template with the changed
strings in its gaps. -/
def IsTemplate (text : (String → String) → String) (strings : List String) : Prop :=
  ∃ template : Template, ∀ f, template.fill? (strings.map f) = some (text f)

namespace IsTemplate

variable {text behind : (String → String) → String} {strings more : List String}

lemma plain (text : String) : IsTemplate (fun _ => text) [] :=
  ⟨[.plain text], fun _ => congrArg some String.append_empty⟩

lemma gap (s : String) : IsTemplate (fun f => (Literal.string (f s)).text) [s] :=
  ⟨[.gap], fun _ => congrArg some String.append_empty⟩

lemma append (h : IsTemplate text strings) (h' : IsTemplate behind more) :
    IsTemplate (fun f => text f ++ behind f) (strings ++ more) := by
  obtain ⟨template, htemplate⟩ := h
  obtain ⟨other, hother⟩ := h'
  refine ⟨template ++ other, fun f => ?_⟩
  rw [List.map_append]
  exact Template.fill?_append (htemplate f) (hother f)

/-- A text that is the same for all strings in front of a template. -/
lemma before (h : IsTemplate text strings) (first : String) :
    IsTemplate (fun f => first ++ text f) strings :=
  (plain first).append h

lemma followed (h : IsTemplate text strings) (last : String) :
    IsTemplate (fun f => text f ++ last) strings := by
  have hall := h.append (plain last)
  rwa [List.append_nil] at hall

variable {α : Type} {items : List α} {textOf : α → (String → String) → String}
  {stringsOf : α → List String}

/-- Templates with a text between each two. -/
lemma intercalate (separator : String)
    (h : ∀ item ∈ items, IsTemplate (textOf item) (stringsOf item)) :
    IsTemplate (fun f => separator.intercalate (items.map (textOf · f)))
      (items.flatMap stringsOf) := by
  induction items with
  | nil => exact plain ""
  | cons item rest ih =>
    obtain ⟨hitem, hrest⟩ := List.forall_mem_cons.1 h
    cases rest with
    | nil =>
      simpa only [List.map_cons, List.map_nil, String.intercalate_singleton, List.flatMap_cons,
        List.flatMap_nil, List.append_nil] using hitem
    | cons next rest =>
      have hall := (hitem.followed separator).append (ih hrest)
      rw [List.flatMap_cons]
      simpa only [List.map_cons, String.intercalate_cons_cons] using hall

lemma join (h : ∀ item ∈ items, IsTemplate (textOf item) (stringsOf item)) :
    IsTemplate (fun f => String.join (items.map (textOf · f))) (items.flatMap stringsOf) := by
  induction items with
  | nil => exact plain ""
  | cons item rest ih =>
    obtain ⟨hitem, hrest⟩ := List.forall_mem_cons.1 h
    simp only [List.map_cons, String.join_cons, List.flatMap_cons]
    exact hitem.append (ih hrest)

/-- All strings of a text that is a template are found in it, whatever they are and whatever
follows. -/
lemma exists_read (h : IsTemplate text strings) :
    ∃ template : Template, ∀ (f : String → String) (rest : String),
      template.fill? (strings.map f) = some (text f) ∧
      template.read? (text f ++ rest).toList = some (strings.map f, rest.toList) := by
  obtain ⟨template, htemplate⟩ := h
  refine ⟨template, fun f rest => ⟨htemplate f, ?_⟩⟩
  rw [String.toList_append]
  exact Template.read?_of_fill? (htemplate f) rest.toList

end IsTemplate
end ObjectGraph
