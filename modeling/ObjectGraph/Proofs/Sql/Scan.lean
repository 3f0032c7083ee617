/-
# Reading statements

How a reader of the text of a statement tells names from the code around them: a double quote
opens a name, two of them inside stand for one, and the next one closes it.  Outside of names
the reader looks for placeholders, a dollar sign with the digits that follow it.

Fragments are legible if what they are can be read off their text: names are kept apart by code,
no digit follows a parameter, and code holds no double quote.  Scanning the text of legible
fragments gives back the fragments one by one.
-/
import ObjectGraph.Sql.Fragment
import Mathlib.Data.List.Chain
import Mathlib.Tactic.Lemma

namespace ObjectGraph.Sql

/-- What a reader sees: a character outside of all names, a name, or the end of the text inside
a name. -/
inductive Token
  | plain (c : Char)
  | quoted (name : String)
  | unterminated
deriving DecidableEq, Repr

/-- Read a text, given the part of a name that was read since a quote opened it, last character
first. -/
def scan : Option (List Char) → List Char → List Token
  | none, [] => []
  | none, c :: rest => if c = '"' then scan (some []) rest else .plain c :: scan none rest
  | some _, [] => [.unterminated]
  | some name, [c] =>
    if c = '"' then [.quoted (String.ofList name.reverse)] else [.unterminated]
  | some name, c :: d :: rest =>
    if c = '"' then
      if d = '"' then scan (some ('"' :: name)) rest
      else .quoted (String.ofList name.reverse) :: scan none (d :: rest)
    else scan (some (c :: name)) (d :: rest)

/-- The digits a text starts with. -/
def leadingDigits : List Token → List Char
  | .plain c :: rest => if c.isDigit then c :: leadingDigits rest else []
  | _ => []

/-- The placeholders outside of names, each as what follows its dollar sign. -/
def placeholders : List Token → List String
  | [] => []
  | .plain c :: rest =>
    if c = '$' then String.ofList (leadingDigits rest) :: placeholders rest else placeholders rest
  | _ :: rest => placeholders rest

/-- What a reader of a text sees. -/
def readText (text : String) : List Token := scan none text.toList

namespace Fragment

/-! ### Legible fragments -/

/-- Code that no one takes for the rest of a placeholder or of a name in front of it. -/
def Separates (text : String) : Prop :=
  ∃ c ∈ text.toList.head?, c.isDigit = false

instance (text : String) : Decidable (Separates text) :=
  Option.decidableExistsMem (p := fun c : Char => c.isDigit = false) text.toList.head?

/-- Whether the border between two fragments can be read off their text. -/
def Apart : Fragment → Fragment → Prop
  | identifier _, identifier _ => False
  | identifier _, code text => text ≠ ""
  | parameter _, code text => Separates text
  | _, _ => True

/-- A text without the given characters. -/
def Lacks (avoid : List Char) (text : String) : Prop := ∀ c ∈ text.toList, c ∉ avoid

-- Instances for statements on all characters would check every one there is.
instance (avoid : List Char) (text : String) : Decidable (Lacks avoid text) :=
  List.decidableBAll (· ∉ avoid) text.toList

/-- Whether code holds none of the characters. -/
def Avoids (avoid : List Char) : Fragment → Prop
  | code text => Lacks avoid text
  | _ => True

/-- Fragments that can be told apart in their text, with code that holds none of the given
characters. -/
structure Legible (avoid : List Char) (fragments : List Fragment) : Prop where
  apart : fragments.IsChain Apart
  avoids : ∀ fragment ∈ fragments, fragment.Avoids avoid

variable {avoid : List Char} {l r : List Fragment}

lemma legible_nil : Legible avoid [] := ⟨.nil, by simp⟩

lemma Separates.apart {text : String} (h : Separates text) (a : Fragment) :
    Apart a (code text) := by
  cases a with
  | code _ => trivial
  | parameter _ => exact h
  | identifier _ =>
    rintro rfl
    obtain ⟨c, hc, -⟩ := h
    simp at hc

/-- Fragments may follow others if they start with code that separates. -/
lemma Legible.append (hl : Legible avoid l) (hr : Legible avoid r)
    (h : ∀ f ∈ r.head?, ∃ text, f = code text ∧ Separates text) : Legible avoid (l ++ r) := by
  refine ⟨hl.apart.append hr.apart fun a _ b hb => ?_, fun f hf => ?_⟩
  · obtain ⟨text, rfl, htext⟩ := h b hb
    exact htext.apart a
  · rcases List.mem_append.1 hf with hf | hf
    · exact hl.avoids f hf
    · exact hr.avoids f hf

lemma legible_code {text : String} (ht : Lacks avoid text) (hr : Legible avoid r) :
    Legible avoid (code text :: r) := by
  refine ⟨hr.apart.cons fun b _ => ?_, fun f hf => ?_⟩
  · cases b <;> trivial
  · rcases List.mem_cons.1 hf with rfl | hf
    · exact ht
    · exact hr.avoids f hf

lemma legible_identifier (name : String) : Legible avoid [identifier name] :=
  ⟨.singleton _, by simp [Avoids]⟩

lemma legible_parameter (value : String) : Legible avoid [parameter value] :=
  ⟨.singleton _, by simp [Avoids]⟩

/-! ### Scanning -/

lemma scan_plain {c : Char} (hc : c ≠ '"') (rest : List Char) :
    scan none (c :: rest) = .plain c :: scan none rest := by
  rw [scan, if_neg hc]

lemma scan_inside {c : Char} (hc : c ≠ '"') (name rest : List Char) :
    scan (some name) (c :: rest) = scan (some (c :: name)) rest := by
  cases rest with
  | nil => simp only [scan, hc, if_false]
  | cons d rest => simp only [scan, hc, if_false]

lemma scan_append_plain {text : List Char} (ht : '"' ∉ text) (rest : List Char) :
    scan none (text ++ rest) = text.map .plain ++ scan none rest := by
  induction text with
  | nil => rfl
  | cons c text ih =>
    simp only [List.mem_cons, not_or] at ht
    rw [List.cons_append, scan_plain (Ne.symm ht.1), ih ht.2, List.map_cons, List.cons_append]

/-- A name ends at its closing quote unless another quote follows. -/
lemma scan_closing (name : List Char) {rest : List Char} (hr : rest.head? ≠ some '"') :
    scan (some name) ('"' :: rest) = .quoted (String.ofList name.reverse) :: scan none rest := by
  cases rest with
  | nil => simp only [scan, if_true]
  | cons d rest =>
    have hd : d ≠ '"' := fun h => hr (by rw [h, List.head?_cons])
    simp only [scan, if_true, hd, if_false]

lemma scan_doubleQuotes (s name : List Char) {rest : List Char} (hr : rest.head? ≠ some '"') :
    scan (some name) (Text.doubleQuotes s ++ '"' :: rest)
      = .quoted (String.ofList (name.reverse ++ s)) :: scan none rest := by
  induction s generalizing name with
  | nil => simpa [Text.doubleQuotes] using scan_closing name hr
  | cons c s ih =>
    rw [Text.doubleQuotes]
    split
    · rename_i hc
      subst hc
      rw [List.cons_append, List.cons_append, scan, if_pos rfl, if_pos rfl, ih]
      simp
    · rename_i hc
      rw [List.cons_append, scan_inside hc, ih]
      simp

lemma scan_quoteIdentifier (name : String) {rest : List Char} (hr : rest.head? ≠ some '"') :
    scan none ((Text.quoteIdentifier name).toList ++ rest) = .quoted name :: scan none rest := by
  have h := scan_doubleQuotes name.toList [] hr
  rw [List.reverse_nil, List.nil_append, String.ofList_toList] at h
  rw [Text.quoteIdentifier, String.toList_ofList, List.append_assoc, List.cons_append, scan,
    if_pos rfl, List.singleton_append, h]

/-! ### Reading fragments back -/

/-- What a reader is to see of fragments, parameters being numbered from `next` on. -/
def tokens (next : Nat) : List Fragment → List Token
  | [] => []
  | code text :: rest => text.toList.map .plain ++ tokens next rest
  | identifier name :: rest => .quoted name :: tokens next rest
  | parameter _ :: rest =>
    .plain '$' :: (toString next).toList.map .plain ++ tokens (next + 1) rest

/-- What may follow a name does not start with a quote. -/
lemma head_texts_ne_quote (hq : '"' ∈ avoid) (hl : Legible avoid l) {name : String}
    (h : ∀ f ∈ l.head?, Apart (identifier name) f) (next : Nat) :
    (String.join (texts next l)).toList.head? ≠ some '"' := by
  cases l with
  | nil => simp [texts]
  | cons f rest =>
    have hf := h f (by simp)
    cases f with
    | code text =>
      have havoid : '"' ∉ text.toList := fun hm => hl.avoids (code text) (by simp) '"' hm hq
      have htext : text.toList ≠ [] := fun he => hf (String.toList_eq_nil_iff.1 he)
      rw [texts, String.join_cons, String.toList_append, List.head?_append_of_ne_nil _ htext]
      exact fun hh => havoid (List.mem_of_mem_head? hh)
    | identifier _ => exact absurd hf id
    | parameter _ => simp [texts, String.join_cons]

lemma Legible.tail {f : Fragment} (h : Legible avoid (f :: l)) : Legible avoid l :=
  ⟨h.apart.tail, fun g hg => h.avoids g (by simp [hg])⟩

lemma isDigit_of_mem_toString {n : Nat} {c : Char} (h : c ∈ (toString n).toList) :
    c.isDigit := by
  rw [Nat.toString_eq_ofList_toDigits, String.toList_ofList] at h
  exact Nat.isDigit_of_mem_toDigits (by decide) (by decide) h

lemma not_mem_toString {c : Char} (hc : c.isDigit = false) (n : Nat) :
    c ∉ (toString n).toList := by
  intro h
  rw [isDigit_of_mem_toString h] at hc
  cases hc

/-- Scanning the text of legible fragments gives the fragments back. -/
theorem scan_texts (hq : '"' ∈ avoid) (hl : Legible avoid l) (next : Nat) :
    scan none (String.join (texts next l)).toList = tokens next l := by
  induction l generalizing next with
  | nil => simp [texts, tokens, scan]
  | cons f rest ih =>
    have hrest := hl.tail
    cases f with
    | code text =>
      have havoid : '"' ∉ text.toList := fun hm => hl.avoids (code text) (by simp) '"' hm hq
      rw [texts, String.join_cons, String.toList_append, scan_append_plain havoid,
        ih hrest, tokens]
    | identifier name =>
      have hapart := (List.isChain_cons.1 hl.apart).1
      rw [texts, String.join_cons, String.toList_append,
        scan_quoteIdentifier name (head_texts_ne_quote hq hrest hapart next), ih hrest, tokens]
    | parameter value =>
      rw [texts, String.join_cons, String.toList_append, String.toList_append,
        List.append_assoc]
      have hdollar : ("$" : String).toList = ['$'] := rfl
      rw [hdollar, List.singleton_append, scan_plain (by decide),
        scan_append_plain (not_mem_toString (by decide) next), ih hrest, tokens, List.cons_append]

/-! ### Placeholders -/

/-- The number of parameters among fragments. -/
def parameterCount (l : List Fragment) : Nat := (l.filterMap parameter?).length

lemma placeholders_append_plain {text : List Char} (ht : '$' ∉ text) (rest : List Token) :
    placeholders (text.map .plain ++ rest) = placeholders rest := by
  induction text with
  | nil => rfl
  | cons c text ih =>
    simp only [List.mem_cons, not_or] at ht
    rw [List.map_cons, List.cons_append, placeholders, if_neg (Ne.symm ht.1), ih ht.2]

/-- The digits of a number end where no digit follows them. -/
lemma leadingDigits_toString (n : Nat) {rest : List Token} (hr : leadingDigits rest = []) :
    leadingDigits ((toString n).toList.map .plain ++ rest) = (toString n).toList := by
  have h : ∀ digits : List Char, (∀ c ∈ digits, c.isDigit) →
      leadingDigits (digits.map .plain ++ rest) = digits := by
    intro digits hd
    induction digits with
    | nil => exact hr
    | cons c digits ih =>
      rw [List.map_cons, List.cons_append, leadingDigits, if_pos (hd c (by simp)),
        ih fun d hm => hd d (by simp [hm])]
  exact h _ fun c hc => isDigit_of_mem_toString hc

/-- No digit follows a parameter. -/
lemma leadingDigits_tokens {value : String} (h : ∀ f ∈ l.head?, Apart (parameter value) f)
    (next : Nat) : leadingDigits (tokens next l) = [] := by
  cases l with
  | nil => rfl
  | cons f rest =>
    have hf := h f (by simp)
    cases f with
    | code text =>
      obtain ⟨c, hc, hdigit⟩ := hf
      obtain ⟨others, ho⟩ := List.head?_eq_some_iff.1 hc
      rw [tokens, ho, List.map_cons, List.cons_append, leadingDigits, hdigit]
      rfl
    | identifier _ => rfl
    | parameter _ => rfl

/-- The placeholders of legible fragments number their parameters. -/
theorem placeholders_tokens (hd : '$' ∈ avoid) (hl : Legible avoid l) (next : Nat) :
    placeholders (tokens next l) = (List.range' next (parameterCount l)).map toString := by
  induction l generalizing next with
  | nil => rfl
  | cons f rest ih =>
    have hrest := ih hl.tail
    cases f with
    | code text =>
      have havoid : '$' ∉ text.toList := fun hm => hl.avoids (code text) (by simp) '$' hm hd
      rw [tokens, placeholders_append_plain havoid, hrest]
      rfl
    | identifier name =>
      simp only [tokens, placeholders, hrest]
      rfl
    | parameter value =>
      have hapart := (List.isChain_cons.1 hl.apart).1
      have hcount : parameterCount (parameter value :: rest) = parameterCount rest + 1 := rfl
      rw [tokens, List.cons_append, placeholders, if_pos rfl,
        leadingDigits_toString next (leadingDigits_tokens hapart (next + 1)),
        placeholders_append_plain (not_mem_toString (by decide) next), hrest,
        String.ofList_toList, hcount, List.range'_succ, List.map_cons]

end Fragment
end ObjectGraph.Sql
