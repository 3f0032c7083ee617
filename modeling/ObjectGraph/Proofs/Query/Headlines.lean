/-
# The line of an operation

The line of an operation is a keyword and what is done with it, separated by a blank.  No keyword
is another's, and names are words, so that a line can be taken apart again at its blanks and its
commas: it tells which operation it belongs to, a condition up to its text, and everything but the
operations that are written in lines of their own.
-/
import ObjectGraph.Proofs.Predicate.Numbers
import ObjectGraph.Proofs.Query.Marks
import ObjectGraph.Query.Outline
import Mathlib

namespace ObjectGraph

open Predicate (sign span_append toList_int)

/-! ### Names -/

/-- A word of letters, digits, `_` and `:`. -/
def PlainName (name : String) : Prop :=
  name ≠ "" ∧ ∀ c ∈ name.toList, Text.isAlphanumeric c = true ∨ c = '_' ∨ c = ':'

lemma plainName_iff {name : String} : PlainName name ↔ (name != "" && name.toList.all fun c =>
    Text.isAlphanumeric c || c == '_' || c == ':') = true := by
  simp [PlainName, or_assoc]

instance decidablePlainName : DecidablePred PlainName := fun _ =>
  decidable_of_iff _ plainName_iff.symm

/-- A text that does not end where a line is taken apart. -/
def Solid (text : String) : Prop :=
  text ≠ "" ∧ ∀ c ∈ text.toList, c ≠ ' ' ∧ c ≠ ',' ∧ c ≠ '\n'

variable {s t : String} {a b u v : List Char}

lemma PlainName.solid {name : String} (h : PlainName name) : Solid name := by
  refine ⟨h.1, fun c hc => ?_⟩
  have hword := h.2 c hc
  refine ⟨?_, ?_, ?_⟩
  · rintro rfl
    exact absurd hword (by decide)
  · rintro rfl
    exact absurd hword (by decide)
  · rintro rfl
    exact absurd hword (by decide)

lemma Solid.newline_not_mem {text : String} (h : Solid text) : '\n' ∉ text.toList :=
  fun hc => (h.2 _ hc).2.2 rfl

lemma solid_int (i : Int) : Solid (toString i) := by
  have hdigit {c : Char} (hc : c ∈ (toString i).toList) : c = '-' ∨ c.isDigit = true := by
    rw [toList_int] at hc
    rcases List.mem_append.1 hc with hc | hc
    · refine .inl ?_
      unfold sign at hc
      split at hc
      · exact List.mem_singleton.1 hc
      · cases hc
    · exact .inr (Json.isDigit_toDigits hc)
  refine ⟨?_, fun c hc => ?_⟩
  · intro hempty
    have hnil := congrArg String.toList hempty
    rw [toList_int] at hnil
    exact Nat.toDigits_ne_nil (List.append_eq_nil_iff.1 hnil).2
  · refine ⟨?_, ?_, ?_⟩
    · rintro rfl
      exact absurd (hdigit hc) (by decide)
    · rintro rfl
      exact absurd (hdigit hc) (by decide)
    · rintro rfl
      exact absurd (hdigit hc) (by decide)

/-! ### Taking texts apart -/

/-- Texts of one kind end where something of another kind begins. -/
lemma append_inj_of_span {p : Char → Bool} (ha : ∀ c ∈ a, p c = true) (hb : ∀ c ∈ b, p c = true)
    (hu : ∀ c ∈ u.head?, p c = false) (hv : ∀ c ∈ v.head?, p c = false) (h : a ++ u = b ++ v) :
    a = b ∧ u = v := by
  obtain ⟨htake, hdrop⟩ := span_append ha hu
  obtain ⟨htake', hdrop'⟩ := span_append hb hv
  rw [h] at htake hdrop
  exact ⟨htake.symm.trans htake', hdrop.symm.trans hdrop'⟩

/-- Before a blank or the end, a solid text is all there is. -/
lemma Solid.append_inj (hs : Solid s) (ht : Solid t) (hu : ∀ c ∈ u.head?, c = ' ')
    (hv : ∀ c ∈ v.head?, c = ' ') (h : s.toList ++ u = t.toList ++ v) : s = t ∧ u = v := by
  have hblank {w : List Char} (hw : ∀ c ∈ w.head?, c = ' ') :
      ∀ c ∈ w.head?, (c != ' ') = false := fun c hc => by simp [hw c hc]
  obtain ⟨htexts, hrests⟩ := append_inj_of_span (p := (· != ' '))
    (fun c hc => bne_iff_ne.2 (hs.2 c hc).1) (fun c hc => bne_iff_ne.2 (ht.2 c hc).1)
    (hblank hu) (hblank hv) h
  exact ⟨String.toList_inj.1 htexts, hrests⟩

/-- What stands behind the first text of a list. -/
def listed : List String → List Char
  | [] => []
  | texts => ", ".toList ++ (", ".intercalate texts).toList

lemma toList_intercalate_cons (text : String) (texts : List String) :
    (", ".intercalate (text :: texts)).toList = text.toList ++ listed texts := by
  cases texts with
  | nil => simp [listed]
  | cons next rest =>
    rw [String.intercalate_cons_cons, String.toList_append, String.toList_append,
      List.append_assoc]
    rfl

lemma head?_listed (texts : List String) : ∀ c ∈ (listed texts).head?, (c != ',') = false := by
  cases texts with
  | nil => nofun
  | cons text rest =>
    intro c hc
    obtain rfl : ',' = c := by simpa [listed] using hc
    rfl

/-- Texts without commas can be told from the list that they make. -/
lemma intercalate_inj : ∀ {texts texts' : List String}, (∀ text ∈ texts, Solid text) →
    (∀ text ∈ texts', Solid text) →
    (", ".intercalate texts).toList = (", ".intercalate texts').toList → texts = texts'
  | [], [], _, _, _ => rfl
  | [], text :: rest, _, h', h => by
    rw [toList_intercalate_cons] at h
    have hnil := (List.append_eq_nil_iff.1 h.symm).1
    exact absurd (String.toList_eq_nil_iff.1 hnil) (h' text List.mem_cons_self).1
  | text :: rest, [], h', _, h => by
    rw [toList_intercalate_cons] at h
    have hnil := (List.append_eq_nil_iff.1 h).1
    exact absurd (String.toList_eq_nil_iff.1 hnil) (h' text List.mem_cons_self).1
  | text :: rest, text' :: rest', hs, hs', h => by
    obtain ⟨hfirst, hrest⟩ := List.forall_mem_cons.1 hs
    obtain ⟨hfirst', hrest'⟩ := List.forall_mem_cons.1 hs'
    rw [toList_intercalate_cons, toList_intercalate_cons] at h
    obtain ⟨htext, hlisted⟩ := append_inj_of_span (p := (· != ','))
      (fun c hc => bne_iff_ne.2 (hfirst.2 c hc).2.1) (fun c hc => bne_iff_ne.2 (hfirst'.2 c hc).2.1)
      (head?_listed rest) (head?_listed rest') h
    obtain rfl := String.toList_inj.1 htext
    cases rest with
    | nil =>
      cases rest' with
      | nil => rfl
      | cons => simp [listed] at hlisted
    | cons next others =>
      cases rest' with
      | nil => simp [listed] at hlisted
      | cons next' others' =>
        rw [intercalate_inj hrest hrest' (List.append_cancel_left hlisted)]

lemma newline_not_mem_intercalate {texts : List String} (h : ∀ text ∈ texts, Solid text) :
    '\n' ∉ (", ".intercalate texts).toList := by
  induction texts with
  | nil => simp
  | cons text rest ih =>
    obtain ⟨hfirst, hrest⟩ := List.forall_mem_cons.1 h
    rw [toList_intercalate_cons, List.mem_append, not_or]
    refine ⟨hfirst.newline_not_mem, ?_⟩
    cases rest with
    | nil => exact List.not_mem_nil
    | cons next others =>
      rw [listed, List.mem_append, not_or]
      · exact ⟨by decide, ih hrest⟩
      · exact List.cons_ne_nil _ _

/-- A list behind a word. -/
def bracketed (texts : List String) : List Char :=
  " [".toList ++ ((", ".intercalate texts).toList ++ "]".toList)

lemma head?_bracketed (texts : List String) : ∀ c ∈ (bracketed texts).head?, c = ' ' := by
  intro c hc
  exact (Option.some.inj hc).symm

lemma bracketed_inj {texts texts' : List String} (hs : ∀ text ∈ texts, Solid text)
    (hs' : ∀ text ∈ texts', Solid text) (h : bracketed texts = bracketed texts') :
    texts = texts' :=
  intercalate_inj hs hs' (List.append_cancel_right (List.append_cancel_left h))

lemma newline_not_mem_bracketed {texts : List String} (h : ∀ text ∈ texts, Solid text) :
    '\n' ∉ bracketed texts := by
  rw [bracketed, List.mem_append, List.mem_append, not_or, not_or]
  exact ⟨by decide, newline_not_mem_intercalate h, by decide⟩

/-! ### Keywords -/

/-- How a line tells the direction. -/
def Direction.mark : Direction → List Char
  | ascending => []
  | descending => " DESC".toList

lemma Direction.head?_mark (direction : Direction) : ∀ c ∈ direction.mark.head?, c = ' ' := by
  cases direction <;> simp [mark]

lemma Direction.mark_injective : Function.Injective Direction.mark := by
  intro direction other h
  cases direction <;> cases other <;> first | rfl | simp [mark] at h

namespace Operation

/-- The word that the line of an operation begins with. -/
def keyword : Operation → String
  | project _ => "PROJECT"
  | filter _ => "WHERE"
  | take _ => "TAKE"
  | skip _ => "SKIP"
  | count => "COUNT"
  | nest _ => "NEST"
  | rename _ _ => "LET"
  | orderBy _ _ => "ORDER_BY"
  | groupBy _ => "GROUP_BY"
  | edge _ _ => "EDGE"
  | union _ => "UNION"

/-- What follows the keyword. -/
def argument : Operation → List Char
  | project fields => bracketed fields
  | filter predicate => ' ' :: predicate.text.toList
  | take n | skip n => ' ' :: (toString n.toNat).toList
  | count | union _ => []
  | rename old new => ' ' :: (old.toList ++ (" -> ".toList ++ new.toList))
  | orderBy key direction => ' ' :: (key.toList ++ direction.mark)
  | nest key | groupBy key | edge key _ => ' ' :: key.toList

lemma toList_headline (step : Operation) :
    step.headline.toList = step.keyword.toList ++ step.argument := by
  cases step with
  | orderBy key direction => cases direction <;> simp [headline, keyword, argument, Direction.mark]
  | project | filter | take | skip | count | nest | rename | groupBy | edge | union =>
    simp [headline, keyword, argument, bracketed]

lemma head?_argument (step : Operation) : ∀ c ∈ step.argument.head?, c = ' ' := by
  cases step with
  | project | filter | take | skip | count | nest | rename | orderBy | groupBy | edge | union =>
    simp [argument, bracketed]

lemma solid_keyword (step : Operation) : Solid step.keyword := by
  cases step with
  | project | filter | take | skip | count | nest | rename | orderBy | groupBy | edge | union =>
    exact ⟨by simp [keyword], by simp [keyword]⟩

/-- Lines are alike only if their keywords and what follows these are. -/
lemma headline_eq_iff {step other : Operation} : step.headline = other.headline ↔
    step.keyword = other.keyword ∧ step.argument = other.argument := by
  rw [← String.toList_inj, toList_headline, toList_headline]
  constructor
  · exact (solid_keyword step).append_inj (solid_keyword other) (head?_argument step)
      (head?_argument other)
  · rintro ⟨hkeyword, hargument⟩
    rw [hkeyword, hargument]

end Operation

/-! ### Queries that differ in predicates only -/

mutual

/-- The same operation, up to predicates that have the same text. -/
inductive Operation.Alike : Operation → Operation → Prop
  | refl (step : Operation) : Operation.Alike step step
  | filter {predicate predicate' : Predicate} (h : predicate.text = predicate'.text) :
    Operation.Alike (.filter predicate) (.filter predicate')
  | edge (name : String) {operations operations' : List Operation}
    (h : List.Forall₂ Operation.Alike operations operations') :
    Operation.Alike (.edge name operations) (.edge name operations')
  | union {queries queries' : List Query} (h : List.Forall₂ Query.Alike queries queries') :
    Operation.Alike (.union queries) (.union queries')

/-- The same source and the same operations, up to predicates that have the same text. -/
inductive Query.Alike : Query → Query → Prop
  | mk (source : Source) {operations operations' : List Operation}
    (h : List.Forall₂ Operation.Alike operations operations') :
    Query.Alike ⟨source, operations⟩ ⟨source, operations'⟩

end

/-! ### What is read off a line -/

/-- Whether the names in an operation are plain and its predicate is written in one line. -/
def Operation.WellNamed : Operation → Prop
  | .project fields => ∀ field ∈ fields, PlainName field
  | .filter predicate => '\n' ∉ predicate.text.toList
  | .nest key | .orderBy key _ | .groupBy key | .edge key _ => PlainName key
  | .rename old new => PlainName old ∧ PlainName new
  | .union queries => ∀ query ∈ queries, PlainName query.source.objectType
  | .take _ | .skip _ | .count => True

namespace Operation

variable {step other : Operation}

/-- The same kind of operation, with anything it may be given. -/
inductive SameKind : Operation → Operation → Prop
  | project (fields fields' : List String) : SameKind (.project fields) (.project fields')
  | filter (predicate predicate' : Predicate) : SameKind (.filter predicate) (.filter predicate')
  | take (n n' : UInt32) : SameKind (.take n) (.take n')
  | skip (n n' : UInt32) : SameKind (.skip n) (.skip n')
  | count : SameKind .count .count
  | nest (key key' : String) : SameKind (.nest key) (.nest key')
  | rename (old old' new new' : String) : SameKind (.rename old new) (.rename old' new')
  | orderBy (key key' : String) (direction direction' : Direction) :
    SameKind (.orderBy key direction) (.orderBy key' direction')
  | groupBy (key key' : String) : SameKind (.groupBy key) (.groupBy key')
  | edge (name name' : String) (operations operations' : List Operation) :
    SameKind (.edge name operations) (.edge name' operations')
  | union (queries queries' : List Query) : SameKind (.union queries) (.union queries')

lemma sameKind_of_keyword (h : step.keyword = other.keyword) : step.SameKind other := by
  cases step <;> cases other <;> first | constructor | simp [keyword] at h

/-- A line tells its operation, up to what is written in lines of their own. -/
lemma alike_of_headline (hp : step.WellNamed) (hp' : other.WellNamed)
    (h : step.headline = other.headline) :
    step.Alike other ∨
      (∃ name operations operations', step = .edge name operations ∧
        other = .edge name operations') ∨
      ∃ queries queries', step = .union queries ∧ other = .union queries' := by
  obtain ⟨hkeyword, hargument⟩ := headline_eq_iff.1 h
  cases sameKind_of_keyword hkeyword with
  | project fields fields' =>
    obtain rfl := bracketed_inj (fun field hfield => (hp field hfield).solid)
      (fun field hfield => (hp' field hfield).solid) hargument
    exact .inl (.refl _)
  | filter predicate predicate' =>
    exact .inl (.filter (String.toList_inj.1 (List.cons.inj hargument).2))
  | take n n' | skip n n' =>
    have htext := String.toList_inj.1 (List.cons.inj hargument).2
    obtain rfl := UInt32.toNat_inj.1 (Nat.repr_injective htext)
    exact .inl (.refl _)
  | count => exact .inl (.refl _)
  | nest key key' | groupBy key key' =>
    obtain rfl := String.toList_inj.1 (List.cons.inj hargument).2
    exact .inl (.refl _)
  | rename old old' new new' =>
    obtain ⟨rfl, hnew⟩ := hp.1.solid.append_inj hp'.1.solid (by simp) (by simp)
      (List.cons.inj hargument).2
    obtain rfl := String.toList_inj.1 (List.append_cancel_left hnew)
    exact .inl (.refl _)
  | orderBy key key' direction direction' =>
    obtain ⟨rfl, hmark⟩ := hp.solid.append_inj hp'.solid direction.head?_mark
      direction'.head?_mark (List.cons.inj hargument).2
    obtain rfl := Direction.mark_injective hmark
    exact .inl (.refl _)
  | edge name name' operations operations' =>
    obtain rfl := String.toList_inj.1 (List.cons.inj hargument).2
    exact .inr (.inl ⟨name, operations, operations', rfl, rfl⟩)
  | union queries queries' => exact .inr (.inr ⟨queries, queries', rfl, rfl⟩)

/-- A plain line is one line. -/
lemma newline_not_mem_headline (hp : step.WellNamed) : '\n' ∉ step.headline.toList := by
  rw [toList_headline, List.mem_append, not_or]
  refine ⟨(solid_keyword step).newline_not_mem, ?_⟩
  cases step with
  | project fields =>
    exact newline_not_mem_bracketed fun field hfield => (hp field hfield).solid
  | filter predicate =>
    rw [argument, List.mem_cons, not_or]
    exact ⟨by decide, hp⟩
  | take n | skip n =>
    rw [argument, List.mem_cons, not_or]
    exact ⟨by decide, (solid_int n.toNat).newline_not_mem⟩
  | count | union => exact List.not_mem_nil
  | nest key | groupBy key | edge key =>
    rw [argument, List.mem_cons, not_or]
    exact ⟨by decide, hp.solid.newline_not_mem⟩
  | rename old new =>
    simp [argument, hp.1.solid.newline_not_mem, hp.2.solid.newline_not_mem]
  | orderBy key direction =>
    have hkey := hp.solid.newline_not_mem
    cases direction <;> simp [argument, Direction.mark, hkey]

end Operation

/-! ### Sources -/

namespace Source

variable {source other : Source}

/-- How the line of a source tells the identities. -/
def listing : Option (List Int64) → List Char
  | none => []
  | some ids => bracketed (ids.map fun id => toString id.toInt)

lemma toList_text (source : Source) :
    source.text.toList = "LEAF ".toList ++ (source.objectType.toList ++ listing source.ids) := by
  obtain ⟨objectType, ids⟩ := source
  cases ids <;> simp [text, listing, bracketed]

lemma solid_identities (ids : List Int64) :
    ∀ text ∈ ids.map fun id => toString id.toInt, Solid text := by
  intro text htext
  obtain ⟨id, -, rfl⟩ := List.mem_map.1 htext
  exact solid_int id.toInt

lemma head?_listing (ids : Option (List Int64)) : ∀ c ∈ (listing ids).head?, c = ' ' := by
  cases ids with
  | none => nofun
  | some ids => exact head?_bracketed _

lemma listing_injective : Function.Injective listing := by
  intro ids ids' h
  cases ids with
  | none =>
    cases ids' with
    | none => rfl
    | some => simp [listing, bracketed] at h
  | some ids =>
    cases ids' with
    | none => simp [listing, bracketed] at h
    | some ids' =>
      have htexts := bracketed_inj (solid_identities ids) (solid_identities ids') h
      have hinjective : Function.Injective fun id : Int64 => toString id.toInt :=
        fun _ _ htext => Int64.toInt_inj.1 (Int.repr_injective htext)
      rw [hinjective.list_map htexts]

/-- The line of a source tells the source. -/
lemma text_inj (hp : PlainName source.objectType) (hp' : PlainName other.objectType)
    (h : source.text = other.text) : source = other := by
  have hlist := congrArg String.toList h
  rw [toList_text, toList_text] at hlist
  obtain ⟨htype, hids⟩ := hp.solid.append_inj hp'.solid (head?_listing source.ids)
    (head?_listing other.ids) (List.append_cancel_left hlist)
  obtain ⟨objectType, ids⟩ := source
  obtain ⟨objectType', ids'⟩ := other
  rw [mk.injEq]
  exact ⟨htype, listing_injective hids⟩

lemma newline_not_mem_text (hp : PlainName source.objectType) : '\n' ∉ source.text.toList := by
  rw [toList_text, List.mem_append, List.mem_append, not_or, not_or]
  refine ⟨by decide, hp.solid.newline_not_mem, ?_⟩
  cases source.ids with
  | none => exact List.not_mem_nil
  | some ids => exact newline_not_mem_bracketed (solid_identities ids)

end Source

end ObjectGraph
