/-
# The grammar of predicates

What predicates look like as lists of tokens, and what they mean, without a parser: derivation
trees, the tokens at the leaves of a tree, and the predicate that a tree stands for.  `or` binds
loosest, then `and`, then `not`; the values of a list stand between parentheses or brackets, with
a comma allowed after the last one.

No list of tokens has two trees.  What follows a tree decides where it ends: a chain of `or` is
followed by the end or a closing parenthesis, a chain of `and` perhaps by `or`, and everything
below it perhaps by `and`.
-/
import ObjectGraph.Predicate.Parser
import Mathlib.Tactic.Lemma

namespace ObjectGraph.Predicate

/-! ### Derivation trees -/

/-- The values of a list, with or without a comma after the last one. -/
inductive Values
  | none
  | last (value : Literal)
  | more (value : Literal) (rest : Values)

/-- A list of values between parentheses or brackets. -/
structure Enclosed where
  bracketed : Bool
  values : Values

/-- What compares a field, which is written as a reference. -/
inductive Atom
  | comparison (reference : String) (op : ComparisonOperator) (value : Literal)
  | flipped (value : Literal) (op : ComparisonOperator) (reference : String)
  | member (reference : String) (list : Enclosed)
  | nonMember (reference : String) (list : Enclosed)
  | alone (reference : String)

mutual

/-- A chain of conjunctions joined by `or`. -/
inductive Disjunction
  | last (part : Conjunction)
  | more (part : Conjunction) (rest : Disjunction)

/-- A chain of negations joined by `and`. -/
inductive Conjunction
  | last (part : Negation)
  | more (part : Negation) (rest : Conjunction)

/-- Any number of `not`s. -/
inductive Negation
  | not (part : Negation)
  | primary (part : Primary)

/-- A disjunction in parentheses, or an atom. -/
inductive Primary
  | group (part : Disjunction)
  | atom (atom : Atom)

end

/-! ### The tokens of a tree -/

/-- The values with commas between them. -/
def Values.tokens : Values → List Token
  | none => []
  | last value => [.literal value]
  | more value rest => .literal value :: .comma :: rest.tokens

/-- The token that opens a list. -/
def opening (bracketed : Bool) : Token := if bracketed then .openBracket else .openParen

/-- The token that ends a list. -/
def closing (bracketed : Bool) : Token := if bracketed then .closeBracket else .closeParen

/-- The list between its brackets or parentheses. -/
def Enclosed.tokens (list : Enclosed) : List Token :=
  opening list.bracketed :: (list.values.tokens ++ [closing list.bracketed])

/-- The tokens of a test. -/
def Atom.tokens : Atom → List Token
  | comparison reference op value => [.identifier reference, .operator op, .literal value]
  | flipped value op reference => [.literal value, .operator op, .identifier reference]
  | member reference list => .identifier reference :: .in :: list.tokens
  | nonMember reference list => .identifier reference :: .not :: .in :: list.tokens
  | alone reference => [.identifier reference]

mutual

/-- The parts with `or` between them. -/
def Disjunction.tokens : Disjunction → List Token
  | .last part => part.tokens
  | .more part rest => part.tokens ++ .or :: rest.tokens

/-- The parts with `and` between them. -/
def Conjunction.tokens : Conjunction → List Token
  | .last part => part.tokens
  | .more part rest => part.tokens ++ .and :: rest.tokens

/-- A part behind the `not` in front of it, if there is one. -/
def Negation.tokens : Negation → List Token
  | .not part => .not :: part.tokens
  | .primary part => part.tokens

/-- A group between its parentheses, or the tokens of a test. -/
def Primary.tokens : Primary → List Token
  | .group part => .openParen :: (part.tokens ++ [.closeParen])
  | .atom atom => atom.tokens

end

lemma Disjunction.tokens_more_append {part : Conjunction} {rest : Disjunction} {tail : List Token} :
    (more part rest).tokens ++ tail = part.tokens ++ .or :: (rest.tokens ++ tail) := by
  simp [tokens]

lemma Conjunction.tokens_more_append {part : Negation} {rest : Conjunction} {tail : List Token} :
    (more part rest).tokens ++ tail = part.tokens ++ .and :: (rest.tokens ++ tail) := by
  simp [tokens]

lemma Primary.tokens_group_append {part : Disjunction} {tail : List Token} :
    (group part).tokens ++ tail = .openParen :: (part.tokens ++ .closeParen :: tail) := by
  simp [tokens]

/-! ### The predicate of a tree -/

/-- A reference names the field behind its first dot or, if it has none, the field it is; the name
of a field is not empty and has no dot itself. -/
def Names (reference field : String) : Prop :=
  field ≠ "" ∧ '.' ∉ field.toList ∧
    (reference = field ∨
      ∃ object : String, '.' ∉ object.toList ∧ reference = object ++ "." ++ field)

/-- A comparison of a field with a literal: with null it is a check for null, which orderings are
not. -/
inductive Compares (field : String) : ComparisonOperator → Literal → Predicate → Prop
  | isNull : Compares field .equals .null (.isNull field)
  | isNotNull : Compares field .notEquals .null (.negation (.isNull field))
  | comparison {op : ComparisonOperator} {value : Literal} (h : value ≠ .null) :
    Compares field op value (.comparison field op value)

/-- The values without the commas. -/
def Values.list : Values → List Literal
  | none => []
  | last value => [value]
  | more value rest => value :: rest.list

/-- A literal on the left mirrors the operator, and a field alone is compared with `true`. -/
inductive Atom.Denotes : Atom → Predicate → Prop
  | comparison {reference field : String} {op : ComparisonOperator} {value : Literal}
    {p : Predicate} (hn : Names reference field) (hc : Compares field op value p) :
    Denotes (.comparison reference op value) p
  | flipped {reference field : String} {op : ComparisonOperator} {value : Literal}
    {p : Predicate} (hn : Names reference field) (hc : Compares field op.swap value p) :
    Denotes (.flipped value op reference) p
  | member {reference field : String} {list : Enclosed} (hn : Names reference field) :
    Denotes (.member reference list) (.oneOf field list.values.list)
  | nonMember {reference field : String} {list : Enclosed} (hn : Names reference field) :
    Denotes (.nonMember reference list) (.negation (.oneOf field list.values.list))
  | alone {reference field : String} (hn : Names reference field) :
    Denotes (.alone reference) (.comparison field .equals (.boolean true))

mutual

/-- The predicate of a chain: that of its only link, or all of them together. -/
def Disjunction.Denotes : Disjunction → Predicate → Prop
  | .last part, p => part.Denotes p
  | .more part rest, p =>
    ∃ first others, part.Denotes first ∧ rest.Parts others ∧ p = .any (first :: others)

/-- The predicates of the links of a chain. -/
def Disjunction.Parts : Disjunction → List Predicate → Prop
  | .last part, ps => ∃ p, part.Denotes p ∧ ps = [p]
  | .more part rest, ps =>
    ∃ first others, part.Denotes first ∧ rest.Parts others ∧ ps = first :: others

/-- A single part means what it means alone, several ones mean that all of them hold. -/
def Conjunction.Denotes : Conjunction → Predicate → Prop
  | .last part, p => part.Denotes p
  | .more part rest, p =>
    ∃ first others, part.Denotes first ∧ rest.Parts others ∧ p = .all (first :: others)

/-- What the parts of a conjunction mean, one by one. -/
def Conjunction.Parts : Conjunction → List Predicate → Prop
  | .last part, ps => ∃ p, part.Denotes p ∧ ps = [p]
  | .more part rest, ps =>
    ∃ first others, part.Denotes first ∧ rest.Parts others ∧ ps = first :: others

/-- What stands behind `not` is negated. -/
def Negation.Denotes : Negation → Predicate → Prop
  | .not part, p => ∃ q, part.Denotes q ∧ p = .negation q
  | .primary part, p => part.Denotes p

/-- Parentheses mean nothing but what they hold. -/
def Primary.Denotes : Primary → Predicate → Prop
  | .group part, p => part.Denotes p
  | .atom atom, p => atom.Denotes p

end

lemma Disjunction.Parts.exists_cons {d : Disjunction} {ps : List Predicate} (h : d.Parts ps) :
    ∃ q qs, ps = q :: qs := by
  cases d with
  | last => obtain ⟨p, -, rfl⟩ := h; exact ⟨p, [], rfl⟩
  | more => obtain ⟨p, ps, -, -, rfl⟩ := h; exact ⟨p, ps, rfl⟩

lemma Conjunction.Parts.exists_cons {c : Conjunction} {ps : List Predicate} (h : c.Parts ps) :
    ∃ q qs, ps = q :: qs := by
  cases c with
  | last => obtain ⟨p, -, rfl⟩ := h; exact ⟨p, [], rfl⟩
  | more => obtain ⟨p, ps, -, -, rfl⟩ := h; exact ⟨p, ps, rfl⟩

/-! ### What may follow -/

/-- Some tokens are none or begin with one of the given ones. -/
def Opens (allowed : List Token) (tail : List Token) : Prop :=
  ∀ t ∈ tail.head?, t ∈ allowed

/-- What may follow a chain of `or`. -/
def afterOr : List Token := [.closeParen]

/-- What may follow a chain of `and`. -/
def afterAnd : List Token := .or :: afterOr

/-- What may follow anything that binds tighter than `and`. -/
def afterNot : List Token := .and :: afterAnd

@[simp]
lemma opens_nil {allowed : List Token} : Opens allowed [] := nofun

@[simp]
lemma opens_cons {allowed tail : List Token} {t : Token} :
    Opens allowed (t :: tail) ↔ t ∈ allowed := by
  simp [Opens]

lemma Opens.mono {allowed allowed' tail : List Token} (h : Opens allowed tail)
    (hs : allowed ⊆ allowed') : Opens allowed' tail :=
  fun t ht => hs (h t ht)

lemma Opens.toAnd {tail : List Token} (h : Opens afterOr tail) : Opens afterAnd tail :=
  h.mono (List.subset_cons_self ..)

lemma Opens.toNot {tail : List Token} (h : Opens afterAnd tail) : Opens afterNot tail :=
  h.mono (List.subset_cons_self ..)

lemma Opens.head?_ne {allowed tail : List Token} {t : Token} (h : Opens allowed tail)
    (ht : t ∉ allowed) : tail.head? ≠ some t :=
  fun hhead => ht (h t hhead)

/-! ### No tokens have two trees -/

lemma Values.eq_of_tokens {bracketed : Bool} {v w : Values} {s t : List Token}
    (h : v.tokens ++ closing bracketed :: s = w.tokens ++ closing bracketed :: t) :
    v = w ∧ s = t := by
  induction v generalizing w with
  | none => cases w <;> cases bracketed <;> simp_all [tokens, closing]
  | last value => cases w <;> cases bracketed <;> simp_all [tokens, closing]
  | more value rest ih =>
    cases w with
    | none => cases bracketed <;> simp_all [tokens, closing]
    | last value' => cases bracketed <;> simp_all [tokens, closing]
    | more value' rest' =>
      simp only [tokens, List.cons_append, List.cons.injEq, Token.literal.injEq] at h
      obtain ⟨rfl, -, h⟩ := h
      obtain ⟨rfl, rfl⟩ := ih h
      exact ⟨rfl, rfl⟩

lemma Enclosed.eq_of_tokens {l m : Enclosed} {s t : List Token}
    (h : l.tokens ++ s = m.tokens ++ t) : l = m ∧ s = t := by
  obtain ⟨bracketed, v⟩ := l
  obtain ⟨bracketed', w⟩ := m
  simp only [tokens, List.cons_append, List.append_assoc, List.nil_append, List.cons.injEq] at h
  obtain ⟨ho, h⟩ := h
  have hb : bracketed = bracketed' := by
    cases bracketed <;> cases bracketed' <;> simp_all [opening]
  subst hb
  obtain ⟨rfl, rfl⟩ := Values.eq_of_tokens h
  exact ⟨rfl, rfl⟩

/-- A field alone ends where nothing goes on that could be compared with it. -/
lemma Atom.eq_of_tokens {a b : Atom} {s t : List Token} (h : a.tokens ++ s = b.tokens ++ t)
    (hs : Opens afterNot s) (ht : Opens afterNot t) : a = b ∧ s = t := by
  cases a <;> cases b <;>
    simp only [tokens, List.cons_append, List.nil_append, List.cons.injEq, Token.identifier.injEq,
      Token.literal.injEq, Token.operator.injEq, reduceCtorEq, false_and, and_false, true_and]
      at h ⊢
  case comparison.comparison | flipped.flipped =>
    obtain ⟨rfl, rfl, rfl, rfl⟩ := h
    exact ⟨rfl, rfl⟩
  case member.member | nonMember.nonMember =>
    obtain ⟨rfl, h⟩ := h
    obtain ⟨rfl, rfl⟩ := Enclosed.eq_of_tokens h
    exact ⟨rfl, rfl⟩
  case alone.alone => exact ⟨by rw [h.1], h.2⟩
  case comparison.alone | member.alone | nonMember.alone =>
    -- What compares the field would follow a field alone.
    obtain ⟨-, rfl⟩ := h
    simp [afterNot, afterAnd, afterOr] at ht
  case alone.comparison | alone.member | alone.nonMember =>
    obtain ⟨-, rfl⟩ := h
    simp [afterNot, afterAnd, afterOr] at hs

lemma Atom.tokens_ne_openParen {a : Atom} {s t : List Token} :
    a.tokens ++ s ≠ .openParen :: t := by
  cases a <;> simp [tokens]

lemma Primary.tokens_ne_not {p : Primary} {s t : List Token} : p.tokens ++ s ≠ .not :: t := by
  cases p with
  | group => simp [tokens]
  | atom a => cases a <;> simp [tokens, Atom.tokens]

mutual

lemma Disjunction.eq_of_tokens {d e : Disjunction} {s t : List Token}
    (h : d.tokens ++ s = e.tokens ++ t) (hs : Opens afterOr s) (ht : Opens afterOr t) :
    d = e ∧ s = t := by
  cases d with
  | last p =>
    cases e with
    | last q =>
      obtain ⟨rfl, rfl⟩ := p.eq_of_tokens h hs.toAnd ht.toAnd
      exact ⟨rfl, rfl⟩
    | more q e =>
      -- The other chain goes on where this one ends, but `or` cannot follow it.
      rw [Disjunction.tokens_more_append] at h
      obtain ⟨-, rfl⟩ := p.eq_of_tokens h hs.toAnd (by simp [afterAnd])
      simp [afterOr] at hs
  | more p d =>
    cases e with
    | last q =>
      rw [Disjunction.tokens_more_append] at h
      obtain ⟨-, rfl⟩ := p.eq_of_tokens h (by simp [afterAnd]) ht.toAnd
      simp [afterOr] at ht
    | more q e =>
      rw [Disjunction.tokens_more_append, Disjunction.tokens_more_append] at h
      obtain ⟨rfl, hrest⟩ := p.eq_of_tokens h (by simp [afterAnd]) (by simp [afterAnd])
      obtain ⟨rfl, rfl⟩ := d.eq_of_tokens (List.cons.inj hrest).2 hs ht
      exact ⟨rfl, rfl⟩

lemma Conjunction.eq_of_tokens {c e : Conjunction} {s t : List Token}
    (h : c.tokens ++ s = e.tokens ++ t) (hs : Opens afterAnd s) (ht : Opens afterAnd t) :
    c = e ∧ s = t := by
  cases c with
  | last p =>
    cases e with
    | last q =>
      obtain ⟨rfl, rfl⟩ := p.eq_of_tokens h hs.toNot ht.toNot
      exact ⟨rfl, rfl⟩
    | more q e =>
      -- As above, with `and`.
      rw [Conjunction.tokens_more_append] at h
      obtain ⟨-, rfl⟩ := p.eq_of_tokens h hs.toNot (by simp [afterNot])
      simp [afterAnd, afterOr] at hs
  | more p c =>
    cases e with
    | last q =>
      rw [Conjunction.tokens_more_append] at h
      obtain ⟨-, rfl⟩ := p.eq_of_tokens h (by simp [afterNot]) ht.toNot
      simp [afterAnd, afterOr] at ht
    | more q e =>
      rw [Conjunction.tokens_more_append, Conjunction.tokens_more_append] at h
      obtain ⟨rfl, hrest⟩ := p.eq_of_tokens h (by simp [afterNot]) (by simp [afterNot])
      obtain ⟨rfl, rfl⟩ := c.eq_of_tokens (List.cons.inj hrest).2 hs ht
      exact ⟨rfl, rfl⟩

lemma Negation.eq_of_tokens {n m : Negation} {s t : List Token}
    (h : n.tokens ++ s = m.tokens ++ t) (hs : Opens afterNot s) (ht : Opens afterNot t) :
    n = m ∧ s = t := by
  cases n with
  | not n =>
    cases m with
    | not m =>
      obtain ⟨rfl, rfl⟩ := n.eq_of_tokens (List.cons.inj h).2 hs ht
      exact ⟨rfl, rfl⟩
    | primary q => exact absurd h.symm q.tokens_ne_not
  | primary p =>
    cases m with
    | not m => exact absurd h p.tokens_ne_not
    | primary q =>
      obtain ⟨rfl, rfl⟩ := p.eq_of_tokens h hs ht
      exact ⟨rfl, rfl⟩

lemma Primary.eq_of_tokens {p q : Primary} {s t : List Token}
    (h : p.tokens ++ s = q.tokens ++ t) (hs : Opens afterNot s) (ht : Opens afterNot t) :
    p = q ∧ s = t := by
  cases p with
  | group d =>
    cases q with
    | group e =>
      rw [Primary.tokens_group_append, Primary.tokens_group_append] at h
      obtain ⟨rfl, hrest⟩ :=
        d.eq_of_tokens (List.cons.inj h).2 (by simp [afterOr]) (by simp [afterOr])
      exact ⟨rfl, (List.cons.inj hrest).2⟩
    | atom b => exact absurd h.symm b.tokens_ne_openParen
  | atom a =>
    cases q with
    | group e => exact absurd h a.tokens_ne_openParen
    | atom b =>
      obtain ⟨rfl, rfl⟩ := Atom.eq_of_tokens h hs ht
      exact ⟨rfl, rfl⟩

end

/-- A list of tokens has one tree at most. -/
theorem Disjunction.tokens_injective : Function.Injective tokens := by
  intro d e h
  exact (d.eq_of_tokens (s := []) (t := []) (by rw [h]) opens_nil opens_nil).1

end ObjectGraph.Predicate
