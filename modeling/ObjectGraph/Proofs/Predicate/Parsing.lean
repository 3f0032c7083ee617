/-
# Reading is deriving

The reader of predicates follows the grammar: what it reads from the front of some tokens has a
tree with these tokens and denotes the predicate that was read, and a tree whose tokens stand in
front is read to its end when nothing follows that could belong to it.

What a function of the reader does is said once, by the lemmas about chains.  From there the one
direction follows the recursion of the reader, on the number of tokens left, and the other one the
trees.
-/
import ObjectGraph.Proofs.Predicate.Atoms

namespace ObjectGraph.Predicate

variable {ts rest : List Placed} {p : Predicate} {ps : List Predicate}

/-! ### Chains -/

/-- A reader of a chain gives the values of its links and leaves a rest. -/
def ReadsMany {α : Type} {ts : List Placed} (result : Except ParseError (ParsedMany α ts))
    (values : List α) (rest : List Placed) : Prop :=
  ∃ h, result = .ok ⟨values, rest, h⟩

lemma head?_bare_ne {t : Token} (h : ∀ position after, ts = ⟨t, position⟩ :: after → False) :
    (bare ts).head? ≠ some t := by
  intro hhead
  obtain ⟨tail, htail⟩ := List.head?_eq_some_iff.1 hhead
  obtain ⟨position, after, hts, -⟩ := bare_eq_cons.1 htail
  exact h position after hts

lemma reads_disjunction :
    Reads (disjunction ts) p rest ↔ ∃ first between more, Reads (conjunction ts) first between ∧
      ReadsMany (moreDisjuncts between) more rest ∧ p = chain .any (first :: more) := by
  constructor
  · rintro ⟨_, h⟩
    rw [disjunction] at h
    split at h
    · cases h
    · rename_i first between hlt hfirst
      split at h
      · cases h
      · rename_i more rest' hle hmore
        cases h
        exact ⟨first, between, more, ⟨hlt, hfirst⟩, ⟨hle, hmore⟩, rfl⟩
  · rintro ⟨first, between, more, ⟨hlt, hfirst⟩, ⟨hle, hmore⟩, rfl⟩
    refine ⟨Nat.lt_of_le_of_lt hle hlt, ?_⟩
    rw [disjunction]
    simp only [hfirst, hmore]

lemma reads_moreDisjuncts :
    ReadsMany (moreDisjuncts ts) ps rest ↔
      (∃ position after first between more, ts = ⟨.or, position⟩ :: after ∧
        Reads (conjunction after) first between ∧ ReadsMany (moreDisjuncts between) more rest ∧
        ps = first :: more) ∨
      ((bare ts).head? ≠ some .or ∧ ps = [] ∧ rest = ts) := by
  constructor
  · rintro ⟨hlen, h⟩
    rw [moreDisjuncts.eq_def] at h
    split at h
    · rename_i position after
      split at h
      · cases h
      · rename_i first between hlt hfirst
        split at h
        · cases h
        · rename_i more rest' hle hmore
          cases h
          exact .inl ⟨position, after, first, between, more, rfl, ⟨hlt, hfirst⟩, ⟨hle, hmore⟩, rfl⟩
    · rename_i hor
      cases h
      exact .inr ⟨head?_bare_ne hor, rfl, rfl⟩
  · rintro (⟨position, after, first, between, more, rfl, ⟨hlt, hfirst⟩, ⟨hle, hmore⟩, rfl⟩ |
      ⟨hor, rfl, rfl⟩)
    · refine ⟨by simp only [List.length_cons]; omega, ?_⟩
      rw [moreDisjuncts.eq_def]
      simp only [hfirst, hmore]
    · refine ⟨Nat.le_refl _, ?_⟩
      rw [moreDisjuncts.eq_def]
      split
      · exact absurd rfl hor
      · rfl

lemma reads_conjunction :
    Reads (conjunction ts) p rest ↔ ∃ first between more, Reads (negated ts) first between ∧
      ReadsMany (moreConjuncts between) more rest ∧ p = chain .all (first :: more) := by
  constructor
  · rintro ⟨_, h⟩
    rw [conjunction] at h
    split at h
    · cases h
    · rename_i first between hlt hfirst
      split at h
      · cases h
      · rename_i more rest' hle hmore
        cases h
        exact ⟨first, between, more, ⟨hlt, hfirst⟩, ⟨hle, hmore⟩, rfl⟩
  · rintro ⟨first, between, more, ⟨hlt, hfirst⟩, ⟨hle, hmore⟩, rfl⟩
    refine ⟨Nat.lt_of_le_of_lt hle hlt, ?_⟩
    rw [conjunction]
    simp only [hfirst, hmore]

lemma reads_moreConjuncts :
    ReadsMany (moreConjuncts ts) ps rest ↔
      (∃ position after first between more, ts = ⟨.and, position⟩ :: after ∧
        Reads (negated after) first between ∧ ReadsMany (moreConjuncts between) more rest ∧
        ps = first :: more) ∨
      ((bare ts).head? ≠ some .and ∧ ps = [] ∧ rest = ts) := by
  constructor
  · rintro ⟨hlen, h⟩
    rw [moreConjuncts.eq_def] at h
    split at h
    · rename_i position after
      split at h
      · cases h
      · rename_i first between hlt hfirst
        split at h
        · cases h
        · rename_i more rest' hle hmore
          cases h
          exact .inl ⟨position, after, first, between, more, rfl, ⟨hlt, hfirst⟩, ⟨hle, hmore⟩, rfl⟩
    · rename_i hand
      cases h
      exact .inr ⟨head?_bare_ne hand, rfl, rfl⟩
  · rintro (⟨position, after, first, between, more, rfl, ⟨hlt, hfirst⟩, ⟨hle, hmore⟩, rfl⟩ |
      ⟨hand, rfl, rfl⟩)
    · refine ⟨by simp only [List.length_cons]; omega, ?_⟩
      rw [moreConjuncts.eq_def]
      simp only [hfirst, hmore]
    · refine ⟨Nat.le_refl _, ?_⟩
      rw [moreConjuncts.eq_def]
      split
      · exact absurd rfl hand
      · rfl

lemma reads_negated :
    Reads (negated ts) p rest ↔
      (∃ position after q, ts = ⟨.not, position⟩ :: after ∧ Reads (negated after) q rest ∧
        p = .negation q) ∨
      ((bare ts).head? ≠ some .not ∧ Reads (primary ts) p rest) := by
  constructor
  · rintro ⟨hlt, h⟩
    rw [negated.eq_def] at h
    split at h
    · rename_i position after
      split at h
      · cases h
      · rename_i q rest' hlt' hq
        cases h
        exact .inl ⟨position, after, q, rfl, ⟨hlt', hq⟩, rfl⟩
    · rename_i hnot
      exact .inr ⟨head?_bare_ne hnot, hlt, h⟩
  · rintro (⟨position, after, q, rfl, ⟨hlt, hq⟩, rfl⟩ | ⟨hnot, hlt, h⟩)
    · refine ⟨by simp only [List.length_cons]; omega, ?_⟩
      rw [negated.eq_def]
      simp only [hq]
    · refine ⟨hlt, ?_⟩
      rw [negated.eq_def]
      split
      · exact absurd rfl hnot
      · exact h

lemma primary_group {open' close : Nat}
    (h : Reads (disjunction ts) p (⟨.closeParen, close⟩ :: rest)) :
    Reads (primary (⟨.openParen, open'⟩ :: ts)) p rest := by
  obtain ⟨hlt, h⟩ := h
  refine ⟨by simp only [List.length_cons] at hlt ⊢; omega, ?_⟩
  rw [primary.eq_def]
  simp [h]

/-- A primary predicate is one in parentheses or an atom. -/
lemma reads_primary (h : Reads (primary ts) p rest) :
    (∃ position position' after, ts = ⟨.openParen, position⟩ :: after ∧
      Reads (disjunction after) p (⟨.closeParen, position'⟩ :: rest)) ∨
    ∃ a : Atom, a.Denotes p ∧ bare ts = a.tokens ++ bare rest := by
  obtain ⟨hlt, h⟩ := h
  rw [primary.eq_def] at h
  split at h
  · cases h
  · rename_i position after
    split at h
    · cases h
    · cases h
    · rename_i q t rest' hlt' hq
      split at h
      · rename_i hclose
        cases h
        obtain ⟨token, position'⟩ := t
        cases hclose
        exact .inl ⟨position, position', after, rfl, hlt', hq⟩
      · cases h
  · split at h
    · cases h
    · rename_i field hf
      obtain ⟨⟨q, after⟩, hafter, he⟩ := map_eq_ok.1 h
      cases he
      exact .inr (afterField_sound (fieldName_eq_ok.1 hf) hafter)
  · obtain ⟨parsed, hafter, he⟩ := map_eq_ok.1 h
    cases he
    exact .inr (afterLiteral_sound ⟨_, hafter⟩)
  · cases h

/-! ### What is read has a tree -/

mutual

lemma disjunction_sound {ts rest : List Placed} {p : Predicate}
    (h : Reads (disjunction ts) p rest) :
    ∃ d : Disjunction, d.Denotes p ∧ bare ts = d.tokens ++ bare rest := by
  obtain ⟨first, between, more, hfirst, hmore, rfl⟩ := reads_disjunction.1 h
  -- The first link takes a token, so fewer are left for the others.
  have hlt := hfirst.1
  obtain ⟨c, hc, hts⟩ := conjunction_sound hfirst
  obtain ⟨rfl, rfl⟩ | ⟨d, hd, hbetween⟩ := moreDisjuncts_sound hmore
  · exact ⟨.last c, hc, hts⟩
  · obtain ⟨second, others, rfl⟩ := hd.exists_cons
    exact ⟨.more c d, ⟨first, _, hc, hd, rfl⟩, by
      rw [Disjunction.tokens_more_append, hts, hbetween]⟩
termination_by (ts.length, 4)

lemma moreDisjuncts_sound {ts rest : List Placed} {ps : List Predicate}
    (h : ReadsMany (moreDisjuncts ts) ps rest) :
    (ps = [] ∧ rest = ts) ∨
      ∃ d : Disjunction, d.Parts ps ∧ bare ts = .or :: (d.tokens ++ bare rest) := by
  obtain ⟨position, after, first, between, more, hts, hfirst, hmore, rfl⟩ | ⟨-, rfl, rfl⟩ :=
    reads_moreDisjuncts.1 h
  · have hafter : after.length < ts.length := by simp [hts]
    have hbetween : between.length < ts.length := hfirst.1.trans hafter
    obtain ⟨c, hc, hread⟩ := conjunction_sound hfirst
    obtain ⟨rfl, rfl⟩ | ⟨d, hd, hmore⟩ := moreDisjuncts_sound hmore
    · exact .inr ⟨.last c, ⟨first, hc, rfl⟩, by rw [hts, bare_cons, hread]; rfl⟩
    · exact .inr ⟨.more c d, ⟨first, more, hc, hd, rfl⟩, by
        rw [hts, bare_cons, hread, hmore, Disjunction.tokens_more_append]⟩
  · exact .inl ⟨rfl, rfl⟩
termination_by (ts.length, 0)

lemma conjunction_sound {ts rest : List Placed} {p : Predicate}
    (h : Reads (conjunction ts) p rest) :
    ∃ c : Conjunction, c.Denotes p ∧ bare ts = c.tokens ++ bare rest := by
  obtain ⟨first, between, more, hfirst, hmore, rfl⟩ := reads_conjunction.1 h
  have hlt := hfirst.1
  obtain ⟨n, hn, hts⟩ := negated_sound hfirst
  obtain ⟨rfl, rfl⟩ | ⟨c, hc, hbetween⟩ := moreConjuncts_sound hmore
  · exact ⟨.last n, hn, hts⟩
  · obtain ⟨second, others, rfl⟩ := hc.exists_cons
    exact ⟨.more n c, ⟨first, _, hn, hc, rfl⟩, by
      rw [Conjunction.tokens_more_append, hts, hbetween]⟩
termination_by (ts.length, 3)

lemma moreConjuncts_sound {ts rest : List Placed} {ps : List Predicate}
    (h : ReadsMany (moreConjuncts ts) ps rest) :
    (ps = [] ∧ rest = ts) ∨
      ∃ c : Conjunction, c.Parts ps ∧ bare ts = .and :: (c.tokens ++ bare rest) := by
  obtain ⟨position, after, first, between, more, hts, hfirst, hmore, rfl⟩ | ⟨-, rfl, rfl⟩ :=
    reads_moreConjuncts.1 h
  · have hafter : after.length < ts.length := by simp [hts]
    have hbetween : between.length < ts.length := hfirst.1.trans hafter
    obtain ⟨n, hn, hread⟩ := negated_sound hfirst
    obtain ⟨rfl, rfl⟩ | ⟨c, hc, hmore⟩ := moreConjuncts_sound hmore
    · exact .inr ⟨.last n, ⟨first, hn, rfl⟩, by rw [hts, bare_cons, hread]; rfl⟩
    · exact .inr ⟨.more n c, ⟨first, more, hn, hc, rfl⟩, by
        rw [hts, bare_cons, hread, hmore, Conjunction.tokens_more_append]⟩
  · exact .inl ⟨rfl, rfl⟩
termination_by (ts.length, 0)

lemma negated_sound {ts rest : List Placed} {p : Predicate} (h : Reads (negated ts) p rest) :
    ∃ n : Negation, n.Denotes p ∧ bare ts = n.tokens ++ bare rest := by
  obtain ⟨position, after, q, hts, hq, rfl⟩ | ⟨-, hp⟩ := reads_negated.1 h
  · have hlt : after.length < ts.length := by simp [hts]
    obtain ⟨n, hn, hread⟩ := negated_sound hq
    exact ⟨.not n, ⟨q, hn, rfl⟩, by rw [hts, bare_cons, hread]; rfl⟩
  · obtain ⟨q, hq, hts⟩ := primary_sound hp
    exact ⟨.primary q, hq, hts⟩
termination_by (ts.length, 2)

lemma primary_sound {ts rest : List Placed} {p : Predicate} (h : Reads (primary ts) p rest) :
    ∃ q : Primary, q.Denotes p ∧ bare ts = q.tokens ++ bare rest := by
  obtain ⟨position, position', after, hts, hread⟩ | ⟨a, ha, hts⟩ := reads_primary h
  · have hlt : after.length < ts.length := by simp [hts]
    obtain ⟨d, hd, hread⟩ := disjunction_sound hread
    exact ⟨.group d, hd, by rw [hts, bare_cons, hread, Primary.tokens_group_append, bare_cons]⟩
  · exact ⟨.atom a, ha, hts⟩
termination_by (ts.length, 1)

end

/-! ### What has a tree is read -/

mutual

lemma Disjunction.complete {ts : List Placed} {p : Predicate} {tail : List Token}
    (d : Disjunction) (hd : d.Denotes p) (h : bare ts = d.tokens ++ tail)
    (ht : Opens afterOr tail) : ∃ rest, Reads (disjunction ts) p rest ∧ bare rest = tail := by
  cases d with
  | last c =>
    obtain ⟨rest, hread, rfl⟩ := c.complete hd h ht.toAnd
    have hmore := reads_moreDisjuncts.2 (.inr ⟨ht.head?_ne (by decide), rfl, rfl⟩)
    exact ⟨rest, reads_disjunction.2 ⟨p, rest, [], hread, hmore, rfl⟩, rfl⟩
  | more c d =>
    obtain ⟨first, others, hfirst, hothers, rfl⟩ := hd
    rw [Disjunction.tokens_more_append] at h
    obtain ⟨between, hread, hbetween⟩ := c.complete hfirst h (by simp [afterAnd])
    obtain ⟨rest, hmore, htail⟩ := d.completeMore hothers hbetween ht
    -- There are two links at least, so the chain does not collapse.
    obtain ⟨second, others, rfl⟩ := hothers.exists_cons
    exact ⟨rest, reads_disjunction.2 ⟨first, between, _, hread, hmore, rfl⟩, htail⟩

lemma Disjunction.completeMore {ts : List Placed} {ps : List Predicate} {tail : List Token}
    (d : Disjunction) (hd : d.Parts ps) (h : bare ts = .or :: (d.tokens ++ tail))
    (ht : Opens afterOr tail) :
    ∃ rest, ReadsMany (moreDisjuncts ts) ps rest ∧ bare rest = tail := by
  obtain ⟨position, after, rfl, hafter⟩ := bare_eq_cons.1 h
  cases d with
  | last c =>
    obtain ⟨p, hp, rfl⟩ := hd
    obtain ⟨rest, hread, rfl⟩ := c.complete hp hafter ht.toAnd
    have hmore := reads_moreDisjuncts.2 (.inr ⟨ht.head?_ne (by decide), rfl, rfl⟩)
    exact ⟨rest, reads_moreDisjuncts.2 (.inl
      ⟨position, after, p, rest, [], rfl, hread, hmore, rfl⟩), rfl⟩
  | more c d =>
    obtain ⟨first, others, hfirst, hothers, rfl⟩ := hd
    rw [Disjunction.tokens_more_append] at hafter
    obtain ⟨between, hread, hbetween⟩ := c.complete hfirst hafter (by simp [afterAnd])
    obtain ⟨rest, hmore, htail⟩ := d.completeMore hothers hbetween ht
    exact ⟨rest, reads_moreDisjuncts.2 (.inl
      ⟨position, after, first, between, others, rfl, hread, hmore, rfl⟩), htail⟩

lemma Conjunction.complete {ts : List Placed} {p : Predicate} {tail : List Token}
    (c : Conjunction) (hc : c.Denotes p) (h : bare ts = c.tokens ++ tail)
    (ht : Opens afterAnd tail) : ∃ rest, Reads (conjunction ts) p rest ∧ bare rest = tail := by
  cases c with
  | last n =>
    obtain ⟨rest, hread, rfl⟩ := n.complete hc h ht.toNot
    have hmore := reads_moreConjuncts.2 (.inr ⟨ht.head?_ne (by decide), rfl, rfl⟩)
    exact ⟨rest, reads_conjunction.2 ⟨p, rest, [], hread, hmore, rfl⟩, rfl⟩
  | more n c =>
    obtain ⟨first, others, hfirst, hothers, rfl⟩ := hc
    rw [Conjunction.tokens_more_append] at h
    obtain ⟨between, hread, hbetween⟩ := n.complete hfirst h (by simp [afterNot])
    obtain ⟨rest, hmore, htail⟩ := c.completeMore hothers hbetween ht
    obtain ⟨second, others, rfl⟩ := hothers.exists_cons
    exact ⟨rest, reads_conjunction.2 ⟨first, between, _, hread, hmore, rfl⟩, htail⟩

lemma Conjunction.completeMore {ts : List Placed} {ps : List Predicate} {tail : List Token}
    (c : Conjunction) (hc : c.Parts ps) (h : bare ts = .and :: (c.tokens ++ tail))
    (ht : Opens afterAnd tail) :
    ∃ rest, ReadsMany (moreConjuncts ts) ps rest ∧ bare rest = tail := by
  obtain ⟨position, after, rfl, hafter⟩ := bare_eq_cons.1 h
  cases c with
  | last n =>
    obtain ⟨p, hp, rfl⟩ := hc
    obtain ⟨rest, hread, rfl⟩ := n.complete hp hafter ht.toNot
    have hmore := reads_moreConjuncts.2 (.inr ⟨ht.head?_ne (by decide), rfl, rfl⟩)
    exact ⟨rest, reads_moreConjuncts.2 (.inl
      ⟨position, after, p, rest, [], rfl, hread, hmore, rfl⟩), rfl⟩
  | more n c =>
    obtain ⟨first, others, hfirst, hothers, rfl⟩ := hc
    rw [Conjunction.tokens_more_append] at hafter
    obtain ⟨between, hread, hbetween⟩ := n.complete hfirst hafter (by simp [afterNot])
    obtain ⟨rest, hmore, htail⟩ := c.completeMore hothers hbetween ht
    exact ⟨rest, reads_moreConjuncts.2 (.inl
      ⟨position, after, first, between, others, rfl, hread, hmore, rfl⟩), htail⟩

lemma Negation.complete {ts : List Placed} {p : Predicate} {tail : List Token}
    (n : Negation) (hn : n.Denotes p) (h : bare ts = n.tokens ++ tail)
    (ht : Opens afterNot tail) : ∃ rest, Reads (negated ts) p rest ∧ bare rest = tail := by
  cases n with
  | not n =>
    obtain ⟨q, hq, rfl⟩ := hn
    obtain ⟨position, after, rfl, hafter⟩ := bare_eq_cons.1 h
    obtain ⟨rest, hread, htail⟩ := n.complete hq hafter ht
    exact ⟨rest, reads_negated.2 (.inl ⟨position, after, q, rfl, hread, rfl⟩), htail⟩
  | primary q =>
    obtain ⟨rest, hread, htail⟩ := q.complete hn h ht
    -- It is read as a primary only because it does not begin with `not`.
    refine ⟨rest, reads_negated.2 (.inr ⟨fun hhead => ?_, hread⟩), htail⟩
    obtain ⟨after, hafter⟩ := List.head?_eq_some_iff.1 hhead
    exact q.tokens_ne_not (h.symm.trans hafter)

lemma Primary.complete {ts : List Placed} {p : Predicate} {tail : List Token}
    (q : Primary) (hq : q.Denotes p) (h : bare ts = q.tokens ++ tail)
    (ht : Opens afterNot tail) : ∃ rest, Reads (primary ts) p rest ∧ bare rest = tail := by
  cases q with
  | group d =>
    rw [Primary.tokens_group_append] at h
    obtain ⟨position, after, rfl, hafter⟩ := bare_eq_cons.1 h
    obtain ⟨between, hread, hbetween⟩ := d.complete hq hafter (by simp [afterOr])
    obtain ⟨position', rest, rfl, htail⟩ := bare_eq_cons.1 hbetween
    exact ⟨rest, primary_group hread, htail⟩
  | atom a => exact primary_atom hq h ht

end

/-- What a list of tokens is read as is what its tree denotes. -/
theorem ofTokens_eq_ok {ts : List Placed} {p : Predicate} :
    ofTokens ts = .ok p ↔ ∃ d : Disjunction, d.tokens = bare ts ∧ d.Denotes p := by
  rw [ofTokens]
  constructor
  · intro h
    split at h
    · cases h
    · rename_i hlt hread
      cases h
      obtain ⟨d, hd, hts⟩ := disjunction_sound ⟨hlt, hread⟩
      exact ⟨d, by simpa using hts.symm, hd⟩
    · cases h
  · rintro ⟨d, hts, hd⟩
    obtain ⟨rest, ⟨hlt, hread⟩, htail⟩ := d.complete hd (by simpa using hts.symm) opens_nil
    obtain rfl := List.map_eq_nil_iff.1 htail
    simp only [hread]

/-- A text is read exactly as the derivation of its tokens denotes, of which there is one at
most. -/
theorem parse_iff_denotes {text : String} {ts : List Placed} (h : tokenize text = .ok ts) :
    (∀ p, parse text = .ok p ↔ ∃ d : Disjunction, d.tokens = bare ts ∧ d.Denotes p) ∧
      ∀ d e : Disjunction, d.tokens = bare ts → e.tokens = bare ts → d = e := by
  refine ⟨fun p => ?_, fun d e hd he => Disjunction.tokens_injective (hd.trans he.symm)⟩
  have hp : parse text = ofTokens ts := by rw [parse, h]; rfl
  rw [hp, ofTokens_eq_ok]

/-- A chain of `or` whose second link is one of `and`: `not` binds tightest, the number on the left
has its operator mirrored, the field alone is compared with `true`, and the list ends in a comma. -/
theorem parse_iff_denotes_chains :
    parse "16 > u.age or active and not u.name in ('bob',)" =
      .ok (.any [.comparison "age" .lessThan (.integer 16),
        .all [.comparison "active" .equals (.boolean true),
          .negation (.oneOf "name" [.string "bob"])]]) := by
  have hage : Names "u.age" "age" :=
    ⟨by decide, by decide, .inr ⟨"u", by decide, by decide⟩⟩
  have hactive : Names "active" "active" := ⟨by decide, by decide, .inl rfl⟩
  have hname : Names "u.name" "name" :=
    ⟨by decide, by decide, .inr ⟨"u", by decide, by decide⟩⟩
  have hage' : Spells "u.age".toList [.identifier "u.age"] := spells_word (by decide)
  have hactive' : Spells "active".toList [.identifier "active"] := spells_word (by decide)
  have hname' : Spells "u.name".toList [.identifier "u.name"] := spells_word (by decide)
  have hsixteen : Spells "16".toList [.literal (.integer 16)] :=
    spells_number (c := '1') false (by decide) (by decide) (by decide)
  have hlist : Spells "('bob',)".toList
      [.openParen, .literal (.string "bob"), .comma, .closeParen] :=
    ((spells_string "bob").append spells_nil.closeParen.afterComma (by decide)).openParen
  have hnegated := spells_not.blank (hname'.blank (spells_in.blank hlist))
  have hflipped := hsixteen.blank ((spells_operator .greaterThan).blank hage')
  have hspells := hflipped.blank (spells_or.blank (hactive'.blank (spells_and.blank hnegated)))
  obtain ⟨ts, hts, hbare⟩ := hspells.exists_tokens
  have ht : tokenize "16 > u.age or active and not u.name in ('bob',)" = .ok ts := hts
  refine ((parse_iff_denotes ht).1 _).2
    ⟨.more (.last (.primary (.atom (.flipped (.integer 16) .greaterThan "u.age"))))
      (.last (.more (.primary (.atom (.alone "active")))
        (.last (.not (.primary (.atom
          (.member "u.name" ⟨false, .more (.string "bob") .none⟩))))))), hbare.symm, ?_⟩
  exact ⟨_, _, .flipped hage (.comparison nofun),
    ⟨_, ⟨_, _, .alone hactive, ⟨_, ⟨_, .member hname, rfl⟩, rfl⟩, rfl⟩, rfl⟩, rfl⟩

end ObjectGraph.Predicate
