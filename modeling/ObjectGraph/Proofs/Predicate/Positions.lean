/-
# Positions of tokens and of errors

The positions that tokens and errors carry are bytes at which characters of the text begin: the
first character of the token, number or string that the error is about, or the character that
begins nothing.  A text is read from left to right, so later tokens begin at later bytes, and the
parser blames no token but one that it was given.
-/
import ObjectGraph.Predicate.Parser
import ObjectGraph.Proofs.Predicate.Slices

namespace ObjectGraph.Predicate

/-! ### What stands at a position -/

/-- Where in the text an error is. -/
def ParseError.position? : ParseError → Option Nat
  | unexpectedCharacter _ position | unterminatedString position | invalidNumber _ position
  | unexpectedToken _ position => some position
  | unexpectedEnd | nestedField _ | nullComparison _ => none

/-- Whether a token is read at the character that begins at its byte. -/
def Placed.StandsIn (text : String) (t : Placed) : Prop :=
  ∃ c rest after, StandsAt text t.position (c :: rest) ∧ Text.isWhitespace c = false ∧
    readToken t.position c rest = .ok (t.token, after)

/-- Whether what an error is about begins at its byte: a character that begins no token, a quote
whose string does not end, a word of digits, letters and points that is no number and does not go
on, or a token of the text. -/
def ParseError.StandsIn (text : String) : ParseError → Prop
  | unexpectedCharacter c position => ∃ rest, StandsAt text position (c :: rest)
  | unterminatedString position => ∃ quote rest, StandsAt text position (quote :: rest) ∧
    (quote = '\'' ∨ quote = '"') ∧ readString quote rest = none
  | invalidNumber word position => ∃ c rest, StandsAt text position (c :: rest) ∧
    word.toList = c :: rest.takeWhile continuesNumber ∧ number? word.toList = none
  | unexpectedToken found position => ∃ t : Placed, (∃ ts, tokenize text = .ok ts ∧ t ∈ ts) ∧
    t.StandsIn text ∧ t.position = position ∧ t.token.describe = found
  | unexpectedEnd | nestedField _ | nullComparison _ => True

variable {text : String} {position : Nat} {c : Char} {cs : List Char} {e : ParseError}
  {t : Placed} {ts us : List Placed}

/-- An error with a position stands at a character. -/
lemma ParseError.StandsIn.exists_character (h : e.StandsIn text)
    (hp : e.position? = some position) :
    ∃ c rest, StandsAt text position (c :: rest) := by
  cases e with
  | unexpectedCharacter c =>
    cases hp
    obtain ⟨rest, hat⟩ := h
    exact ⟨c, rest, hat⟩
  | unterminatedString =>
    cases hp
    obtain ⟨quote, rest, hat, -⟩ := h
    exact ⟨quote, rest, hat⟩
  | invalidNumber word =>
    cases hp
    obtain ⟨c, rest, hat, -⟩ := h
    exact ⟨c, rest, hat⟩
  | unexpectedToken found =>
    cases hp
    obtain ⟨t, -, ⟨c, rest, after, hat, -⟩, rfl, -⟩ := h
    exact ⟨c, rest, hat⟩
  | unexpectedEnd | nestedField | nullComparison => cases hp

/-! ### Tokens -/

/-- What cannot be read is where reading began. -/
lemma standsIn_of_readToken (hat : StandsAt text position (c :: cs))
    (h : readToken position c cs = .error e) : e.StandsIn text := by
  unfold readToken at h
  split at h
  · cases h
  · split at h
    · split at h <;> cases h
      exact ⟨cs, hat⟩
    · split at h
      · rename_i hquote
        split at h
        · cases h
        · rename_i hread
          cases h
          exact ⟨c, cs, hat, hquote, hread⟩
      · split at h
        · dsimp only at h
          split at h
          · cases h
          · rename_i hnumber
            cases h
            exact ⟨c, cs, hat, String.toList_ofList, by rw [String.toList_ofList]; exact hnumber⟩
        · split at h <;> cases h
          exact ⟨cs, hat⟩

lemma tokensFrom_error (hat : StandsAt text position cs) (h : tokensFrom position cs = .error e) :
    e.StandsIn text := by
  fun_induction tokensFrom position cs with
  | case1 => cases h
  | case2 position c rest hblank ih => exact ih (hat.advance (a := [c])) h
  | case3 position c rest hblank e' hread =>
    cases h
    exact standsIn_of_readToken hat hread
  | case4 position c rest hblank token after hread _ consumed ih =>
    obtain ⟨between, hrest⟩ := exists_readToken_append hread
    cases htail : tokensFrom (position + byteLength consumed) after with
    | ok tail =>
      rw [htail] at h
      cases h
    | error e' =>
      rw [htail] at h
      cases h
      exact ih (hat.behind hrest) htail

/-- Tokens begin one behind the other, each of them where it is read. -/
lemma tokensFrom_ok (hat : StandsAt text position cs) (h : tokensFrom position cs = .ok ts) :
    ts.Pairwise (fun s t => s.position < t.position) ∧
      ∀ t ∈ ts, position ≤ t.position ∧ t.StandsIn text := by
  fun_induction tokensFrom position cs generalizing ts with
  | case1 =>
    cases h
    exact ⟨.nil, by simp⟩
  | case2 position c rest hblank ih =>
    obtain ⟨hsorted, hplaces⟩ := ih (hat.advance (a := [c])) h
    refine ⟨hsorted, fun t ht => ?_⟩
    obtain ⟨hle, hstands⟩ := hplaces t ht
    exact ⟨Nat.le_trans (Nat.le_add_right _ _) hle, hstands⟩
  | case3 => cases h
  | case4 position c rest hblank token after hread _ consumed =>
    rename_i ih
    obtain ⟨between, hrest⟩ := exists_readToken_append hread
    obtain ⟨tail, htail, rfl⟩ := map_eq_ok.1 h
    obtain ⟨hsorted, hplaces⟩ := ih (hat.behind hrest) htail
    -- The token takes its first character at least.
    have hbehind : position < position + byteLength consumed := by
      have hbytes : position + byteLength consumed = position + c.utf8Size + byteLength between :=
        byteBehind_eq hrest
      have hpos := c.utf8Size_pos
      omega
    have hlater : ∀ t ∈ tail, position < t.position := fun t ht =>
      Nat.lt_of_lt_of_le hbehind (hplaces t ht).1
    have hfirst : Placed.StandsIn text ⟨token, position⟩ :=
      ⟨c, rest, after, hat, by simpa using hblank, hread⟩
    refine ⟨.cons hlater hsorted, List.forall_mem_cons.2 ⟨⟨Nat.le_refl _, hfirst⟩, ?_⟩⟩
    intro t ht
    exact ⟨Nat.le_of_lt (hlater t ht), (hplaces t ht).2⟩

/-! ### The parser -/

/-- Whether an error has no position or is about one of some tokens. -/
def ParseError.Blames (ts : List Placed) (e : ParseError) : Prop :=
  e.position? = none ∨ ∃ t ∈ ts, e = t.unexpected

/-- What a reader of tokens leaves is among the tokens that it was given, and so is what it
blames. -/
def Confined {α : Type} (ts : List Placed) (left : α → List Placed) : Except ParseError α → Prop
  | .ok read => left read ⊆ ts
  | .error e => e.Blames ts

lemma ParseError.Blames.mono (h : e.Blames ts) (hsub : ts ⊆ us) : e.Blames us := by
  refine h.imp_right ?_
  rintro ⟨t, ht, rfl⟩
  exact ⟨t, hsub ht, rfl⟩

lemma blames_unexpected (h : t ∈ ts) : t.unexpected.Blames ts :=
  .inr ⟨t, h, rfl⟩

namespace Confined

variable {α β : Type} {left : α → List Placed} {result : Except ParseError α} {read : α}

lemma ok (h : Confined ts left result) (hr : result = .ok read) (hsub : ts ⊆ us) :
    left read ⊆ us := by
  subst hr
  exact List.Subset.trans h hsub

lemma error (h : Confined ts left result) (hr : result = .error e) (hsub : ts ⊆ us) :
    e.Blames us := by
  subst hr
  exact h.mono hsub

lemma map {f : α → β} {left' : β → List Placed} (h : Confined ts left result) (hsub : ts ⊆ us)
    (hf : ∀ read, left' (f read) = left read) : Confined us left' (result.map f) := by
  cases result with
  | ok read =>
    show left' (f read) ⊆ us
    rw [hf]
    exact List.Subset.trans h hsub
  | error e => exact h.mono hsub

end Confined

lemma confined_fieldName (ts : List Placed) (reference : String) :
    Confined ts (fun _ => ts) (fieldName reference) := by
  unfold fieldName
  dsimp only
  split
  · exact .inl rfl
  · exact List.Subset.refl ts

lemma confined_compareWith (ts : List Placed) (field : String) (operator : ComparisonOperator)
    (value : Literal) : Confined ts (fun _ => ts) (compareWith field operator value) := by
  unfold compareWith
  split
  · exact List.Subset.refl ts
  · exact List.Subset.refl ts
  · exact .inl rfl
  · exact List.Subset.refl ts

lemma confined_listItems (close : Token) (ts : List Placed) :
    Confined ts Prod.snd (listItems close ts) := by
  fun_induction listItems close ts with
  | case1 => exact .inl rfl
  | case2 t rest => exact List.subset_cons_self t rest
  | case3 => exact .inl rfl
  | case4 =>
    rename_i hitems ih
    rw [hitems] at ih
    exact List.Subset.trans ih (List.subset_cons_of_subset _ (List.subset_cons_self _ _))
  | case5 =>
    rename_i hitems ih
    exact ih.error hitems (List.subset_cons_of_subset _ (List.subset_cons_self _ _))
  | case6 => exact List.subset_cons_of_subset _ (List.subset_cons_self _ _)
  | case7 => exact blames_unexpected (List.mem_cons_of_mem _ List.mem_cons_self)
  | case8 => exact blames_unexpected List.mem_cons_self

lemma confined_literalList (ts : List Placed) :
    Confined ts Parsed.rest (literalList ts) := by
  unfold literalList
  split
  · exact .inl rfl
  · rename_i t rest
    have hrest : rest ⊆ t :: rest := List.subset_cons_self t rest
    dsimp only
    split
    · split
      · rename_i hread
        exact (confined_listItems .closeParen rest).ok hread hrest
      · rename_i hread
        exact (confined_listItems .closeParen rest).error hread hrest
    · split
      · rename_i hread
        exact (confined_listItems .closeBracket rest).ok hread hrest
      · rename_i hread
        exact (confined_listItems .closeBracket rest).error hread hrest
    · exact blames_unexpected List.mem_cons_self

lemma confined_afterField (field : String) (ts : List Placed) :
    Confined ts (fun read => read.2.1) (afterField field ts) := by
  unfold afterField
  split
  · exact .inl rfl
  · exact (confined_compareWith _ _ _ _).map
      (List.subset_cons_of_subset _ (List.subset_cons_self _ _)) fun _ => rfl
  · exact blames_unexpected (List.mem_cons_of_mem _ List.mem_cons_self)
  · exact (confined_literalList _).map (List.subset_cons_self _ _) fun _ => rfl
  · exact (confined_literalList _).map
      (List.subset_cons_of_subset _ (List.subset_cons_self _ _)) fun _ => rfl
  · exact (confined_compareWith _ _ _ _).map (List.Subset.refl _) fun _ => rfl

lemma confined_afterLiteral (value : Literal) (ts : List Placed) :
    Confined ts Parsed.rest (afterLiteral value ts) := by
  unfold afterLiteral
  split
  · exact .inl rfl
  · exact .inl rfl
  · split
    · rename_i hfield
      exact (confined_fieldName _ _).error hfield (List.Subset.refl _)
    · exact (confined_compareWith _ _ _ _).map
        (List.subset_cons_of_subset _ (List.subset_cons_self _ _)) fun _ => rfl
  · exact blames_unexpected (List.mem_cons_of_mem _ List.mem_cons_self)
  · exact blames_unexpected List.mem_cons_self

-- The induction is on the number of tokens and, among functions that are given the same ones, on
-- how tightly what they read binds.
mutual

lemma confined_disjunction (ts : List Placed) : Confined ts Parsed.rest (disjunction ts) := by
  rw [disjunction]
  split
  · rename_i hfirst
    exact (confined_conjunction ts).error hfirst (List.Subset.refl ts)
  · rename_i first rest hlt hfirst
    have hrest : rest ⊆ ts := (confined_conjunction ts).ok hfirst (List.Subset.refl ts)
    split
    · rename_i hmore
      exact (confined_moreDisjuncts rest).error hmore hrest
    · rename_i hmore
      exact (confined_moreDisjuncts rest).ok hmore hrest
termination_by (ts.length, 4)
decreasing_by
  all_goals first
    | exact .right _ (by decide)
    | exact .left _ _ (by omega)

lemma confined_moreDisjuncts (ts : List Placed) :
    Confined ts ParsedMany.rest (moreDisjuncts ts) := by
  rw [moreDisjuncts.eq_def]
  split
  · rename_i position after
    have hafter : after ⊆ ⟨.or, position⟩ :: after := List.subset_cons_self _ _
    split
    · rename_i hfirst
      exact (confined_conjunction after).error hfirst hafter
    · rename_i first rest hlt hfirst
      have hrest := (confined_conjunction after).ok hfirst hafter
      split
      · rename_i hmore
        exact (confined_moreDisjuncts rest).error hmore hrest
      · rename_i hmore
        exact (confined_moreDisjuncts rest).ok hmore hrest
  · exact List.Subset.refl ts
termination_by (ts.length, 0)
decreasing_by
  all_goals
    subst_vars
    exact .left _ _ (by simp only [List.length_cons]; omega)

lemma confined_conjunction (ts : List Placed) : Confined ts Parsed.rest (conjunction ts) := by
  rw [conjunction]
  split
  · rename_i hfirst
    exact (confined_negated ts).error hfirst (List.Subset.refl ts)
  · rename_i first rest hlt hfirst
    have hrest : rest ⊆ ts := (confined_negated ts).ok hfirst (List.Subset.refl ts)
    split
    · rename_i hmore
      exact (confined_moreConjuncts rest).error hmore hrest
    · rename_i hmore
      exact (confined_moreConjuncts rest).ok hmore hrest
termination_by (ts.length, 3)
decreasing_by
  all_goals first
    | exact .right _ (by decide)
    | exact .left _ _ (by omega)

lemma confined_moreConjuncts (ts : List Placed) :
    Confined ts ParsedMany.rest (moreConjuncts ts) := by
  rw [moreConjuncts.eq_def]
  split
  · rename_i position after
    have hafter : after ⊆ ⟨.and, position⟩ :: after := List.subset_cons_self _ _
    split
    · rename_i hfirst
      exact (confined_negated after).error hfirst hafter
    · rename_i first rest hlt hfirst
      have hrest := (confined_negated after).ok hfirst hafter
      split
      · rename_i hmore
        exact (confined_moreConjuncts rest).error hmore hrest
      · rename_i hmore
        exact (confined_moreConjuncts rest).ok hmore hrest
  · exact List.Subset.refl ts
termination_by (ts.length, 0)
decreasing_by
  all_goals
    subst_vars
    exact .left _ _ (by simp only [List.length_cons]; omega)

lemma confined_negated (ts : List Placed) : Confined ts Parsed.rest (negated ts) := by
  rw [negated.eq_def]
  split
  · rename_i position after
    have hafter : after ⊆ ⟨.not, position⟩ :: after := List.subset_cons_self _ _
    split
    · rename_i hpart
      exact (confined_negated after).error hpart hafter
    · rename_i hpart
      exact (confined_negated after).ok hpart hafter
  · exact confined_primary ts
termination_by (ts.length, 2)
decreasing_by
  all_goals first
    | exact .right _ (by decide)
    | exact .left _ _ (by subst_vars; simp only [List.length_cons]; omega)

lemma confined_primary (ts : List Placed) : Confined ts Parsed.rest (primary ts) := by
  rw [primary.eq_def]
  split
  · exact .inl rfl
  · rename_i position after
    have hafter : after ⊆ ⟨.openParen, position⟩ :: after := List.subset_cons_self _ _
    split
    · rename_i hgroup
      exact (confined_disjunction after).error hgroup hafter
    · exact .inl rfl
    · rename_i p t rest hlt hgroup
      have hrest := (confined_disjunction after).ok hgroup hafter
      split
      · exact List.Subset.trans (List.subset_cons_self t rest) hrest
      · exact blames_unexpected (hrest List.mem_cons_self)
  · split
    · rename_i hfield
      exact (confined_fieldName _ _).error hfield (List.Subset.refl _)
    · exact (confined_afterField _ _).map (List.subset_cons_self _ _) fun _ => rfl
  · exact (confined_afterLiteral _ _).map (List.subset_cons_self _ _) fun _ => rfl
  · exact blames_unexpected List.mem_cons_self
termination_by (ts.length, 1)
decreasing_by
  all_goals
    subst_vars
    exact .left _ _ (by simp only [List.length_cons]; omega)

end

/-- What is wrong with some tokens is one of them, if it is a token. -/
lemma blames_ofTokens (h : ofTokens ts = .error e) : e.Blames ts := by
  unfold ofTokens at h
  split at h
  · rename_i hread
    cases h
    exact (confined_disjunction ts).error hread (List.Subset.refl ts)
  · cases h
  · rename_i p t rest hlt hread
    cases h
    exact blames_unexpected ((confined_disjunction ts).ok hread (List.Subset.refl ts)
      List.mem_cons_self)

lemma standsIn_of_parse (h : parse text = .error e) : e.position? = none ∨ e.StandsIn text := by
  cases hcut : tokenize text with
  | error e' =>
    rw [parse, hcut] at h
    cases h
    exact .inr (tokensFrom_error (standsAt_zero text) hcut)
  | ok ts =>
    rw [parse, hcut] at h
    refine (blames_ofTokens h).imp_right ?_
    rintro ⟨t, ht, rfl⟩
    have hstands := ((tokensFrom_ok (standsAt_zero text) hcut).2 t ht).2
    exact ⟨t, ⟨ts, hcut, ht⟩, hstands, rfl, rfl⟩

/-- Every part that is taken out of a text begins and ends between two characters; its tokens begin
one behind the other, each of them at its first character; and an error that has a position is
about what begins at the character there. -/
theorem positions_valid (text : String) :
    cut text = some (tokenize text) ∧
      (∀ ts, tokenize text = .ok ts →
        ts.Pairwise (fun s t => s.position < t.position) ∧ ∀ t ∈ ts, t.StandsIn text) ∧
      ∀ e position, parse text = .error e → e.position? = some position →
        e.StandsIn text ∧ ∃ c rest, StandsAt text position (c :: rest) := by
  refine ⟨cut_eq_tokenize text, ?_, ?_⟩
  · intro ts hts
    obtain ⟨hsorted, hplaces⟩ := tokensFrom_ok (standsAt_zero text) hts
    exact ⟨hsorted, fun t ht => (hplaces t ht).2⟩
  · intro e position he hposition
    have hstands : e.StandsIn text := by
      refine (standsIn_of_parse he).resolve_left ?_
      rw [hposition]
      exact Option.some_ne_none _
    exact ⟨hstands, hstands.exists_character hposition⟩

/-- A blank that takes two bytes stands before the character that begins nothing. -/
theorem positions_valid_wideBlank :
    parse "\u00a0$" = .error (.unexpectedCharacter '$' 2) ∧
      (ParseError.unexpectedCharacter '$' 2).StandsIn "\u00a0$" ∧
      ∃ c rest, StandsAt "\u00a0$" 2 (c :: rest) := by
  have htokens : tokensFrom 2 ['$'] = .error (.unexpectedCharacter '$' 2) :=
    tokensFrom_refused (by decide) rfl
  have hparse : parse "\u00a0$" = .error (.unexpectedCharacter '$' 2) := by
    have hchars : "\u00a0$".toList = ['\u00a0', '$'] := rfl
    have hblank : tokensFrom 0 ['\u00a0', '$'] = tokensFrom 2 ['$'] := tokensFrom_blank (by decide)
    rw [parse, tokenize, hchars, hblank, htokens]
    rfl
  exact ⟨hparse, (positions_valid "\u00a0$").2.2 _ 2 hparse rfl⟩

end ObjectGraph.Predicate
