/-
# Cutting by bytes

A reader that goes over the characters of a text together with the bytes at which they begin, and
that takes numbers and words out of the text from one byte to another.  A text has no part that
begins or ends within a character; the reader never asks for one, and what it takes is what is
read character by character.
-/
import ObjectGraph.Proofs.Predicate.Lexing

namespace ObjectGraph.Predicate

open String (Pos)

/-! ### Places in a text -/

/-- What is left of a text from a byte on. -/
def StandsAt (text : String) (position : Nat) (cs : List Char) : Prop :=
  ∃ before : String, text = before ++ String.ofList cs ∧ before.utf8ByteSize = position

/-- The part of a text between two bytes.  There is none unless each of them begins a character or
ends the text. -/
def slice? (text : String) (start stop : Nat) : Option String :=
  if h : Pos.Raw.IsValid text ⟨start⟩ ∧ Pos.Raw.IsValid text ⟨stop⟩ ∧ start ≤ stop then
    some (String.extract (text.pos ⟨start⟩ h.1) (text.pos ⟨stop⟩ h.2.1))
  else none

/-- The middle byte of a character is no place to cut. -/
example : slice? "aéb" 1 3 = some "é" ∧ slice? "aéb" 1 2 = none := by
  decide

variable {text : String} {position : Nat} {c : Char} {a b cs after : List Char}

lemma utf8ByteSize_ofList (cs : List Char) : (String.ofList cs).utf8ByteSize = byteLength cs := by
  induction cs with
  | nil => rfl
  | cons c rest ih =>
    have hsplit : String.ofList (c :: rest) = String.singleton c ++ String.ofList rest := by
      rw [String.singleton_eq_ofList, ← String.ofList_append, List.singleton_append]
    rw [hsplit, String.utf8ByteSize_append, String.utf8ByteSize_singleton, ih, byteLength]

lemma slice?_append (a b c : String) :
    slice? (a ++ b ++ c) a.utf8ByteSize (a ++ b).utf8ByteSize = some b := by
  have hstart : Pos.Raw.IsValid (a ++ b ++ c) ⟨a.utf8ByteSize⟩ :=
    Pos.Raw.isValid_iff_exists_append.2 ⟨a, b ++ c, String.append_assoc, rfl⟩
  have hstop : Pos.Raw.IsValid (a ++ b ++ c) ⟨(a ++ b).utf8ByteSize⟩ :=
    Pos.Raw.isValid_iff_exists_append.2 ⟨a ++ b, c, rfl, rfl⟩
  have hle : a.utf8ByteSize ≤ (a ++ b).utf8ByteSize := by
    rw [String.utf8ByteSize_append]
    exact Nat.le_add_right _ _
  rw [slice?, dif_pos ⟨hstart, hstop, hle⟩, Option.some.injEq, ← String.toByteArray_inj,
    String.toByteArray_extract, String.toByteArray_append]
  show (_ ++ c.toByteArray).extract a.utf8ByteSize (a ++ b).utf8ByteSize = _
  rw [← String.size_toByteArray, ← String.size_toByteArray, ByteArray.extract_append_size_left,
    String.toByteArray_append]
  exact ByteArray.extract_append_eq_right rfl ByteArray.size_append

lemma standsAt_zero (text : String) : StandsAt text 0 text.toList :=
  ⟨"", by rw [String.ofList_toList, String.empty_append], rfl⟩

namespace StandsAt

lemma advance (h : StandsAt text position (a ++ b)) :
    StandsAt text (position + byteLength a) b := by
  obtain ⟨before, rfl, rfl⟩ := h
  refine ⟨before ++ String.ofList a, ?_, ?_⟩
  · rw [String.ofList_append, String.append_assoc]
  · rw [String.utf8ByteSize_append, utf8ByteSize_ofList]

lemma utf8ByteSize_eq (h : StandsAt text position []) : text.utf8ByteSize = position := by
  obtain ⟨before, rfl, rfl⟩ := h
  rw [String.utf8ByteSize_append, String.ofList_nil]
  rfl

lemma slice? (h : StandsAt text position (a ++ b)) :
    slice? text position (position + byteLength a) = some (String.ofList a) := by
  obtain ⟨before, rfl, rfl⟩ := h
  rw [String.ofList_append, ← String.append_assoc, ← utf8ByteSize_ofList,
    ← String.utf8ByteSize_append]
  exact slice?_append before (String.ofList a) (String.ofList b)

end StandsAt

/-! ### Characters and their bytes -/

/-- The characters of a text that begins at a byte, each with the byte at which it begins. -/
def placed (position : Nat) : List Char → List (Nat × Char)
  | [] => []
  | c :: rest => (position, c) :: placed (position + c.utf8Size) rest

/-- The byte at which characters begin, or the end of the text if there are none. -/
def beginning (text : String) : List (Nat × Char) → Nat
  | [] => text.utf8ByteSize
  | (position, _) :: _ => position

lemma placed_append (position : Nat) (a b : List Char) :
    placed position (a ++ b) = placed position a ++ placed (position + byteLength a) b := by
  induction a generalizing position with
  | nil => rfl
  | cons c rest ih =>
    rw [List.cons_append, placed, placed, ih, byteLength, List.cons_append, Nat.add_assoc]

lemma map_snd_placed (position : Nat) (cs : List Char) :
    (placed position cs).map Prod.snd = cs := by
  induction cs generalizing position with
  | nil => rfl
  | cons c rest ih => rw [placed, List.map_cons, ih]

lemma length_placed (position : Nat) (cs : List Char) :
    (placed position cs).length = cs.length := by
  rw [← List.length_map Prod.snd, map_snd_placed]

lemma drop_placed (h : cs = a ++ b) : (placed position cs).drop (cs.length - b.length) =
    placed (position + byteLength a) b := by
  have hlength : cs.length - b.length = (placed position a).length := by
    rw [h, length_placed, List.length_append, Nat.add_sub_cancel_right]
  rw [hlength, h, placed_append, List.drop_left]

lemma dropWhile_placed (p : Char → Bool) (position : Nat) (cs : List Char) :
    ((placed position cs).dropWhile fun place => p place.2) =
      placed (position + byteLength (cs.takeWhile p)) (cs.dropWhile p) := by
  induction cs generalizing position with
  | nil => rfl
  | cons c rest ih =>
    rw [placed, List.dropWhile_cons, List.takeWhile_cons, List.dropWhile_cons]
    split
    · rw [ih, byteLength, Nat.add_assoc]
    · rfl

lemma beginning_placed (h : StandsAt text position cs) :
    beginning text (placed position cs) = position := by
  cases cs with
  | nil => exact h.utf8ByteSize_eq
  | cons => rfl

/-! ### Cutting tokens -/

/-- The token that begins with a character, and the characters behind it.  Numbers and words are
parts of the text. -/
def cutToken (text : String) (position : Nat) (c : Char) (rest : List (Nat × Char)) :
    Option (Except ParseError (Token × List (Nat × Char))) :=
  let chars := rest.map Prod.snd
  let behind := fun after : List Char => rest.drop (rest.length - after.length)
  match punctuation? c with
  | some token => some (.ok (token, rest))
  | none =>
    if c = '=' ∨ c = '!' ∨ c = '<' ∨ c = '>' then
      match readOperator (c :: chars) with
      | some (op, after) => some (.ok (.operator op, behind after))
      | none => some (.error (.unexpectedCharacter c position))
    else if c = '\'' ∨ c = '"' then
      match readString c chars with
      | some (s, after) => some (.ok (.literal (.string (String.ofList s)), behind after))
      | none => some (.error (.unterminatedString position))
    else if c.isDigit || (c == '-' && chars.head?.any Char.isDigit) then
      let after := rest.dropWhile fun place => continuesNumber place.2
      (slice? text position (beginning text after)).map fun word =>
        match number? word.toList with
        | some value => .ok (.literal value, after)
        | none => .error (.invalidNumber word position)
    else if startsWord c then
      let after := rest.dropWhile fun place => continuesWord place.2
      (slice? text position (beginning text after)).map fun word => .ok (wordToken word, after)
    else some (.error (.unexpectedCharacter c position))

lemma length_cutToken {rest left : List (Nat × Char)} {token : Token}
    (h : cutToken text position c rest = some (.ok (token, left))) :
    left.length ≤ rest.length := by
  have hdrop (n : Nat) : (rest.drop n).length ≤ rest.length := by
    rw [List.length_drop]
    exact Nat.sub_le _ _
  unfold cutToken at h
  dsimp only at h
  split at h
  · cases h
    exact Nat.le_refl _
  · split at h
    · split at h <;> cases h
      exact hdrop _
    · split at h
      · split at h <;> cases h
        exact hdrop _
      · split at h
        · obtain ⟨word, -, h⟩ := Option.map_eq_some_iff.1 h
          split at h <;> cases h
          exact length_dropWhile_le _ _
        · split at h
          · obtain ⟨word, -, h⟩ := Option.map_eq_some_iff.1 h
            cases h
            exact length_dropWhile_le _ _
          · cases h

/-- The tokens of a text from some of its characters on. -/
def cutFrom (text : String) (places : List (Nat × Char)) :
    Option (Except ParseError (List Placed)) :=
  match places with
  | [] => some (.ok [])
  | (position, c) :: rest =>
    if Text.isWhitespace c then cutFrom text rest
    else
      match h : cutToken text position c rest with
      | none => none
      | some (.error e) => some (.error e)
      | some (.ok (token, left)) =>
        have := length_cutToken h
        (cutFrom text left).map (Except.map (⟨token, position⟩ :: ·))
termination_by places.length

/-- The tokens of a text; none if a part is asked for that the text does not have. -/
def cut (text : String) : Option (Except ParseError (List Placed)) :=
  cutFrom text (placed 0 text.toList)

/-! ### What is cut is what is read -/

lemma exists_readString {quote : Char} {s : List Char} (h : readString quote cs = some (s, after)) :
    ∃ between, cs = between ++ after := by
  fun_induction readString quote cs generalizing s after with
  | case1 => cases h
  | case2 => cases h
  | case3 c rest ih =>
    obtain ⟨⟨s', after'⟩, hs, heq⟩ := Option.map_eq_some_iff.1 h
    cases heq
    obtain ⟨between, rfl⟩ := ih hs
    exact ⟨'\\' :: c :: between, rfl⟩
  | case4 =>
    cases h
    exact ⟨[_], rfl⟩
  | case5 c rest _ _ _ ih =>
    obtain ⟨⟨s', after'⟩, hs, heq⟩ := Option.map_eq_some_iff.1 h
    cases heq
    obtain ⟨between, rfl⟩ := ih hs
    exact ⟨c :: between, rfl⟩

lemma exists_readOperator {op : ComparisonOperator}
    (h : readOperator (c :: cs) = some (op, after)) :
    ∃ between, cs = between ++ after := by
  unfold readOperator at h
  split at h
  case h_9 => cases h
  all_goals
    rename_i heq
    cases heq
    cases h
    first | exact ⟨[], rfl⟩ | exact ⟨[_], rfl⟩

/-- What a token leaves is the end of what was there. -/
lemma exists_readToken_append {token : Token} (h : readToken position c cs = .ok (token, after)) :
    ∃ between, cs = between ++ after := by
  unfold readToken at h
  split at h
  · cases h
    exact ⟨[], rfl⟩
  · split at h
    · split at h
      · rename_i hop
        cases h
        exact exists_readOperator hop
      · cases h
    · split at h
      · split at h
        · rename_i hs
          cases h
          exact exists_readString hs
        · cases h
      · split at h
        · dsimp only at h
          split at h
          · cases h
            exact ⟨cs.takeWhile continuesNumber, List.takeWhile_append_dropWhile.symm⟩
          · cases h
        · split at h
          · cases h
            exact ⟨cs.takeWhile continuesWord, List.takeWhile_append_dropWhile.symm⟩
          · cases h

/-- The byte behind a token. -/
def byteBehind (position : Nat) (c : Char) (cs after : List Char) : Nat :=
  position + byteLength ((c :: cs).take (cs.length + 1 - after.length))

lemma byteBehind_eq {between : List Char} (h : cs = between ++ after) :
    byteBehind position c cs after = position + c.utf8Size + byteLength between := by
  have hlength : cs.length + 1 - after.length = (c :: between).length := by
    rw [h, List.length_append, List.length_cons]
    omega
  rw [byteBehind, hlength, h, ← List.cons_append, List.take_left, byteLength, Nat.add_assoc]

lemma StandsAt.behind {between : List Char} (h : StandsAt text position (c :: cs))
    (hcs : cs = between ++ after) : StandsAt text (byteBehind position c cs after) after := by
  subst hcs
  rw [byteBehind_eq rfl, Nat.add_assoc]
  exact h.advance (a := c :: between)

/-- The characters behind a token. -/
lemma drop_placed_behind {between : List Char} (h : cs = between ++ after) :
    (placed (position + c.utf8Size) cs).drop (cs.length - after.length) =
      placed (byteBehind position c cs after) after := by
  rw [drop_placed h, byteBehind_eq h]

lemma dropWhile_placed_behind (p : Char → Bool) :
    ((placed (position + c.utf8Size) cs).dropWhile fun place => p place.2) =
      placed (byteBehind position c cs (cs.dropWhile p)) (cs.dropWhile p) := by
  rw [dropWhile_placed, byteBehind_eq List.takeWhile_append_dropWhile.symm]

/-- The characters from the first of a token on, as far as they satisfy a test, are a part of the
text. -/
lemma slice?_takeWhile (h : StandsAt text position (c :: cs)) (p : Char → Bool) :
    slice? text position
        (beginning text (placed (byteBehind position c cs (cs.dropWhile p)) (cs.dropWhile p))) =
      some (String.ofList (c :: cs.takeWhile p)) := by
  have hcs : cs = cs.takeWhile p ++ cs.dropWhile p := List.takeWhile_append_dropWhile.symm
  have hrun : StandsAt text position ((c :: cs.takeWhile p) ++ cs.dropWhile p) := by
    rw [List.cons_append, ← hcs]
    exact h
  rw [beginning_placed (h.behind hcs), byteBehind_eq hcs, Nat.add_assoc]
  exact hrun.slice?

/-- A token that is cut is the one that is read, and it leaves the same characters. -/
lemma cutToken_placed (h : StandsAt text position (c :: cs)) :
    cutToken text position c (placed (position + c.utf8Size) cs) =
      some ((readToken position c cs).map fun read =>
        (read.1, placed (byteBehind position c cs read.2) read.2)) := by
  unfold cutToken readToken
  dsimp only
  rw [map_snd_placed, length_placed]
  -- Both put the same questions in the same order; only numbers and words are sliced.
  cases hmark : punctuation? c with
  | some token =>
    simp only [Except.map, byteBehind_eq (List.nil_append cs).symm, byteLength, Nat.add_zero]
  | none =>
    by_cases hop : c = '=' ∨ c = '!' ∨ c = '<' ∨ c = '>'
    · rw [if_pos hop, if_pos hop]
      cases hread : readOperator (c :: cs) with
      | none => rfl
      | some read =>
        obtain ⟨between, hcs⟩ := exists_readOperator hread
        simp only [Except.map, drop_placed_behind hcs]
    · rw [if_neg hop, if_neg hop]
      by_cases hquote : c = '\'' ∨ c = '"'
      · rw [if_pos hquote, if_pos hquote]
        cases hread : readString c cs with
        | none => rfl
        | some read =>
          obtain ⟨between, hcs⟩ := exists_readString hread
          simp only [Except.map, drop_placed_behind hcs]
      · rw [if_neg hquote, if_neg hquote]
        by_cases hnumber : (c.isDigit || (c == '-' && cs.head?.any Char.isDigit)) = true
        · rw [if_pos hnumber, if_pos hnumber, dropWhile_placed_behind, slice?_takeWhile h,
            Option.map_some, String.toList_ofList]
          cases number? (c :: cs.takeWhile continuesNumber) <;> rfl
        · rw [if_neg hnumber, if_neg hnumber]
          by_cases hword : startsWord c = true
          · rw [if_pos hword, if_pos hword, dropWhile_placed_behind, slice?_takeWhile h]
            rfl
          · rw [if_neg hword, if_neg hword]
            rfl

lemma cutFrom_cons {rest : List (Nat × Char)} (hc : ¬Text.isWhitespace c = true) :
    cutFrom text ((position, c) :: rest) = (cutToken text position c rest).bind fun
      | .error e => some (.error e)
      | .ok (token, left) => (cutFrom text left).map (Except.map (⟨token, position⟩ :: ·)) := by
  rw [cutFrom.eq_def]
  dsimp only
  rw [if_neg hc]
  split
  · rename_i hcut
    rw [hcut]
    rfl
  · rename_i hcut
    rw [hcut]
    rfl
  · rename_i hcut
    rw [hcut]
    rfl

/-- Going on from a place, what is cut is what is read. -/
lemma cutFrom_placed (h : StandsAt text position cs) :
    cutFrom text (placed position cs) = some (tokensFrom position cs) := by
  fun_induction tokensFrom position cs with
  | case1 position =>
    rw [placed, cutFrom.eq_def]
  | case2 position c rest hblank ih =>
    rw [placed, cutFrom.eq_def]
    dsimp only
    rw [if_pos hblank]
    exact ih (h.advance (a := [c]))
  | case3 position c rest hblank e hread =>
    rw [placed, cutFrom_cons hblank, cutToken_placed h, hread]
    rfl
  | case4 position c rest hblank token after hread _ consumed ih =>
    obtain ⟨between, hrest⟩ := exists_readToken_append hread
    have hplace : StandsAt text (position + byteLength consumed) after := h.behind hrest
    rw [placed, cutFrom_cons hblank, cutToken_placed h, hread]
    exact congrArg (Option.map (Except.map (⟨token, position⟩ :: ·))) (ih hplace)

/-- Every part that is taken out of a text begins and ends between two characters. -/
theorem cut_eq_tokenize (text : String) : cut text = some (tokenize text) :=
  cutFrom_placed (standsAt_zero text)

end ObjectGraph.Predicate
