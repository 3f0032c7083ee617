/-
# Cutting text into tokens

How a text is cut when it is made of pieces: a piece spells certain tokens when, whatever stops
it, a text that begins with it is cut into these tokens first.  Pieces are joined by blanks,
commas and parentheses, which stop every word, number and operator.
-/
import ObjectGraph.Predicate.Token
import Mathlib.Data.List.TakeWhile
import Mathlib.Tactic.Lemma
import Mathlib.Tactic.SplitIfs

namespace ObjectGraph.Predicate

variable {c : Char} {cs rest after : List Char} {tokens tail : List Token}

/-- The tokens of a text, wherever they begin. -/
abbrev bare (ts : List Placed) : List Token :=
  ts.map Placed.token

lemma map_map {ε α β γ : Type} {x : Except ε α} {f : α → β} {g : β → γ} :
    (x.map f).map g = x.map fun a => g (f a) := by
  cases x <;> rfl

lemma map_eq_ok {ε α β : Type} {x : Except ε α} {f : α → β} {b : β} :
    x.map f = .ok b ↔ ∃ a, x = .ok a ∧ f a = b := by
  cases x <;> simp [Except.map]

lemma tokensFrom_nil (position : Nat) : tokensFrom position [] = .ok [] := by
  rw [tokensFrom.eq_def]

lemma tokensFrom_blank {position : Nat} (hc : Text.isWhitespace c = true) :
    tokensFrom position (c :: cs) = tokensFrom (position + c.utf8Size) cs := by
  rw [tokensFrom.eq_def]
  dsimp only
  rw [if_pos hc]

lemma tokensFrom_refused {position : Nat} {e : ParseError} (hc : Text.isWhitespace c = false)
    (hr : readToken position c cs = .error e) : tokensFrom position (c :: cs) = .error e := by
  rw [tokensFrom.eq_def]
  dsimp only
  rw [if_neg (by simp [hc])]
  split
  · rename_i he
    cases hr.symm.trans he
    rfl
  · rename_i he
    cases hr.symm.trans he

/-- What a token leaves is cut from the byte behind it on. -/
lemma tokensFrom_token {position : Nat} {token : Token} (hc : Text.isWhitespace c = false)
    (hr : readToken position c cs = .ok (token, after)) : tokensFrom position (c :: cs) =
      (tokensFrom (position + byteLength ((c :: cs).take (cs.length + 1 - after.length))) after).map
        (⟨token, position⟩ :: ·) := by
  rw [tokensFrom.eq_def]
  dsimp only
  rw [if_neg (by simp [hc])]
  split
  · rename_i he
    cases hr.symm.trans he
  · rename_i he
    cases hr.symm.trans he
    rfl

lemma exists_tokensFrom {position : Nat} {token : Token} (hc : Text.isWhitespace c = false)
    (hr : readToken position c cs = .ok (token, after)) : ∃ position',
      tokensFrom position (c :: cs) =
        (tokensFrom position' after).map (⟨token, position⟩ :: ·) :=
  ⟨_, tokensFrom_token hc hr⟩

/-- What is cut begins with a token. -/
lemma exists_readToken {position : Nat} {ts : List Placed} (hc : Text.isWhitespace c = false)
    (h : tokensFrom position (c :: cs) = .ok ts) : ∃ token after position' ts',
      readToken position c cs = .ok (token, after) ∧ tokensFrom position' after = .ok ts' ∧
        bare ts = token :: bare ts' := by
  rw [tokensFrom.eq_def] at h
  dsimp only at h
  rw [if_neg (by simp [hc])] at h
  split at h
  · cases h
  · rename_i token after hr
    obtain ⟨ts', hts, rfl⟩ := map_eq_ok.1 h
    exact ⟨token, after, _, ts', hr, hts, rfl⟩

/-! ### Pieces -/

/-- The characters that stop words, numbers and operators. -/
def stopMarks : List Char := [' ', ')', ',']

/-- Words, numbers and operators do not go on. -/
def Stops (rest : List Char) : Prop :=
  ∀ c ∈ rest.head?, c ∈ stopMarks

lemma stops_nil : Stops [] := nofun

lemma stops_cons (h : c ∈ stopMarks) : Stops (c :: rest) := by
  simpa [Stops] using h

/-- A text that begins with a piece is cut into the tokens of the piece and those of the rest, if
the rest can be cut. -/
def Spells (piece : List Char) (tokens : List Token) : Prop :=
  ∀ position rest, Stops rest → ∃ position',
    (tokensFrom position (piece ++ rest)).map bare =
      (tokensFrom position' rest).map fun ts => tokens ++ bare ts

/-- A piece alone is cut into its tokens. -/
lemma Spells.exists_tokens (h : Spells cs tokens) :
    ∃ ts, tokensFrom 0 cs = .ok ts ∧ bare ts = tokens := by
  obtain ⟨position, h⟩ := h 0 [] stops_nil
  rw [List.append_nil, tokensFrom_nil] at h
  obtain ⟨ts, hts, hbare⟩ := map_eq_ok.1 h
  exact ⟨ts, hts, hbare.trans (List.append_nil _)⟩

lemma spells_nil : Spells [] [] := fun position _ _ => ⟨position, rfl⟩

/-- A piece that is read as one token. -/
lemma spells_token {token : Token} (hc : Text.isWhitespace c = false)
    (hr : ∀ position rest, Stops rest → readToken position c (cs ++ rest) = .ok (token, rest)) :
    Spells (c :: cs) [token] := by
  intro position rest hs
  obtain ⟨position', htokens⟩ := exists_tokensFrom hc (hr position rest hs)
  refine ⟨position', ?_⟩
  rw [List.cons_append, htokens, map_map]
  rfl

namespace Spells

variable {a b : List Char} {s t : List Token}

lemma append (ha : Spells a s) (hb : Spells (c :: b) t) (hc : c ∈ stopMarks) :
    Spells (a ++ c :: b) (s ++ t) := by
  intro position rest hs
  obtain ⟨between, ha⟩ := ha position (c :: b ++ rest) (stops_cons hc)
  obtain ⟨position', hb⟩ := hb between rest hs
  refine ⟨position', ?_⟩
  have hboth := congrArg (Except.map (s ++ ·)) hb
  rw [map_map, map_map] at hboth
  rw [List.append_assoc, ha, hboth]
  simp only [List.append_assoc]

lemma afterBlank (hb : Spells b t) : Spells (' ' :: b) t := by
  intro position rest hs
  rw [List.cons_append, tokensFrom_blank (by decide)]
  exact hb _ rest hs

/-- A character that is a token by itself. -/
lemma cons {token : Token} (hb : Spells b t) (hc : Text.isWhitespace c = false)
    (hr : ∀ position rest, readToken position c rest = .ok (token, rest)) :
    Spells (c :: b) (token :: t) := by
  intro position rest hs
  obtain ⟨between, htokens⟩ := exists_tokensFrom hc (hr position (b ++ rest))
  obtain ⟨position', hb⟩ := hb between rest hs
  refine ⟨position', ?_⟩
  have hboth := congrArg (Except.map (token :: ·)) hb
  rw [map_map, map_map] at hboth
  rw [List.cons_append, htokens, map_map]
  exact hboth

lemma afterComma (hb : Spells b t) : Spells (',' :: b) (.comma :: t) :=
  hb.cons (by decide) fun _ _ => rfl

lemma openParen (hb : Spells b t) : Spells ('(' :: b) (.openParen :: t) :=
  hb.cons (by decide) fun _ _ => rfl

lemma closeParen (ha : Spells a s) : Spells (a ++ [')']) (s ++ [.closeParen]) :=
  ha.append (spells_nil.cons (by decide) fun _ _ => rfl) (by decide)

lemma blank (ha : Spells a s) (hb : Spells b t) : Spells (a ++ ' ' :: b) (s ++ t) :=
  ha.append hb.afterBlank (by decide)

lemma comma (ha : Spells a s) (hb : Spells b t) :
    Spells (a ++ ',' :: ' ' :: b) (s ++ .comma :: t) :=
  ha.append hb.afterBlank.afterComma (by decide)

end Spells

/-! ### Words -/

/-- A word as the reader of tokens knows them. -/
def IsWord (word : List Char) : Prop :=
  ∃ c cs, word = c :: cs ∧ startsWord c = true ∧ ∀ d ∈ cs, continuesWord d = true

lemma isWord_iff {word : List Char} :
    IsWord word ↔ word.head?.any startsWord = true ∧ word.tail.all continuesWord = true := by
  cases word with
  | nil => simp [IsWord]
  | cons c cs =>
    rw [List.tail_cons, List.all_eq_true]
    constructor
    · rintro ⟨_, _, h, hw⟩
      cases h
      exact hw
    · exact fun hw => ⟨c, cs, rfl, hw⟩

instance decidableIsWord : DecidablePred IsWord := fun _ => decidable_of_iff _ isWord_iff.symm

/-- The codes of the characters that separate. -/
def blankCodes : List Nat :=
  [0x09, 0x0a, 0x0b, 0x0c, 0x0d, 0x20, 0x85, 0xa0, 0x1680, 0x2000, 0x2001, 0x2002, 0x2003, 0x2004,
    0x2005, 0x2006, 0x2007, 0x2008, 0x2009, 0x200a, 0x2028, 0x2029, 0x202f, 0x205f, 0x3000]

lemma toNat_mem_blankCodes (h : Text.isWhitespace c = true) : c.toNat ∈ blankCodes := by
  simp only [Text.isWhitespace, Bool.or_eq_true, Bool.and_eq_true, decide_eq_true_eq,
    beq_iff_eq] at h
  simp only [blankCodes, List.mem_cons, List.not_mem_nil, or_false]
  omega

lemma not_alphabetic_of_mem_blankCodes :
    ∀ code ∈ blankCodes, Text.inRanges Text.alphabeticRanges code = false := by
  decide +kernel

lemma isAlpha_iff : c.isAlpha = true ↔
    (65 ≤ c.toNat ∧ c.toNat ≤ 90) ∨ (97 ≤ c.toNat ∧ c.toNat ≤ 122) := by
  delta Char.isAlpha Char.isUpper Char.isLower
  simp only [Bool.or_eq_true, Bool.and_eq_true, decide_eq_true_eq, ge_iff_le,
    UInt32.le_iff_toNat_le]
  rfl

/-- The characters that separate begin no word. -/
lemma isWhitespace_eq_false (h : startsWord c = true) : Text.isWhitespace c = false := by
  rw [Bool.eq_false_iff]
  intro hw
  have hmem := toNat_mem_blankCodes hw
  have hletter := not_alphabetic_of_mem_blankCodes _ hmem
  simp only [startsWord, Text.isAlphabetic, Bool.or_eq_true, beq_iff_eq] at h
  rcases h with (h | rfl) | rfl
  · split at h
    · rw [isAlpha_iff] at h
      simp only [blankCodes, List.mem_cons, List.not_mem_nil, or_false] at hmem
      omega
    · rw [hletter] at h
      cases h
  · exact absurd hmem (by decide)
  · exact absurd hmem (by decide)

lemma ne_of_isDigit {d : Char} (hc : c.isDigit = true) (hd : d.isDigit = false) : c ≠ d := by
  rintro rfl
  rw [hc] at hd
  cases hd

lemma isDigit_iff : c.isDigit = true ↔ 48 ≤ c.toNat ∧ c.toNat ≤ 57 := by
  simp only [Char.isDigit, Bool.and_eq_true, decide_eq_true_eq, ge_iff_le, UInt32.le_iff_toNat_le]
  rfl

/-- Digits begin no word. -/
lemma isDigit_eq_false (h : startsWord c = true) : c.isDigit = false := by
  rw [Bool.eq_false_iff]
  intro hd
  have hcode := isDigit_iff.1 hd
  have hascii : Text.isAscii c = true := decide_eq_true (by omega)
  simp only [startsWord, Text.isAlphabetic, Bool.or_eq_true, beq_iff_eq] at h
  rcases h with (h | rfl) | rfl
  · rw [if_pos hascii, isAlpha_iff] at h
    omega
  · exact absurd hcode (by decide)
  · exact absurd hcode (by decide)

/-- Characters of a kind, and what begins with another character, are told apart. -/
lemma span_append {p : Char → Bool} (hcs : ∀ d ∈ cs, p d = true)
    (hrest : ∀ d ∈ rest.head?, p d = false) :
    (cs ++ rest).takeWhile p = cs ∧ (cs ++ rest).dropWhile p = rest := by
  rw [List.takeWhile_append_of_pos hcs, List.dropWhile_append_of_pos hcs]
  cases rest with
  | nil => simp
  | cons d rest => simp [hrest d rfl]

lemma Stops.head?_eq_false {p : Char → Bool} (hs : Stops rest) (hp : stopMarks.any p = false) :
    ∀ d ∈ rest.head?, p d = false :=
  fun d hd => Bool.eq_false_iff.2 (List.any_eq_false.1 hp d (hs d hd))

/-- The characters that begin punctuation, operators and strings. -/
def otherMarks : List Char := ['(', ')', '[', ']', ',', '=', '!', '<', '>', '\'', '"']

lemma not_mem_otherMarks {p : Char → Bool} (h : p c = true) (hp : otherMarks.any p = false) :
    c ∉ otherMarks :=
  fun hm => List.any_eq_false.1 hp c hm h

lemma of_not_mem_otherMarks (h : c ∉ otherMarks) : punctuation? c = none ∧
    ¬(c = '=' ∨ c = '!' ∨ c = '<' ∨ c = '>') ∧ ¬(c = '\'' ∨ c = '"') := by
  simp only [otherMarks, List.mem_cons, List.not_mem_nil, or_false, not_or] at h
  refine ⟨?_, by simp [h], by simp [h]⟩
  simp [punctuation?, h]

lemma readToken_word {position : Nat} (hc : startsWord c = true)
    (hcs : ∀ d ∈ cs, continuesWord d = true) (hs : Stops rest) :
    readToken position c (cs ++ rest) = .ok (wordToken (String.ofList (c :: cs)), rest) := by
  obtain ⟨hpunctuation, hoperator, hquote⟩ :=
    of_not_mem_otherMarks (not_mem_otherMarks hc (by decide))
  have hminus : c ≠ '-' := by
    rintro rfl
    cases hc
  have hnumber : ¬(c.isDigit || (c == '-' && (cs ++ rest).head?.any Char.isDigit)) = true := by
    simp [isDigit_eq_false hc, hminus]
  obtain ⟨htake, hdrop⟩ := span_append hcs (hs.head?_eq_false (by decide))
  rw [readToken, hpunctuation]
  simp only [if_neg hoperator, if_neg hquote, if_neg hnumber, if_pos hc, htake, hdrop]

lemma spells_word {word : String} (h : IsWord word.toList) :
    Spells word.toList [wordToken word] := by
  obtain ⟨c, cs, hw, hc, hcs⟩ := h
  rw [hw]
  refine spells_token (isWhitespace_eq_false hc) fun position rest hs => ?_
  rw [readToken_word hc hcs hs, ← hw, String.ofList_toList]

lemma spells_and : Spells "and".toList [.and] := spells_word (by decide)

lemma spells_or : Spells "or".toList [.or] := spells_word (by decide)

lemma spells_not : Spells "not".toList [.not] := spells_word (by decide)

lemma spells_in : Spells "in".toList [.in] := spells_word (by decide)

/-- What begins a word goes on one. -/
lemma continuesWord_of_startsWord (h : startsWord c = true) : continuesWord c = true := by
  simp only [startsWord, Text.isAlphabetic, Bool.or_eq_true] at h
  simp only [continuesWord, Text.isAlphanumeric, Char.isAlphanum, Bool.or_eq_true]
  rcases h with (h | h) | h
  · split at h
    · rename_i hascii
      rw [if_pos hascii, Bool.or_eq_true]
      exact .inl (.inl (.inl (.inl h)))
    · rename_i hascii
      rw [if_neg hascii, Bool.or_eq_true]
      exact .inl (.inl (.inl (.inl h)))
  · exact .inl (.inl (.inr h))
  · exact .inr h

lemma eq_of_wordToken {word name : String} (h : wordToken word = .identifier name) :
    word = name := by
  unfold wordToken at h
  split_ifs at h
  exact Token.identifier.inj h

lemma IsWord.continues {word : List Char} (h : IsWord word) :
    ∀ d ∈ word, continuesWord d = true := by
  obtain ⟨c, cs, rfl, hc, hcs⟩ := h
  exact List.forall_mem_cons.2 ⟨continuesWord_of_startsWord hc, hcs⟩

lemma readToken_identifier {position : Nat} {name : String}
    (h : readToken position c cs = .ok (.identifier name, after)) :
    IsWord name.toList ∧ wordToken name = .identifier name := by
  unfold readToken at h
  split at h
  · rename_i hp
    unfold punctuation? at hp
    split_ifs at hp <;> cases hp <;> cases h
  split at h
  · split at h <;> cases h
  split at h
  · split at h <;> cases h
  split at h
  · dsimp only at h
    split at h <;> cases h
  split at h
  · rename_i hc
    obtain ⟨hname, -⟩ := Prod.mk.inj (Except.ok.inj h)
    obtain rfl := eq_of_wordToken hname
    refine ⟨?_, hname⟩
    rw [String.toList_ofList]
    exact ⟨c, _, rfl, hc, fun d hd => List.mem_takeWhile_imp hd⟩
  · cases h

/-- The names among the tokens of a text are words, and none of those that mean something else. -/
lemma identifier_of_mem {position : Nat} {name : String} {ts : List Placed}
    (h : tokensFrom position cs = .ok ts) (hm : .identifier name ∈ bare ts) :
    IsWord name.toList ∧ wordToken name = .identifier name := by
  fun_induction tokensFrom position cs generalizing ts with
  | case1 =>
    cases h
    cases hm
  | case2 position c cs hc ih => exact ih h hm
  | case3 => cases h
  | case4 position c cs hc token after hread hle consumed =>
    rename_i ih
    obtain ⟨ts', hts, rfl⟩ := map_eq_ok.1 h
    rcases List.mem_cons.1 hm with rfl | hm
    · exact readToken_identifier hread
    · exact ih hts hm

/-! ### Operators -/

lemma eq_of_mem_stopMarks (h : c ∈ stopMarks) : c = ' ' ∨ c = ')' ∨ c = ',' := by
  simpa [stopMarks] using h

lemma readToken_less {position : Nat} (hs : Stops rest) :
    readToken position '<' rest = .ok (.operator .lessThan, rest) := by
  cases rest with
  | nil => rfl
  | cons c rest => rcases eq_of_mem_stopMarks (hs c rfl) with rfl | rfl | rfl <;> rfl

lemma readToken_greater {position : Nat} (hs : Stops rest) :
    readToken position '>' rest = .ok (.operator .greaterThan, rest) := by
  cases rest with
  | nil => rfl
  | cons c rest => rcases eq_of_mem_stopMarks (hs c rfl) with rfl | rfl | rfl <;> rfl

lemma spells_operator (op : ComparisonOperator) : Spells op.symbol.toList [.operator op] := by
  cases op with
  | equals => exact spells_token (by decide) fun position rest hs => rfl
  | notEquals => exact spells_token (by decide) fun position rest hs => rfl
  | lessThan => exact spells_token (by decide) fun position rest hs => readToken_less hs
  | lessOrEqual => exact spells_token (by decide) fun position rest hs => rfl
  | greaterThan => exact spells_token (by decide) fun position rest hs => readToken_greater hs
  | greaterOrEqual => exact spells_token (by decide) fun position rest hs => rfl

/-! ### Strings -/

lemma readString_escapeSingle (s rest : List Char) :
    readString '\'' (Text.escapeSingle s ++ '\'' :: rest) = some (s, rest) := by
  induction s with
  | nil => rfl
  | cons c s ih =>
    rw [Text.escapeSingle]
    split
    · rw [List.cons_append, List.cons_append, readString, ih]
      rfl
    · rename_i hc
      obtain ⟨hbackslash, hquote⟩ := not_or.1 hc
      rw [List.cons_append, readString.eq_4 _ _ _ (by simp [hbackslash]) (by simp [hbackslash]),
        if_neg hquote, ih]
      rfl

lemma text_string (s : String) :
    (Literal.string s).text.toList = '\'' :: (Text.escapeSingle s.toList ++ ['\'']) := by
  rw [Literal.text, Text.quoteSingle, String.toList_ofList, List.cons_append]

/-- A printed string is read to its end, whatever it is made of and whatever follows. -/
lemma readToken_string (position : Nat) (s : String) (rest : List Char) :
    readToken position '\'' (Text.escapeSingle s.toList ++ '\'' :: rest)
      = .ok (.literal (.string s), rest) := by
  simp [readToken, punctuation?, readString_escapeSingle]

lemma spells_string (s : String) :
    Spells (Literal.string s).text.toList [.literal (.string s)] := by
  rw [text_string]
  refine spells_token (by decide) fun position rest _ => ?_
  rw [List.append_assoc]
  exact readToken_string position s rest

/-! ### Numbers -/

/-- The sign of a number. -/
def sign (negative : Bool) : List Char := if negative then ['-'] else []

lemma isWhitespace_digit (h : c.isDigit = true) : Text.isWhitespace c = false := by
  rw [Bool.eq_false_iff]
  intro hw
  have hmem := toNat_mem_blankCodes hw
  have hcode := isDigit_iff.1 h
  simp only [blankCodes, List.mem_cons, List.not_mem_nil, or_false] at hmem
  omega

lemma continuesNumber_digit (h : c.isDigit = true) : continuesNumber c = true := by
  have hascii : Text.isAscii c = true := decide_eq_true (by have := isDigit_iff.1 h; omega)
  simp [continuesNumber, Text.isAsciiAlphanumeric, hascii, Char.isAlphanum, h]

/-- What begins a number, with what is written behind it. -/
structure BeginsNumber (c : Char) (cs : List Char) : Prop where
  notBlank : Text.isWhitespace c = false
  notOther : c ∉ otherMarks
  number : ∀ rest, (c.isDigit || (c == '-' && (cs ++ rest).head?.any Char.isDigit)) = true
  continues : ∀ d ∈ cs, continuesNumber d = true

lemma exists_number (negative : Bool) (hc : c.isDigit = true)
    (hcs : ∀ d ∈ cs, continuesNumber d = true) :
    ∃ d ds, sign negative ++ c :: cs = d :: ds ∧ BeginsNumber d ds := by
  cases negative with
  | false =>
    exact ⟨c, cs, rfl, isWhitespace_digit hc, not_mem_otherMarks hc (by decide),
      fun _ => by simp [hc], hcs⟩
  | true =>
    exact ⟨'-', c :: cs, rfl, by decide, by decide, fun _ => by simp [hc],
      List.forall_mem_cons.2 ⟨continuesNumber_digit hc, hcs⟩⟩

/-- The text of a number is read as its value, if it has one. -/
lemma readToken_number {position : Nat} (h : BeginsNumber c cs)
    (hrest : ∀ d ∈ rest.head?, continuesNumber d = false) : readToken position c (cs ++ rest) =
      (number? (c :: cs)).elim (.error (.invalidNumber (String.ofList (c :: cs)) position))
        fun value => .ok (.literal value, rest) := by
  obtain ⟨hpunctuation, hoperator, hquote⟩ := of_not_mem_otherMarks h.notOther
  obtain ⟨htake, hdrop⟩ := span_append h.continues hrest
  rw [readToken, hpunctuation]
  simp only [if_neg hoperator, if_neg hquote, if_pos (h.number rest), htake, hdrop]
  cases number? (c :: cs) <;> rfl

lemma spells_number (negative : Bool) {value : Literal} (hc : c.isDigit = true)
    (hcs : cs.all continuesNumber = true) (hn : number? (sign negative ++ c :: cs) = some value) :
    Spells (sign negative ++ c :: cs) [.literal value] := by
  obtain ⟨d, ds, hword, hbegins⟩ := exists_number negative hc (List.all_eq_true.1 hcs)
  rw [hword] at hn ⊢
  refine spells_token hbegins.notBlank fun position rest hs => ?_
  rw [readToken_number hbegins (hs.head?_eq_false (by decide)), hn]
  rfl

end ObjectGraph.Predicate
