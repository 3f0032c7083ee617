/-
# The words of a condition

Conditions are made of names, keywords and values.  A keyword is written in small or in capital
letters.  Every value but a string is written as one word, and is found again from this word: an
integer by its digits, a double by the digits of its shortest decimal, which lies in its cell, and
by the power of ten behind them, which may be negative here.
-/
import ObjectGraph.Proofs.Predicate.Numbers

namespace ObjectGraph.Formula

open Predicate (Numeral allDigits allDigits_iff ne_of_isDigit neg_ofRank sign toList_float
  toList_int)

/-! ### Keywords -/

/-- The words that mean something of their own. -/
inductive Keyword
  | and
  | or
  | not
  | in
  | is
  | null
  | true
  | false
deriving DecidableEq

/-- Every keyword in both spellings. -/
def keywords : List (String × Keyword) :=
  [("and", .and), ("AND", .and), ("or", .or), ("OR", .or), ("not", .not), ("NOT", .not),
   ("in", .in), ("IN", .in), ("is", .is), ("IS", .is), ("null", .null), ("NULL", .null),
   ("true", .true), ("TRUE", .true), ("false", .false), ("FALSE", .false)]

/-- The keyword that a word is. -/
def keyword? (word : String) : Option Keyword := keywords.lookup word

/-- The value that a keyword is. -/
def Keyword.literal? : Keyword → Option Literal
  | null => some .null
  | true => some (.boolean .true)
  | false => some (.boolean .false)
  | and | or | not | «in» | is => none

/-! ### Numbers -/

/-- Whether there is a minus in front, and what follows it. -/
def unsigned : List Char → Bool × List Char
  | '-' :: cs => (true, cs)
  | cs => (false, cs)

/-- A power of ten: digits after an optional sign. -/
def exponent? (cs : List Char) : Option Int :=
  let (negative, ds) := unsigned cs
  let value : Int := Json.digitsValue ds
  if allDigits ds then some (if negative then -value else value) else none

/-- The double nearest to a decimal with an optional power of ten. -/
def magnitude? (cs : List Char) : Option Double :=
  if cs = ['i', 'n', 'f'] then some .infinity
  else
    let mantissa := cs.takeWhile (· != 'e')
    let whole := mantissa.takeWhile (· != '.')
    let fraction := (mantissa.dropWhile (· != '.')).drop 1
    let exponent :=
      match cs.dropWhile (· != 'e') with
      | [] => some 0
      | _ :: cs => exponent? cs
    if allDigits (whole ++ fraction) then
      exponent.map fun e => .ofDecimal (Json.digitsValue (whole ++ fraction)) (e - fraction.length)
    else none

/-- The double that a word stands for, its sign included. -/
def float? (cs : List Char) : Option Double :=
  let (negative, cs) := unsigned cs
  (magnitude? cs).map fun x => if negative then x.neg else x

/-- The number that a word stands for: an integer if it has nothing but digits. -/
def number? (cs : List Char) : Option Literal :=
  match Predicate.integer? cs with
  | some i => some (.integer i)
  | none => (float? cs).map .float

/-- The value that a word stands for. -/
def literal? (word : String) : Option Literal :=
  match number? word.toList with
  | some value => some value
  | none => (keyword? word).bind Keyword.literal?

/-! ### Characters -/

/-- What names are made of: letters, digits, underscores, and points between the names of a node
and of its property. -/
def continuesName (c : Char) : Bool :=
  Text.isAlphanumeric c || c == '_' || c == '.'

/-- What words are made of; numbers have a sign in front of them and of their exponent. -/
def continuesWord (c : Char) : Bool :=
  continuesName c || c == '-'

/-- A plain identifier, perhaps behind the variable of a node. -/
def IsName (name : String) : Prop :=
  name ≠ "" ∧ ∀ c ∈ name.toList, continuesName c = true

lemma isName_iff {name : String} :
    IsName name ↔ (name != "" && name.toList.all continuesName) = true := by
  simp [IsName]

instance decidableIsName : DecidablePred IsName := fun _ =>
  decidable_of_iff _ isName_iff.symm

/-- What is written as one word. -/
def IsWord (word : String) : Prop :=
  word ≠ "" ∧ ∀ c ∈ word.toList, continuesWord c = true

lemma isWord_iff {word : String} :
    IsWord word ↔ (word != "" && word.toList.all continuesWord) = true := by
  simp [IsWord]

instance decidableIsWord : DecidablePred IsWord := fun _ =>
  decidable_of_iff _ isWord_iff.symm

lemma IsName.isWord {name : String} (h : IsName name) : IsWord name :=
  ⟨h.1, fun c hc => by rw [continuesWord, h.2 c hc, Bool.true_or]⟩

lemma continuesWord_digit {c : Char} (h : c.isDigit = true) : continuesWord c = true := by
  have hascii : Text.isAscii c = true := decide_eq_true (by
    have := Predicate.isDigit_iff.1 h
    omega)
  simp [continuesWord, continuesName, Text.isAlphanumeric, hascii, Char.isAlphanum, h]

/-! ### Keywords are no values -/

/-- The words that join conditions stand for no value. -/
lemma keyword?_ne_of_literal? {word : String} {value : Literal} {keyword : Keyword}
    (h : literal? word = some value) (hk : keyword? word = some keyword) :
    keyword ≠ .and ∧ keyword ≠ .or := by
  have hall : ∀ entry ∈ keywords, entry.2 = .and ∨ entry.2 = .or → literal? entry.1 = none := by
    decide +kernel
  have hmem := Named.mem_of_lookup hk
  constructor
  · rintro rfl
    rw [hall _ hmem (.inl rfl)] at h
    cases h
  · rintro rfl
    rw [hall _ hmem (.inr rfl)] at h
    cases h

/-! ### Signs and integers -/

variable {negative : Bool} {c : Char} {cs ds : List Char}

/-- A sign may stand in front of a word. -/
lemma isWord_of_sign {word : String} (h : word.toList = sign negative ++ cs) (hne : cs ≠ [])
    (hcs : ∀ c ∈ cs, continuesWord c = true) : IsWord word := by
  have hsign : ∀ c ∈ sign negative, continuesWord c = true := by
    cases negative with
    | true => exact List.forall_mem_singleton.2 rfl
    | false => exact List.forall_mem_nil _
  refine ⟨fun hempty => ?_, fun c hc => ?_⟩
  · rw [hempty] at h
    exact hne (List.append_eq_nil_iff.1 h.symm).2
  · rw [h] at hc
    exact (List.mem_append.1 hc).elim (hsign c) (hcs c)

lemma unsigned_sign (h : ∀ c ∈ ds.head?, c ≠ '-') :
    unsigned (sign negative ++ ds) = (negative, ds) := by
  cases negative with
  | true => rfl
  | false =>
    cases ds with
    | nil => rfl
    | cons d ds =>
      change unsigned (d :: ds) = _
      rw [unsigned.eq_2 _ (fun cs hcs => h d rfl (List.cons.inj hcs).1)]

lemma exponent?_toString (i : Int) : exponent? (toString i).toList = some i := by
  have hds : ∀ d ∈ Nat.toDigits 10 i.natAbs, d.isDigit = true := fun _ => Json.isDigit_toDigits
  have hsign : ∀ c ∈ (Nat.toDigits 10 i.natAbs).head?, c ≠ '-' := fun c hc =>
    ne_of_isDigit (hds c (List.mem_of_mem_head? hc)) (by decide)
  have hall : allDigits (Nat.toDigits 10 i.natAbs) = true :=
    allDigits_iff.2 ⟨Nat.toDigits_ne_nil, hds⟩
  rw [toList_int, exponent?, unsigned_sign hsign]
  simp only [hall, if_true, Json.digitsValue_toDigits, decide_eq_true_eq, Option.some.injEq]
  split <;> omega

lemma exponent?_digits (hall : allDigits ds = true) :
    exponent? ds = some (Json.digitsValue ds : Int) := by
  have hsign : ∀ c ∈ ds.head?, c ≠ '-' := fun c hc =>
    ne_of_isDigit ((allDigits_iff.1 hall).2 c (List.mem_of_mem_head? hc)) (by decide)
  have hunsigned : unsigned (sign false ++ ds) = (false, ds) := unsigned_sign hsign
  change unsigned ds = (false, ds) at hunsigned
  simp [exponent?, hunsigned, hall]

lemma integer?_eq_none (h : allDigits (unsigned cs).2 = false) :
    Predicate.integer? cs = none := by
  have hsame : Predicate.integer? cs =
      if allDigits (unsigned cs).2 then
        Json.int64? (if (unsigned cs).1 then -(Json.digitsValue (unsigned cs).2 : Int)
          else Json.digitsValue (unsigned cs).2)
      else none := by
    fun_cases unsigned cs with
    | case1 => rfl
    | case2 _ hminus =>
      rw [Predicate.integer?]
      exact hminus
  rw [hsame, h]
  rfl

lemma literal?_integer (i : Int64) : literal? (toString i.toInt) = some (.integer i) := by
  have hds : ∀ d ∈ Nat.toDigits 10 i.toInt.natAbs, d.isDigit = true :=
    fun _ => Json.isDigit_toDigits
  have hvalue : (if i.toInt < 0 then -(i.toInt.natAbs : Int) else i.toInt.natAbs) = i.toInt := by
    split <;> omega
  have hinteger : Predicate.integer? (toString i.toInt).toList = some i := by
    rw [toList_int, Predicate.integer?_digits Nat.toDigits_ne_nil hds, Json.digitsValue_toDigits]
    simp only [decide_eq_true_eq, hvalue, Json.int64?_toInt]
  rw [literal?, number?, hinteger]

lemma isWord_integer (i : Int) : IsWord (toString i) :=
  isWord_of_sign (toList_int i) Nat.toDigits_ne_nil fun _ hc =>
    continuesWord_digit (Json.isDigit_toDigits hc)

/-! ### Doubles -/

/-- The parts of a numeral are digits, and its exponent is a power of ten, perhaps a negative
one. -/
structure Scaled (n : Numeral) (e : Int) : Prop where
  whole : allDigits n.whole = true
  fraction : ∀ ds ∈ n.fraction, ∀ d ∈ ds, d.isDigit = true
  exponent : n.exponent.elim (some 0) exponent? = some e
  /-- Something tells the numeral from an integer. -/
  isSome : n.fraction.isSome ∨ n.exponent.isSome

namespace Scaled

variable {n : Numeral} {e : Int}

lemma of_valid (h : n.Valid) : Scaled n ((n.exponent.map Json.digitsValue).getD 0 : Nat) := by
  refine ⟨h.whole, h.fraction, ?_, h.isSome⟩
  cases he : n.exponent with
  | none => rfl
  | some ds =>
    have hne : ds ≠ [] := by
      rintro rfl
      exact h.closed he
    exact exponent?_digits (allDigits_iff.2 ⟨hne, h.exponent ds he⟩)

lemma exists_text (h : Scaled n e) : ∃ c cs, n.text = c :: cs ∧ c.isDigit = true := by
  obtain ⟨hne, hwhole⟩ := allDigits_iff.1 h.whole
  obtain ⟨c, ds, hcs⟩ := List.exists_cons_of_ne_nil hne
  rw [hcs] at hwhole
  exact ⟨c, _, by rw [Numeral.text, hcs]; rfl, hwhole c List.mem_cons_self⟩

/-- A point or the mark of an exponent is no digit. -/
lemma not_allDigits (h : Scaled n e) : allDigits n.text = false := by
  rw [Bool.eq_false_iff]
  intro hall
  have hdigit := (allDigits_iff.1 hall).2
  rcases h.isSome with hsome | hsome
  · obtain ⟨ds, hds⟩ := Option.isSome_iff_exists.1 hsome
    exact absurd (hdigit '.' (by simp [Numeral.text, hds])) (by decide)
  · obtain ⟨ds, hds⟩ := Option.isSome_iff_exists.1 hsome
    exact absurd (hdigit 'e' (by simp [Numeral.text, hds])) (by decide)

lemma continuesWord (h : Scaled n e) : ∀ c ∈ n.text, continuesWord c = true := by
  intro c hc
  rw [Numeral.text, ← List.append_assoc] at hc
  rcases List.mem_append.1 hc with hc | hc
  · rcases Numeral.isDigit_of_mem_mantissa h.whole h.fraction c hc with rfl | hc
    · rfl
    · exact continuesWord_digit hc
  · have hexponent := h.exponent
    cases he : n.exponent with
    | none => simp [he] at hc
    | some cs =>
      rw [he] at hc hexponent
      change exponent? cs = some e at hexponent
      rcases List.mem_cons.1 hc with rfl | hc
      · rfl
      · rw [exponent?] at hexponent
        dsimp only at hexponent
        split at hexponent
        · rename_i hall
          by_cases hminus : c = '-'
          · rw [hminus]
            rfl
          · refine continuesWord_digit ((allDigits_iff.1 hall).2 c ?_)
            -- without its sign an exponent is its digits
            unfold unsigned
            split
            · exact (List.mem_cons.1 hc).resolve_left hminus
            · exact hc
        · cases hexponent

/-- A numeral is read as the double nearest to its value. -/
lemma magnitude?_text (h : Scaled n e) : magnitude? n.text =
    some (.ofDecimal (Json.digitsValue n.digits) (e - (n.fraction.getD []).length)) := by
  obtain ⟨c, cs, htext, hc⟩ := h.exists_text
  have hfinite : n.text ≠ ['i', 'n', 'f'] := by
    rw [htext]
    rintro ⟨⟩
    cases hc
  -- The exponent is split off first, and the fraction from what is left.
  obtain ⟨hmantissa, hexponent⟩ :
      n.text.takeWhile (· != 'e') = n.whole ++ n.fraction.elim [] ('.' :: ·) ∧
        n.text.dropWhile (· != 'e') = n.exponent.elim [] ('e' :: ·) := by
    rw [Numeral.text, ← List.append_assoc]
    refine Predicate.span_append (fun d hd => ?_) ?_
    · rcases Numeral.isDigit_of_mem_mantissa h.whole h.fraction d hd with rfl | hd
      · rfl
      · simpa using ne_of_isDigit hd (by decide)
    · cases n.exponent <;> simp
  obtain ⟨hwhole, hfraction⟩ := Numeral.span_mantissa h.whole
  have hdrop : (n.fraction.elim [] ('.' :: ·)).drop 1 = n.fraction.getD [] := by
    cases n.fraction <;> rfl
  have hpower : (match n.exponent.elim [] ('e' :: ·) with
      | [] => some 0
      | _ :: cs => exponent? cs) = some e := by
    rw [← h.exponent]
    cases n.exponent <;> rfl
  have hdigits : allDigits (n.whole ++ n.fraction.getD []) = true :=
    Numeral.allDigits_digits h.whole h.fraction
  rw [magnitude?, if_neg hfinite]
  simp only [hmantissa, hexponent, hwhole, hfraction, hdrop, hpower, if_pos hdigits,
    Option.map_some, Numeral.digits]

end Scaled

section Double

variable {x : Double}

/-- A finite double other than zero is written as a numeral that stands for it. -/
lemma exists_scaled (hzero : x.rank ≠ 0) (hfinite : x.isFinite = true) : ∃ n e, Scaled n e ∧
    n.text = x.magnitudeText Double.plainStyle ∧
    Double.ofDecimal (Json.digitsValue n.digits) (e - (n.fraction.getD []).length)
      = Double.ofRank x.rank := by
  obtain ⟨hne, hds⟩ := Predicate.shortest_digits hzero hfinite
  have hvalue : Double.ofDecimal (Json.digitsValue x.shortest.digits)
      (x.shortest.point - x.shortest.digits.length) = Double.ofRank x.rank :=
    Double.ofDecimal_eq (Nat.pos_of_ne_zero hzero) (of_decide_eq_true hfinite)
      (Double.cell_shortest hzero)
  rcases Predicate.magnitudeText_eq hzero hfinite with htext | htext
  · obtain ⟨n, hvalid, hn, hwrites⟩ := Predicate.exists_numeral_writeOut hne hds
    refine ⟨n, _, .of_valid hvalid, hn.trans htext.symm, ?_⟩
    have hcell := Double.cell_shortest hzero
    rw [← hwrites] at hcell
    exact Double.ofDecimal_eq (Nat.pos_of_ne_zero hzero) (of_decide_eq_true hfinite) hcell
  · obtain ⟨c, fraction, hdigits, hscaled⟩ := Predicate.writeScaled_eq hne
    rw [hdigits] at hds
    obtain ⟨hc, hfraction⟩ := List.forall_mem_cons.1 hds
    refine ⟨⟨[c], fraction, some (toString (x.shortest.point - 1)).toList⟩, x.shortest.point - 1,
      ⟨allDigits_iff.2 ⟨List.cons_ne_nil _ _, List.forall_mem_singleton.2 hc⟩, ?_,
        exponent?_toString _, .inr rfl⟩, ?_, ?_⟩
    · rintro _ ⟨⟩
      exact hfraction
    · rw [htext, hscaled]
      rfl
    · have hlength : x.shortest.digits.length = (fraction.getD []).length + 1 := by
        rw [hdigits]
        rfl
      rw [← hvalue, hlength, hdigits]
      simp only [Numeral.digits, List.singleton_append]
      congr 1
      push_cast
      omega

/-- What is written of a double without its sign: a numeral, or a word for infinity. -/
lemma magnitude?_magnitudeText (x : Double) :
    magnitude? (x.magnitudeText Double.plainStyle) = some (.ofRank x.rank) ∧
      (∀ c ∈ (x.magnitudeText Double.plainStyle).head?, c ≠ '-') ∧
      allDigits (x.magnitudeText Double.plainStyle) = false ∧
      ∀ c ∈ x.magnitudeText Double.plainStyle, continuesWord c = true := by
  by_cases hzero : x.rank = 0
  · rw [Double.magnitudeText, if_pos hzero, hzero]
    refine ⟨by decide +kernel, ?_, by decide, List.all_eq_true.1 (by decide)⟩
    rintro _ ⟨⟩
    decide
  · cases hfinite : x.isFinite with
    | true =>
      obtain ⟨n, e, hscaled, htext, hvalue⟩ := exists_scaled hzero hfinite
      obtain ⟨c, cs, hcs, hc⟩ := hscaled.exists_text
      rw [← htext, ← hvalue]
      refine ⟨hscaled.magnitude?_text, ?_, hscaled.not_allDigits, hscaled.continuesWord⟩
      rw [hcs]
      rintro _ ⟨⟩
      exact ne_of_isDigit hc (by decide)
    | false =>
      have hlast : x.rank = Double.lastRank :=
        Nat.le_antisymm x.rank_le (Nat.le_of_not_lt (of_decide_eq_false hfinite))
      have hinfinite : (!x.isFinite) = true := by rw [hfinite]; rfl
      rw [Double.magnitudeText, if_neg hzero, if_pos hinfinite, hlast]
      refine ⟨by decide +kernel, ?_, by decide, List.all_eq_true.1 (by decide)⟩
      rintro _ ⟨⟩
      decide

lemma literal?_float (x : Double) : literal? (x.render Double.plainStyle) = some (.float x) := by
  obtain ⟨hmagnitude, hminus, hdigits, -⟩ := magnitude?_magnitudeText x
  have hinteger : Predicate.integer? (x.render Double.plainStyle).toList = none := by
    refine integer?_eq_none ?_
    rw [toList_float, unsigned_sign hminus]
    exact hdigits
  rw [literal?, number?, hinteger, float?, toList_float, unsigned_sign hminus]
  simp [hmagnitude, neg_ofRank]

lemma isWord_float (x : Double) : IsWord (x.render Double.plainStyle) := by
  obtain ⟨hmagnitude, -, -, hcs⟩ := magnitude?_magnitudeText x
  refine isWord_of_sign (toList_float x) (fun hnil => ?_) hcs
  rw [hnil] at hmagnitude
  cases hmagnitude

end Double

/-- Every value but a string is written as one word, which stands for it. -/
lemma literal?_text {value : Literal} (h : ∀ s, value ≠ .string s) :
    IsWord value.text ∧ literal? value.text = some value := by
  cases value with
  | null => exact ⟨by decide, by decide +kernel⟩
  | boolean b =>
    cases b with
    | false => exact ⟨by decide, by decide +kernel⟩
    | true => exact ⟨by decide, by decide +kernel⟩
  | integer i => exact ⟨isWord_integer i.toInt, literal?_integer i⟩
  | float x => exact ⟨isWord_float x, literal?_float x⟩
  | string s => exact absurd rfl (h s)

end ObjectGraph.Formula
