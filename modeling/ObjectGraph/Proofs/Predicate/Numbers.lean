/-
# Reading numbers back

The integers and doubles of predicates are read back from their texts.  A double is written with
a point or an exponent, which tells it from an integer, and with the digits of its shortest
decimal, which lies in its cell; only infinity and negative exponents are not read back, since the
tokens of numbers hold no minus behind their sign.
-/
import ObjectGraph.Proofs.Cells
import ObjectGraph.Proofs.Double.Shortest
import ObjectGraph.Proofs.Predicate.Lexing

namespace ObjectGraph.Predicate

variable {negative : Bool} {ds : List Char}

/-! ### Digits -/

lemma allDigits_iff : allDigits ds = true ↔ ds ≠ [] ∧ ∀ d ∈ ds, d.isDigit = true := by
  simp [allDigits]

/-- A point and the marks of an exponent make a number a double. -/
def isMark (c : Char) : Bool := c == '.' || c == 'e' || c == 'E'

lemma number?_eq {cs : List Char} : number? cs =
    if cs.any isMark then (double? cs).map .float else (integer? cs).map .integer := rfl

lemma isMark_digit {c : Char} (h : c.isDigit = true) : isMark c = false := by
  simp [isMark, ne_of_isDigit h]

lemma any_isMark_eq_false (hds : ∀ d ∈ ds, d.isDigit = true) :
    (sign negative ++ ds).any isMark = false := by
  have hdigits : ds.any isMark = false :=
    List.any_eq_false.2 fun d hd => by simp [isMark_digit (hds d hd)]
  rw [List.any_append, hdigits, Bool.or_false]
  cases negative <;> rfl

/-! ### Integers -/

lemma toList_int (i : Int) : (toString i).toList = sign (i < 0) ++ Nat.toDigits 10 i.natAbs := by
  cases i with
  | ofNat n => simp [sign, Int.repr]
  | negSucc n =>
    have htext : toString (Int.negSucc n) = "-" ++ toString (n + 1) := rfl
    rw [htext, String.toList_append, Nat.toString_eq_repr, Nat.toList_repr, sign,
      decide_eq_true (Int.negSucc_lt_zero n)]
    rfl

/-- A sign and digits are read as an integer. -/
lemma integer?_digits (hne : ds ≠ []) (hds : ∀ d ∈ ds, d.isDigit = true) :
    integer? (sign negative ++ ds) =
      Json.int64? (if negative then -(Json.digitsValue ds) else Json.digitsValue ds) := by
  have hall := allDigits_iff.2 ⟨hne, hds⟩
  cases negative with
  | true => simp [sign, integer?, hall]
  | false =>
    cases ds with
    | nil => exact absurd rfl hne
    | cons d ds =>
      have hd : d ≠ '-' := ne_of_isDigit (hds d List.mem_cons_self) (by decide)
      simp [sign, integer?, hall, hd]

lemma spells_integer (i : Int64) : Spells (toString i.toInt).toList [.literal (.integer i)] := by
  rw [toList_int]
  have hds : ∀ d ∈ Nat.toDigits 10 i.toInt.natAbs, d.isDigit = true :=
    fun _ => Json.isDigit_toDigits
  have hn : number? (sign (i.toInt < 0) ++ Nat.toDigits 10 i.toInt.natAbs) = some (.integer i) := by
    have hvalue : (if i.toInt < 0 then -(i.toInt.natAbs : Int) else i.toInt.natAbs) = i.toInt := by
      split <;> omega
    rw [number?_eq, any_isMark_eq_false hds, if_neg Bool.false_ne_true,
      integer?_digits Nat.toDigits_ne_nil hds, Json.digitsValue_toDigits]
    simp only [decide_eq_true_eq, hvalue, Json.int64?_toInt]
    rfl
  cases hcs : Nat.toDigits 10 i.toInt.natAbs with
  | nil => exact absurd hcs Nat.toDigits_ne_nil
  | cons c cs =>
    rw [hcs] at hds hn
    obtain ⟨hc, hcs⟩ := List.forall_mem_cons.1 hds
    exact spells_number _ hc (List.all_eq_true.2 fun d hd => continuesNumber_digit (hcs d hd)) hn

/-! ### Doubles -/

/-- The parts of a decimal: digits, perhaps a point and digits, and perhaps an exponent. -/
structure Numeral where
  whole : List Char
  fraction : Option (List Char)
  exponent : Option (List Char)

namespace Numeral

variable {n : Numeral}

/-- The numeral as it is written. -/
def text (n : Numeral) : List Char :=
  n.whole ++ (n.fraction.elim [] ('.' :: ·) ++ n.exponent.elim [] ('e' :: ·))

/-- All parts are digits, and something tells the numeral from an integer. -/
structure Marked (n : Numeral) : Prop where
  whole : allDigits n.whole = true
  fraction : ∀ ds ∈ n.fraction, ∀ d ∈ ds, d.isDigit = true
  exponent : ∀ ds ∈ n.exponent, ∀ d ∈ ds, d.isDigit = true
  isSome : n.fraction.isSome ∨ n.exponent.isSome

/-- The exponent, if there is one, has digits. -/
structure Valid (n : Numeral) : Prop extends n.Marked where
  closed : n.exponent ≠ some []

/-- The digits before and behind the point. -/
def digits (n : Numeral) : List Char := n.whole ++ n.fraction.getD []

/-- The power of ten that the digits are multiplied by. -/
def power (n : Numeral) : Int :=
  ((n.exponent.map Json.digitsValue).getD 0 : Nat) - ((n.fraction.getD []).length : Nat)

section Mantissa

variable (hwhole : allDigits n.whole = true)
  (hfraction : ∀ ds ∈ n.fraction, ∀ d ∈ ds, d.isDigit = true)

include hwhole

/-- The text before the point, and the text from there. -/
lemma span_mantissa :
    (n.whole ++ n.fraction.elim [] ('.' :: ·)).takeWhile (· != '.') = n.whole ∧
      (n.whole ++ n.fraction.elim [] ('.' :: ·)).dropWhile (· != '.') =
        n.fraction.elim [] ('.' :: ·) := by
  refine span_append (fun d hd => ?_) ?_
  · simpa using ne_of_isDigit ((allDigits_iff.1 hwhole).2 d hd) (by decide)
  · cases n.fraction <;> simp

include hfraction

lemma isDigit_of_mem_mantissa :
    ∀ c ∈ n.whole ++ n.fraction.elim [] ('.' :: ·), c = '.' ∨ c.isDigit = true := by
  intro c hc
  rcases List.mem_append.1 hc with hc | hc
  · exact .inr ((allDigits_iff.1 hwhole).2 c hc)
  · cases hf : n.fraction with
    | none => simp [hf] at hc
    | some ds =>
      rw [hf] at hc
      exact (List.mem_cons.1 hc).imp_right (hfraction ds hf c)

/-- The digits of a numeral are digits, if those before and behind its point are. -/
lemma allDigits_digits : allDigits n.digits = true := by
  obtain ⟨hne, hall⟩ := allDigits_iff.1 hwhole
  refine allDigits_iff.2 ⟨by simp [digits, hne], fun d hd => ?_⟩
  rcases List.mem_append.1 hd with hd | hd
  · exact hall d hd
  · cases hf : n.fraction with
    | none => simp [hf] at hd
    | some ds => exact hfraction ds hf d (by simpa [hf] using hd)

end Mantissa

/-- The text before the exponent, and the text of the exponent. -/
lemma span_text (h : n.Marked) :
    n.text.takeWhile (fun c => !(c == 'e' || c == 'E')) = n.whole ++ n.fraction.elim [] ('.' :: ·) ∧
      n.text.dropWhile (fun c => !(c == 'e' || c == 'E')) = n.exponent.elim [] ('e' :: ·) := by
  rw [text, ← List.append_assoc]
  refine span_append (fun d hd => ?_) ?_
  · rcases isDigit_of_mem_mantissa h.whole h.fraction d hd with rfl | hd
    · rfl
    · simp [ne_of_isDigit hd]
  · cases n.exponent <;> simp

lemma text_ne_minus (h : n.Marked) (cs : List Char) : n.text ≠ '-' :: cs := by
  obtain ⟨hne, hall⟩ := allDigits_iff.1 h.whole
  intro ht
  cases hw : n.whole with
  | nil => exact hne hw
  | cons c whole =>
    rw [text, hw] at ht
    obtain ⟨rfl, -⟩ := List.cons.inj ht
    exact absurd (hall '-' (by rw [hw]; exact List.mem_cons_self)) (by decide)

/-- A numeral is a digit and characters that go on a number. -/
lemma exists_text (h : n.Marked) : ∃ c cs, n.text = c :: cs ∧
    c.isDigit = true ∧ ∀ d ∈ cs, continuesNumber d = true := by
  obtain ⟨hne, hwhole⟩ := allDigits_iff.1 h.whole
  obtain ⟨c, ds, hcs⟩ := List.exists_cons_of_ne_nil hne
  rw [hcs] at hwhole
  obtain ⟨hc, hds⟩ := List.forall_mem_cons.1 hwhole
  refine ⟨c, ds ++ (n.fraction.elim [] ('.' :: ·) ++ n.exponent.elim [] ('e' :: ·)),
    by rw [text, hcs]; rfl, hc, fun d hd => ?_⟩
  rcases List.mem_append.1 hd with hd | hd
  · exact continuesNumber_digit (hds d hd)
  rcases List.mem_append.1 hd with hd | hd
  · cases hf : n.fraction with
    | none => simp [hf] at hd
    | some fraction =>
      rw [hf] at hd
      rcases List.mem_cons.1 hd with rfl | hd
      · rfl
      · exact continuesNumber_digit (h.fraction fraction hf d hd)
  · cases he : n.exponent with
    | none => simp [he] at hd
    | some exponent =>
      rw [he] at hd
      rcases List.mem_cons.1 hd with rfl | hd
      · rfl
      · exact continuesNumber_digit (h.exponent exponent he d hd)

/-- A numeral has a mark that makes it a double. -/
lemma any_isMark (h : n.Marked) : n.text.any isMark = true := by
  rw [text, List.any_append, List.any_append]
  rcases h.isSome with hf | he
  · obtain ⟨ds, hds⟩ := Option.isSome_iff_exists.1 hf
    simp [hds, isMark]
  · obtain ⟨ds, hds⟩ := Option.isSome_iff_exists.1 he
    simp [hds, isMark]

lemma minus_not_mem (h : n.Marked) : '-' ∉ n.text := by
  obtain ⟨c, cs, htext, hc, hcs⟩ := exists_text h
  rw [htext, List.mem_cons, not_or]
  exact ⟨(ne_of_isDigit hc (by decide)).symm, fun hmem => absurd (hcs _ hmem) (by decide)⟩

/-- A numeral is read as the double nearest to its value, unless its exponent has no digits. -/
lemma double?_text (h : n.Marked) : double? (sign negative ++ n.text) =
    if n.exponent = some [] then none
    else some (if negative then (Double.ofDecimal (Json.digitsValue n.digits) n.power).neg
      else Double.ofDecimal (Json.digitsValue n.digits) n.power) := by
  obtain ⟨hmantissa, hexponent⟩ := span_text h
  obtain ⟨hwhole, hfraction⟩ := span_mantissa h.whole
  have hdrop : (n.fraction.elim [] ('.' :: ·)).drop 1 = n.fraction.getD [] := by
    cases n.fraction <;> rfl
  have hdigits : allDigits (n.whole ++ n.fraction.getD []) = true :=
    allDigits_digits h.whole h.fraction
  unfold double?
  split
  rename_i negative' cs hsign
  obtain ⟨rfl, rfl⟩ : negative' = negative ∧ cs = n.text := by
    cases negative with
    | true =>
      cases hsign
      exact ⟨rfl, rfl⟩
    | false =>
      -- The first character is a digit and no sign.
      split at hsign
      · exact absurd ‹_› (text_ne_minus h _)
      · cases hsign
        exact ⟨rfl, rfl⟩
  simp only [hmantissa, hexponent, hwhole, hfraction, hdrop, if_pos hdigits]
  cases he : n.exponent with
  | none => simp [power, digits, he]
  | some ds =>
    cases ds with
    | nil => simp [allDigits]
    | cons d ds => simp [power, digits, he, allDigits_iff.2 ⟨List.cons_ne_nil _ _, h.exponent _ he⟩]

/-! ### The numerals of doubles -/

/-- A numeral has the value of a decimal. -/
def Writes (n : Numeral) (d : Double.Decimal) : Prop :=
  Double.decimalUnits (Json.digitsValue n.digits) n.power =
    Double.decimalUnits (Json.digitsValue d.digits) (d.point - d.digits.length)

end Numeral

section Decimal

open Double

variable {d : Decimal}

lemma isDigit_zeros {k : Nat} : ∀ c ∈ List.replicate k '0', c.isDigit = true := fun c hc => by
  rw [List.eq_of_mem_replicate hc]
  rfl

/-- A decimal below one is written behind a point. -/
lemma exists_numeral_small (hds : ∀ c ∈ d.digits, c.isDigit = true) (hpoint : d.point ≤ 0) :
    ∃ n : Numeral, n.Valid ∧ n.text = writeOut d ∧ n.Writes d := by
  refine ⟨⟨['0'], some (List.replicate (-d.point).toNat '0' ++ d.digits), none⟩,
    ⟨⟨rfl, ?_, nofun, .inl rfl⟩, nofun⟩, ?_, ?_⟩
  · rintro _ ⟨⟩ c hc
    rcases List.mem_append.1 hc with hc | hc
    exacts [isDigit_zeros c hc, hds c hc]
  · rw [writeOut, if_pos hpoint]
    simp [Numeral.text]
  · have hdigits : '0' :: (List.replicate (-d.point).toNat '0' ++ d.digits) =
      List.replicate ((-d.point).toNat + 1) '0' ++ d.digits := rfl
    simp only [Numeral.Writes, Numeral.digits, Numeral.power, Option.getD_some, List.cons_append,
      List.nil_append, hdigits, Json.digitsValue_zeros_append, List.length_append,
      List.length_replicate]
    congr 1
    simp
    omega

/-- A decimal without digits behind its point gets a zero there. -/
lemma exists_numeral_whole {whole : Nat} (hne : d.digits ≠ [])
    (hds : ∀ c ∈ d.digits, c.isDigit = true) (hpoint : d.point = whole)
    (hle : d.digits.length ≤ whole) :
    ∃ n : Numeral, n.Valid ∧
      n.text = d.digits ++ List.replicate (whole - d.digits.length) '0' ++ ['.', '0'] ∧
      n.Writes d := by
  refine ⟨⟨d.digits ++ List.replicate (whole - d.digits.length) '0', some ['0'], none⟩,
    ⟨⟨?_, ?_, nofun, .inl rfl⟩, nofun⟩, by simp [Numeral.text], ?_⟩
  · refine allDigits_iff.2 ⟨by simp [hne], fun c hc => ?_⟩
    rcases List.mem_append.1 hc with hc | hc
    exacts [hds c hc, isDigit_zeros c hc]
  · rintro _ ⟨⟩ c hc
    rw [List.mem_singleton.1 hc]
    rfl
  · have hdigits : d.digits ++ List.replicate (whole - d.digits.length) '0' ++ ['0'] =
        d.digits ++ List.replicate (whole - d.digits.length + 1) '0' := by
      rw [List.append_assoc, ← List.replicate_succ']
    simp only [Numeral.Writes, Numeral.digits, Numeral.power, Option.getD_some, hdigits,
      Json.digitsValue_zeros, decimalUnits_zeros]
    congr 1
    simp
    omega

/-- A decimal with digits on either side of its point. -/
lemma exists_numeral_pointed {whole : Nat} (hds : ∀ c ∈ d.digits, c.isDigit = true)
    (hpoint : d.point = whole) (hpos : 0 < whole) (hlt : whole < d.digits.length) :
    ∃ n : Numeral, n.Valid ∧ n.text = d.digits.take whole ++ '.' :: d.digits.drop whole ∧
      n.Writes d := by
  refine ⟨⟨d.digits.take whole, some (d.digits.drop whole), none⟩,
    ⟨⟨?_, ?_, nofun, .inl rfl⟩, nofun⟩, by simp [Numeral.text], ?_⟩
  · refine allDigits_iff.2 ⟨fun hnil => ?_, fun c hc => hds c (List.mem_of_mem_take hc)⟩
    rcases List.take_eq_nil_iff.1 hnil with rfl | hnil
    · exact absurd hpos (Nat.lt_irrefl 0)
    · rw [hnil] at hlt
      exact absurd hlt (Nat.not_lt_zero whole)
  · rintro _ ⟨⟩ c hc
    exact hds c (List.mem_of_mem_drop hc)
  · have hlength : ((d.digits.drop whole).length : Int) = d.digits.length - whole := by
      rw [List.length_drop, Nat.cast_sub hlt.le]
    simp only [Numeral.Writes, Numeral.digits, Numeral.power, Option.getD_some,
      List.take_append_drop, hlength, hpoint]
    congr 1
    exact (zero_sub _).trans (neg_sub _ _)

lemma exists_numeral_writeOut (hne : d.digits ≠ []) (hds : ∀ c ∈ d.digits, c.isDigit = true) :
    ∃ n : Numeral, n.Valid ∧ n.text = writeOut d ∧ n.Writes d := by
  by_cases hpoint : d.point ≤ 0
  · exact exists_numeral_small hds hpoint
  · obtain ⟨whole, hwhole⟩ := Int.eq_ofNat_of_zero_le (a := d.point) (by omega)
    have hout : writeOut d = d.digits.take whole ++ List.replicate (whole - d.digits.length) '0' ++
        '.' :: (if (d.digits.drop whole).isEmpty then ['0'] else d.digits.drop whole) := by
      rw [writeOut, if_neg hpoint, hwhole]
      rfl
    rw [hout]
    rcases Nat.lt_or_ge whole d.digits.length with hlt | hle
    · have hfraction : ¬(d.digits.drop whole).isEmpty = true := by simp; omega
      rw [if_neg hfraction, Nat.sub_eq_zero_of_le hlt.le, List.replicate_zero, List.append_nil]
      exact exists_numeral_pointed hds hwhole (by omega) hlt
    · rw [List.take_of_length_le hle, List.drop_of_length_le hle]
      exact exists_numeral_whole hne hds hwhole hle

/-- The digits of a decimal with a point behind the first one, if there are more. -/
lemma writeScaled_eq (hne : d.digits ≠ []) : ∃ c fraction,
    d.digits = c :: Option.getD fraction [] ∧
    writeScaled plainStyle d =
      c :: (fraction.elim [] ('.' :: ·) ++ 'e' :: (toString (d.point - 1)).toList) := by
  obtain ⟨ds, point⟩ := d
  cases ds with
  | nil => exact absurd rfl hne
  | cons c ds =>
    cases ds with
    | nil => exact ⟨c, none, rfl, rfl⟩
    | cons c' ds =>
      refine ⟨c, some (c' :: ds), rfl, ?_⟩
      simp [writeScaled, plainStyle]

lemma marked_scaled {c : Char} {fraction : Option (List Char)} {exponent : List Char}
    (hds : ∀ c ∈ d.digits, c.isDigit = true) (hdigits : d.digits = c :: fraction.getD [])
    (he : ∀ e ∈ exponent, e.isDigit = true) : Numeral.Marked ⟨[c], fraction, some exponent⟩ := by
  rw [hdigits] at hds
  obtain ⟨hc, hfraction⟩ := List.forall_mem_cons.1 hds
  refine ⟨allDigits_iff.2 ⟨List.cons_ne_nil _ _, List.forall_mem_singleton.2 hc⟩, ?_, ?_, .inr rfl⟩
  · rintro _ ⟨⟩
    exact hfraction
  · rintro _ ⟨⟩
    exact he

/-- A decimal in scientific notation, with an exponent that is not negative. -/
lemma exists_numeral_writeScaled (hne : d.digits ≠ []) (hds : ∀ c ∈ d.digits, c.isDigit = true)
    (hpoint : 1 ≤ d.point) :
    ∃ n : Numeral, n.Valid ∧ n.text = writeScaled plainStyle d ∧ n.Writes d := by
  obtain ⟨c, fraction, hdigits, hscaled⟩ := writeScaled_eq hne
  obtain ⟨k, hk⟩ := Int.eq_ofNat_of_zero_le (a := d.point - 1) (by omega)
  have hexponent : (toString (d.point - 1)).toList = Nat.toDigits 10 k := by
    rw [toList_int, decide_eq_false (by omega), hk]
    rfl
  refine ⟨⟨[c], fraction, some (Nat.toDigits 10 k)⟩, ⟨marked_scaled hds hdigits ?_, ?_⟩, ?_, ?_⟩
  · exact fun _ => Json.isDigit_toDigits
  · exact fun h => Nat.toDigits_ne_nil (Option.some.inj h)
  · rw [hscaled, hexponent]
    rfl
  · have hlength : d.digits.length = (fraction.getD []).length + 1 := by rw [hdigits]; rfl
    simp only [Numeral.Writes, Numeral.digits, Numeral.power, List.singleton_append, ← hdigits,
      Option.map_some, Option.getD_some, Json.digitsValue_toDigits]
    congr 1
    omega

/-- A minus ends the number in front of it: a decimal with a negative exponent is cut in the
middle. -/
lemma exists_open_writeScaled (hne : d.digits ≠ []) (hds : ∀ c ∈ d.digits, c.isDigit = true)
    (hpoint : d.point < 1) : ∃ (n : Numeral) (after : List Char), n.Marked ∧
      n.exponent = some [] ∧ writeScaled plainStyle d = n.text ++ '-' :: after := by
  obtain ⟨c, fraction, hdigits, hscaled⟩ := writeScaled_eq hne
  refine ⟨⟨[c], fraction, some []⟩, Nat.toDigits 10 (d.point - 1).natAbs,
    marked_scaled hds hdigits nofun, rfl, ?_⟩
  rw [hscaled, toList_int, decide_eq_true (by omega)]
  simp [Numeral.text, sign]

end Decimal

/-! ### Reading doubles back -/

/-- A double whose text has no minus but its sign: neither infinity nor one that is written with a
negative exponent. -/
def Legible (x : Double) : Prop :=
  x.isFinite = true ∧ '-' ∉ x.magnitudeText Double.plainStyle

instance decidableLegible : DecidablePred Legible := fun x =>
  inferInstanceAs (Decidable (x.isFinite = true ∧ '-' ∉ x.magnitudeText Double.plainStyle))

variable {x : Double}

/-- The shortest decimal of a finite double other than zero has digits. -/
lemma shortest_digits (hzero : x.rank ≠ 0) (hfinite : x.isFinite = true) :
    x.shortest.digits ≠ [] ∧ ∀ c ∈ x.shortest.digits, c.isDigit = true := by
  constructor
  · intro hnil
    have hcell := Double.cell_shortest hzero
    have hlt : x.rank < Double.lastRank := of_decide_eq_true hfinite
    rw [hnil] at hcell
    exact (Double.magnitude_of_cell (Nat.pos_of_ne_zero hzero) hlt hcell).1 rfl
  · intro c hc
    obtain ⟨digits, exponent, heq, -⟩ := Double.exists_shortest hzero
    obtain ⟨k, hk⟩ := Double.stripZeros_append (Nat.toDigits 10 digits)
    rw [heq] at hc
    refine Json.isDigit_toDigits (n := digits) ?_
    rw [← hk]
    exact List.mem_append_left _ hc

lemma magnitudeText_eq (hzero : x.rank ≠ 0) (hfinite : x.isFinite = true) :
    x.magnitudeText Double.plainStyle = Double.writeOut x.shortest ∨
      x.magnitudeText Double.plainStyle = Double.writeScaled Double.plainStyle x.shortest := by
  have hinfinite : ¬(!x.isFinite) = true := by simp [hfinite]
  rw [Double.magnitudeText, if_neg hzero, if_neg hinfinite]
  dsimp only
  split
  · exact .inl rfl
  · exact .inr rfl

lemma exists_numeral_shortest (hzero : x.rank ≠ 0) (h : Legible x) : ∃ n : Numeral, n.Valid ∧
    n.text = x.magnitudeText Double.plainStyle ∧ n.Writes x.shortest := by
  obtain ⟨hfinite, hminus⟩ := h
  obtain ⟨hne, hds⟩ := shortest_digits hzero hfinite
  rcases magnitudeText_eq hzero hfinite with htext | htext
  · rw [htext]
    exact exists_numeral_writeOut hne hds
  · rw [htext] at hminus ⊢
    refine exists_numeral_writeScaled hne hds ?_
    by_contra hpoint
    obtain ⟨n, after, -, -, hopen⟩ := exists_open_writeScaled hne hds (by omega)
    exact hminus (by simp [hopen])

/-- A finite double that is not legible is cut in the middle. -/
lemma exists_open (hfinite : x.isFinite = true) (hillegible : ¬Legible x) :
    ∃ (n : Numeral) (after : List Char), n.Marked ∧ n.exponent = some [] ∧
      x.magnitudeText Double.plainStyle = n.text ++ '-' :: after := by
  have hminus : '-' ∈ x.magnitudeText Double.plainStyle := by
    by_contra hminus
    exact hillegible ⟨hfinite, hminus⟩
  have hzero : x.rank ≠ 0 := by
    intro hzero
    rw [Double.magnitudeText, if_pos hzero] at hminus
    exact absurd hminus (by decide)
  obtain ⟨hne, hds⟩ := shortest_digits hzero hfinite
  rcases magnitudeText_eq hzero hfinite with htext | htext
  · obtain ⟨n, hvalid, hn, -⟩ := exists_numeral_writeOut hne hds
    rw [htext, ← hn] at hminus
    exact absurd hminus (n.minus_not_mem hvalid.toMarked)
  · rw [htext] at hminus ⊢
    refine exists_open_writeScaled hne hds ?_
    by_contra hpoint
    obtain ⟨n, hvalid, hn, -⟩ := exists_numeral_writeScaled hne hds (by omega)
    rw [← hn] at hminus
    exact n.minus_not_mem hvalid.toMarked hminus

/-- A legible double is written as a numeral that stands for it. -/
lemma exists_numeral (h : Legible x) : ∃ n : Numeral, n.Valid ∧
    n.text = x.magnitudeText Double.plainStyle ∧
    Double.ofDecimal (Json.digitsValue n.digits) n.power = Double.ofRank x.rank := by
  by_cases hzero : x.rank = 0
  · refine ⟨⟨['0'], some ['0'], none⟩, ⟨⟨rfl, ?_, nofun, .inl rfl⟩, nofun⟩, ?_, ?_⟩
    · rintro _ ⟨⟩ c hc
      rw [List.mem_singleton.1 hc]
      rfl
    · rw [Double.magnitudeText, if_pos hzero]
      rfl
    · rw [hzero]
      rfl
  · obtain ⟨n, hvalid, htext, hwrites⟩ := exists_numeral_shortest hzero h
    have hcell := Double.cell_shortest hzero
    rw [← hwrites] at hcell
    exact ⟨n, hvalid, htext, Double.ofDecimal_eq (Nat.pos_of_ne_zero hzero)
      (of_decide_eq_true h.1) hcell⟩

lemma toList_float (x : Double) : (x.render Double.plainStyle).toList =
    sign x.negative ++ x.magnitudeText Double.plainStyle := by
  rw [Double.render, String.toList_ofList, sign]

/-- A double is its rank with its sign. -/
lemma neg_ofRank (x : Double) :
    (if x.negative then (Double.ofRank x.rank).neg else Double.ofRank x.rank) = x := by
  obtain ⟨negative, rank, hle⟩ := x
  have hmin : min rank Double.lastRank = rank := Nat.min_eq_left hle
  cases negative <;> simp [Double.ofRank, Double.neg, hmin]

lemma spells_float (h : Legible x) :
    Spells (x.render Double.plainStyle).toList [.literal (.float x)] := by
  obtain ⟨n, hvalid, htext, hvalue⟩ := exists_numeral h
  obtain ⟨c, cs, hcs, hc, hcontinues⟩ := n.exists_text hvalid.toMarked
  have hnumber : number? (sign x.negative ++ n.text) = some (.float x) := by
    have hmark : (sign x.negative ++ n.text).any isMark = true := by
      rw [List.any_append, n.any_isMark hvalid.toMarked, Bool.or_true]
    rw [number?_eq, if_pos hmark, n.double?_text hvalid.toMarked, if_neg hvalid.closed, hvalue,
      neg_ofRank]
    rfl
  rw [toList_float, ← htext, hcs]
  rw [hcs] at hnumber
  exact spells_number _ hc (List.all_eq_true.2 hcontinues) hnumber

end ObjectGraph.Predicate
