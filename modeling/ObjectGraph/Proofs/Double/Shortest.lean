/-
# The shortest decimal reads back

The decimal that is found for a double lies in its cell.  Of the decimals with at most seventeen
digits one always does: the nearest one misses the double by half a unit of its last digit, which
is less than half a step to the next double.
-/
import ObjectGraph.Double.Shortest
import ObjectGraph.Json.Numeral
import ObjectGraph.Proofs.Double.Rounding
import Mathlib.Data.List.TakeWhile
import Mathlib.Data.Nat.Cast.Order.Field
import Mathlib.Tactic.FieldSimp

namespace ObjectGraph

/-! ### Sequences of digits -/

namespace Json

variable {ds : List Char} {n : Nat}

lemma digitsValue_eq : digitsValue ds = Nat.ofDigitChars 10 ds 0 := rfl

lemma digitsValue_zeros (ds : List Char) (n : Nat) :
    digitsValue (ds ++ List.replicate n '0') = 10 ^ n * digitsValue ds := by
  rw [digitsValue_eq, Nat.ofDigitChars_append, Nat.ofDigitChars_replicate_zero]
  rfl

lemma digitsValue_zeros_append : digitsValue (List.replicate n '0' ++ ds) = digitsValue ds := by
  rw [digitsValue_eq, Nat.ofDigitChars_append, Nat.ofDigitChars_replicate_zero, Nat.mul_zero]
  rfl

lemma digitsValue_toDigits : digitsValue (Nat.toDigits 10 n) = n :=
  Nat.ofDigitChars_ten_toDigits

lemma isDigit_toDigits {c : Char} (h : c ∈ Nat.toDigits 10 n) : c.isDigit = true :=
  Nat.isDigit_of_mem_toDigits (by decide) (by decide) h

end Json

namespace Double

variable {r digits count num den : ℕ} {exponent point : ℤ} {q : ℚ}

lemma cell_iff : Cell r q ↔
    if r % 2 = 0 then (unitsOfRank (r - 1) + unitsOfRank r : ℚ) ≤ 2 * q ∧
      2 * q ≤ (unitsOfRank r + unitsOfRank (r + 1) : ℚ)
    else (unitsOfRank (r - 1) + unitsOfRank r : ℚ) < 2 * q ∧
      2 * q < (unitsOfRank r + unitsOfRank (r + 1) : ℚ) := by
  split
  · rename_i heven
    exact ⟨fun h => ⟨h.lower, h.upper⟩, fun h => ⟨h.1, h.2, fun hodd => by omega⟩⟩
  · rename_i hodd
    have hodd : r % 2 = 1 := by omega
    exact ⟨fun h => ⟨h.lower.lt_of_ne (h.even hodd).1, h.upper.lt_of_ne (h.even hodd).2⟩,
      fun h => ⟨h.1.le, h.2.le, fun _ => ⟨h.1.ne, h.2.ne⟩⟩⟩

lemma tenTo_pos {n : ℕ} : 0 < tenTo n := Nat.pow_pos (by decide)

/-- The value of a decimal as a ratio of natural numbers. -/
lemma exists_ratio (digits : ℕ) (exponent : ℤ) : ∃ value scale : ℕ, 0 < scale ∧
    2 * decimalUnits digits exponent * scale = value ∧
    (value, scale) = if 0 ≤ exponent then (digits <<< 1075 * tenTo exponent.toNat, 1)
      else (digits <<< 1075, tenTo (-exponent).toNat) := by
  have hunits : ((digits <<< 1075 : ℕ) : ℚ) = 2 * (digits * unitsOfOne) := by
    have htwice : ((1 <<< 1075 : ℕ) : ℚ) = 2 * unitsOfOne := by
      rw [unitsOfOne, cast_one_shiftLeft, cast_one_shiftLeft]
      exact pow_succ' 2 1074
    rw [shiftLeft_eq_mul_one, Nat.cast_mul, htwice]
    ring
  split
  · rename_i h
    obtain ⟨n, rfl⟩ := Int.eq_ofNat_of_zero_le h
    refine ⟨_, _, Nat.one_pos, ?_, rfl⟩
    rw [decimalUnits, zpow_natCast, Int.toNat_natCast, Nat.cast_mul, hunits, cast_tenTo]
    ring
  · rename_i h
    obtain ⟨n, hn⟩ := Int.eq_ofNat_of_zero_le (a := -exponent) (by omega)
    obtain rfl : exponent = -(n : ℤ) := by omega
    refine ⟨_, _, tenTo_pos, ?_, rfl⟩
    rw [decimalUnits, zpow_neg, zpow_natCast, neg_neg, Int.toNat_natCast, hunits, cast_tenTo]
    field_simp

/-- What reads back is what lies in the cell. -/
lemma readsBack_iff :
    readsBack r digits exponent = true ↔ Cell r (decimalUnits digits exponent) := by
  obtain ⟨value, scale, hscale, hvalue, heq⟩ := exists_ratio digits exponent
  have hpos : (0 : ℚ) < scale := Nat.cast_pos.2 hscale
  rw [cell_iff]
  generalize 2 * decimalUnits digits exponent = twice at *
  have hle (m n : ℕ) : (m + n) * scale ≤ value ↔ (m + n : ℚ) ≤ twice := by
    rw [← mul_le_mul_iff_left₀ hpos, hvalue]
    norm_cast
  have hge (m n : ℕ) : value ≤ (m + n) * scale ↔ twice ≤ (m + n : ℚ) := by
    rw [← mul_le_mul_iff_left₀ hpos, hvalue]
    norm_cast
  have hlt (m n : ℕ) : (m + n) * scale < value ↔ (m + n : ℚ) < twice := by
    rw [← not_le, hge, not_le]
  have hgt (m n : ℕ) : value < (m + n) * scale ↔ twice < (m + n : ℚ) := by
    rw [← not_le, hle, not_le]
  simp only [readsBack, ← heq]
  split
  · rw [Bool.and_eq_true, decide_eq_true_iff, decide_eq_true_iff, hle, hge]
  · rw [Bool.and_eq_true, decide_eq_true_iff, decide_eq_true_iff, hlt, hgt]

/-! ### The nearest decimals -/

/-- A double divided by a power of ten, as a ratio of natural numbers. -/
lemma exists_quotient (r : ℕ) (exponent : ℤ) : ∃ num den : ℕ, 0 < den ∧
    (num / den * 10 ^ exponent * unitsOfOne : ℚ) = unitsOfRank r ∧
    (num, den) = if 0 ≤ exponent then (unitsOfRank r, tenTo exponent.toNat <<< 1074)
      else (unitsOfRank r * tenTo (-exponent).toNat, 1 <<< 1074) := by
  have hunits : (unitsOfOne : ℚ) ≠ 0 := Nat.cast_ne_zero.2 unitsOfOne_pos.ne'
  split
  · rename_i h
    obtain ⟨n, rfl⟩ := Int.eq_ofNat_of_zero_le h
    refine ⟨_, _, ?_, ?_, rfl⟩
    · rw [shiftLeft_eq_mul_one]
      exact Nat.mul_pos tenTo_pos unitsOfOne_pos
    · rw [zpow_natCast, Int.toNat_natCast, shiftLeft_eq_mul_one, Nat.cast_mul, cast_tenTo]
      change (unitsOfRank r / (10 ^ n * unitsOfOne) * 10 ^ n * unitsOfOne : ℚ) = _
      field_simp
  · rename_i h
    obtain ⟨n, hn⟩ := Int.eq_ofNat_of_zero_le (a := -exponent) (by omega)
    obtain rfl : exponent = -(n : ℤ) := by omega
    refine ⟨_, _, unitsOfOne_pos, ?_, rfl⟩
    rw [zpow_neg, zpow_natCast, neg_neg, Int.toNat_natCast, Nat.cast_mul, cast_tenTo]
    field_simp

/-- The quotient that is tried first misses the ratio by half at most. -/
lemma abs_nearest_le (num : ℕ) (hden : 0 < den) :
    |((if 2 * (num % den) < den then num / den else num / den + 1 : ℕ) : ℚ) - num / den|
      ≤ 1 / 2 := by
  have hd : (0 : ℚ) < den := Nat.cast_pos.2 hden
  have hnum : (num / den : ℚ) = (num / den : ℕ) + (num % den : ℕ) / den := by
    have hdivmod : (den * (num / den : ℕ) + (num % den : ℕ) : ℚ) = num := by
      exact_mod_cast Nat.div_add_mod num den
    rw [← hdivmod]
    field_simp
  have hmod : ((num % den : ℕ) / den : ℚ) < 1 := by
    rw [div_lt_one hd]
    exact Nat.cast_lt.2 (Nat.mod_lt _ hden)
  have hnonneg : (0 : ℚ) ≤ (num % den : ℕ) / den := by positivity
  have hhalf : 2 * (num % den) < den ↔ ((num % den : ℕ) / den : ℚ) < 1 / 2 := by
    rw [div_lt_div_iff₀ hd two_pos]
    norm_cast
    omega
  rw [hnum, abs_le]
  split
  · rename_i h
    have := hhalf.1 h
    constructor <;> linarith
  · rename_i h
    have := le_of_not_gt (mt hhalf.2 h)
    push_cast
    constructor <;> linarith

/-- The two decimals that are tried. -/
lemma exists_candidates (r count : ℕ) (point : ℤ) : ∃ first second : ℕ,
    nearestDecimal? r count point =
      (if readsBack r first (point - count) then some (first, point - count)
        else if readsBack r second (point - count) then some (second, point - count) else none) ∧
    |decimalUnits first (point - count) - unitsOfRank r| ≤
      10 ^ (point - count) * unitsOfOne / 2 := by
  obtain ⟨num, den, hden, hq, heq⟩ := exists_quotient r (point - count)
  have hunits : (0 : ℚ) < 10 ^ (point - count) * unitsOfOne :=
    mul_pos (zpow_pos (by norm_num) _) (Nat.cast_pos.2 unitsOfOne_pos)
  refine ⟨if 2 * (num % den) < den then num / den else num / den + 1,
    if 2 * (num % den) < den then num / den + 1 else num / den, ?_, ?_⟩
  · simp only [nearestDecimal?, ← heq]
    split <;> rfl
  · have hnear := abs_nearest_le num hden
    generalize (if 2 * (num % den) < den then num / den else num / den + 1) = first at *
    have hdiff : decimalUnits first (point - count) - unitsOfRank r =
        (first - num / den) * (10 ^ (point - count) * unitsOfOne) := by
      rw [decimalUnits, ← hq]
      ring
    rw [hdiff, abs_mul, abs_of_pos hunits]
    calc |(first - num / den : ℚ)| * (10 ^ (point - count) * unitsOfOne)
        ≤ 1 / 2 * (10 ^ (point - count) * unitsOfOne) :=
          mul_le_mul_of_nonneg_right hnear hunits.le
      _ = 10 ^ (point - count) * unitsOfOne / 2 := by ring

lemma readsBack_of_nearestDecimal? (h : nearestDecimal? r count point = some (digits, exponent)) :
    readsBack r digits exponent = true := by
  obtain ⟨first, second, heq, -⟩ := exists_candidates r count point
  rw [heq] at h
  split at h
  · rename_i hfirst
    cases h
    exact hfirst
  · split at h
    · rename_i hsecond
      cases h
      exact hsecond
    · cases h

/-! ### Seventeen digits -/

/-- A number that misses a double by less than half a step lies in its cell. -/
lemma cell_of_near {gap : ℚ} (hr : 0 < r) (hgap : gap * 10 ^ 16 ≤ unitsOfRank r)
    (h : |q - unitsOfRank r| ≤ gap / 2) : Cell r q := by
  obtain ⟨r, rfl⟩ := Nat.exists_eq_add_one.2 hr
  have hbelow : (unitsOfRank (r + 1) : ℚ) ≤
      9007199254740992 * (unitsOfRank (r + 1) - unitsOfRank r) := by
    have := unitsOfRank_succ_le (r := r)
    rw [← Nat.cast_sub unitsOfRank_lt_succ.le]
    exact_mod_cast this
  have habove : (unitsOfRank (r + 2) : ℚ) ≤
      9007199254740992 * (unitsOfRank (r + 2) - unitsOfRank (r + 1)) := by
    have := unitsOfRank_succ_le (r := r + 1)
    rw [← Nat.cast_sub unitsOfRank_lt_succ.le]
    exact_mod_cast this
  have hpos : (0 : ℚ) < unitsOfRank (r + 1) := by
    exact_mod_cast (Nat.zero_le _).trans_lt (unitsOfRank_lt_succ (r := r))
  have hlt : (unitsOfRank (r + 1) : ℚ) < unitsOfRank (r + 2) := by
    exact_mod_cast unitsOfRank_lt_succ (r := r + 1)
  obtain ⟨hlow, hhigh⟩ := abs_le.1 h
  norm_num at hgap
  have h1 : (unitsOfRank r + unitsOfRank (r + 1) : ℚ) < 2 * q := by linarith
  have h2 : 2 * q < (unitsOfRank (r + 1) + unitsOfRank (r + 2) : ℚ) := by linarith
  exact ⟨h1.le, h2.le, fun _ => ⟨h1.ne, h2.ne⟩⟩

lemma ten_pow_neg_le {n : ℕ} (hden : 0 < den) (h : den ≤ num * 10 ^ n) :
    (10 : ℚ) ^ (-(n : ℤ)) ≤ num / den := by
  have hpow : (0 : ℚ) < 10 ^ n := by positivity
  rw [zpow_neg, zpow_natCast, inv_eq_one_div, div_le_div_iff₀ hpow (Nat.cast_pos.2 hden), one_mul]
  exact_mod_cast h

/-- A power of ten that is no greater than the ratio. -/
lemma ten_pow_decimalPoint_le (hnum : 0 < num) (hden : 0 < den) :
    (10 : ℚ) ^ (decimalPoint num den - 1) ≤ num / den := by
  unfold decimalPoint
  split
  · rename_i hle
    have hpos : 0 < (Nat.toDigits 10 (num / den)).length := Nat.length_toDigits_pos
    have hdigits := le_of_digits (Nat.div_pos hle hden).ne'
    rw [← Nat.cast_one, ← Nat.cast_sub hpos, zpow_natCast]
    calc (10 : ℚ) ^ ((Nat.toDigits 10 (num / den)).length - 1)
        ≤ (num / den : ℕ) := by exact_mod_cast hdigits
      _ ≤ num / den := Nat.cast_div_le
  · have hpos : 0 < (Nat.toDigits 10 (den / num)).length := Nat.length_toDigits_pos
    have hdigits := lt_of_digits (den / num)
    generalize (Nat.toDigits 10 (den / num)).length = places at *
    dsimp only
    split
    · rename_i hle
      have hexponent : 2 - (places : ℤ) - 1 = -((places - 1 : ℕ) : ℤ) := by omega
      rw [hexponent]
      exact ten_pow_neg_le hden hle
    · have hexponent : 1 - (places : ℤ) - 1 = -(places : ℤ) := by omega
      rw [hexponent]
      refine ten_pow_neg_le hden ?_
      rw [Nat.div_lt_iff_lt_mul hnum, Nat.mul_comm] at hdigits
      exact hdigits.le

/-- Seventeen digits suffice. -/
lemma isSome_nearestDecimal? (hr : 0 < r)
    (hpoint : (10 : ℚ) ^ (point - 1) * unitsOfOne ≤ unitsOfRank r) :
    (nearestDecimal? r 17 point).isSome = true := by
  obtain ⟨first, second, heq, hnear⟩ := exists_candidates r 17 point
  rw [Nat.cast_ofNat] at heq hnear
  have hgap : 10 ^ (point - 17) * unitsOfOne * 10 ^ 16 ≤ (unitsOfRank r : ℚ) := by
    have hpow : (10 : ℚ) ^ (point - 1) = 10 ^ (point - 17) * 10 ^ 16 := by
      rw [← zpow_natCast, ← zpow_add₀ (by norm_num)]
      congr 1
      push_cast
      ring
    rw [hpow] at hpoint
    linarith
  rw [heq, if_pos (readsBack_iff.2 (cell_of_near hr hgap hnear))]
  rfl

/-! ### The shortest decimal -/

/-- Zeros at the end of the digits count as a power of ten. -/
lemma decimalUnits_zeros {k : ℕ} :
    decimalUnits (10 ^ k * digits) exponent = decimalUnits digits (exponent + k) := by
  rw [decimalUnits, decimalUnits, zpow_add₀ (by norm_num), zpow_natCast]
  push_cast
  ring

lemma stripZeros_append (ds : List Char) : ∃ k, stripZeros ds ++ List.replicate k '0' = ds := by
  have hzeros : ∀ c ∈ ds.reverse.takeWhile (· == '0'), c = '0' := fun c hc => by
    simpa using List.mem_takeWhile_imp hc
  refine ⟨(ds.reverse.takeWhile (· == '0')).length, ?_⟩
  rw [stripZeros, ← List.reverse_replicate, ← List.reverse_append,
    ← List.eq_replicate_iff.2 ⟨rfl, hzeros⟩, List.takeWhile_append_dropWhile, List.reverse_reverse]

/-- The decimal that is found for a finite double other than zero. -/
lemma exists_shortest {x : Double} (hzero : x.rank ≠ 0) : ∃ digits exponent,
    x.shortest = ⟨stripZeros (Nat.toDigits 10 digits), (Nat.toDigits 10 digits).length + exponent⟩ ∧
      Cell x.rank (decimalUnits digits exponent) := by
  have hr : 0 < x.rank := Nat.pos_of_ne_zero hzero
  have hunits : 0 < x.units := (Nat.zero_le _).trans_lt (unitsOfRank_strictMono hr)
  have hpoint := ten_pow_decimalPoint_le hunits unitsOfOne_pos
  rw [le_div_iff₀ (Nat.cast_pos.2 unitsOfOne_pos)] at hpoint
  have hsome := isSome_nearestDecimal? hr hpoint
  have hfound : ((List.range 17).findSome? fun n =>
      nearestDecimal? x.rank (n + 1) (decimalPoint x.units unitsOfOne)).isSome = true :=
    List.findSome?_isSome_iff.2 ⟨16, by simp, hsome⟩
  obtain ⟨⟨digits, exponent⟩, heq⟩ := Option.isSome_iff_exists.1 hfound
  -- Whichever number of digits was found first, it reads back.
  obtain ⟨n, -, hn⟩ := List.exists_of_findSome?_eq_some heq
  refine ⟨digits, exponent, ?_, readsBack_iff.1 (readsBack_of_nearestDecimal? hn)⟩
  change (fun found : ℕ × ℤ => Decimal.mk (stripZeros (Nat.toDigits 10 found.1))
    ((Nat.toDigits 10 found.1).length + found.2)) (Option.getD ((List.range 17).findSome? fun n =>
      nearestDecimal? x.rank (n + 1) (decimalPoint x.units unitsOfOne)) (0, 0)) = _
  rw [heq]
  rfl

/-- The value of the shortest decimal of a double lies in the cell of the double. -/
theorem cell_shortest {x : Double} (hzero : x.rank ≠ 0) :
    Cell x.rank (decimalUnits (Json.digitsValue x.shortest.digits)
      (x.shortest.point - x.shortest.digits.length)) := by
  obtain ⟨digits, exponent, heq, hcell⟩ := exists_shortest hzero
  obtain ⟨k, hk⟩ := stripZeros_append (Nat.toDigits 10 digits)
  have hvalue : digits = 10 ^ k * Json.digitsValue (stripZeros (Nat.toDigits 10 digits)) := by
    rw [← Json.digitsValue_zeros, hk, Json.digitsValue_toDigits]
  have hlength : (Nat.toDigits 10 digits).length =
      (stripZeros (Nat.toDigits 10 digits)).length + k := by
    rw [← List.length_replicate (n := k) (a := '0'), ← List.length_append, hk]
  rw [hvalue, decimalUnits_zeros] at hcell
  rw [heq]
  convert hcell using 2
  dsimp only
  omega

end Double
end ObjectGraph
