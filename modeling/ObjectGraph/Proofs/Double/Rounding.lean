/-
# Rounding finds a rank

The values of the ranks of doubles grow with the ranks, in steps that are no smaller than the
`2 ^ 53`-th part of the value.  Every rank has a cell, the numbers that lie no nearer to its
neighbours, with the midpoints belonging to the even ranks; cells do not overlap, and rounding a
number gives the rank whose cell it lies in.
-/
import ObjectGraph.Double
import Mathlib.Algebra.Order.Field.Rat
import Mathlib.Tactic.Linarith
import Mathlib.Tactic.Positivity
import Mathlib.Tactic.Ring

namespace ObjectGraph.Double

variable {r s low shift : ℕ} {q : ℚ}

/-! ### The values of ranks -/

/-- By how much the significand of a rank is shifted. -/
def binade (rank : ℕ) : ℕ := (rank >>> 52) - 1

/-- The significand of a rank. -/
def significand (rank : ℕ) : ℕ := rank - binade rank <<< 52

lemma unitsOfRank_eq : unitsOfRank r = significand r * 2 ^ binade r := Nat.shiftLeft_eq ..

lemma significand_lt : significand r < 9007199254740992 := by
  unfold significand binade
  omega

/-- The next rank has the next significand, in the same binade or written in the next one. -/
lemma unitsOfRank_succ : unitsOfRank (r + 1) = (significand r + 1) * 2 ^ binade r := by
  rw [unitsOfRank_eq]
  rcases Nat.lt_or_ge (binade r) (binade (r + 1)) with h | h
  · have hb : binade (r + 1) = binade r + 1 := by
      unfold binade at h ⊢
      omega
    have hs : 2 * significand (r + 1) = significand r + 1 := by
      unfold significand binade at *
      omega
    rw [hb, ← hs]
    ring
  · have hb : binade (r + 1) = binade r := by
      unfold binade at h ⊢
      omega
    have hs : significand (r + 1) = significand r + 1 := by
      unfold significand binade at *
      omega
    rw [hb, hs]

lemma unitsOfRank_lt_succ : unitsOfRank r < unitsOfRank (r + 1) := by
  rw [unitsOfRank_succ, unitsOfRank_eq]
  exact Nat.mul_lt_mul_of_pos_right (Nat.lt_succ_self _) (by positivity)

lemma unitsOfRank_strictMono : StrictMono unitsOfRank :=
  strictMono_nat_of_lt_succ fun _ => unitsOfRank_lt_succ

/-- A step is no smaller than the `2 ^ 53`-th part of the value it leads to. -/
lemma unitsOfRank_succ_le :
    unitsOfRank (r + 1) ≤ 9007199254740992 * (unitsOfRank (r + 1) - unitsOfRank r) := by
  have hstep : unitsOfRank (r + 1) - unitsOfRank r = 2 ^ binade r := by
    rw [unitsOfRank_succ, unitsOfRank_eq, ← Nat.sub_mul, Nat.add_sub_cancel_left, Nat.one_mul]
  rw [hstep, unitsOfRank_succ]
  exact Nat.mul_le_mul_right _ significand_lt

/-- The binade and the significand of a rank that is put together from them. -/
lemma unitsOfRank_compose (hlow : low < 9007199254740992)
    (hshift : shift = 0 ∨ 4503599627370496 ≤ low) :
    unitsOfRank (shift <<< 52 + low) = low * 2 ^ shift ∧
      unitsOfRank (shift <<< 52 + low + 1) = (low + 1) * 2 ^ shift := by
  have hb : binade (shift <<< 52 + low) = shift := by
    unfold binade
    omega
  have hs : significand (shift <<< 52 + low) = low := by
    unfold significand
    rw [hb]
    omega
  rw [unitsOfRank_succ, unitsOfRank_eq, hb, hs]
  exact ⟨rfl, rfl⟩

/-! ### Cells -/

/-- A number, in units of the least double, that is rounded to a certain rank. -/
structure Cell (rank : ℕ) (q : ℚ) : Prop where
  lower : (unitsOfRank (rank - 1) + unitsOfRank rank : ℚ) ≤ 2 * q
  upper : 2 * q ≤ (unitsOfRank rank + unitsOfRank (rank + 1) : ℚ)
  even : rank % 2 = 1 → (unitsOfRank (rank - 1) + unitsOfRank rank : ℚ) ≠ 2 * q ∧
    2 * q ≠ (unitsOfRank rank + unitsOfRank (rank + 1) : ℚ)

/-- A number between two neighbours lies in the cell of one of them. -/
lemma Cell.eq_or_eq (h : Cell s q) (hlow : unitsOfRank r ≤ q) (hhigh : q < unitsOfRank (r + 1)) :
    s = r ∨ s = r + 1 := by
  have hmono {a b : ℕ} (hab : a ≤ b) : (unitsOfRank a : ℚ) ≤ unitsOfRank b :=
    Nat.cast_le.2 (unitsOfRank_strictMono.monotone hab)
  have hstrict {a b : ℕ} (hab : a < b) : (unitsOfRank a : ℚ) < unitsOfRank b :=
    Nat.cast_lt.2 (unitsOfRank_strictMono hab)
  rcases Nat.lt_trichotomy s r with hs | rfl | hs
  · have h1 := hstrict hs
    have h2 := hmono (Nat.succ_le_of_lt hs)
    have h3 := h.upper
    linarith
  · exact .inl rfl
  · rcases Nat.lt_or_ge (r + 1) s with hs' | hs'
    · have h1 := hmono (Nat.le_sub_one_of_lt hs')
      have h2 := hstrict hs'
      have h3 := h.lower
      linarith
    · exact .inr (by omega)

/-- Between two neighbours, a number is rounded to the nearer one, or to the even one. -/
lemma Cell.eq_if (h : Cell s q) (hlow : unitsOfRank r ≤ q) (hhigh : q < unitsOfRank (r + 1)) :
    s = if (unitsOfRank r + unitsOfRank (r + 1) : ℚ) < 2 * q ∨
      (unitsOfRank r + unitsOfRank (r + 1) : ℚ) = 2 * q ∧ r % 2 = 1 then r + 1 else r := by
  rcases h.eq_or_eq hlow hhigh with rfl | rfl
  · rw [if_neg]
    rintro (hlt | ⟨heq, hodd⟩)
    · exact absurd h.upper (not_le_of_gt hlt)
    · exact (h.even hodd).2 heq.symm
  · rw [if_pos]
    have hle := h.lower
    rw [Nat.add_sub_cancel] at hle
    rcases hle.lt_or_eq with hlt | heq
    · exact .inl hlt
    · refine .inr ⟨heq, ?_⟩
      by_contra hodd
      refine (h.even (by omega)).1 ?_
      rwa [Nat.add_sub_cancel]

/-! ### Rounding -/

/-- How many units make one. -/
def unitsOfOne : ℕ := 1 <<< 1074

lemma one_shiftLeft_pos (k : ℕ) : 0 < 1 <<< k := by
  rw [Nat.shiftLeft_eq, Nat.one_mul]
  exact Nat.two_pow_pos k

lemma shiftLeft_eq_mul_one (n k : ℕ) : n <<< k = n * 1 <<< k := by
  rw [Nat.shiftLeft_eq, Nat.shiftLeft_eq, Nat.one_mul]

lemma unitsOfOne_pos : 0 < unitsOfOne := one_shiftLeft_pos 1074

section Ratio

variable {num den scaled : ℕ}

/-- Shifted by its binade, a number has at most 53 binary digits. -/
lemma div_shift_lt {n : ℕ} : n / 2 ^ (n.log2 - 52) < 9007199254740992 := by
  have hpow : 2 ^ (n.log2 + 1) ≤ 2 ^ (n.log2 - 52) * 2 ^ 53 := by
    rw [← Nat.pow_add]
    exact Nat.pow_le_pow_right (by decide) (by omega)
  exact Nat.div_lt_of_lt_mul (Nat.lt_log2_self.trans_le hpow)

/-- It has 53 of them unless it is not shifted at all. -/
lemma le_div_shift {n : ℕ} : n.log2 - 52 = 0 ∨ 4503599627370496 ≤ n / 2 ^ (n.log2 - 52) := by
  rcases Nat.eq_zero_or_pos (n.log2 - 52) with h | h
  · exact .inl h
  · refine .inr ((Nat.le_div_iff_mul_le (Nat.two_pow_pos _)).2 ?_)
    have hn : n ≠ 0 := by
      rintro rfl
      simp at h
    have hpow : 2 ^ 52 * 2 ^ (n.log2 - 52) = 2 ^ n.log2 := by
      rw [← Nat.pow_add]
      congr 1
      omega
    exact hpow.trans_le (Nat.log2_self_le hn)

/-- Where a ratio lies between two neighbours is what is left of its division by the unit. -/
lemma ratio_cmp {low rest : ℕ} (hden : 0 < den)
    (h : den * 2 ^ shift * low + rest = scaled) (hrest : rest < den * 2 ^ shift) :
    ((low * 2 ^ shift : ℕ) : ℚ) ≤ scaled / den ∧
      (scaled / den : ℚ) < ((low + 1) * 2 ^ shift : ℕ) ∧
      (((low * 2 ^ shift : ℕ) + ((low + 1) * 2 ^ shift : ℕ) : ℚ) < 2 * (scaled / den) ↔
        den * 2 ^ shift < 2 * rest) ∧
      (((low * 2 ^ shift : ℕ) + ((low + 1) * 2 ^ shift : ℕ) : ℚ) = 2 * (scaled / den) ↔
        2 * rest = den * 2 ^ shift) := by
  have hd : (0 : ℚ) < den := Nat.cast_pos.2 hden
  have hlow : low * 2 ^ shift * den = den * 2 ^ shift * low := by ring
  have hhigh : (low + 1) * 2 ^ shift * den = den * 2 ^ shift * low + den * 2 ^ shift := by ring
  refine ⟨?_, ?_, ?_, ?_⟩
  · rw [le_div_iff₀ hd]
    norm_cast
    omega
  · rw [div_lt_iff₀ hd]
    norm_cast
    omega
  · rw [← mul_div_assoc, lt_div_iff₀ hd]
    norm_cast
    rw [Nat.add_mul]
    omega
  · rw [← mul_div_assoc, eq_div_iff hd.ne']
    norm_cast
    rw [Nat.add_mul]
    omega

/-- The number nearest to a ratio has the rank whose cell the ratio lies in. -/
lemma ofRatio_eq (hden : 0 < den) (h : Cell r (num * unitsOfOne / den)) :
    ofRatio num den = ofRank r := by
  have hunit (shift : ℕ) : den <<< shift = den * 2 ^ shift := Nat.shiftLeft_eq ..
  have hscaled : num <<< 1074 = num * unitsOfOne := shiftLeft_eq_mul_one num 1074
  simp only [ofRatio, hscaled, hunit]
  -- From here on only the bounds of the shift matter, not how it is found.
  rw [← Nat.cast_mul] at h
  generalize num * unitsOfOne = scaled at *
  have hlt : scaled / den / 2 ^ ((scaled / den).log2 - 52) < 9007199254740992 := div_shift_lt
  have hge := le_div_shift (n := scaled / den)
  generalize (scaled / den).log2 - 52 = shift at *
  rw [Nat.div_div_eq_div_mul] at hlt hge
  obtain ⟨hr, hr'⟩ := unitsOfRank_compose hlt hge
  obtain ⟨hlow, hhigh, hup, htie⟩ := ratio_cmp hden (Nat.div_add_mod scaled (den * 2 ^ shift))
    (Nat.mod_lt scaled (Nat.mul_pos hden (Nat.two_pow_pos shift)))
  rw [← hr] at hlow hup htie
  rw [← hr'] at hhigh hup htie
  rw [h.eq_if hlow hhigh]
  refine congrArg ofRank ?_
  -- The rank is even exactly when its significand is.
  have hodd : (shift <<< 52 + scaled / (den * 2 ^ shift)) % 2 = scaled / (den * 2 ^ shift) % 2 := by
    omega
  simp only [hup, htie, hodd, gt_iff_lt]
  split
  · exact (Nat.add_assoc ..).symm
  · omega

end Ratio

/-! ### Rounding keeps the order -/

/-- Of two numbers, the greater one is not rounded to a lower rank. -/
lemma Cell.rank_le {p : ℚ} (h : Cell r p) (h' : Cell s q) (hle : p ≤ q) : r ≤ s := by
  by_contra hlt
  have hbelow : (unitsOfRank s : ℚ) ≤ unitsOfRank (r - 1) :=
    Nat.cast_le.2 (unitsOfRank_strictMono.monotone (by omega))
  have habove : (unitsOfRank (s + 1) : ℚ) ≤ unitsOfRank r :=
    Nat.cast_le.2 (unitsOfRank_strictMono.monotone (by omega))
  have hlower := h.lower
  have hupper := h'.upper
  -- both are the midpoint of two neighbours, which belongs to only one of them
  have hsame : unitsOfRank (s + 1) = unitsOfRank r := by
    have heq : (unitsOfRank (s + 1) : ℚ) = unitsOfRank r := by linarith
    exact_mod_cast heq
  obtain rfl : s + 1 = r := unitsOfRank_strictMono.injective hsame
  rw [Nat.add_sub_cancel] at hlower
  rcases Nat.mod_two_eq_zero_or_one s with hs | hs
  · have hodd := (h.even (by omega)).1
    rw [Nat.add_sub_cancel] at hodd
    exact hodd (by linarith)
  · exact (h'.even hs).2 (by linarith)

lemma cell_natCast {n : ℕ} (hlower : unitsOfRank (r - 1) + unitsOfRank r ≤ 2 * n)
    (hupper : 2 * n ≤ unitsOfRank r + unitsOfRank (r + 1))
    (heven : r % 2 = 1 → unitsOfRank (r - 1) + unitsOfRank r ≠ 2 * n ∧
      2 * n ≠ unitsOfRank r + unitsOfRank (r + 1)) : Cell r n :=
  ⟨by exact_mod_cast hlower, by exact_mod_cast hupper, fun hodd => by exact_mod_cast heven hodd⟩

/-- Every number of units is rounded to some rank. -/
lemma exists_cell (n : ℕ) : ∃ r, Cell r n := by
  have hex : ∃ r, n < unitsOfRank (r + 1) := ⟨n, unitsOfRank_strictMono.le_apply⟩
  obtain ⟨r, hhigh, hleast⟩ : ∃ r, n < unitsOfRank (r + 1) ∧ ∀ s < r, ¬ n < unitsOfRank (s + 1) :=
    ⟨Nat.find hex, Nat.find_spec hex, fun s hs => Nat.find_min hex hs⟩
  have hlow : unitsOfRank r ≤ n := by
    cases r with
    | zero => exact Nat.zero_le _
    | succ s => exact Nat.le_of_not_lt (hleast s (Nat.lt_succ_self s))
  have hbefore : unitsOfRank (r - 1) ≤ unitsOfRank r :=
    unitsOfRank_strictMono.monotone (Nat.sub_le r 1)
  have hstrict : r % 2 = 1 → unitsOfRank (r - 1) < unitsOfRank r :=
    fun hodd => unitsOfRank_strictMono (by omega)
  have hafter : unitsOfRank (r + 1) < unitsOfRank (r + 1 + 1) := unitsOfRank_lt_succ
  by_cases hnear : 2 * n < unitsOfRank r + unitsOfRank (r + 1) ∨
      2 * n = unitsOfRank r + unitsOfRank (r + 1) ∧ r % 2 = 0
  · refine ⟨r, cell_natCast (by omega) (by omega) fun hodd => ?_⟩
    have hbelow := hstrict hodd
    omega
  · have hsub : unitsOfRank (r + 1 - 1) = unitsOfRank r := congrArg _ (Nat.add_sub_cancel r 1)
    exact ⟨r + 1, cell_natCast (by omega) (by omega) fun hodd => by omega⟩

lemma rank_ofRatio_mono {m n : ℕ} (h : m ≤ n) : (ofRatio m 1).rank ≤ (ofRatio n 1).rank := by
  have hcell (k : ℕ) : ∃ r, Cell r (k * unitsOfOne) ∧ ofRatio k 1 = ofRank r := by
    obtain ⟨r, hr⟩ := exists_cell (k * unitsOfOne)
    rw [Nat.cast_mul] at hr
    exact ⟨r, hr, ofRatio_eq Nat.one_pos (by rwa [Nat.cast_one, div_one])⟩
  obtain ⟨r, hr, hm⟩ := hcell m
  obtain ⟨s, hs, hn⟩ := hcell n
  have hle : (m * unitsOfOne : ℚ) ≤ n * unitsOfOne := by
    exact_mod_cast Nat.mul_le_mul_right unitsOfOne h
  rw [hm, hn]
  exact min_le_min_right _ (hr.rank_le hs hle)

lemma key_ofInt (k : ℤ) : (ofInt k).key
    = if k < 0 then -((ofRatio k.natAbs 1).rank : ℤ) else (ofRatio k.natAbs 1).rank := by
  simp only [ofInt, key, decide_eq_true_eq]

/-- The double nearest to the greater of two integers is not less. -/
lemma key_ofInt_mono {i j : ℤ} (h : i ≤ j) : (ofInt i).key ≤ (ofInt j).key := by
  rw [key_ofInt, key_ofInt]
  rcases lt_or_ge i 0 with hi | hi
  · rcases lt_or_ge j 0 with hj | hj
    · have hmono : (ofRatio j.natAbs 1).rank ≤ (ofRatio i.natAbs 1).rank :=
        rank_ofRatio_mono (by omega)
      rw [if_pos hi, if_pos hj]
      omega
    · rw [if_pos hi, if_neg (by omega)]
      omega
  · have hmono : (ofRatio i.natAbs 1).rank ≤ (ofRatio j.natAbs 1).rank :=
      rank_ofRatio_mono (by omega)
    rw [if_neg (by omega), if_neg (by omega)]
    omega

/-! ### Integers that are doubles -/

/-- A number that is the value of a rank is rounded to it. -/
lemma cell_self (r : ℕ) : Cell r (unitsOfRank r) := by
  have hbefore : unitsOfRank (r - 1) ≤ unitsOfRank r :=
    unitsOfRank_strictMono.monotone (Nat.sub_le r 1)
  have hafter : unitsOfRank r < unitsOfRank (r + 1) := unitsOfRank_lt_succ
  refine cell_natCast (by omega) (by omega) fun hodd => ?_
  have hstrict : unitsOfRank (r - 1) < unitsOfRank r := unitsOfRank_strictMono (by omega)
  omega

/-- Integers of up to 53 binary digits are values of finite ranks. -/
lemma exists_unitsOfRank_eq {n : ℕ} (hn : n ≤ 9007199254740992) :
    ∃ r ≤ lastRank, unitsOfRank r = n * unitsOfOne := by
  -- the exponent is named lest powers of it be multiplied out
  obtain ⟨e, he⟩ : ∃ e, e = 1074 := ⟨_, rfl⟩
  have hone : unitsOfOne = 2 ^ e := by
    rw [unitsOfOne, ← he, Nat.shiftLeft_eq, Nat.one_mul]
  have hcompose (low shift : ℕ) (hlow : low < 9007199254740992) (hge : 4503599627370496 ≤ low)
      (hshift : shift ≤ e + 1) (heq : low * 2 ^ shift = n * unitsOfOne) :
      ∃ r ≤ lastRank, unitsOfRank r = n * unitsOfOne := by
    refine ⟨shift <<< 52 + low, ?_, (unitsOfRank_compose hlow (.inr hge)).1.trans heq⟩
    unfold lastRank
    omega
  rcases Nat.eq_zero_or_pos n with rfl | hpos
  · exact ⟨0, Nat.zero_le _, by rw [Nat.zero_mul]; rfl⟩
  rcases hn.lt_or_eq with hlt | rfl
  · have hlog : n.log2 ≤ 52 := Nat.le_of_lt_succ ((Nat.log2_lt hpos.ne').2 hlt)
    have hlow : 2 ^ n.log2 ≤ n := Nat.log2_self_le hpos.ne'
    have hhigh : n < 2 ^ (n.log2 + 1) := Nat.lt_log2_self
    have hsum : n.log2 + (52 - n.log2) = 52 := by omega
    have hsum' : n.log2 + 1 + (52 - n.log2) = 53 := by omega
    have hsum'' : 52 - n.log2 + (e - (52 - n.log2)) = e := by omega
    refine hcompose (n * 2 ^ (52 - n.log2)) (e - (52 - n.log2)) ?_ ?_ (by omega) ?_
    · calc n * 2 ^ (52 - n.log2) < 2 ^ (n.log2 + 1) * 2 ^ (52 - n.log2) :=
            Nat.mul_lt_mul_of_pos_right hhigh (Nat.two_pow_pos _)
        _ = 2 ^ 53 := by rw [← Nat.pow_add, hsum']
    · calc 2 ^ 52 = 2 ^ n.log2 * 2 ^ (52 - n.log2) := by rw [← Nat.pow_add, hsum]
        _ ≤ n * 2 ^ (52 - n.log2) := Nat.mul_le_mul_right _ hlow
    · rw [hone, Nat.mul_assoc, ← Nat.pow_add, hsum'']
  · refine hcompose 4503599627370496 (e + 1) (by decide) (Nat.le_refl _) (Nat.le_refl _) ?_
    rw [hone, Nat.pow_succ', ← Nat.mul_assoc]

/-- No two integers of up to 53 binary digits have the same nearest double. -/
lemma rank_ofRatio_injOn {m n : ℕ} (hm : m ≤ 9007199254740992) (hn : n ≤ 9007199254740992)
    (h : (ofRatio m 1).rank = (ofRatio n 1).rank) : m = n := by
  have hrank {k : ℕ} (hk : k ≤ 9007199254740992) :
      unitsOfRank (ofRatio k 1).rank = k * unitsOfOne := by
    obtain ⟨r, hr, hunits⟩ := exists_unitsOfRank_eq hk
    have hcell : Cell r (k * unitsOfOne / (1 : ℕ)) := by
      rw [Nat.cast_one, div_one, ← Nat.cast_mul, ← hunits]
      exact cell_self r
    have hrank : (ofRank r).rank = r := min_eq_left hr
    rw [ofRatio_eq Nat.one_pos hcell, hrank, hunits]
  have hunits : m * unitsOfOne = n * unitsOfOne := by rw [← hrank hm, ← hrank hn, h]
  exact Nat.eq_of_mul_eq_mul_right unitsOfOne_pos hunits

lemma key_ofInt_injOn {i j : ℤ} (hi : i.natAbs ≤ 9007199254740992)
    (hj : j.natAbs ≤ 9007199254740992) (h : (ofInt i).key = (ofInt j).key) : i = j := by
  have hzero {k : ℕ} (hk : k ≤ 9007199254740992) (hr : (ofRatio k 1).rank = 0) : k = 0 :=
    rank_ofRatio_injOn hk (Nat.zero_le _) hr
  have habs : (ofRatio i.natAbs 1).rank = (ofRatio j.natAbs 1).rank → i.natAbs = j.natAbs :=
    rank_ofRatio_injOn hi hj
  rw [key_ofInt, key_ofInt] at h
  split at h <;> split at h
  · have := habs (by omega)
    omega
  · have := hzero hi (by omega)
    omega
  · have := hzero hj (by omega)
    omega
  · have := habs (by omega)
    omega

/-! ### Decimals -/

/-- The value of a decimal in units of the least double. -/
def decimalUnits (digits : ℕ) (exponent : ℤ) : ℚ := digits * 10 ^ exponent * unitsOfOne

lemma cast_tenTo {n : ℕ} : (tenTo n : ℚ) = 10 ^ n := Nat.cast_pow 10 n

/-- A power of eight is no greater than that of ten. -/
lemma two_pow_le (k : ℕ) : (2 : ℚ) ^ (3 * k) ≤ 10 ^ k := by
  rw [pow_mul]
  exact pow_le_pow_left₀ (by norm_num) (by norm_num) k

lemma cast_one_shiftLeft (k : ℕ) : ((1 <<< k : ℕ) : ℚ) = 2 ^ k := by
  rw [Nat.shiftLeft_eq, Nat.one_mul, Nat.cast_pow, Nat.cast_ofNat]

lemma cast_unitsOfOne : (unitsOfOne : ℚ) = 2 ^ (3 * 358) := cast_one_shiftLeft (3 * 358)

lemma unitsOfOne_le : ∃ k ≤ 358, (unitsOfOne : ℚ) ≤ 10 ^ k :=
  ⟨358, Nat.le_refl _, cast_unitsOfOne.trans_le (two_pow_le 358)⟩

/-- The values of finite ranks have a bound. -/
lemma unitsOfRank_lastRank_le : ∃ k ≤ 342, (unitsOfRank lastRank : ℚ) ≤ 10 ^ k * unitsOfOne := by
  have hb : binade lastRank = 2046 := by rfl
  have hs : significand lastRank = 4503599627370496 := by rfl
  have hpow : (4503599627370496 : ℚ) = 2 ^ 52 := by norm_num
  have heq : (unitsOfRank lastRank : ℚ) = 2 ^ 1024 * unitsOfOne := by
    rw [unitsOfRank_eq, hb, hs, cast_unitsOfOne, Nat.cast_mul, Nat.cast_pow, Nat.cast_ofNat,
      Nat.cast_ofNat, hpow, ← pow_add, ← pow_add]
  refine ⟨342, Nat.le_refl _, heq.trans_le (mul_le_mul_of_nonneg_right ?_ (Nat.cast_nonneg _))⟩
  exact (pow_le_pow_right₀ (by norm_num) (by norm_num)).trans (two_pow_le 342)

lemma le_of_digits {digits : ℕ} (h : digits ≠ 0) :
    10 ^ ((Nat.toDigits 10 digits).length - 1) ≤ digits := by
  have hlen : 0 < (Nat.toDigits 10 digits).length := Nat.length_toDigits_pos
  rcases Nat.eq_zero_or_pos ((Nat.toDigits 10 digits).length - 1) with hzero | hpos
  · rw [hzero]
    exact Nat.one_le_iff_ne_zero.2 h
  · by_contra hlt
    have := (Nat.length_toDigits_le_iff (by decide) hpos).2 (Nat.lt_of_not_le hlt)
    omega

lemma lt_of_digits (digits : ℕ) : digits < 10 ^ (Nat.toDigits 10 digits).length :=
  (Nat.length_toDigits_le_iff (by decide) Nat.length_toDigits_pos).1 (Nat.le_refl _)

/-- The leading digit of a decimal is not zero. -/
lemma zpow_le_decimal {digits : ℕ} (h : digits ≠ 0) (exponent : ℤ) :
    (10 : ℚ) ^ ((Nat.toDigits 10 digits).length + exponent - 1) ≤ digits * 10 ^ exponent := by
  have hdigits : (10 : ℚ) ^ ((Nat.toDigits 10 digits).length - 1) ≤ digits := by
    exact_mod_cast le_of_digits h
  have hpow : (0 : ℚ) < 10 ^ exponent := zpow_pos (by norm_num) _
  calc (10 : ℚ) ^ ((Nat.toDigits 10 digits).length + exponent - 1)
      = 10 ^ ((Nat.toDigits 10 digits).length - 1) * 10 ^ exponent := by
        rw [← zpow_natCast, ← zpow_add₀ (by norm_num), Nat.cast_sub Nat.length_toDigits_pos]
        congr 1
        push_cast
        ring
    _ ≤ digits * 10 ^ exponent := by gcongr

lemma decimal_lt_zpow (digits : ℕ) (exponent : ℤ) :
    digits * 10 ^ exponent < (10 : ℚ) ^ ((Nat.toDigits 10 digits).length + exponent) := by
  have hdigits : (digits : ℚ) < 10 ^ (Nat.toDigits 10 digits).length := by
    exact_mod_cast lt_of_digits digits
  have hpow : (0 : ℚ) < 10 ^ exponent := zpow_pos (by norm_num) _
  rw [zpow_add₀ (by norm_num), zpow_natCast]
  gcongr

/-- The values of finite doubles other than zero lie between two powers of ten. -/
lemma bounds_of_cell {value : ℚ} (hr : 0 < r) (hr' : r < lastRank)
    (h : Cell r (value * unitsOfOne)) :
    ∃ k ≤ 358, ∃ l ≤ 342, 1 ≤ value * 10 ^ (1 + k) ∧ value ≤ 10 ^ l := by
  have hunits : (0 : ℚ) < unitsOfOne := Nat.cast_pos.2 unitsOfOne_pos
  obtain ⟨k, hk, hone⟩ := unitsOfOne_le
  obtain ⟨l, hl, hlast⟩ := unitsOfRank_lastRank_le
  have hlower := h.lower
  have hupper := h.upper
  generalize (unitsOfOne : ℚ) = units at *
  have hge : 1 ≤ value * (2 * units) := by
    have h1 : (1 : ℚ) ≤ unitsOfRank r :=
      Nat.one_le_cast.2 (Nat.one_le_of_lt (unitsOfRank_strictMono hr))
    have h2 : (0 : ℚ) ≤ unitsOfRank (r - 1) := Nat.cast_nonneg _
    linarith
  have hpos : 0 < value := pos_of_mul_pos_left (one_pos.trans_le hge) (by positivity)
  refine ⟨k, hk, l, hl, ?_, ?_⟩
  · calc 1 ≤ value * (2 * units) := hge
      _ ≤ value * (10 * 10 ^ k) := by
          gcongr
          norm_num
      _ = value * 10 ^ (1 + k) := by rw [pow_add, pow_one]
  · have h1 : (unitsOfRank r : ℚ) ≤ unitsOfRank lastRank :=
      Nat.cast_le.2 (unitsOfRank_strictMono.monotone hr'.le)
    have h2 : (unitsOfRank (r + 1) : ℚ) ≤ unitsOfRank lastRank :=
      Nat.cast_le.2 (unitsOfRank_strictMono.monotone hr')
    exact le_of_mul_le_mul_right (by linarith) hunits

/-- Decimals in the cell of a finite double are not out of all range. -/
lemma magnitude_of_cell {digits : ℕ} {exponent : ℤ} (hr : 0 < r) (hr' : r < lastRank)
    (h : Cell r (decimalUnits digits exponent)) :
    digits ≠ 0 ∧ -400 ≤ (Nat.toDigits 10 digits).length + exponent ∧
      (Nat.toDigits 10 digits).length + exponent ≤ 400 := by
  obtain ⟨k, hk, l, hl, hge, hle⟩ := bounds_of_cell hr hr' h
  have hne : digits ≠ 0 := by
    rintro rfl
    norm_num at hge
  -- Powers of ten are compared by their exponents.
  have hlower : (1 : ℚ) < 10 ^ ((Nat.toDigits 10 digits).length + exponent + (1 + k : ℕ)) := by
    rw [zpow_add₀ (by norm_num), zpow_natCast]
    exact hge.trans_lt (mul_lt_mul_of_pos_right (decimal_lt_zpow digits exponent) (by positivity))
  have hupper : (10 : ℚ) ^ ((Nat.toDigits 10 digits).length + exponent - 1) ≤ 10 ^ (l : ℤ) := by
    rw [zpow_natCast]
    exact (zpow_le_decimal hne exponent).trans hle
  have hmin := (one_lt_zpow_iff_right₀ (by norm_num)).1 hlower
  have hmax := (zpow_le_zpow_iff_right₀ (by norm_num)).1 hupper
  exact ⟨hne, by omega, by omega⟩

/-- A decimal is read as the double whose cell it lies in. -/
lemma ofDecimal_eq {digits : ℕ} {exponent : ℤ} (hr : 0 < r) (hr' : r < lastRank)
    (h : Cell r (decimalUnits digits exponent)) : ofDecimal digits exponent = ofRank r := by
  obtain ⟨hne, hmin, hmax⟩ := magnitude_of_cell hr hr' h
  unfold ofDecimal
  dsimp only
  rw [if_neg (by omega), if_neg (by omega)]
  split
  · rename_i hexponent
    obtain ⟨n, rfl⟩ := Int.eq_ofNat_of_zero_le hexponent
    refine ofRatio_eq Nat.one_pos ?_
    rw [decimalUnits, zpow_natCast] at h
    rwa [Int.toNat_natCast, Nat.cast_mul, cast_tenTo, Nat.cast_one, div_one]
  · rename_i hexponent
    obtain ⟨n, hn⟩ := Int.eq_ofNat_of_zero_le (a := -exponent) (by omega)
    obtain rfl : exponent = -(n : ℤ) := by omega
    refine ofRatio_eq (Nat.pow_pos (by decide)) ?_
    rw [decimalUnits, zpow_neg, zpow_natCast] at h
    rw [neg_neg, Int.toNat_natCast, cast_tenTo]
    convert h using 1
    ring

end ObjectGraph.Double
