/-
# The order of values

Integers that fit into 64 bits are compared exactly, any other two numbers as doubles.  Being
smaller is transitive all the same: the nearest doubles of integers are in the order of the
integers.  Not being told apart is not, for a double is not told from any of the integers it is
the nearest to, while these are told from each other.

The main statement says that this is the only way: among values of which none stands between two
integers in this manner, the order is a total preorder.
-/
import ObjectGraph.Memory.Order
import ObjectGraph.Proofs.Cells
import ObjectGraph.Proofs.Double.Rounding
import ObjectGraph.Proofs.Json.Equality

namespace ObjectGraph

/-! ### The order of numbers -/

namespace Json.Number

variable {k m n : Number}

lemma order_of_some {i j : Int64} (hm : m.int64? = some i) (hn : n.int64? = some j) :
    m.order n = compare i.toInt j.toInt := by
  simp only [order, hm, hn]

lemma order_of_none (h : m.int64? = none ∨ n.int64? = none) :
    m.order n = compare m.toDouble.key n.toDouble.key := by
  rcases h with h | h
  · simp only [order, h]
    rfl
  · cases hm : m.int64? <;> simp only [order, h, hm] <;> rfl

lemma toDouble_of_some {i : Int64} (hm : m.int64? = some i) :
    m.toDouble = Double.ofInt i.toInt := by
  cases m with
  | int j =>
    rw [int64?_eq_some hm]
    rfl
  | float x => cases hm

lemma eq_int {i : Int64} (hm : m.int64? = some i) : m = .int i.toInt := by
  cases m with
  | int j => rw [int64?_eq_some hm]
  | float x => cases hm

lemma order_swap (m n : Number) : n.order m = (m.order n).swap := by
  cases hm : m.int64? with
  | none =>
    rw [order_of_none (.inr hm), order_of_none (.inl hm)]
    exact Std.OrientedCmp.eq_swap
  | some i =>
    cases hn : n.int64? with
    | none =>
      rw [order_of_none (.inl hn), order_of_none (.inr hn)]
      exact Std.OrientedCmp.eq_swap
    | some j =>
      rw [order_of_some hm hn, order_of_some hn hm]
      exact Std.OrientedCmp.eq_swap

/-- The smaller of two numbers is not the greater one as a double. -/
lemma key_le_of_order_lt (h : m.order n = .lt) : m.toDouble.key ≤ n.toDouble.key := by
  cases hm : m.int64? with
  | none =>
    rw [order_of_none (.inl hm), compare_lt_iff_lt] at h
    exact h.le
  | some i =>
    cases hn : n.int64? with
    | none =>
      rw [order_of_none (.inr hn), compare_lt_iff_lt] at h
      exact h.le
    | some j =>
      rw [order_of_some hm hn, compare_lt_iff_lt] at h
      rw [toDouble_of_some hm, toDouble_of_some hn]
      exact Double.key_ofInt_mono h.le

lemma order_lt_of_key_lt (h : m.toDouble.key < n.toDouble.key) : m.order n = .lt := by
  cases hm : m.int64? with
  | none => rwa [order_of_none (.inl hm), compare_lt_iff_lt]
  | some i =>
    cases hn : n.int64? with
    | none => rwa [order_of_none (.inr hn), compare_lt_iff_lt]
    | some j =>
      rw [order_of_some hm hn, compare_lt_iff_lt]
      rw [toDouble_of_some hm, toDouble_of_some hn] at h
      exact lt_of_not_ge fun hle => absurd (Double.key_ofInt_mono hle) (not_le_of_gt h)

/-- Being smaller is transitive, whether numbers are compared exactly or as doubles. -/
lemma order_trans (h : k.order m = .lt) (h' : m.order n = .lt) : k.order n = .lt := by
  have hkm := key_le_of_order_lt h
  have hmn := key_le_of_order_lt h'
  rcases hmn.lt_or_eq with hlt | hmn
  · exact order_lt_of_key_lt (hkm.trans_lt hlt)
  · rcases hkm.lt_or_eq with hlt | hkm
    · exact order_lt_of_key_lt (hlt.trans_eq hmn)
    · -- as doubles all three are the same, so they are integers that are compared exactly
      have hexact {a b : Number} (hab : a.order b = .lt) (heq : a.toDouble.key = b.toDouble.key) :
          ∃ i j, a.int64? = some i ∧ b.int64? = some j := by
        by_contra hno
        have hnone : a.int64? = none ∨ b.int64? = none := by
          cases ha : a.int64? <;> cases hb : b.int64? <;> simp_all
        rw [order_of_none hnone, heq, compare_lt_iff_lt] at hab
        exact absurd hab (lt_irrefl _)
      obtain ⟨i, j, hk, hm⟩ := hexact h hkm
      obtain ⟨j', l, hm', hn⟩ := hexact h' hmn
      obtain rfl := Option.some.inj (hm.symm.trans hm')
      rw [order_of_some hk hm, compare_lt_iff_lt] at h
      rw [order_of_some hm hn, compare_lt_iff_lt] at h'
      rw [order_of_some hk hn, compare_lt_iff_lt]
      exact h.trans h'

/-- Equal numbers stand in one place of the order. -/
lemma order_congr (h : m.same n = true) (k : Number) : m.order k = n.order k := by
  cases m with
  | int i =>
    cases n with
    | int j => rw [eq_of_beq h]
    | float y => cases h
  | float x =>
    cases n with
    | int j => cases h
    | float y =>
      have hkey : x.key = y.key := eq_of_beq h
      rw [order_of_none (.inl rfl), order_of_none (.inl rfl)]
      show compare x.key _ = compare y.key _
      rw [hkey]

/-- Numbers that are not told apart are the same as doubles. -/
lemma key_eq_of_order_eq (h : m.order n = .eq) : m.toDouble.key = n.toDouble.key := by
  cases hm : m.int64? with
  | none => rwa [order_of_none (.inl hm), compare_eq_iff_eq] at h
  | some i =>
    cases hn : n.int64? with
    | none => rwa [order_of_none (.inr hn), compare_eq_iff_eq] at h
    | some j =>
      rw [order_of_some hm hn, compare_eq_iff_eq] at h
      rw [toDouble_of_some hm, toDouble_of_some hn, h]

/-- A number that is compared as a double and is told from neither of two integers, which are told
from each other. -/
structure Blurs (m : Number) (i j : Int64) : Prop where
  asDouble : m.int64? = none
  left : m.toDouble.equals (.ofInt i.toInt) = true
  right : m.toDouble.equals (.ofInt j.toInt) = true
  ne : i ≠ j

/-- Of numbers that are not told from the one between them, only two integers that it blurs are
told from each other. -/
lemma order_eq_trans_or (h : k.order m = .eq) (h' : m.order n = .eq) :
    k.order n = .eq ∨ ∃ i j, k.int64? = some i ∧ n.int64? = some j ∧ m.Blurs i j := by
  have hkm := key_eq_of_order_eq h
  have hmn := key_eq_of_order_eq h'
  cases hk : k.int64? with
  | none =>
    left
    rw [order_of_none (.inl hk), compare_eq_iff_eq]
    exact hkm.trans hmn
  | some i =>
    cases hn : n.int64? with
    | none =>
      left
      rw [order_of_none (.inr hn), compare_eq_iff_eq]
      exact hkm.trans hmn
    | some j =>
      by_cases hij : i = j
      · left
        rw [order_of_some hk hn, hij, compare_eq_iff_eq]
      · right
        rw [toDouble_of_some hk] at hkm
        rw [toDouble_of_some hn] at hmn
        refine ⟨i, j, rfl, rfl, ?_, beq_iff_eq.2 hkm.symm, beq_iff_eq.2 hmn, hij⟩
        -- an integer in between would be compared exactly with both of them
        by_contra hsome
        obtain ⟨l, hm⟩ := Option.ne_none_iff_exists'.1 hsome
        rw [order_of_some hk hm, compare_eq_iff_eq] at h
        rw [order_of_some hm hn, compare_eq_iff_eq] at h'
        exact hij (Int64.toInt_inj.1 (h.trans h'))

lemma Blurs.order_eq {i j : Int64} (h : m.Blurs i j) :
    (int i.toInt).order m = .eq ∧ m.order (int j.toInt) = .eq ∧
      (int i.toInt).order (int j.toInt) ≠ .eq := by
  have hi : (int i.toInt).int64? = some i := int64?_toInt i
  have hj : (int j.toInt).int64? = some j := int64?_toInt j
  refine ⟨?_, ?_, fun heq => h.ne ?_⟩
  · rw [order_of_none (.inr h.asDouble), compare_eq_iff_eq]
    exact (beq_iff_eq.1 h.left).symm
  · rw [order_of_none (.inl h.asDouble), compare_eq_iff_eq]
    exact beq_iff_eq.1 h.right
  · rw [order_of_some hi hj, compare_eq_iff_eq] at heq
    exact Int64.toInt_inj.1 heq

end Json.Number

/-! ### The order of values -/

section Values

variable {a b c : Option Json}

lemma compareValues_swap (a b : Option Json) : compareValues b a = (compareValues a b).swap := by
  have hboolean (p q : Bool) : compare q p = (compare p q).swap := Std.OrientedCmp.eq_swap
  have hstring (s t : String) : compare t s = (compare s t).swap := Std.OrientedCmp.eq_swap
  rcases a with _ | _ | _ | _ | _ | _ | _ <;> rcases b with _ | _ | _ | _ | _ | _ | _ <;>
    first
    | rfl
    | exact hboolean _ _
    | exact hstring _ _
    | exact Json.Number.order_swap _ _

lemma compareValues_of_kindRank_lt (h : kindRank a < kindRank b) : compareValues a b = .lt := by
  unfold compareValues
  split
  · cases h
  · exact absurd h (lt_irrefl 1)
  · exact absurd h (lt_irrefl 2)
  · exact compare_lt_iff_lt.2 h

/-- A value is smaller than others of its kind, or of a smaller kind. -/
lemma compareValues_eq_lt (h : compareValues a b = .lt) :
    (∃ p q, a = some (.boolean p) ∧ b = some (.boolean q) ∧ compare p q = .lt) ∨
      (∃ m n, a = some (.number m) ∧ b = some (.number n) ∧ m.order n = .lt) ∨
      (∃ s t, a = some (.string s) ∧ b = some (.string t) ∧ compare s t = .lt) ∨
      kindRank a < kindRank b := by
  unfold compareValues at h
  split at h
  · exact .inl ⟨_, _, rfl, rfl, h⟩
  · exact .inr (.inl ⟨_, _, rfl, rfl, h⟩)
  · exact .inr (.inr (.inl ⟨_, _, rfl, rfl, h⟩))
  · exact .inr (.inr (.inr (compare_lt_iff_lt.1 h)))

lemma compareValues_trans (h : compareValues a b = .lt) (h' : compareValues b c = .lt) :
    compareValues a c = .lt := by
  have hle : kindRank b ≤ kindRank c := by
    rcases compareValues_eq_lt h' with ⟨_, _, rfl, rfl, _⟩ | ⟨_, _, rfl, rfl, _⟩ |
      ⟨_, _, rfl, rfl, _⟩ | hlt
    · exact le_refl 0
    · exact le_refl 1
    · exact le_refl 2
    · exact hlt.le
  rcases compareValues_eq_lt h with ⟨p, q, rfl, rfl, hpq⟩ | ⟨m, n, rfl, rfl, hmn⟩ |
    ⟨s, t, rfl, rfl, hst⟩ | hlt
  · rcases compareValues_eq_lt h' with ⟨_, r, ⟨⟩, rfl, hqr⟩ | ⟨_, _, ⟨⟩, _⟩ | ⟨_, _, ⟨⟩, _⟩ | hlt
    · have hpr : compare p r = .lt := Std.TransCmp.lt_trans hpq hqr
      exact hpr
    · exact compareValues_of_kindRank_lt hlt
  · rcases compareValues_eq_lt h' with ⟨_, _, ⟨⟩, _⟩ | ⟨_, k, ⟨⟩, rfl, hnk⟩ | ⟨_, _, ⟨⟩, _⟩ | hlt
    · exact Json.Number.order_trans hmn hnk
    · exact compareValues_of_kindRank_lt hlt
  · rcases compareValues_eq_lt h' with ⟨_, _, ⟨⟩, _⟩ | ⟨_, _, ⟨⟩, _⟩ | ⟨_, u, ⟨⟩, rfl, htu⟩ | hlt
    · have hsu : compare s u = .lt := Std.TransCmp.lt_trans hst htu
      exact hsu
    · exact compareValues_of_kindRank_lt hlt
  · exact compareValues_of_kindRank_lt (hlt.trans_le hle)

lemma compareValues_congr {v w : Json} (h : v.same w = true) (c : Option Json) :
    compareValues (some v) c = compareValues (some w) c := by
  cases v with
  | null => rw [Json.same_null.1 h]
  | boolean p => rw [Json.same_boolean.1 h]
  | string s => rw [Json.same_string.1 h]
  | number m =>
    obtain ⟨n, rfl, hmn⟩ := Json.same_number.1 h
    rcases c with _ | _ | _ | k | _ | _ | _
    case some.number => exact Json.Number.order_congr hmn k
    all_goals rfl
  | array items =>
    obtain ⟨others, rfl, -⟩ := Json.same_array.1 h
    rfl
  | object members =>
    obtain ⟨fields, rfl, -⟩ := Json.same_object.1 h
    rfl

/-- What is missing is ordered like null. -/
lemma compareValues_getD (a b : Option Json) :
    compareValues (some (a.getD .null)) (some (b.getD .null)) = compareValues a b := by
  rcases a with _ | _ | _ | _ | _ | _ | _ <;> rcases b with _ | _ | _ | _ | _ | _ | _ <;> rfl

/-- Values of the last three kinds are not told apart within their kind. -/
lemma compareValues_of_three_le (h : 3 ≤ kindRank a) :
    compareValues a b = compare (kindRank a) (kindRank b) := by
  rcases a with _ | _ | _ | _ | _ | _ | _
  case some.boolean | some.number | some.string => simp [kindRank] at h
  all_goals rfl

/-- Values that are not told apart are the same boolean or string, or numbers, or are of one of
the last three kinds. -/
lemma compareValues_eq_eq (h : compareValues a b = .eq) :
    a = b ∨ (∃ m n, a = some (.number m) ∧ b = some (.number n) ∧ m.order n = .eq) ∨
      (3 ≤ kindRank a ∧ kindRank a = kindRank b) := by
  unfold compareValues at h
  split at h
  · rename_i p q
    obtain rfl : p = q := compare_eq_iff_eq.1 h
    exact .inl rfl
  · exact .inr (.inl ⟨_, _, rfl, rfl, h⟩)
  · rename_i s t
    obtain rfl : s = t := Std.LawfulEqOrd.eq_of_compare h
    exact .inl rfl
  · rename_i hboolean hnumber hstring
    have hrank : kindRank a = kindRank b := compare_eq_iff_eq.1 h
    refine .inr (.inr ⟨?_, hrank⟩)
    by_contra hlt
    rcases a with _ | _ | p | m | s | _ | _ <;> rcases b with _ | _ | q | n | t | _ | _ <;>
      simp [kindRank] at hlt hrank
    · exact hboolean p q rfl rfl
    · exact hnumber m n rfl rfl
    · exact hstring s t rfl rfl

/-- A number that is compared as a double stands between two integers that it is not told from. -/
def Blurs (b a c : Option Json) : Prop :=
  ∃ (m : Json.Number) (i j : Int64), b = some (.number m) ∧ a = some (.int i.toInt) ∧
    c = some (.int j.toInt) ∧ m.Blurs i j

/-- One of the integers has more than 53 binary digits. -/
lemma Blurs.exists_large (h : Blurs b a c) :
    ∃ i : Int, (a = some (.int i) ∨ c = some (.int i)) ∧ 9007199254740992 < i.natAbs := by
  obtain ⟨m, i, j, rfl, rfl, rfl, hm⟩ := h
  have hkey : (Double.ofInt i.toInt).key = (Double.ofInt j.toInt).key :=
    (beq_iff_eq.1 hm.left).symm.trans (beq_iff_eq.1 hm.right)
  by_cases hi : i.toInt.natAbs ≤ 9007199254740992
  · by_cases hj : j.toInt.natAbs ≤ 9007199254740992
    · exact absurd (Int64.toInt_inj.1 (Double.key_ofInt_injOn hi hj hkey)) hm.ne
    · exact ⟨j.toInt, .inr rfl, Nat.lt_of_not_le hj⟩
  · exact ⟨i.toInt, .inl rfl, Nat.lt_of_not_le hi⟩

lemma Blurs.compareValues_eq (h : Blurs b a c) :
    compareValues a b = .eq ∧ compareValues b c = .eq ∧ compareValues a c ≠ .eq := by
  obtain ⟨m, i, j, rfl, rfl, rfl, hm⟩ := h
  exact hm.order_eq

lemma compareValues_eq_trans_or (h : compareValues a b = .eq) (h' : compareValues b c = .eq) :
    compareValues a c = .eq ∨ Blurs b a c := by
  rcases compareValues_eq_eq h with rfl | ⟨m, n, rfl, rfl, hmn⟩ | ⟨hthree, hrank⟩
  · exact .inl h'
  · rcases compareValues_eq_eq h' with rfl | ⟨_, k, ⟨⟩, rfl, hnk⟩ | ⟨hthree, -⟩
    · exact .inl h
    · refine (Json.Number.order_eq_trans_or hmn hnk).imp_right ?_
      rintro ⟨i, j, hi, hj, hblurs⟩
      exact ⟨n, i, j, rfl, by rw [Json.Number.eq_int hi]; rfl, by rw [Json.Number.eq_int hj]; rfl,
        hblurs⟩
    · simp [kindRank] at hthree
  · rw [compareValues_of_three_le (hrank ▸ hthree), compare_eq_iff_eq] at h'
    exact .inl (by rw [compareValues_of_three_le hthree, compare_eq_iff_eq, hrank, h'])

/-- Being smaller than something that is not told from a third value is being no greater than the
third value. -/
lemma compareValues_isLE_trans_or (h : (compareValues a b).isLE) (h' : (compareValues b c).isLE) :
    (compareValues a c).isLE ∨ Blurs b a c := by
  rcases Ordering.isLE_iff_eq_lt_or_eq_eq.1 h with hlt | heq
  · refine .inl (by_contra fun hgt => ?_)
    -- the last value is smaller than the first, hence than the one in between
    have hca : compareValues c a = .lt := by
      rw [compareValues_swap a c]
      cases hac : compareValues a c <;> simp_all
    rw [compareValues_swap c b, compareValues_trans hca hlt] at h'
    cases h'
  · rcases Ordering.isLE_iff_eq_lt_or_eq_eq.1 h' with hlt' | heq'
    · refine .inl (by_contra fun hgt => ?_)
      have hca : compareValues c a = .lt := by
        rw [compareValues_swap a c]
        cases hac : compareValues a c <;> simp_all
      rw [compareValues_swap b a, compareValues_trans hlt' hca] at heq
      cases heq
    · exact (compareValues_eq_trans_or heq heq').imp_left fun h => by simp [h]

end Values

/-! ### A total preorder but for blurred integers -/

/-- Comparing in the other direction gives the reverse, and comparing is transitive exactly unless
a number that is compared as a double stands between two integers that it is not told from.  One
of these is then beyond `2 ^ 53`. -/
theorem compareValues_transitive_iff (a b c : Option Json) :
    compareValues b a = (compareValues a b).swap ∧
      (((compareValues a b).isLE → (compareValues b c).isLE → (compareValues a c).isLE) ↔
        ¬ (Blurs b a c ∧ compareValues a c = .gt)) ∧
      ((compareValues a b = .eq → compareValues b c = .eq → compareValues a c = .eq) ↔
        ¬ Blurs b a c) ∧
      (Blurs b a c →
        ∃ i : Int, (a = some (.int i) ∨ c = some (.int i)) ∧ 9007199254740992 < i.natAbs) := by
  refine ⟨compareValues_swap a b, ⟨fun h => ?_, fun h hab hbc => ?_⟩,
    ⟨fun h hblurs => ?_, fun h hab hbc => ?_⟩, Blurs.exists_large⟩
  · rintro ⟨hblurs, hgt⟩
    obtain ⟨hab, hbc, -⟩ := hblurs.compareValues_eq
    have hle := h (by simp [hab]) (by simp [hbc])
    rw [hgt] at hle
    cases hle
  · rcases compareValues_isLE_trans_or hab hbc with hle | hblurs
    · exact hle
    · by_contra hgt
      refine h ⟨hblurs, ?_⟩
      cases hac : compareValues a c <;> simp_all
  · obtain ⟨hab, hbc, hac⟩ := hblurs.compareValues_eq
    exact hac (h hab hbc)
  · exact (compareValues_eq_trans_or hab hbc).resolve_right h

/-- The double `2 ^ 53` is told neither from the integer of this value nor from the next one, which
is greater. -/
theorem compareValues_not_transitive :
    compareValues (some (.int 9007199254740993))
        (some (.number (.float (.ofInt 9007199254740992)))) = .eq ∧
      compareValues (some (.number (.float (.ofInt 9007199254740992))))
        (some (.int 9007199254740992)) = .eq ∧
      compareValues (some (.int 9007199254740993)) (some (.int 9007199254740992)) = .gt := by
  decide +kernel

end ObjectGraph
