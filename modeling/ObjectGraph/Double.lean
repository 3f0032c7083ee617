/-
# Double precision numbers

The numbers of the 64-bit binary floating point format, not-a-number apart.  The non-negative
ones are numbered in increasing order: 0 is zero, 1 the least positive number, and the last
rank is infinity.  A number is its sign and the rank of its absolute value, so that comparing
numbers is comparing integers, and rounding is finding a rank.

The value of a rank below `2 ^ 53` is that many times `2 ^ -1074`; from there on every `2 ^ 52`
ranks the distance between neighbours doubles.
-/

namespace ObjectGraph

/-- A double precision number other than not-a-number. -/
structure Double where
  negative : Bool
  rank : Nat
  rank_le : rank ≤ 0x7ff0000000000000 := by decide
deriving DecidableEq, Repr

namespace Double

/-- The rank of infinity, the last one. -/
def lastRank : Nat := 0x7ff0000000000000

/-- The zero without a sign. -/
def zero : Double := ⟨false, 0, by decide⟩

/-- What is greater than every finite double. -/
def infinity : Double := ⟨false, lastRank, by decide⟩

/-- Whether a double is not infinite. -/
def isFinite (x : Double) : Bool :=
  x.rank < lastRank

/-- The double with the other sign. -/
def neg (x : Double) : Double :=
  { x with negative := !x.negative }

/-- The number of the given rank; ranks beyond the last one stand for infinity. -/
def ofRank (rank : Nat) : Double :=
  ⟨false, min rank lastRank, Nat.min_le_right ..⟩

/-- The value of a rank in units of `2 ^ -1074`, and what would follow the largest finite one
for infinity. -/
def unitsOfRank (rank : Nat) : Nat :=
  let shift := (rank >>> 52) - 1
  (rank - shift <<< 52) <<< shift

/-- The absolute value in units of `2 ^ -1074`. -/
def units (x : Double) : Nat :=
  unitsOfRank x.rank

/-- The position of a number among all of them.  Zero and negative zero share one. -/
def key (x : Double) : Int :=
  if x.negative then -x.rank else x.rank

/-- Numeric order. -/
def compare (x y : Double) : Ordering :=
  Ord.compare x.key y.key

/-- Numeric equality, in which zero equals negative zero. -/
def equals (x y : Double) : Bool :=
  x.key == y.key

/-- The number nearest to `num / den`; of two equally near ones the one of even rank. -/
def ofRatio (num den : Nat) : Double :=
  let scaled := num <<< 1074
  let shift := (scaled / den).log2 - 52
  let unit := den <<< shift
  let low := scaled / unit
  let rest := scaled % unit
  let up := 2 * rest > unit ∨ (2 * rest = unit ∧ low % 2 = 1)
  ofRank (shift <<< 52 + if up then low + 1 else low)

/-- The number nearest to an integer. -/
def ofInt (i : Int) : Double :=
  { ofRatio i.natAbs 1 with negative := i < 0 }

/-- A power of ten. -/
def tenTo (n : Nat) : Nat :=
  Nat.pow 10 n

/-- The number nearest to `digits * 10 ^ exponent`.  Exponents that put every number but zero
out of range are not multiplied out. -/
def ofDecimal (digits : Nat) (exponent : Int) : Double :=
  let magnitude := (Nat.toDigits 10 digits).length + exponent
  if digits = 0 ∨ magnitude < -400 then zero
  else if magnitude > 400 then infinity
  else if 0 ≤ exponent then ofRatio (digits * tenTo exponent.toNat) 1
  else ofRatio digits (tenTo (-exponent).toNat)

/-- The product of two non-negative numbers, rounded once. -/
def mul (x y : Double) : Double :=
  ofRatio (x.units * y.units) (1 <<< 2148)

/-- The quotient of two non-negative numbers, rounded once. -/
def div (x y : Double) : Double :=
  ofRatio x.units y.units

end Double
end ObjectGraph
