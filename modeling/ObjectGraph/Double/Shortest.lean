/-
# The shortest decimal of a double

The decimal with the fewest digits that reads back as a given number; of several, the one
nearest to it, and of two equally near ones the greater.

A decimal reads back as the number of rank `r` when it lies between the midpoints to the ranks
`r - 1` and `r + 1`, the midpoints included exactly when `r` is even.  For one digit, two
digits and so on the two decimals next to the number on that grid are tried; seventeen digits
always suffice.
-/
import ObjectGraph.Double

namespace ObjectGraph.Double

/-- A positive decimal `0.d₁d₂... * 10 ^ point`, as the list of its digits. -/
structure Decimal where
  digits : List Char
  point : Int
deriving DecidableEq, Repr

/-- The least `k` with `num < 10 ^ k * den`, for a positive `num / den`. -/
def decimalPoint (num den : Nat) : Int :=
  if den ≤ num then (Nat.toDigits 10 (num / den)).length
  else
    let places := (Nat.toDigits 10 (den / num)).length
    if den ≤ num * tenTo (places - 1) then 2 - places else 1 - places

/-- Whether `digits * 10 ^ exponent` reads back as the number of rank `rank`. -/
def readsBack (rank digits : Nat) (exponent : Int) : Bool :=
  let low := unitsOfRank (rank - 1) + unitsOfRank rank
  let high := unitsOfRank rank + unitsOfRank (rank + 1)
  let units := digits <<< 1075
  let (value, scale) :=
    if 0 ≤ exponent then (units * tenTo exponent.toNat, 1) else (units, tenTo (-exponent).toNat)
  let low := low * scale
  let high := high * scale
  if rank % 2 = 0 then low ≤ value && value ≤ high else low < value && value < high

/-- The nearest decimal with at most `count` digits that reads back, if there is one. -/
def nearestDecimal? (rank count : Nat) (point : Int) : Option (Nat × Int) :=
  let exponent := point - count
  let num := unitsOfRank rank
  let (num, den) :=
    if 0 ≤ exponent then (num, tenTo exponent.toNat <<< 1074)
    else (num * tenTo (-exponent).toNat, 1 <<< 1074)
  let low := num / den
  let lowFirst := 2 * (num % den) < den
  let (first, second) := if lowFirst then (low, low + 1) else (low + 1, low)
  if readsBack rank first exponent then some (first, exponent)
  else if readsBack rank second exponent then some (second, exponent)
  else none

/-- The digits of a decimal without the zeros at its end. -/
def stripZeros (digits : List Char) : List Char :=
  (digits.reverse.dropWhile (· == '0')).reverse

/-- The shortest decimal of a finite number other than zero. -/
def shortest (x : Double) : Decimal :=
  let point := decimalPoint x.units (1 <<< 1074)
  let found := (List.range 17).findSome? fun n => nearestDecimal? x.rank (n + 1) point
  let (digits, exponent) := found.getD (0, 0)
  let digits := Nat.toDigits 10 digits
  ⟨stripZeros digits, digits.length + exponent⟩

end ObjectGraph.Double
