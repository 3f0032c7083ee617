/-
# Numbers in JSON texts

An integer that fits 64 bits, signed or unsigned, is read as it stands.  Every other numeral is
a double: its leading digits, as many as fit 64 bits, are rounded to a double, and that is
multiplied or divided by the power of ten that the remaining digits and the exponent ask for.
The two roundings may miss the nearest double by one.
-/
import ObjectGraph.Json

namespace ObjectGraph.Json

/-- The parts of a numeral. -/
structure Numeral where
  negative : Bool
  whole : List Char
  /-- The digits after the point, if there is one. -/
  fraction : Option (List Char)
  /-- The sign and digits of the exponent, if there is one. -/
  exponent : Option (Bool × List Char)

/-- The value of a decimal digit. -/
def digitValue (c : Char) : Nat :=
  c.toNat - '0'.toNat

/-- The number that decimal digits stand for. -/
def digitsValue (cs : List Char) : Nat :=
  cs.foldl (fun n c => 10 * n + digitValue c) 0

/-- Append digits to a number as long as it stays below `2 ^ 64`; the rest is left over. -/
def appendDigits (n : Nat) : List Char → Nat × List Char
  | [] => (n, [])
  | c :: rest =>
    let m := 10 * n + digitValue c
    if m < UInt64.size then appendDigits m rest else (n, c :: rest)

/-- `significand * 10 ^ exponent` in doubles, or nothing when that is beyond them. -/
def scale (significand : Nat) (exponent : Int) : Option Double :=
  let x := Double.ofInt significand
  if significand = 0 then some Double.zero
  else if 308 < exponent then none
  else if 0 ≤ exponent then
    let y := x.mul (Double.ofDecimal 1 exponent)
    if y.isFinite then some y else none
  else if -308 ≤ exponent then some (x.div (Double.ofDecimal 1 (-exponent)))
  else if -616 ≤ exponent then
    some ((x.div (Double.ofDecimal 1 308)).div (Double.ofDecimal 1 (-exponent - 308)))
  else some Double.zero

/-- The double a numeral stands for. -/
def Numeral.double? (n : Numeral) : Option Double :=
  let (significand, skipped) := appendDigits 0 n.whole
  let fraction := n.fraction.getD []
  let (significand, ignored) := appendDigits significand fraction
  let exponent : Int := skipped.length - (fraction.length - ignored.length)
  let shift : Int :=
    match n.exponent with
    | some (true, digits) => -digitsValue digits
    | some (false, digits) => digitsValue digits
    | none => 0
  (scale significand (exponent + shift)).map fun x => if n.negative then x.neg else x

/-- The number a numeral stands for, or nothing when it is out of range.  `-0` is a double,
since no integer is negative zero. -/
def Numeral.number? (n : Numeral) : Option Number :=
  let value := digitsValue n.whole
  if n.fraction.isNone && n.exponent.isNone && !n.negative && value < UInt64.size then
    some (.int value)
  else if n.fraction.isNone && n.exponent.isNone && n.negative && 0 < value
      && Int64.minValue.toInt ≤ -value then
    some (.int (-value))
  else n.double?.map .float

/-- The digits behind the one that takes an exponent beyond 32 bits. -/
def digitsBeyond (n : Nat) : List Char → List Char
  | [] => []
  | c :: rest =>
    let m := 10 * n + digitValue c
    if m ≤ Int32.maxValue.toInt then digitsBeyond m rest else rest

/-- How many digits are still to come where a numeral is found to be out of range.  An exponent
beyond 32 bits settles it at once. -/
def Numeral.unread (n : Numeral) : Nat :=
  match n.exponent with
  | some (_, digits) => (digitsBeyond 0 digits).length
  | none => 0

end ObjectGraph.Json
