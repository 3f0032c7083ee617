/-
# Numbers in decimal notation

The shortest decimal of a number is written out when its decimal point is near its digits and
with an exponent otherwise; a record says where the border lies and how the exponent looks.
-/
import ObjectGraph.Double.Shortest

namespace ObjectGraph.Double

/-- How a number is written. -/
structure Style where
  /-- The least power of ten that is written out. -/
  least : Int
  /-- The first power of ten that is not written out any more. -/
  first : Int := 16
  /-- Whether exponents that are not negative carry a plus sign. -/
  plus : Bool

/-- Predicates, SQL and the texts made for people: `1e16`, `1.5e-7`. -/
def plainStyle : Style where
  least := -4
  plus := false

/-- JSON texts: `1e+16`, `1.5e-7`. -/
def jsonStyle : Style where
  least := -5
  plus := true

/-- The digits of a decimal with the point in its place, at least one digit on either side. -/
def writeOut (d : Decimal) : List Char :=
  if d.point ≤ 0 then '0' :: '.' :: List.replicate (-d.point).toNat '0' ++ d.digits
  else
    let whole := d.point.toNat
    let pad := List.replicate (whole - d.digits.length) '0'
    let fraction := d.digits.drop whole
    d.digits.take whole ++ pad ++ '.' :: (if fraction.isEmpty then ['0'] else fraction)

/-- The digits of a decimal with the point after the first one, and a power of ten. -/
def writeScaled (style : Style) (d : Decimal) : List Char :=
  let exponent := d.point - 1
  let mantissa :=
    match d.digits with
    | first :: second :: rest => first :: '.' :: second :: rest
    | digits => digits
  mantissa ++ 'e' :: (if style.plus && 0 ≤ exponent then ['+'] else [])
    ++ (toString exponent).toList

/-- The text of the absolute value. -/
def magnitudeText (style : Style) (x : Double) : List Char :=
  if x.rank = 0 then ['0', '.', '0']
  else if !x.isFinite then ['i', 'n', 'f']
  else
    let d := x.shortest
    if style.least < d.point && d.point ≤ style.first then writeOut d else writeScaled style d

/-- The text of a number. -/
def render (style : Style) (x : Double) : String :=
  String.ofList ((if x.negative then ['-'] else []) ++ magnitudeText style x)

end ObjectGraph.Double
