import AttributeCheck.Numeric.Shortest

/-! # How decimals are written -/

namespace AttributeCheck

namespace Decimal

def digits (d : Decimal) : String :=
  toString d.coefficient

/-- How many digits stand before the decimal point; not positive for numbers below one. -/
def point (d : Decimal) : Int :=
  d.digits.length + d.exponent

def zeros (count : Nat) : String :=
  String.ofList (List.replicate count '0')

/-- Digits with the point among, before or after them. -/
def positional (d : Decimal) : String :=
  if 0 ≤ d.exponent then d.digits ++ zeros d.exponent.toNat
  else if 0 < d.point then
    let cs := d.digits.toList
    String.ofList (cs.take d.point.toNat) ++ "." ++ String.ofList (cs.drop d.point.toNat)
  else "0." ++ zeros (-d.point).toNat ++ d.digits

/-- As `positional`, and a whole number ends in `.0`. -/
def positionalReal (d : Decimal) : String :=
  if 0 ≤ d.exponent then d.positional ++ ".0" else d.positional

/-- The leading digit, the other digits after a point, `e` and the exponent of the leading digit;
`plus` is the sign of an exponent that is not negative. -/
def scientific (plus : String) (d : Decimal) : String :=
  let rest := String.ofList (d.digits.toList.drop 1)
  String.ofList (d.digits.toList.take 1) ++ (if rest.isEmpty then "" else "." ++ rest) ++ "e" ++
    (if d.point - 1 < 0 then "-" else plus) ++ toString (d.point - 1).natAbs

end Decimal

/-- Choices in the text of a double. -/
structure NumberStyle where
  nan : String
  infinity : String
  /-- The text of a zero with the given sign. -/
  zero : Bool → String
  /-- Which of two equally near shortest decimals is written. -/
  tie : Tie
  /-- Whether a decimal is written without an exponent. -/
  isPositional : Decimal → Bool
  positional : Decimal → String
  scientific : Decimal → String

def NumberStyle.render (style : NumberStyle) (x : Binary64) : String :=
  if x.isNaN then style.nan
  else
    let sign := if x.negative then "-" else ""
    if x.isInfinite then sign ++ style.infinity
    else if x.isZero then style.zero x.negative
    else
      let d := x.shortest style.tie
      sign ++ (if style.isPositional d then style.positional d else style.scientific d)

namespace NumberStyle

/-- The text a number is coerced to: zeros have no sign, whole numbers no fraction, and an exponent
appears from `1e+21` up and below `1e-6`. -/
def coerced : NumberStyle where
  nan := "NaN"
  infinity := "Infinity"
  zero _ := "0"
  tie := .larger
  isPositional d := decide (-6 < d.point ∧ d.point ≤ 21)
  positional := Decimal.positional
  scientific := Decimal.scientific "+"

/-- The text a number has in a debug listing: it always shows as a real, and an exponent appears
from `1e16` up and below `1e-4`. -/
def listed : NumberStyle where
  nan := "NaN"
  infinity := "inf"
  zero isNegative := if isNegative then "-0.0" else "0.0"
  tie := .larger
  isPositional d := decide (-4 < d.point ∧ d.point ≤ 16)
  positional := Decimal.positionalReal
  scientific := Decimal.scientific ""

/-- The text of a number in a reading error: as `listed`, but an exponent appears below `1e-5` and
always has a sign, and a tie goes to the even digit. -/
def quoted : NumberStyle :=
  { listed with
    tie := .even
    isPositional := fun d => decide (-5 < d.point ∧ d.point ≤ 16)
    scientific := Decimal.scientific "+" }

end NumberStyle

end AttributeCheck
