import AttributeCheck.Numeric.Binary64

/-! # Rounding rationals to a binary format -/

namespace AttributeCheck

/-- The quotient rounded to the nearest integer, a half to the even one. -/
def roundHalfEven (num den : Nat) : Nat :=
  let quotient := num / den
  let twice := 2 * (num % den)
  if twice < den ∨ (twice = den ∧ quotient % 2 = 0) then quotient else quotient + 1

/-- A binary format: how many bits a significand has, and the scales of its smallest and its
largest finite numbers. -/
structure BinaryFormat where
  precision : Nat
  minScale : Int
  maxScale : Int

namespace BinaryFormat

def double : BinaryFormat := ⟨53, -1074, 971⟩

def single : BinaryFormat := ⟨24, -149, 104⟩

/-- Numerator and denominator of a quotient divided by two to the scale. -/
def unscale (num den : Nat) (scale : Int) : Nat × Nat :=
  (num * Nat.pow 2 (-scale).toNat, den * Nat.pow 2 scale.toNat)

/-- The scale at which a quotient fills the significand; the smallest one for zero and for quotients
too small to fill it. -/
def scaleOf (format : BinaryFormat) (num den : Nat) : Int :=
  if num = 0 then format.minScale else
  let low := max format.minScale ((num.log2 : Int) - den.log2 - format.precision)
  let (n, d) := unscale num den low
  if n / d < Nat.pow 2 format.precision then low else low + 1

/-- The nearest number of the format to a quotient, as significand and scale; `none` when it is
beyond the largest one. -/
def round (format : BinaryFormat) (num den : Nat) : Option (Nat × Int) :=
  let scale := format.scaleOf num den
  let (n, d) := unscale num den scale
  let significand := roundHalfEven n d
  if scale < format.maxScale ∨
      (scale = format.maxScale ∧ significand < Nat.pow 2 format.precision) then
    some (significand, scale)
  else none

end BinaryFormat

namespace Binary64

/-- The double with the sign and the significand at the scale, which fit the format. A significand
of full width carries into the exponent field. -/
def ofScaled (isNegative : Bool) (significand : Nat) (scale : Int) : Binary64 :=
  ofMagnitude isNegative ((scale + 1074).toNat * fractionSize + significand)

/-- The double nearest to a signed quotient. -/
def ofRatio (isNegative : Bool) (num den : Nat) : Binary64 :=
  match BinaryFormat.double.round num den with
  | some (significand, scale) => ofScaled isNegative significand scale
  | none => infinity isNegative

/-- The double that a quotient gives when it is first rounded to single precision. -/
def ofRatioSingle (isNegative : Bool) (num den : Nat) : Binary64 :=
  match BinaryFormat.single.round num den with
  | some (significand, scale) =>
      ofRatio isNegative (significand * Nat.pow 2 scale.toNat) (Nat.pow 2 (-scale).toNat)
  | none => infinity isNegative

/-- The double nearest to an integer. -/
def ofInt (n : Int) : Binary64 :=
  ofRatio (decide (n < 0)) n.natAbs 1

end Binary64

end AttributeCheck
