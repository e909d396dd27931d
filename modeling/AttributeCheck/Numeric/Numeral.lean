import AttributeCheck.Numeric.Rounding

/-! # Reading decimal numerals -/

namespace AttributeCheck

/-- What a numeral says before it is rounded to a format. -/
inductive Numeral where
  | nan
  | infinity (isNegative : Bool)
  /-- The number `± coefficient · 10 ^ exponent`. -/
  | decimal (isNegative : Bool) (coefficient : Nat) (exponent : Int)
deriving DecidableEq

namespace Numeral

/-- The value of a run of decimal digits, continuing a value already read. -/
def readDigits (start : Nat) (digits : List Char) : Nat :=
  digits.foldl (fun acc c => 10 * acc + (c.toNat - '0'.toNat)) start

def splitDigits (cs : List Char) : List Char × List Char :=
  (cs.takeWhile Char.isDigit, cs.dropWhile Char.isDigit)

/-- Takes a leading sign; `true` for a minus. -/
def splitSign : List Char → Bool × List Char
  | '-' :: cs => (true, cs)
  | '+' :: cs => (false, cs)
  | cs => (false, cs)

/-- The exponent part: nothing, or `e`, an optional sign and digits. -/
def readExponent? : List Char → Option Int
  | [] => some 0
  | c :: cs =>
      if c = 'e' ∨ c = 'E' then
        let (isNegative, digits) := splitSign cs
        if digits.isEmpty ∨ digits.any (!·.isDigit) then none
        else
          let magnitude : Int := readDigits 0 digits
          some (if isNegative then -magnitude else magnitude)
      else none

/-- Digits with an optional point and exponent; at least one digit is needed. -/
def readDecimal? (isNegative : Bool) (cs : List Char) : Option Numeral :=
  let (whole, rest) := splitDigits cs
  let (fraction, rest) := match rest with
    | '.' :: rest => splitDigits rest
    | rest => ([], rest)
  if whole.isEmpty && fraction.isEmpty then none
  else (readExponent? rest).map fun exponent =>
    decimal isNegative (readDigits (readDigits 0 whole) fraction) (exponent - fraction.length)

/-- Reads a numeral or one of the words for the values that have none, with an optional sign. -/
def read? (text : String) : Option Numeral :=
  let (isNegative, cs) := splitSign text.toList
  let word := cs.map Char.toLower
  if word = "nan".toList then some nan
  else if word = "inf".toList ∨ word = "infinity".toList then some (infinity isNegative)
  else readDecimal? isNegative cs

/-- The integer of a numeral without fraction or exponent. -/
def toInt? : Numeral → Option Int
  | decimal isNegative coefficient 0 => some (if isNegative then -coefficient else coefficient)
  | _ => none

/-- Rounds a numeral. Decimals of a magnitude far outside the doubles are not expanded: those from
`10 ^ 400` up overflow and those below `10 ^ (-400)` vanish in any case. -/
def roundWith (ofRatio : Bool → Nat → Nat → Binary64) : Numeral → Binary64
  | nan => Binary64.nan
  | infinity isNegative => Binary64.infinity isNegative
  | decimal isNegative coefficient exponent =>
      let magnitude := exponent + (toString coefficient).length
      if coefficient = 0 ∨ magnitude < -400 then Binary64.zero isNegative
      else if 400 < magnitude then Binary64.infinity isNegative
      else ofRatio isNegative (coefficient * Nat.pow 10 exponent.toNat)
        (Nat.pow 10 (-exponent).toNat)

def toDouble : Numeral → Binary64 :=
  roundWith Binary64.ofRatio

/-- The double with the value of the nearest single-precision number. -/
def toSingle : Numeral → Binary64 :=
  roundWith Binary64.ofRatioSingle

end Numeral

end AttributeCheck
