/-! # Instants and their calendar text -/

namespace AttributeCheck

/-- A point of time: seconds since the start of 1970, and nanoseconds. From one
second up they lie in a leap second that follows the given second. -/
structure Instant where
  seconds : Int
  nanos : Nat
deriving DecidableEq

/-- A day of the Gregorian calendar, extended to all years; there is a year zero. -/
structure CivilDate where
  year : Int
  month : Nat
  day : Nat
deriving DecidableEq

namespace CivilDate

/-- The date of a number of days since the start of 1970. Years are counted from March, so that a
leap day is the last of its year, in eras of 400 years or 146097 days. -/
def ofDays (days : Int) : CivilDate :=
  let shifted := days + 719468
  let era := shifted / 146097
  let dayOfEra := (shifted % 146097).toNat
  let yearOfEra := (dayOfEra - dayOfEra / 1460 + dayOfEra / 36524 - dayOfEra / 146096) / 365
  let dayOfYear := dayOfEra - (365 * yearOfEra + yearOfEra / 4 - yearOfEra / 100)
  let monthFromMarch := (5 * dayOfYear + 2) / 153
  let day := dayOfYear - (153 * monthFromMarch + 2) / 5 + 1
  let month := if monthFromMarch < 10 then monthFromMarch + 3 else monthFromMarch - 9
  let year := era * 400 + yearOfEra
  ⟨if month ≤ 2 then year + 1 else year, month, day⟩

end CivilDate

namespace Instant

def nanosPerSecond : Nat := 1000000000

def nanosPerMilli : Nat := 1000000

def nanosPerMicro : Nat := 1000

/-- Decimal digits with zeros in front up to a width. -/
def padded (width n : Nat) : String :=
  let digits := toString n
  String.ofList (List.replicate (width - digits.length) '0') ++ digits

def date (t : Instant) : CivilDate :=
  CivilDate.ofDays (t.seconds / 86400)

/-- Four digits for the years 0 to 9999, else a sign and at least four digits. -/
def yearText (year : Int) : String :=
  if 0 ≤ year ∧ year ≤ 9999 then padded 4 year.toNat
  else (if year < 0 then "-" else "+") ++ padded 4 year.natAbs

def inLeapSecond (t : Instant) : Bool :=
  decide (nanosPerSecond ≤ t.nanos)

/-- Nanoseconds within the second. -/
def fraction (t : Instant) : Nat :=
  if t.inLeapSecond then t.nanos - nanosPerSecond else t.nanos

/-- Date and time of day to the second; a leap second is second 60. -/
def secondsText (t : Instant) : String :=
  let secondOfDay := (t.seconds % 86400).toNat
  let second := secondOfDay % 60 + if t.inLeapSecond then 1 else 0
  yearText t.date.year ++ "-" ++ padded 2 t.date.month ++ "-" ++ padded 2 t.date.day ++ "T" ++
    padded 2 (secondOfDay / 3600) ++ ":" ++ padded 2 (secondOfDay / 60 % 60) ++ ":" ++
    padded 2 second

/-- The text with milliseconds; what is below them is cut off. -/
def text (t : Instant) : String :=
  t.secondsText ++ "." ++ padded 3 (t.fraction / nanosPerMilli) ++ "Z"

/-- The text with as many of 0, 3, 6 and 9 fraction digits as are needed. -/
def exactText (t : Instant) : String :=
  let f := t.fraction
  let fractionText :=
    if f = 0 then ""
    else if f % nanosPerMilli = 0 then "." ++ padded 3 (f / nanosPerMilli)
    else if f % nanosPerMicro = 0 then "." ++ padded 6 (f / nanosPerMicro)
    else "." ++ padded 9 f
  t.secondsText ++ fractionText ++ "Z"

end Instant

end AttributeCheck
