import AttributeCheck.Json.Scan

/-! # Values of written numbers

A whole number from `-2 ^ 63` up to `2 ^ 64 - 1` is read exactly. Any other number, and the negative
zero, is the nearest double; a number that rounds beyond the largest double is malformed. -/

namespace AttributeCheck

namespace Scan

namespace NumberText

/-- Whether the number is written with a point or an exponent. -/
def isReal (t : NumberText) : Bool :=
  !t.fraction.isEmpty || t.exponent.isSome

def exponentValue (t : NumberText) : Int :=
  match t.exponent with
  | none => 0
  | some (isNegative, ds) =>
      if isNegative then -(Numeral.readDigits 0 ds : Nat) else (Numeral.readDigits 0 ds : Nat)

/-- The double nearest to a number; there is none beyond the largest. A zero keeps its sign. -/
def real? (t : NumberText) : Option Binary64 :=
  let coefficient := Numeral.readDigits (Numeral.readDigits 0 t.whole) t.fraction
  let x := (Numeral.decimal t.isNegative coefficient (t.exponentValue - t.fraction.length)).toDouble
  if x.isInfinite then none else some x

/-- The largest whole number that is not read as a real. -/
def maxInteger : Nat :=
  0xffffffffffffffff

/-- The magnitude of the least whole number that is not read as a real. -/
def minIntegerMagnitude : Nat :=
  0x8000000000000000

/-- What a number is found to be. The negative zero and whole numbers out of range are reals. -/
def found? (t : NumberText) : Option Found :=
  let whole := Numeral.readDigits 0 t.whole
  if !t.isReal && !t.isNegative && decide (whole ≤ maxInteger) then some (.integer whole)
  else if !t.isReal && t.isNegative && decide (0 < whole ∧ whole ≤ minIntegerMagnitude) then
    some (.integer (-whole))
  else t.real?.map .real

end NumberText

/-- The problem that a value poses where something else is expected. -/
def unexpected (expected : String) (cs : List Char) : Problem :=
  let wrong (found : Found) : Problem := .mismatch (.wrongType found expected)
  let wordThen (rest : Except Problem (List Char)) (found : Found) : Problem :=
    match rest with
    | .ok _ => wrong found
    | .error problem => problem
  match cs with
  | [] => .incomplete
  | 'n' :: rest => wordThen (word "ull".toList rest) .null
  | 't' :: rest => wordThen (word "rue".toList rest) (.bool true)
  | 'f' :: rest => wordThen (word "alse".toList rest) (.bool false)
  | '[' :: _ => wrong .list
  | '\x7b' :: _ => wrong .object
  | '"' :: rest =>
      match string rest with
      | .ok (s, _) => wrong (.string s)
      | .error problem => problem
  | c :: rest =>
      if c = '-' ∨ c.isDigit then
        match numberText (c :: rest) with
        | .ok (t, _) =>
            match t.found? with
            | some found => wrong found
            | none => .malformed
        | .error problem => problem
      else .malformed

end Scan

end AttributeCheck
