import AttributeCheck.Numeric.Binary64

/-! # The shortest decimal that reads back

A positive finite double stands for every real that rounds to it. Among the decimals in that
interval with the fewest digits, the one nearest to the double is chosen; which of two equally near
ones it is, is a parameter. -/

namespace AttributeCheck

/-- The number `coefficient · 10 ^ exponent`. -/
structure Decimal where
  coefficient : Nat
  exponent : Int
deriving DecidableEq

namespace Decimal

/-- Moves the trailing zeros of the coefficient into the exponent; looks at `fuel` digits. -/
def trim : Nat → Decimal → Decimal
  | 0, d => d
  | fuel + 1, d =>
      if d.coefficient % 10 = 0 then trim fuel ⟨d.coefficient / 10, d.exponent + 1⟩ else d

end Decimal

/-- Which of two equally near neighbours on a decimal grid is taken: the larger one, or the one with
an even last digit. -/
inductive Tie where
  | larger
  | even
deriving DecidableEq

/-- Whether the lower neighbour is taken. -/
def Tie.takesLower : Tie → Nat → Bool
  | larger, _ => false
  | even, below => below % 2 == 0

namespace Binary64

/-- The spacing `10 ^ exponent` of a decimal grid and a quarter of the last place of a double, both
in one unit that makes them whole. -/
structure Grid where
  step : Nat
  quarter : Nat

def grid (x : Binary64) (exponent : Int) : Grid :=
  let place := x.scale - 2
  ⟨Nat.pow 10 exponent.toNat * Nat.pow 2 (-place).toNat,
    Nat.pow 2 place.toNat * Nat.pow 10 (-exponent).toNat⟩

/-- Lower end of the rounding interval in quarters of the last place. Below a power of two the
neighbour is nearer. -/
def lowerEnd (x : Binary64) : Nat :=
  if x.fractionField = 0 ∧ 1 < x.exponentField then 4 * x.significand - 1 else 4 * x.significand - 2

def upperEnd (x : Binary64) : Nat :=
  4 * x.significand + 2

/-- Whether a point of the grid rounds to the double. The ends do when the significand is even. -/
def covers (x : Binary64) (g : Grid) (point : Nat) : Bool :=
  let low := x.lowerEnd * g.quarter
  let high := x.upperEnd * g.quarter
  let here := point * g.step
  if x.significand % 2 = 0 then decide (low ≤ here ∧ here ≤ high)
  else decide (low < here ∧ here < high)

/-- The point of the grid to take: of the two neighbours of the double those that round to it, and
of these the nearer. -/
def gridPoint? (tie : Tie) (x : Binary64) (g : Grid) : Option Nat :=
  let value := 4 * x.significand * g.quarter
  let below := value / g.step
  let rest := value % g.step
  match x.covers g below, x.covers g (below + 1) with
  | true, true =>
      if 2 * rest < g.step ∨ (2 * rest = g.step ∧ tie.takesLower below) then some below
      else some (below + 1)
  | true, false => some below
  | false, true => some (below + 1)
  | false, false => none

/-- Whether the magnitude is at least `10 ^ exponent`. -/
def reaches (x : Binary64) (exponent : Int) : Bool :=
  let g := x.grid exponent
  decide (g.step ≤ 4 * x.significand * g.quarter)

/-- The exponent of the leading decimal digit: the largest power of ten that is not above the
number. The binary logarithm times log₁₀ 2 ≈ 0.30103 is within one of it. -/
def leadingExponent (x : Binary64) : Int :=
  let estimate := ((x.significand.log2 : Int) + x.scale) * 30103 / 100000
  if x.reaches (estimate + 1) then estimate + 1
  else if x.reaches estimate then estimate
  else estimate - 1

/-- Tries grids of more and more digits; seventeen digits always suffice. -/
def shortestFrom (tie : Tie) (x : Binary64) (lead : Int) : Nat → Nat → Decimal
  | 0, _ => ⟨x.significand, x.scale⟩
  | more + 1, digits =>
      let exponent := lead + 1 - digits
      match x.gridPoint? tie (x.grid exponent) with
      | some point => Decimal.trim 17 ⟨point, exponent⟩
      | none => shortestFrom tie x lead more (digits + 1)

/-- The shortest decimal of the magnitude of a finite non-zero double. -/
def shortest (tie : Tie) (x : Binary64) : Decimal :=
  x.shortestFrom tie x.leadingExponent 17 1

end Binary64

end AttributeCheck
