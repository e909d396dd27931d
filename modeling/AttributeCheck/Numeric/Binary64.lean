/-! # Double-precision numbers as bit patterns -/

namespace AttributeCheck

/-- A number of the 64-bit binary interchange format: one sign bit, eleven exponent bits,
fifty-two fraction bits. -/
structure Binary64 where
  bits : UInt64
deriving DecidableEq

namespace Binary64

/-- How many values the fraction field has: two to the fifty-second. -/
def fractionSize : Nat := 0x10000000000000

/-- The bits of the negative zero. -/
def signBit : Nat := 0x8000000000000000

def negative (x : Binary64) : Bool :=
  decide (signBit ≤ x.bits.toNat)

def exponentField (x : Binary64) : Nat :=
  x.bits.toNat / fractionSize % 2048

def fractionField (x : Binary64) : Nat :=
  x.bits.toNat % fractionSize

def isFinite (x : Binary64) : Bool :=
  x.exponentField != 2047

def isNaN (x : Binary64) : Bool :=
  x.exponentField == 2047 && x.fractionField != 0

def isInfinite (x : Binary64) : Bool :=
  x.exponentField == 2047 && x.fractionField == 0

/-- Both zeros. -/
def isZero (x : Binary64) : Bool :=
  x.exponentField == 0 && x.fractionField == 0

/-! ### Magnitude of a finite number: significand times two to the scale -/

def significand (x : Binary64) : Nat :=
  if x.exponentField = 0 then x.fractionField else fractionSize + x.fractionField

def scale (x : Binary64) : Int :=
  (max x.exponentField 1 : Nat) - 1075

/-- The number with the given sign and magnitude bits. -/
def ofMagnitude (isNegative : Bool) (magnitude : Nat) : Binary64 :=
  ⟨UInt64.ofNat ((if isNegative then signBit else 0) + magnitude)⟩

def zero (isNegative : Bool) : Binary64 :=
  ofMagnitude isNegative 0

def infinity (isNegative : Bool) : Binary64 :=
  ofMagnitude isNegative (2047 * fractionSize)

def nan : Binary64 :=
  ofMagnitude false (2047 * fractionSize + fractionSize / 2)

/-- Numeric equality: a NaN equals nothing, the two zeros are equal. -/
def equal (x y : Binary64) : Bool :=
  !x.isNaN && !y.isNaN && (x == y || x.isZero && y.isZero)

/-- The value as an integer, when it has no fraction. -/
def toInt? (x : Binary64) : Option Int :=
  if x.isFinite then
    let divisor := Nat.pow 2 (-x.scale).toNat
    let magnitude := x.significand * Nat.pow 2 x.scale.toNat
    if magnitude % divisor = 0 then
      let whole : Int := (magnitude / divisor : Nat)
      some (if x.negative then -whole else whole)
    else none
  else none

/-! ### Equality is symmetric and transitive, and fails to be reflexive at a NaN only -/

theorem equal_self (x : Binary64) : x.equal x = !x.isNaN := by
  simp [equal]

theorem equal_comm (x y : Binary64) : x.equal y = y.equal x := by
  rw [equal, equal, BEq.comm, Bool.and_comm (!x.isNaN), Bool.and_comm x.isZero]

theorem equal_trans {x y z : Binary64} (hxy : x.equal y = true) (hyz : y.equal z = true) :
    x.equal z = true := by
  simp only [equal, Bool.and_eq_true, Bool.not_eq_true', Bool.or_eq_true, beq_iff_eq] at *
  obtain ⟨⟨hx, hy⟩, hxy⟩ := hxy
  obtain ⟨⟨_, hz⟩, hyz⟩ := hyz
  refine ⟨⟨hx, hz⟩, ?_⟩
  rcases hxy with rfl | ⟨hx0, hy0⟩
  · exact hyz
  · rcases hyz with rfl | ⟨_, hz0⟩
    · exact .inr ⟨hx0, hy0⟩
    · exact .inr ⟨hx0, hz0⟩

end Binary64

end AttributeCheck
