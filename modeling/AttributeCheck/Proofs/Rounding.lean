import AttributeCheck.Numeric.Shortest
import AttributeCheck.Numeric.Rounding
import Mathlib.Algebra.Order.Field.Power
import Mathlib.Data.Rat.Cast.Order
import Mathlib.Tactic.FieldSimp
import Mathlib.Tactic.Linarith
import Mathlib.Tactic.Positivity
import Mathlib.Tactic.Ring

/-! # Rationals that round to a double

A double stands for all rationals up to half of its last place away. Rounding gives the double back
for each of them. -/

namespace AttributeCheck

/-! ## Powers written without negative exponents -/

theorem zpow_eq_div_toNat {b : ℚ} (hb : b ≠ 0) (e : ℤ) :
    b ^ e = b ^ e.toNat / b ^ (-e).toNat := by
  rw [← zpow_natCast, ← zpow_natCast, ← zpow_sub₀ hb]
  congr 1
  omega

/-! ## Rounding to an integer -/

/-- A rational that rounds to an integer: it is no farther than a half away, and at a half the
integer is even. -/
structure RoundsToNat (q : ℚ) (m : ℕ) : Prop where
  low : (m : ℚ) - 1 / 2 < q ∨ (m : ℚ) - 1 / 2 = q ∧ m % 2 = 0
  high : q < m + 1 / 2 ∨ q = m + 1 / 2 ∧ m % 2 = 0

theorem roundHalfEven_eq {num den m : ℕ} (hd : 0 < den) (h : RoundsToNat (num / den) m) :
    roundHalfEven num den = m := by
  obtain ⟨hlow, hhigh⟩ := h
  have hd' : (0 : ℚ) < den := by exact_mod_cast hd
  -- The two conditions without fractions.
  have hlow : 2 * (den * m) < 2 * num + den ∨ 2 * (den * m) = 2 * num + den ∧ m % 2 = 0 := by
    rw [lt_div_iff₀ hd', eq_div_iff hd'.ne'] at hlow
    refine hlow.imp (fun h => ?_) (And.imp_left fun h => ?_)
    · have : (2 * (den * m) : ℚ) < 2 * num + den := by linarith
      exact_mod_cast this
    · have : (2 * (den * m) : ℚ) = 2 * num + den := by linarith
      exact_mod_cast this
  have hhigh : 2 * num < 2 * (den * m) + den ∨ 2 * num = 2 * (den * m) + den ∧ m % 2 = 0 := by
    rw [div_lt_iff₀ hd', div_eq_iff hd'.ne'] at hhigh
    refine hhigh.imp (fun h => ?_) (And.imp_left fun h => ?_)
    · have : (2 * num : ℚ) < 2 * (den * m) + den := by linarith
      exact_mod_cast this
    · have : (2 * num : ℚ) = 2 * (den * m) + den := by linarith
      exact_mod_cast this
  have hdiv : den * (num / den) + num % den = num := Nat.div_add_mod num den
  have hmod : num % den < den := Nat.mod_lt num hd
  rw [roundHalfEven]
  generalize num / den = q at hdiv ⊢
  generalize num % den = r at hdiv hmod ⊢
  subst hdiv
  -- The integer is the quotient rounded down or the next one.
  have hle : m ≤ q + 1 := by
    by_contra hlt
    have : den * (q + 2) ≤ den * m := Nat.mul_le_mul_left den (by omega)
    rw [Nat.mul_add] at this
    omega
  have hge : q ≤ m := by
    by_contra hlt
    have : den * (m + 1) ≤ den * q := Nat.mul_le_mul_left den (by omega)
    rw [Nat.mul_add] at this
    omega
  obtain rfl | rfl : m = q ∨ m = q + 1 := by omega
  · split <;> omega
  · rw [Nat.mul_add] at hlow hhigh
    split <;> omega

/-! ## Scales -/

theorem unscale_ratio (num den : ℕ) (scale : ℤ) :
    ((BinaryFormat.unscale num den scale).1 : ℚ) / (BinaryFormat.unscale num den scale).2 =
      num / den / 2 ^ scale := by
  rw [zpow_eq_div_toNat two_ne_zero scale]
  simp only [BinaryFormat.unscale, Nat.pow_eq]
  push_cast
  field_simp

theorem unscale_den_pos {den : ℕ} (hd : 0 < den) (num : ℕ) (scale : ℤ) :
    0 < (BinaryFormat.unscale num den scale).2 :=
  Nat.mul_pos hd (Nat.two_pow_pos _)

/-- At the scale a quotient fits the precision, and it fills it unless the scale is the smallest
one. -/
structure BinaryFormat.IsScale (format : BinaryFormat) (q : ℚ) (scale : ℤ) : Prop where
  min_le : format.minScale ≤ scale
  fits : q < 2 ^ (scale + format.precision)
  fills : scale = format.minScale ∨ 2 ^ (scale + format.precision - 1) ≤ q

namespace BinaryFormat

theorem IsScale.unique {format : BinaryFormat} {q : ℚ} {s t : ℤ} (hs : format.IsScale q s)
    (ht : format.IsScale q t) : s = t := by
  have key {s t : ℤ} (hs : format.IsScale q s) (ht : format.IsScale q t) : t ≤ s := by
    by_contra hlt
    rcases ht.fills with hmin | hfill
    · have := hs.min_le
      omega
    · have hpow : (2 : ℚ) ^ (s + format.precision) ≤ 2 ^ (t + format.precision - 1) :=
        zpow_le_zpow_right₀ (by norm_num) (by omega)
      exact absurd (hs.fits.trans_le (hpow.trans hfill)) (lt_irrefl q)
  exact le_antisymm (key ht hs) (key hs ht)

theorem ratio_lt_two_zpow (num : ℕ) {den : ℕ} (hd : 0 < den) :
    (num : ℚ) / den < 2 ^ ((num.log2 : ℤ) - den.log2 + 1) := by
  have hnum : (num : ℚ) < 2 ^ (num.log2 + 1) := by exact_mod_cast Nat.lt_log2_self
  have hden : (2 : ℚ) ^ den.log2 ≤ den := by exact_mod_cast Nat.log2_self_le hd.ne'
  calc (num : ℚ) / den ≤ num / 2 ^ den.log2 := by gcongr
    _ < 2 ^ (num.log2 + 1) / 2 ^ den.log2 := by gcongr
    _ = 2 ^ ((num.log2 : ℤ) - den.log2 + 1) := by
      rw [← zpow_natCast, ← zpow_natCast, ← zpow_sub₀ two_ne_zero]
      congr 1
      push_cast
      ring

theorem two_zpow_lt_ratio {num den : ℕ} (hn : num ≠ 0) (hd : 0 < den) :
    (2 : ℚ) ^ ((num.log2 : ℤ) - den.log2 - 1) < num / den := by
  have hnum : (2 : ℚ) ^ num.log2 ≤ num := by exact_mod_cast Nat.log2_self_le hn
  have hden : (den : ℚ) < 2 ^ (den.log2 + 1) := by exact_mod_cast Nat.lt_log2_self
  calc (2 : ℚ) ^ ((num.log2 : ℤ) - den.log2 - 1) = 2 ^ num.log2 / 2 ^ (den.log2 + 1) := by
        rw [← zpow_natCast, ← zpow_natCast, ← zpow_sub₀ two_ne_zero]
        congr 1
        push_cast
        ring
    _ < 2 ^ num.log2 / den := by gcongr
    _ ≤ num / den := by gcongr

theorem div_lt_two_pow_iff {num den : ℕ} (hd : 0 < den) (scale : ℤ) (p : ℕ) :
    (BinaryFormat.unscale num den scale).1 / (BinaryFormat.unscale num den scale).2 < 2 ^ p ↔
      (num : ℚ) / den < 2 ^ (scale + p) := by
  have hd' := unscale_den_pos hd num scale
  have hq := unscale_ratio num den scale
  have hscale : (0 : ℚ) < 2 ^ scale := by positivity
  rw [Nat.div_lt_iff_lt_mul hd', zpow_add₀ two_ne_zero, zpow_natCast, mul_comm (2 ^ scale : ℚ),
    ← div_lt_iff₀ hscale, ← hq, div_lt_iff₀ (by exact_mod_cast hd')]
  exact_mod_cast Iff.rfl

theorem scaleOf_isScale (format : BinaryFormat) (num : ℕ) {den : ℕ} (hd : 0 < den) :
    format.IsScale (num / den) (format.scaleOf num den) := by
  rw [scaleOf]
  by_cases hn : num = 0
  · rw [if_pos hn, hn]
    exact ⟨le_rfl, by simp; positivity, .inl rfl⟩
  · rw [if_neg hn]
    have hlow := two_zpow_lt_ratio hn hd
    have hhigh := ratio_lt_two_zpow num hd
    generalize hk : (num.log2 : ℤ) - den.log2 - format.precision = k
    have hfill : (2 : ℚ) ^ (k + format.precision - 1) ≤ num / den := by
      rw [← hk, sub_add_cancel]
      exact hlow.le
    have hfits : (num : ℚ) / den < 2 ^ (k + format.precision + 1) := by
      rwa [← hk, sub_add_cancel]
    simp only [div_lt_two_pow_iff hd, Nat.pow_eq]
    split
    · rename_i hlt
      refine ⟨le_max_left _ _, hlt, ?_⟩
      rcases le_total k format.minScale with hle | hle
      · exact .inl (max_eq_left hle)
      · exact .inr (by rwa [max_eq_right hle])
    · rename_i hge
      refine ⟨by omega, hfits.trans_le ?_, .inr ?_⟩
      · exact zpow_le_zpow_right₀ (by norm_num) (by omega)
      · rw [show max format.minScale k + 1 + (format.precision : ℤ) - 1 =
          max format.minScale k + format.precision by ring]
        exact not_lt.mp hge

/-- A quotient is rounded at its scale. -/
theorem round_eq {format : BinaryFormat} {num den m : ℕ} {scale : ℤ} (hd : 0 < den)
    (hs : format.IsScale (num / den) scale) (hm : RoundsToNat (num / den / 2 ^ scale) m)
    (hmax : scale < format.maxScale ∨ scale = format.maxScale ∧ m < 2 ^ format.precision) :
    format.round num den = some (m, scale) := by
  rw [← unscale_ratio] at hm
  have hround := roundHalfEven_eq (unscale_den_pos hd num scale) hm
  simp only [round, (scaleOf_isScale format num hd).unique hs, hround, Nat.pow_eq]
  rw [if_pos hmax]

end BinaryFormat

namespace Binary64

/-! ## Doubles as rationals -/

/-- The absolute value of a finite double. -/
def magnitude (x : Binary64) : ℚ :=
  x.significand * 2 ^ x.scale

/-- The rationals between the ends of the rounding interval; the ends are included when the
significand is even. -/
def Rounds (x : Binary64) (q : ℚ) : Prop :=
  let quarter : ℚ := 2 ^ (x.scale - 2)
  if x.significand % 2 = 0 then x.lowerEnd * quarter ≤ q ∧ q ≤ x.upperEnd * quarter
  else x.lowerEnd * quarter < q ∧ q < x.upperEnd * quarter

theorem bits_eq (x : Binary64) : x.bits.toNat =
    (if x.negative then signBit else 0) + (x.exponentField * fractionSize + x.fractionField) := by
  have hlt := x.bits.toNat_lt
  simp only [negative, exponentField, fractionField, signBit, fractionSize]
  by_cases h : 0x8000000000000000 ≤ x.bits.toNat
  · simp only [h, decide_true, if_true]
    omega
  · simp only [h, decide_false, Bool.false_eq_true, if_false]
    omega

theorem fractionField_lt (x : Binary64) : x.fractionField < fractionSize :=
  Nat.mod_lt _ (by decide)

theorem exponentField_lt (x : Binary64) : x.exponentField < 2048 :=
  Nat.mod_lt _ (by decide)

theorem significand_lt (x : Binary64) : x.significand < 2 ^ 53 := by
  have hf := x.fractionField_lt
  rw [significand]
  simp only [fractionSize] at hf ⊢
  split <;> omega

theorem minScale_le (x : Binary64) : -1074 ≤ x.scale := by
  rw [scale]
  omega

/-- The significand is full, except at the smallest scale. -/
theorem scale_eq_or_le_significand (x : Binary64) : x.scale = -1074 ∨ 2 ^ 52 ≤ x.significand := by
  rw [scale, significand]
  simp only [fractionSize]
  split <;> omega

theorem scale_le_of_isFinite {x : Binary64} (h : x.isFinite = true) : x.scale ≤ 971 := by
  have hlt := x.exponentField_lt
  have hne : x.exponentField ≠ 2047 := by simpa [isFinite] using h
  rw [scale]
  omega

theorem ofScaled_self (x : Binary64) : ofScaled x.negative x.significand x.scale = x := by
  have hbits : (x.scale + 1074).toNat * fractionSize + x.significand =
      x.exponentField * fractionSize + x.fractionField := by
    rw [scale, significand]
    simp only [fractionSize]
    split <;> omega
  rw [ofScaled, ofMagnitude, hbits, ← bits_eq]
  simp

/-! ## The rounding interval -/

theorem le_lowerEnd (x : Binary64) : (4 * x.significand - 2 : ℚ) ≤ x.lowerEnd := by
  have h : 4 * x.significand ≤ x.lowerEnd + 2 := by
    rw [lowerEnd]
    split <;> omega
  have h' : (4 * x.significand : ℚ) ≤ x.lowerEnd + 2 := by exact_mod_cast h
  linarith

/-- Below a power of two the next double is only half as far away as above it. -/
theorem lowerEnd_of_power {x : Binary64} (hm : x.significand = 2 ^ 52) (hs : -1074 < x.scale) :
    (x.lowerEnd : ℚ) = 4 * 2 ^ 52 - 1 := by
  have hfields : x.fractionField = 0 ∧ 1 < x.exponentField := by
    rw [scale] at hs
    rw [significand] at hm
    simp only [fractionSize] at hm
    split at hm <;> omega
  rw [lowerEnd, if_pos hfields, hm]
  norm_num

/-- The lower end is two quarters below the double, except below a power of two. -/
theorem lowerEnd_or_power {x : Binary64} (hm : 0 < x.significand) :
    (x.lowerEnd : ℚ) = 4 * x.significand - 2 ∨ x.significand = 2 ^ 52 ∧ -1074 < x.scale := by
  have h : x.lowerEnd + 2 = 4 * x.significand ∨ x.significand = 2 ^ 52 ∧ -1074 < x.scale := by
    rw [lowerEnd, significand, scale] at *
    simp only [fractionSize] at *
    split at hm <;> split <;> omega
  refine h.imp_left fun h => ?_
  have h : (x.lowerEnd : ℚ) + 2 = 4 * x.significand := by exact_mod_cast h
  linarith

theorem lowerEnd_lt {x : Binary64} (hm : 0 < x.significand) :
    (x.lowerEnd : ℚ) < 4 * x.significand := by
  have h : x.lowerEnd < 4 * x.significand := by
    rw [lowerEnd]
    split <;> omega
  exact_mod_cast h

/-- The interval in units of the last place. -/
theorem rounds_iff {x : Binary64} {q : ℚ} : x.Rounds q ↔
    (x.lowerEnd / 4 < q / 2 ^ x.scale ∨
        x.lowerEnd / 4 = q / 2 ^ x.scale ∧ x.significand % 2 = 0) ∧
      (q / 2 ^ x.scale < x.significand + 1 / 2 ∨
        q / 2 ^ x.scale = x.significand + 1 / 2 ∧ x.significand % 2 = 0) := by
  have hpow : (0 : ℚ) < 2 ^ x.scale := by positivity
  have hquarter (a : ℚ) : a * 2 ^ (x.scale - 2) = a / 4 * 2 ^ x.scale := by
    rw [zpow_sub₀ two_ne_zero]
    norm_num
    ring
  have hupper : (x.upperEnd : ℚ) / 4 = x.significand + 1 / 2 := by
    rw [upperEnd]
    push_cast
    ring
  simp only [Rounds, hquarter, hupper]
  rw [lt_div_iff₀ hpow, eq_div_iff hpow.ne', div_lt_iff₀ hpow, div_eq_iff hpow.ne']
  by_cases heven : x.significand % 2 = 0
  · simp only [heven, if_true, and_true, le_iff_lt_or_eq]
  · simp only [heven, if_false, and_false, or_false]

/-- A rational in the interval rounds to the significand, in units of the last place. -/
theorem Rounds.roundsToNat {x : Binary64} {q : ℚ} (h : x.Rounds q) :
    RoundsToNat (q / 2 ^ x.scale) x.significand := by
  obtain ⟨hlow, hhigh⟩ := rounds_iff.mp h
  have hend := x.le_lowerEnd
  refine ⟨?_, hhigh⟩
  rcases hlow with hlow | ⟨hlow, heven⟩
  · exact .inl (by linarith)
  · rcases hend.lt_or_eq with hlt | heq
    · exact .inl (by linarith)
    · exact .inr ⟨by linarith, heven⟩

theorem Rounds.lt_two_zpow {x : Binary64} {q : ℚ} (h : x.Rounds q) : q < 2 ^ (x.scale + 53) := by
  have hm : (x.significand : ℚ) ≤ 2 ^ 53 - 1 := by
    have := x.significand_lt
    have : x.significand + 1 ≤ 2 ^ 53 := by omega
    have : (x.significand + 1 : ℚ) ≤ 2 ^ 53 := by exact_mod_cast this
    linarith
  have hq : q / 2 ^ x.scale ≤ x.significand + 1 / 2 := (rounds_iff.mp h).2.elim le_of_lt (·.1.le)
  rw [zpow_add₀ two_ne_zero, mul_comm, ← div_lt_iff₀ (by positivity)]
  have hlt : q / 2 ^ x.scale < 2 ^ 53 := by linarith
  exact hlt

/-- A rational in the interval that does not fill the significand lies just below a power of two;
one scale lower it rounds up to that power. -/
theorem Rounds.below_power {x : Binary64} {q : ℚ} (h : x.Rounds q) (hs : -1074 < x.scale)
    (hq : q < 2 ^ (x.scale + 52)) :
    x.significand = 2 ^ 52 ∧ 2 ^ (x.scale + 51) ≤ q ∧
      RoundsToNat (q / 2 ^ (x.scale - 1)) (2 ^ 53) := by
  have hpow : (0 : ℚ) < 2 ^ x.scale := by positivity
  obtain ⟨hlow, -⟩ := rounds_iff.mp h
  have hlow : (x.lowerEnd : ℚ) / 4 ≤ q / 2 ^ x.scale := hlow.elim le_of_lt (·.1.le)
  have hq : q / 2 ^ x.scale < 2 ^ 52 := by
    rw [zpow_add₀ two_ne_zero, mul_comm] at hq
    rw [div_lt_iff₀ hpow]
    exact hq
  have hm : x.significand = 2 ^ 52 := by
    have hfull := x.scale_eq_or_le_significand.resolve_left hs.ne'
    have hend := x.le_lowerEnd
    have hlt : (x.significand : ℚ) < 2 ^ 52 + 1 := by linarith
    have hlt : x.significand < 2 ^ 52 + 1 := by exact_mod_cast hlt
    omega
  rw [lowerEnd_of_power hm hs] at hlow
  have hhalf : q / 2 ^ (x.scale - 1) = 2 * (q / 2 ^ x.scale) := by
    rw [zpow_sub₀ two_ne_zero]
    field_simp
  refine ⟨hm, ?_, ?_, .inl ?_⟩
  · rw [zpow_add₀ two_ne_zero, mul_comm, ← le_div_iff₀ hpow]
    norm_num at hlow ⊢
    linarith
  · rw [hhalf]
    rcases hlow.lt_or_eq with hlt | heq
    · refine .inl ?_
      push_cast
      linarith
    · refine .inr ⟨?_, by norm_num⟩
      rw [← heq]
      norm_num
  · rw [hhalf]
    push_cast
    linarith

/-- Rounding gives a double back for each rational in its interval. -/
theorem ofRatio_eq_of_rounds {x : Binary64} (hx : x.isFinite = true) {num den : ℕ} (hd : 0 < den)
    (h : x.Rounds (num / den)) : ofRatio x.negative num den = x := by
  have hmin := x.minScale_le
  have hmax := scale_le_of_isFinite hx
  rw [ofRatio]
  by_cases hfills : x.scale = -1074 ∨ (2 : ℚ) ^ (x.scale + 53 - 1) ≤ num / den
  · have hround : BinaryFormat.double.round num den = some (x.significand, x.scale) :=
      BinaryFormat.round_eq hd ⟨hmin, h.lt_two_zpow, hfills⟩ h.roundsToNat
        (hmax.lt_or_eq.imp_right (⟨·, x.significand_lt⟩))
    rw [hround]
    exact x.ofScaled_self
  · push Not at hfills
    obtain ⟨hne, hlt⟩ := hfills
    rw [show x.scale + 53 - 1 = x.scale + 52 by ring] at hlt
    obtain ⟨hm, hfill, hround⟩ := h.below_power (lt_of_le_of_ne hmin (Ne.symm hne)) hlt
    have hround : BinaryFormat.double.round num den = some (2 ^ 53, x.scale - 1) := by
      refine BinaryFormat.round_eq hd ⟨?_, ?_, .inr ?_⟩ hround (.inl ?_)
      · simp only [BinaryFormat.double]
        omega
      · rwa [show x.scale - 1 + (BinaryFormat.double.precision : ℤ) = x.scale + 52 by
          simp only [BinaryFormat.double]
          ring]
      · rwa [show x.scale - 1 + (BinaryFormat.double.precision : ℤ) - 1 = x.scale + 51 by
          simp only [BinaryFormat.double]
          ring]
      · simp only [BinaryFormat.double]
        omega
    rw [hround]
    -- The carry moves the power of two back to the scale of the double.
    calc ofScaled x.negative (2 ^ 53) (x.scale - 1) = ofScaled x.negative (2 ^ 52) x.scale := by
          have hcarry : (x.scale - 1 + 1074).toNat * fractionSize + 2 ^ 53 =
              (x.scale + 1074).toNat * fractionSize + 2 ^ 52 := by
            simp only [fractionSize]
            omega
          rw [ofScaled, ofScaled, hcarry]
      _ = x := by rw [← hm, ofScaled_self]

/-! ## Doubles without fraction -/

theorem significand_eq_zero {x : Binary64} : x.significand = 0 ↔ x.isZero = true := by
  have hsize : 0 < fractionSize := by decide
  rw [significand, isZero]
  simp only [Bool.and_eq_true, beq_iff_eq]
  split <;> omega

theorem significand_pos {x : Binary64} (h : x.isZero = false) : 0 < x.significand := by
  refine Nat.pos_of_ne_zero fun h0 => ?_
  rw [significand_eq_zero.mp h0] at h
  contradiction

theorem magnitude_rounds {x : Binary64} (h : x.isZero = false) : x.Rounds x.magnitude := by
  have hend := lowerEnd_lt (significand_pos h)
  rw [rounds_iff, magnitude, mul_div_cancel_right₀ _ (by positivity)]
  exact ⟨.inl (by linarith), .inl (by linarith)⟩

theorem toInt?_eq_some {x : Binary64} {n : ℤ} (h : x.toInt? = some n) :
    (n.natAbs : ℚ) = x.magnitude ∧ n = if x.negative then -(n.natAbs : ℤ) else n.natAbs := by
  simp only [toInt?, Nat.pow_eq] at h
  split at h
  · split at h
    · rename_i hdvd
      have hmul := Nat.div_mul_cancel (Nat.dvd_of_mod_eq_zero hdvd)
      generalize x.significand * 2 ^ x.scale.toNat / 2 ^ (-x.scale).toNat = whole at h hmul
      have hwhole : (whole : ℚ) = x.magnitude := by
        rw [magnitude, zpow_eq_div_toNat two_ne_zero, ← mul_div_assoc, eq_div_iff (by positivity)]
        exact_mod_cast hmul
      have hn : n.natAbs = whole := by
        rw [← Option.some.inj h]
        split <;> simp
      rw [hn]
      exact ⟨hwhole, (Option.some.inj h).symm⟩
    · contradiction
  · contradiction

theorem isFinite_of_toInt? {x : Binary64} {n : ℤ} (h : x.toInt? = some n) : x.isFinite = true := by
  by_contra hx
  simp [toInt?, hx] at h

/-- A whole double is the double nearest to its integer. -/
theorem ofInt_of_toInt? {x : Binary64} {n : ℤ} (h : x.toInt? = some n) (hx : x.isZero = false) :
    ofInt n = x := by
  obtain ⟨habs, hsign⟩ := toInt?_eq_some h
  have hpos : (0 : ℚ) < n.natAbs := by
    rw [habs, magnitude]
    have := significand_pos hx
    positivity
  have hpos : 0 < n.natAbs := by exact_mod_cast hpos
  have hneg : decide (n < 0) = x.negative := by
    cases hx : x.negative <;> simp only [hx, Bool.false_eq_true, if_true, if_false] at hsign <;> simp <;>
      omega
  have hrounds := magnitude_rounds hx
  rw [← habs, ← div_one (n.natAbs : ℚ), ← Nat.cast_one] at hrounds
  rw [ofInt, hneg]
  exact ofRatio_eq_of_rounds (isFinite_of_toInt? h) one_pos hrounds

end Binary64

end AttributeCheck
