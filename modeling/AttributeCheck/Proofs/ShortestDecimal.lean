import AttributeCheck.Numeric.Numeral
import AttributeCheck.Numeric.Shortest
import AttributeCheck.Proofs.Rounding
import Mathlib.Tactic.NormNum
import Mathlib.Tactic.Ring

/-! # The shortest decimal reads back

The decimal found for a double lies in its rounding interval, hence reading it gives the double. The
search always ends at a decimal of the interval: a grid of seventeen digits is finer than the
doubles. -/

namespace AttributeCheck

namespace Decimal

def value (d : Decimal) : ℚ :=
  d.coefficient * 10 ^ d.exponent

theorem trim_value (fuel : ℕ) (d : Decimal) : (trim fuel d).value = d.value := by
  induction fuel generalizing d with
  | zero => rfl
  | succ fuel ih =>
    rw [trim]
    split
    · rename_i hzero
      have hcoefficient : (d.coefficient : ℚ) = (d.coefficient / 10 : ℕ) * 10 := by
        exact_mod_cast (Nat.div_mul_cancel (Nat.dvd_of_mod_eq_zero hzero)).symm
      rw [ih]
      simp only [value]
      rw [hcoefficient, zpow_add_one₀ (by norm_num)]
      ring
    · rfl

end Decimal

namespace Binary64

variable {x : Binary64} {tie : Tie}

/-! ## Decimal grids -/

/-- The unit in which the step of a grid and a quarter of the last place are whole. -/
def gridUnit (x : Binary64) (exponent : ℤ) : ℚ :=
  10 ^ (-exponent).toNat * 2 ^ (-(x.scale - 2)).toNat

theorem gridUnit_pos (x : Binary64) (exponent : ℤ) : 0 < x.gridUnit exponent := by
  rw [gridUnit]
  positivity

theorem grid_step (x : Binary64) (exponent : ℤ) :
    ((x.grid exponent).step : ℚ) = 10 ^ exponent * x.gridUnit exponent := by
  rw [zpow_eq_div_toNat (by norm_num) exponent]
  simp only [grid, gridUnit, Nat.pow_eq]
  push_cast
  field_simp

theorem grid_quarter (x : Binary64) (exponent : ℤ) :
    ((x.grid exponent).quarter : ℚ) = 2 ^ (x.scale - 2) * x.gridUnit exponent := by
  rw [zpow_eq_div_toNat two_ne_zero (x.scale - 2)]
  simp only [grid, gridUnit, Nat.pow_eq]
  push_cast
  field_simp

theorem grid_step_pos (x : Binary64) (exponent : ℤ) : 0 < (x.grid exponent).step :=
  Nat.mul_pos (Nat.pow_pos (by decide)) (Nat.pow_pos (by decide))

theorem covers_iff {exponent : ℤ} {point : ℕ} :
    x.covers (x.grid exponent) point = true ↔ x.Rounds (point * 10 ^ exponent) := by
  have hunit := x.gridUnit_pos exponent
  have hle (a b : ℕ) : a * (x.grid exponent).quarter ≤ b * (x.grid exponent).step ↔
      (a : ℚ) * 2 ^ (x.scale - 2) ≤ b * 10 ^ exponent := by
    rw [← mul_le_mul_iff_left₀ hunit, mul_assoc, mul_assoc, ← grid_step, ← grid_quarter]
    exact_mod_cast Iff.rfl
  have hge (a b : ℕ) : b * (x.grid exponent).step ≤ a * (x.grid exponent).quarter ↔
      (b : ℚ) * 10 ^ exponent ≤ a * 2 ^ (x.scale - 2) := by
    rw [← mul_le_mul_iff_left₀ hunit, mul_assoc, mul_assoc, ← grid_step, ← grid_quarter]
    exact_mod_cast Iff.rfl
  simp only [covers, Rounds]
  split
  · rw [decide_eq_true_iff, hle, hge]
  · rw [decide_eq_true_iff, ← not_le, ← not_le, hle, hge, not_le, not_le]

theorem gridPoint?_rounds {exponent : ℤ} {point : ℕ}
    (h : x.gridPoint? tie (x.grid exponent) = some point) : x.Rounds (point * 10 ^ exponent) := by
  rw [← covers_iff]
  simp only [gridPoint?] at h
  grind

theorem four_mul_quarter (x : Binary64) (exponent : ℤ) :
    ((4 * x.significand * (x.grid exponent).quarter : ℕ) : ℚ) =
      x.magnitude * x.gridUnit exponent := by
  push_cast
  rw [grid_quarter, magnitude, zpow_sub₀ two_ne_zero]
  norm_num
  ring

/-- The last point of the grid that is not above the double. -/
def gridBelow (x : Binary64) (exponent : ℤ) : ℕ :=
  4 * x.significand * (x.grid exponent).quarter / (x.grid exponent).step

theorem gridBelow_le (x : Binary64) (exponent : ℤ) :
    x.gridBelow exponent * 10 ^ exponent ≤ x.magnitude := by
  rw [← mul_le_mul_iff_left₀ (x.gridUnit_pos exponent), mul_assoc, ← grid_step, ← four_mul_quarter,
    gridBelow]
  exact_mod_cast Nat.div_mul_le_self _ _

theorem lt_gridBelow_succ (x : Binary64) (exponent : ℤ) :
    x.magnitude < (x.gridBelow exponent + 1 : ℕ) * 10 ^ exponent := by
  rw [← mul_lt_mul_iff_left₀ (x.gridUnit_pos exponent), mul_assoc _ (10 ^ exponent), ← grid_step,
    ← four_mul_quarter, gridBelow, mul_comm (_ : ℚ)]
  exact_mod_cast Nat.lt_mul_div_succ _ (x.grid_step_pos exponent)

/-- A grid as fine as seventeen digits has a point that rounds to the double. -/
theorem gridPoint?_isSome {exponent : ℤ} (hx : x.isZero = false)
    (hfine : 10 ^ exponent * 10 ^ 16 ≤ x.magnitude) :
    (x.gridPoint? tie (x.grid exponent)).isSome = true := by
  by_contra hnone
  -- Neither neighbour of the double on the grid rounds to it.
  have hmiss : ¬ x.Rounds (x.gridBelow exponent * 10 ^ exponent) ∧
      ¬ x.Rounds ((x.gridBelow exponent + 1 : ℕ) * 10 ^ exponent) := by
    rw [← covers_iff, ← covers_iff, gridBelow]
    simp only [gridPoint?] at hnone
    grind
  obtain ⟨hlow, hhigh⟩ := hmiss
  have hm := significand_pos hx
  have hend := lowerEnd_lt hm
  have hpow : (0 : ℚ) < 2 ^ x.scale := by positivity
  -- In units of the last place: the point below, the point above, and the step between them.
  have hbelow_le : x.gridBelow exponent * 10 ^ exponent / 2 ^ x.scale ≤ (x.significand : ℚ) := by
    rw [div_le_iff₀ hpow]
    exact x.gridBelow_le exponent
  have hlt_above :
      (x.significand : ℚ) < (x.gridBelow exponent + 1 : ℕ) * 10 ^ exponent / 2 ^ x.scale := by
    rw [lt_div_iff₀ hpow]
    exact x.lt_gridBelow_succ exponent
  generalize x.gridBelow exponent = below at *
  have habove : (below + 1 : ℕ) * 10 ^ exponent / 2 ^ x.scale =
      below * 10 ^ exponent / 2 ^ x.scale + (10 ^ exponent / 2 ^ x.scale : ℚ) := by
    push_cast
    ring
  have hgap : (10 ^ exponent / 2 ^ x.scale : ℚ) * 10 ^ 16 ≤ x.significand := by
    rw [div_mul_eq_mul_div, div_le_iff₀ hpow]
    exact hfine
  rw [habove] at hlt_above
  rw [rounds_iff, habove] at hhigh
  rw [rounds_iff] at hlow
  generalize (10 ^ exponent / 2 ^ x.scale : ℚ) = gap at *
  generalize (below * 10 ^ exponent / 2 ^ x.scale : ℚ) = low at *
  -- The point above is at least half a place away, hence the point below is nearer than that.
  have hfar : x.significand + 1 / 2 ≤ low + gap := by
    by_contra hnear
    exact hhigh ⟨.inl (by linarith), .inl (by linarith)⟩
  have hnear : low ≤ x.lowerEnd / 4 := by
    by_contra hnear
    exact hlow ⟨.inl (by linarith), .inl (by linarith)⟩
  rcases lowerEnd_or_power hm with hend | ⟨hpower, -⟩
  · have hfull : (x.significand : ℚ) < 2 ^ 53 := by exact_mod_cast x.significand_lt
    linarith
  · have hpower : (x.significand : ℚ) = 2 ^ 52 := by exact_mod_cast hpower
    linarith

/-! ## The leading digit -/

theorem reaches_iff {exponent : ℤ} : x.reaches exponent = true ↔ 10 ^ exponent ≤ x.magnitude := by
  rw [← mul_le_mul_iff_left₀ (x.gridUnit_pos exponent), ← grid_step, ← four_mul_quarter, reaches,
    decide_eq_true_iff]
  exact_mod_cast Iff.rfl

theorem zpow_le_zpow_of_pow {a b : ℚ} (ha : 1 ≤ a) (hb : 0 < b) {e k : ℤ} {p r : ℕ} (hp : p ≠ 0)
    (h : e * p ≤ r * k) (hpow : (a ^ r) ^ k ≤ (b ^ p) ^ k) : a ^ e ≤ b ^ k := by
  refine le_of_pow_le_pow_left₀ hp (by positivity) ?_
  calc (a ^ e) ^ p = a ^ (e * p) := by rw [zpow_mul, zpow_natCast]
    _ ≤ a ^ (r * k) := zpow_le_zpow_right₀ ha h
    _ = (a ^ r) ^ k := by rw [zpow_mul, zpow_natCast]
    _ ≤ (b ^ p) ^ k := hpow
    _ = (b ^ k) ^ p := by rw [← zpow_natCast, ← zpow_natCast, zpow_comm]

theorem zpow_le_zpow_left_of_nonpos {a b : ℚ} (ha : 0 < a) (hab : a ≤ b) {k : ℤ} (hk : k ≤ 0) :
    b ^ k ≤ a ^ k := by
  have hneg : a ^ (-k) ≤ b ^ (-k) := zpow_le_zpow_left₀ (neg_nonneg.mpr hk) ha.le hab
  have hb : 0 < b := ha.trans_le hab
  rw [zpow_neg, zpow_neg] at hneg
  exact (inv_le_inv₀ (by positivity) (by positivity)).mp hneg

/-- A power of ten is below a power of two when its exponent is small enough: the two fractions lie
on both sides of the decimal logarithm of two. -/
theorem ten_zpow_le_two_zpow {e k : ℤ} (h : 0 ≤ k ∧ e * 103 ≤ 31 * k ∨ k ≤ 0 ∧ e * 53 ≤ 16 * k) :
    (10 : ℚ) ^ e ≤ 2 ^ k := by
  rcases h with ⟨hk, he⟩ | ⟨hk, he⟩
  · refine zpow_le_zpow_of_pow (by norm_num) two_pos (p := 103) (r := 31) (by decide) he ?_
    exact zpow_le_zpow_left₀ hk (by norm_num) (by norm_num)
  · refine zpow_le_zpow_of_pow (by norm_num) two_pos (p := 53) (r := 16) (by decide) he ?_
    exact zpow_le_zpow_left_of_nonpos (by norm_num) (by norm_num) hk

/-- A power of two is below a power of ten when its exponent is small enough. -/
theorem two_zpow_le_ten_zpow {k e : ℤ} (h : 0 ≤ e ∧ k * 28 ≤ 93 * e ∨ e ≤ 0 ∧ k * 59 ≤ 196 * e) :
    (2 : ℚ) ^ k ≤ 10 ^ e := by
  rcases h with ⟨he, hk⟩ | ⟨he, hk⟩
  · refine zpow_le_zpow_of_pow (by norm_num) (by norm_num) (p := 28) (r := 93) (by decide) hk ?_
    exact zpow_le_zpow_left₀ he (by norm_num) (by norm_num)
  · refine zpow_le_zpow_of_pow (by norm_num) (by norm_num) (p := 59) (r := 196) (by decide) hk ?_
    exact zpow_le_zpow_left_of_nonpos (by norm_num) (by norm_num) he

theorem two_zpow_le_magnitude (hx : x.isZero = false) :
    (2 : ℚ) ^ ((x.significand.log2 : ℤ) + x.scale) ≤ x.magnitude := by
  have hlog : (2 : ℚ) ^ x.significand.log2 ≤ x.significand := by
    exact_mod_cast Nat.log2_self_le (significand_pos hx).ne'
  rw [zpow_add₀ two_ne_zero, zpow_natCast, magnitude]
  gcongr

theorem leadingExponent_le (hx : x.isZero = false) (hfin : x.isFinite = true) :
    10 ^ x.leadingExponent ≤ x.magnitude := by
  have hpow := two_zpow_le_magnitude hx
  have hlog : x.significand.log2 < 53 :=
    (Nat.log2_lt (significand_pos hx).ne').mpr x.significand_lt
  have hmin := x.minScale_le
  have hmax := scale_le_of_isFinite hfin
  simp only [leadingExponent]
  split
  · exact reaches_iff.mp ‹_›
  · split
    · exact reaches_iff.mp ‹_›
    · refine (ten_zpow_le_two_zpow ?_).trans hpow
      omega

theorem magnitude_lt_two_zpow (x : Binary64) :
    x.magnitude < 2 ^ ((x.significand.log2 : ℤ) + x.scale + 1) := by
  have hlog : (x.significand : ℚ) < 2 ^ (x.significand.log2 + 1) := by
    exact_mod_cast Nat.lt_log2_self
  rw [add_right_comm, zpow_add₀ two_ne_zero, magnitude]
  gcongr
  exact_mod_cast hlog

theorem magnitude_lt (hx : x.isZero = false) (hfin : x.isFinite = true) :
    x.magnitude < 10 ^ (x.leadingExponent + 1) := by
  have hpow := x.magnitude_lt_two_zpow
  have hlog : x.significand.log2 < 53 :=
    (Nat.log2_lt (significand_pos hx).ne').mpr x.significand_lt
  have hmin := x.minScale_le
  have hmax := scale_le_of_isFinite hfin
  simp only [leadingExponent]
  split
  · refine hpow.trans_le (two_zpow_le_ten_zpow ?_)
    omega
  · rename_i hnext
    rw [reaches_iff, not_le] at hnext
    split
    · exact hnext
    · rename_i hestimate
      rw [reaches_iff, not_le] at hestimate
      rwa [sub_add_cancel]

/-! ## The search -/

/-- The grid of that many digits is the first one, from those of `start` digits on, with a point that
rounds to the double. -/
structure FirstHit (tie : Tie) (x : Binary64) (lead : ℤ) (start digits point : ℕ) : Prop where
  start_le : start ≤ digits
  le_seventeen : digits ≤ 17
  hit : x.gridPoint? tie (x.grid (lead + 1 - digits)) = some point
  missed : ∀ k, start ≤ k → k < digits → x.gridPoint? tie (x.grid (lead + 1 - k)) = none

/-- A search that comes to seventeen digits ends at the first grid with a point to take. -/
theorem exists_firstHit {lead : ℤ} (hx : x.isZero = false) (hlead : 10 ^ lead ≤ x.magnitude)
    {more start : ℕ} (hmore : 0 < more) (hstart : more + start = 18) :
    ∃ digits point, FirstHit tie x lead start digits point ∧
      x.shortestFrom tie lead more start = Decimal.trim 17 ⟨point, lead + 1 - digits⟩ := by
  induction more generalizing start with
  | zero => contradiction
  | succ more ih =>
    rw [shortestFrom]
    cases hpoint : x.gridPoint? tie (x.grid (lead + 1 - start)) with
    | some point =>
      exact ⟨start, point, ⟨le_rfl, by omega, hpoint, fun k hk hlt => absurd hlt (by omega)⟩, rfl⟩
    | none =>
      -- With the last digit there is a point.
      have hnotlast : 0 < more := by
        by_contra hlast
        have hfine : (10 : ℚ) ^ (lead + 1 - start) * 10 ^ 16 ≤ x.magnitude := by
          rw [← zpow_natCast, ← zpow_add₀ (by norm_num)]
          rwa [show lead + 1 - (start : ℤ) + (16 : ℕ) = lead by omega]
        have hsome : (x.gridPoint? tie (x.grid (lead + 1 - start))).isSome = true :=
          gridPoint?_isSome hx hfine
        rw [hpoint] at hsome
        contradiction
      obtain ⟨digits, point, hfirst, heq⟩ := ih hnotlast (show more + (start + 1) = 18 by omega)
      have hle := hfirst.start_le
      refine ⟨digits, point, ⟨by omega, hfirst.le_seventeen, hfirst.hit, fun k hk hlt => ?_⟩, heq⟩
      rcases Nat.eq_or_lt_of_le hk with rfl | hmore
      · exact hpoint
      · exact hfirst.missed k hmore hlt

theorem exists_shortest_eq (tie : Tie) (hx : x.isZero = false) (hfin : x.isFinite = true) :
    ∃ digits point, FirstHit tie x x.leadingExponent 1 digits point ∧
      x.shortest tie = Decimal.trim 17 ⟨point, x.leadingExponent + 1 - digits⟩ :=
  exists_firstHit hx (leadingExponent_le hx hfin) (by decide) rfl

theorem shortest_rounds (tie : Tie) (hx : x.isZero = false) (hfin : x.isFinite = true) :
    x.Rounds (x.shortest tie).value := by
  obtain ⟨digits, point, hfirst, heq⟩ := exists_shortest_eq tie hx hfin
  rw [heq, Decimal.trim_value]
  exact gridPoint?_rounds hfirst.hit

/-- One digit tells the least positive double from its neighbours. -/
example : (ofMagnitude false 1).shortest .larger = ⟨5, -324⟩ := by
  decide +kernel

/-! ## Reading -/

theorem Rounds.two_zpow_le {q : ℚ} (h : x.Rounds q) (hx : x.isZero = false) :
    (2 : ℚ) ^ (-1075 : ℤ) ≤ q := by
  have hm : (1 : ℚ) ≤ x.significand := by exact_mod_cast significand_pos hx
  have hend := x.le_lowerEnd
  have hlow : (x.lowerEnd : ℚ) / 4 ≤ q / 2 ^ x.scale := (rounds_iff.mp h).1.elim le_of_lt (·.1.le)
  rw [le_div_iff₀ (by positivity)] at hlow
  calc (2 : ℚ) ^ (-1075 : ℤ) = 1 / 2 * 2 ^ (-1074 : ℤ) := by
        rw [show (-1075 : ℤ) = -1 + -1074 by norm_num, zpow_add₀ two_ne_zero, zpow_neg_one,
          one_div]
    _ ≤ 1 / 2 * 2 ^ x.scale := by
        gcongr
        · norm_num
        · exact x.minScale_le
    _ ≤ x.lowerEnd / 4 * 2 ^ x.scale := by
        refine mul_le_mul_of_nonneg_right ?_ (by positivity)
        linarith
    _ ≤ q := hlow

end Binary64

namespace Numeral

open Binary64

/-- The number of digits of a coefficient bounds it on both sides. -/
theorem length_digits {c : ℕ} (hc : c ≠ 0) :
    (10 : ℚ) ^ ((toString c).length - 1 : ℤ) ≤ c ∧ (c : ℚ) < 10 ^ ((toString c).length : ℤ) := by
  rw [Nat.toString_eq_repr]
  have hpos : 0 < c.repr.length := Nat.length_repr_pos
  have hlt : c < 10 ^ c.repr.length := (Nat.length_repr_le_iff hpos).mp le_rfl
  refine ⟨?_, by exact_mod_cast hlt⟩
  rw [show (c.repr.length - 1 : ℤ) = (c.repr.length - 1 : ℕ) by omega, zpow_natCast]
  have hle : 10 ^ (c.repr.length - 1) ≤ c := by
    rcases Nat.eq_zero_or_pos (c.repr.length - 1) with h0 | hpos'
    · rw [h0]
      omega
    · have := (Nat.length_repr_le_iff (n := c) hpos').not
      omega
  exact_mod_cast hle

/-- A decimal in the rounding interval of a double reads as that double. -/
theorem toDouble_decimal {x : Binary64} {c : ℕ} {e : ℤ} (hx : x.isZero = false)
    (hfin : x.isFinite = true) (h : x.Rounds (c * 10 ^ e)) :
    (decimal x.negative c e).toDouble = x := by
  have hlow := h.two_zpow_le hx
  have hhigh := h.lt_two_zpow
  have hmax := scale_le_of_isFinite hfin
  have hc : c ≠ 0 := by
    rintro rfl
    have hpos : (0 : ℚ) < 2 ^ (-1075 : ℤ) := by positivity
    rw [Nat.cast_zero, zero_mul] at hlow
    exact absurd hlow (not_le.mpr hpos)
  obtain ⟨hdigits, hdigits'⟩ := length_digits hc
  generalize hlength : (toString c).length = length at hdigits hdigits'
  have htwo : (1 : ℚ) ≤ 2 := by norm_num
  -- The decimal is neither too small nor too large to be expanded.
  have hsmall : ¬ e + length < -400 := by
    intro hlt
    have : (c : ℚ) * 10 ^ e < 2 ^ (-1075 : ℤ) := calc
      (c : ℚ) * 10 ^ e < 10 ^ (length : ℤ) * 10 ^ e := by gcongr
      _ = 10 ^ (e + length) := by rw [← zpow_add₀ (by norm_num), add_comm]
      _ ≤ 10 ^ (-401 : ℤ) := zpow_le_zpow_right₀ (by norm_num) (by omega)
      _ ≤ 2 ^ (-1075 : ℤ) := ten_zpow_le_two_zpow (by norm_num)
    linarith
  have hlarge : ¬ 400 < e + length := by
    intro hlt
    have : (c : ℚ) * 10 ^ e ≥ 2 ^ (1024 : ℤ) := calc
      (c : ℚ) * 10 ^ e ≥ 10 ^ (length - 1 : ℤ) * 10 ^ e := by gcongr
      _ = 10 ^ (e + length - 1) := by
        rw [← zpow_add₀ (by norm_num)]
        congr 1
        ring
      _ ≥ 10 ^ (400 : ℤ) := zpow_le_zpow_right₀ (by norm_num) (by omega)
      _ ≥ 8 ^ (400 : ℤ) := zpow_le_zpow_left₀ (by norm_num) (by norm_num) (by norm_num)
      _ = 2 ^ (1200 : ℤ) := by
        rw [show (8 : ℚ) = 2 ^ (3 : ℤ) by norm_num, ← zpow_mul]
        norm_num
      _ ≥ 2 ^ (1024 : ℤ) := zpow_le_zpow_right₀ htwo (by norm_num)
    have : (2 : ℚ) ^ (x.scale + 53) ≤ 2 ^ (1024 : ℤ) := zpow_le_zpow_right₀ htwo (by omega)
    linarith
  simp only [toDouble, roundWith, hlength]
  rw [if_neg (by omega), if_neg hlarge]
  refine ofRatio_eq_of_rounds hfin (Nat.pow_pos (by decide)) ?_
  rw [zpow_eq_div_toNat (by norm_num), ← mul_div_assoc] at h
  simp only [Nat.pow_eq]
  push_cast
  exact h

end Numeral

end AttributeCheck
