import AttributeCheck.Numeric.Layout
import AttributeCheck.Proofs.NearestDouble

/-! # No shorter decimal reads as the double

The decimal found for a double has the fewest digits of all decimals that read as the double. Of
those with as few it is the nearest. -/

namespace AttributeCheck

namespace Decimal

variable {d : Decimal}

/-! ## Digits and magnitude -/

theorem length_digits_pos (d : Decimal) : 0 < d.digits.length := by
  rw [digits, Nat.toString_eq_repr]
  exact Nat.length_repr_pos

theorem length_digits_le {k : ℕ} (hk : 0 < k) (h : d.coefficient < 10 ^ k) :
    d.digits.length ≤ k := by
  rw [digits, Nat.toString_eq_repr]
  exact (Nat.length_repr_le_iff hk).mpr h

/-- The point of a decimal is the exponent of the first power of ten above it. -/
theorem ten_zpow_point_le (h : d.coefficient ≠ 0) : 10 ^ (d.point - 1) ≤ d.value := by
  have hdigits := (Numeral.length_digits h).1
  rw [show d.point - 1 = d.digits.length - 1 + d.exponent by rw [point]; ring,
    zpow_add₀ (by norm_num), value]
  gcongr
  exact hdigits

theorem value_lt_ten_zpow_point (h : d.coefficient ≠ 0) : d.value < 10 ^ d.point := by
  have hdigits := (Numeral.length_digits h).2
  rw [point, zpow_add₀ (by norm_num), value]
  gcongr
  exact hdigits

/-- A decimal that reaches a power of ten is on the grid of as many digits as it has. -/
theorem exists_value_eq (h : d.coefficient ≠ 0) {lead : ℤ} (hlead : 10 ^ lead ≤ d.value) :
    ∃ q : ℕ, d.value = q * 10 ^ (lead + 1 - d.digits.length) := by
  have hpoint : lead < d.point := by
    have hlt := hlead.trans_lt (value_lt_ten_zpow_point h)
    rwa [zpow_lt_zpow_iff_right₀ (by norm_num)] at hlt
  rw [point] at hpoint
  refine ⟨d.coefficient * 10 ^ (d.exponent - (lead + 1 - d.digits.length)).toNat, ?_⟩
  push_cast
  rw [mul_assoc, ← zpow_natCast, ← zpow_add₀ (by norm_num), value]
  congr 2
  omega

/-! ## Trailing zeros -/

/-- Of two decimals with one value the finer one ends in zeros. -/
theorem exponent_le_of_value_eq {d e : Decimal} (hd : d.coefficient % 10 ≠ 0)
    (h : d.value = e.value) : e.exponent ≤ d.exponent := by
  by_contra hlt
  rw [not_le] at hlt
  have hgap : e.exponent = (e.exponent - d.exponent).toNat + d.exponent := by omega
  have hcoefficient : d.coefficient = e.coefficient * 10 ^ (e.exponent - d.exponent).toNat := by
    rw [value, value, hgap, zpow_add₀ (by norm_num), ← mul_assoc, mul_left_inj' (by positivity),
      zpow_natCast] at h
    exact_mod_cast h
  have hpow : 10 ∣ 10 ^ (e.exponent - d.exponent).toNat := dvd_pow_self 10 (by omega)
  exact hd (Nat.mod_eq_zero_of_dvd (hcoefficient ▸ hpow.mul_left _))

theorem eq_of_value_eq {d e : Decimal} (hd : d.coefficient % 10 ≠ 0) (he : e.coefficient % 10 ≠ 0)
    (h : d.value = e.value) : d = e := by
  have hexponent : d.exponent = e.exponent :=
    le_antisymm (exponent_le_of_value_eq he h.symm) (exponent_le_of_value_eq hd h)
  have hcoefficient : d.coefficient = e.coefficient := by
    rw [value, value, hexponent, mul_left_inj' (by positivity)] at h
    exact_mod_cast h
  obtain ⟨c, k⟩ := d
  obtain ⟨b, l⟩ := e
  rw [mk.injEq]
  exact ⟨hcoefficient, hexponent⟩

theorem trim_coefficient_le (fuel : ℕ) (d : Decimal) :
    (trim fuel d).coefficient ≤ d.coefficient := by
  induction fuel generalizing d with
  | zero => rfl
  | succ fuel ih =>
    rw [trim]
    split
    · exact (ih _).trans (Nat.div_le_self _ _)
    · rfl

theorem trim_trimmed {fuel : ℕ} {d : Decimal} (h0 : d.coefficient ≠ 0)
    (h : d.coefficient ≤ 10 ^ fuel) : (trim fuel d).coefficient % 10 ≠ 0 := by
  induction fuel generalizing d with
  | zero =>
    rw [trim]
    omega
  | succ fuel ih =>
    rw [trim]
    split
    · refine ih ?_ ?_ <;> dsimp only <;> omega
    · assumption

end Decimal

namespace Binary64

variable {x : Binary64} {tie : Tie}

/-! ## Nearest points of a grid -/

theorem Rounds.between {a b q : ℚ} (ha : x.Rounds a) (hb : x.Rounds b) (haq : a ≤ q)
    (hqb : q ≤ b) : x.Rounds q := by
  simp only [Rounds] at *
  split at ha
  · rename_i heven
    rw [if_pos heven] at hb ⊢
    exact ⟨ha.1.trans haq, hqb.trans hb.2⟩
  · rename_i hodd
    rw [if_neg hodd] at hb ⊢
    exact ⟨ha.1.trans_le haq, hqb.trans_lt hb.2⟩

section Grid

variable {exponent : ℤ} {p q : ℕ}

/-- How far the double is above the last point of the grid below it. -/
def gapBelow (x : Binary64) (exponent : ℤ) : ℚ :=
  x.magnitude - x.gridBelow exponent * 10 ^ exponent

/-- How far the double is below the first point of the grid above it. -/
def gapAbove (x : Binary64) (exponent : ℤ) : ℚ :=
  (x.gridBelow exponent + 1 : ℕ) * 10 ^ exponent - x.magnitude

theorem gapBelow_add_gapAbove (x : Binary64) (exponent : ℤ) :
    x.gapBelow exponent + x.gapAbove exponent = 10 ^ exponent := by
  rw [gapBelow, gapAbove]
  push_cast
  ring

theorem grid_rest (x : Binary64) (exponent : ℤ) :
    ((4 * x.significand * (x.grid exponent).quarter % (x.grid exponent).step : ℕ) : ℚ) =
      x.gapBelow exponent * x.gridUnit exponent := by
  rw [gapBelow, sub_mul, ← four_mul_quarter, mul_assoc _ (10 ^ exponent), ← grid_step, gridBelow,
    eq_sub_iff_add_eq]
  exact_mod_cast Nat.mod_add_div' _ _

theorem grid_rest_lt_iff (x : Binary64) (exponent : ℤ) :
    2 * (4 * x.significand * (x.grid exponent).quarter % (x.grid exponent).step) <
      (x.grid exponent).step ↔ x.gapBelow exponent < x.gapAbove exponent := by
  have hunit := x.gridUnit_pos exponent
  rw [← Nat.cast_lt (α := ℚ), Nat.cast_mul, grid_rest, grid_step, ← mul_assoc,
    mul_lt_mul_iff_left₀ hunit, ← gapBelow_add_gapAbove]
  constructor <;> intro h <;> push_cast at * <;> linarith

theorem grid_rest_eq_iff (x : Binary64) (exponent : ℤ) :
    2 * (4 * x.significand * (x.grid exponent).quarter % (x.grid exponent).step) =
      (x.grid exponent).step ↔ x.gapBelow exponent = x.gapAbove exponent := by
  have hunit := x.gridUnit_pos exponent
  rw [← Nat.cast_inj (R := ℚ), Nat.cast_mul, grid_rest, grid_step, ← mul_assoc,
    mul_left_inj' hunit.ne', ← gapBelow_add_gapAbove]
  constructor <;> intro h <;> push_cast at * <;> linarith

/-- Of the two neighbours of the double one is taken that rounds to it, and the other one does not
round to it or is no nearer. -/
theorem of_gridPoint? (h : x.gridPoint? tie (x.grid exponent) = some p) :
    (p = x.gridBelow exponent ∧ (x.Rounds ((x.gridBelow exponent + 1 : ℕ) * 10 ^ exponent) →
      x.gapBelow exponent < x.gapAbove exponent ∨
        x.gapBelow exponent = x.gapAbove exponent ∧ tie ≠ .larger)) ∨
    (p = x.gridBelow exponent + 1 ∧ (x.Rounds (x.gridBelow exponent * 10 ^ exponent) →
      x.gapAbove exponent ≤ x.gapBelow exponent)) := by
  rw [← covers_iff, ← covers_iff]
  simp only [gridPoint?, grid_rest_lt_iff, grid_rest_eq_iff] at h
  rw [← gridBelow] at h
  split at h
  · split at h
    · rename_i hchoice
      refine .inl ⟨(Option.some.inj h).symm, fun _ => hchoice.imp id (And.imp id ?_)⟩
      rintro hlower rfl
      cases hlower
    · rename_i hchoice
      refine .inr ⟨(Option.some.inj h).symm, fun _ => ?_⟩
      exact not_lt.mp fun hlt => hchoice (.inl hlt)
  · rename_i hbelow habove
    refine .inl ⟨(Option.some.inj h).symm, fun hrounds => ?_⟩
    rw [hrounds] at habove
    cases habove
  · rename_i hbelow habove
    refine .inr ⟨(Option.some.inj h).symm, fun hrounds => ?_⟩
    rw [hrounds] at hbelow
    cases hbelow
  · cases h

/-- Beyond a point of the grid that rounds to the double stands a neighbour of the double that does
so too. -/
theorem rounds_neighbour (hx : x.isZero = false) (h : x.Rounds (q * 10 ^ exponent)) :
    (q ≤ x.gridBelow exponent ∧ x.Rounds (x.gridBelow exponent * 10 ^ exponent)) ∨
      (x.gridBelow exponent < q ∧ x.Rounds ((x.gridBelow exponent + 1 : ℕ) * 10 ^ exponent)) := by
  have hself := magnitude_rounds hx
  rcases Nat.lt_or_ge (x.gridBelow exponent) q with hlt | hle
  · refine .inr ⟨hlt, hself.between h (x.lt_gridBelow_succ exponent).le ?_⟩
    gcongr
    exact hlt
  · refine .inl ⟨hle, h.between hself ?_ (x.gridBelow_le exponent)⟩
    gcongr

theorem gridPoint?_isSome_of_rounds (tie : Tie) (hx : x.isZero = false)
    (h : x.Rounds (q * 10 ^ exponent)) : (x.gridPoint? tie (x.grid exponent)).isSome = true := by
  have hneighbour := rounds_neighbour hx h
  rw [← covers_iff, ← covers_iff] at hneighbour
  simp only [gridPoint?]
  rw [← gridBelow]
  grind

theorem abs_sub_of_le (h : q ≤ x.gridBelow exponent) :
    |q * 10 ^ exponent - x.magnitude| =
      x.gapBelow exponent + (x.gridBelow exponent - q : ℕ) * 10 ^ exponent := by
  have hle : (q : ℚ) * 10 ^ exponent ≤ x.gridBelow exponent * 10 ^ exponent := by gcongr
  rw [abs_of_nonpos (by linarith [x.gridBelow_le exponent]), Nat.cast_sub h, gapBelow]
  ring

theorem abs_sub_of_gt (h : x.gridBelow exponent < q) :
    |q * 10 ^ exponent - x.magnitude| =
      x.gapAbove exponent + (q - (x.gridBelow exponent + 1) : ℕ) * 10 ^ exponent := by
  have hle : ((x.gridBelow exponent + 1 : ℕ) : ℚ) * 10 ^ exponent ≤ q * 10 ^ exponent := by
    gcongr
    exact h
  rw [abs_of_nonneg (by linarith [x.lt_gridBelow_succ exponent]), Nat.cast_sub h, gapAbove]
  ring

theorem abs_gridBelow (x : Binary64) (exponent : ℤ) :
    |x.gridBelow exponent * 10 ^ exponent - x.magnitude| = x.gapBelow exponent := by
  rw [abs_sub_of_le le_rfl, Nat.sub_self, Nat.cast_zero, zero_mul, add_zero]

theorem abs_gridAbove (x : Binary64) (exponent : ℤ) :
    |(x.gridBelow exponent + 1 : ℕ) * 10 ^ exponent - x.magnitude| = x.gapAbove exponent := by
  rw [abs_sub_of_gt (Nat.lt_succ_self _), Nat.sub_self, Nat.cast_zero, zero_mul, add_zero]

/-- No point of the grid that rounds to the double is nearer than the one that is taken. -/
theorem gridPoint?_nearest (hx : x.isZero = false)
    (h : x.gridPoint? tie (x.grid exponent) = some p) (hq : x.Rounds (q * 10 ^ exponent)) :
    |p * 10 ^ exponent - x.magnitude| < |q * 10 ^ exponent - x.magnitude| ∨
      |p * 10 ^ exponent - x.magnitude| = |q * 10 ^ exponent - x.magnitude| ∧
        (tie = .larger → q ≤ p) := by
  rcases rounds_neighbour hx hq with ⟨hle, hrounds⟩ | ⟨hlt, hrounds⟩
  · have hextra : (0 : ℚ) ≤ (x.gridBelow exponent - q : ℕ) * 10 ^ exponent := by positivity
    have hp : q ≤ p ∧ |p * 10 ^ exponent - x.magnitude| ≤ x.gapBelow exponent := by
      rcases of_gridPoint? h with ⟨rfl, -⟩ | ⟨rfl, hnear⟩
      · exact ⟨hle, (x.abs_gridBelow exponent).le⟩
      · exact ⟨by omega, (x.abs_gridAbove exponent).trans_le (hnear hrounds)⟩
    rw [abs_sub_of_le hle]
    rcases (hp.2.trans (le_add_of_nonneg_right hextra)).lt_or_eq with hless | heq
    · exact .inl hless
    · exact .inr ⟨heq, fun _ => hp.1⟩
  · rw [abs_sub_of_gt hlt]
    have hextra : (0 : ℚ) ≤ (q - (x.gridBelow exponent + 1) : ℕ) * 10 ^ exponent := by positivity
    rcases of_gridPoint? h with ⟨rfl, hnear⟩ | ⟨rfl, -⟩
    · rw [abs_gridBelow]
      rcases hnear hrounds with hless | ⟨heq, htie⟩
      · exact .inl (by linarith)
      · rw [heq]
        rcases (le_add_of_nonneg_right (a := x.gapAbove exponent) hextra).lt_or_eq with hless | heq
        · exact .inl hless
        · exact .inr ⟨heq, fun hlarger => absurd hlarger htie⟩
    · rw [abs_gridAbove]
      rcases Nat.eq_or_lt_of_le hlt with rfl | hmore
      · exact .inr ⟨by simp, fun _ => le_rfl⟩
      · refine .inl (lt_add_of_pos_right _ ?_)
        have hpos : 0 < q - (x.gridBelow exponent + 1) := Nat.sub_pos_of_lt hmore
        positivity

end Grid

/-! ## The decimal that is found -/

/-- A decimal that rounds to the double has beside it a point of the grid of as many digits that does
so too. Only below the leading power of ten is it not the decimal itself, and then it is nearer. -/
theorem exists_point_of_rounds (hx : x.isZero = false) (hfin : x.isFinite = true) {d : Decimal}
    (h : x.Rounds d.value) :
    ∃ q : ℕ, x.Rounds (q * 10 ^ (x.leadingExponent + 1 - d.digits.length)) ∧
      (d.value = q * 10 ^ (x.leadingExponent + 1 - d.digits.length) ∨
        |q * 10 ^ (x.leadingExponent + 1 - d.digits.length) - x.magnitude| <
          |d.value - x.magnitude|) := by
  have hlead := leadingExponent_le hx hfin
  rcases le_or_gt (10 ^ x.leadingExponent) d.value with hle | hlt
  · have hd : d.coefficient ≠ 0 := by
      intro hzero
      rw [Decimal.value, hzero, Nat.cast_zero, zero_mul] at hle
      exact absurd hle (not_le.mpr (by positivity))
    obtain ⟨q, hq⟩ := Decimal.exists_value_eq hd hle
    exact ⟨q, hq ▸ h, .inl hq⟩
  · have hpos := d.length_digits_pos
    have hq : ((10 ^ (d.digits.length - 1) : ℕ) : ℚ) *
        10 ^ (x.leadingExponent + 1 - d.digits.length) = 10 ^ x.leadingExponent := by
      push_cast
      rw [← zpow_natCast, ← zpow_add₀ (by norm_num)]
      congr 1
      omega
    refine ⟨10 ^ (d.digits.length - 1), ?_, .inr ?_⟩
    · rw [hq]
      exact h.between (magnitude_rounds hx) hlt.le hlead
    · rw [hq, abs_of_nonpos (by linarith), abs_of_neg (by linarith)]
      linarith

/-- A decimal reads as the double. -/
def ReadsFrom (x : Binary64) (d : Decimal) : Prop :=
  (Numeral.decimal x.negative d.coefficient d.exponent).toDouble = x

/-- The decimal has the fewest digits of all that read as the double, of these it is the nearest, and
of two that are equally near the larger. -/
structure IsShortest (x : Binary64) (d : Decimal) : Prop where
  trimmed : d.coefficient % 10 ≠ 0
  reads : x.ReadsFrom d
  fewest : ∀ other, x.ReadsFrom other → d.digits.length ≤ other.digits.length
  nearest : ∀ other, x.ReadsFrom other → other.digits.length = d.digits.length →
    |d.value - x.magnitude| < |other.value - x.magnitude| ∨
      |d.value - x.magnitude| = |other.value - x.magnitude| ∧ other.value ≤ d.value

section FirstHit

variable {start digits point : ℕ}

theorem FirstHit.point_ne_zero (h : FirstHit tie x x.leadingExponent start digits point)
    (hx : x.isZero = false) : point ≠ 0 := by
  rintro rfl
  have hlow := (gridPoint?_rounds h.hit).two_zpow_le hx
  rw [Nat.cast_zero, zero_mul] at hlow
  exact absurd hlow (not_le.mpr (by positivity))

theorem FirstHit.point_le (h : FirstHit tie x x.leadingExponent start digits point)
    (hx : x.isZero = false) (hfin : x.isFinite = true) : point ≤ 10 ^ digits := by
  have hbelow : x.gridBelow (x.leadingExponent + 1 - digits) < 10 ^ digits := by
    have hlt := (x.gridBelow_le (x.leadingExponent + 1 - digits)).trans_lt (magnitude_lt hx hfin)
    rw [show x.leadingExponent + 1 = digits + (x.leadingExponent + 1 - digits) by ring,
      zpow_add₀ (by norm_num), zpow_natCast, add_sub_cancel_left,
      mul_lt_mul_iff_left₀ (by positivity)] at hlt
    exact_mod_cast hlt
  rcases of_gridPoint? h.hit with ⟨rfl, -⟩ | ⟨rfl, -⟩
  · exact hbelow.le
  · exact hbelow

/-- A decimal that rounds to the double has no fewer digits than the grid. -/
theorem FirstHit.digits_le (h : FirstHit tie x x.leadingExponent 1 digits point)
    (hx : x.isZero = false) (hfin : x.isFinite = true) {d : Decimal} (hd : x.Rounds d.value) :
    digits ≤ d.digits.length := by
  by_contra hlt
  obtain ⟨q, hq, -⟩ := exists_point_of_rounds hx hfin hd
  have hsome := gridPoint?_isSome_of_rounds tie hx hq
  rw [h.missed _ d.length_digits_pos (not_le.mp hlt)] at hsome
  cases hsome

/-- The decimal of the point has no more digits than the grid, and does not end in a zero. -/
theorem FirstHit.trim (h : FirstHit tie x x.leadingExponent 1 digits point)
    (hx : x.isZero = false) (hfin : x.isFinite = true) (exponent : ℤ) :
    (Decimal.trim 17 ⟨point, exponent⟩).coefficient % 10 ≠ 0 ∧
      (Decimal.trim 17 ⟨point, exponent⟩).digits.length ≤ digits := by
  have hpoint := h.point_le hx hfin
  have htrimmed : (Decimal.trim 17 ⟨point, exponent⟩).coefficient % 10 ≠ 0 := by
    refine Decimal.trim_trimmed (h.point_ne_zero hx) (hpoint.trans ?_)
    exact Nat.pow_le_pow_right (by decide) h.le_seventeen
  refine ⟨htrimmed, Decimal.length_digits_le h.start_le ?_⟩
  have hle : (Decimal.trim 17 ⟨point, exponent⟩).coefficient ≤ 10 ^ digits :=
    (Decimal.trim_coefficient_le 17 _).trans hpoint
  refine lt_of_le_of_ne hle fun heq => htrimmed ?_
  rw [heq]
  exact Nat.mod_eq_zero_of_dvd (dvd_pow_self 10 (Nat.one_le_iff_ne_zero.mp h.start_le))

end FirstHit

theorem shortest_isShortest (hx : x.isZero = false) (hfin : x.isFinite = true) :
    x.IsShortest (x.shortest .larger) := by
  have hreads (d : Decimal) : x.ReadsFrom d ↔ x.Rounds d.value :=
    Numeral.toDouble_decimal_iff hx hfin
  have hrounds := shortest_rounds .larger hx hfin
  obtain ⟨digits, point, hfirst, heq⟩ := exists_shortest_eq .larger hx hfin
  obtain ⟨htrimmed, hlength⟩ := hfirst.trim hx hfin (x.leadingExponent + 1 - digits)
  rw [← heq] at htrimmed hlength
  refine ⟨htrimmed, (hreads _).mpr hrounds, fun other h => ?_, fun other h hsame => ?_⟩
  · exact hlength.trans (hfirst.digits_le hx hfin ((hreads other).mp h))
  · have hdigits : other.digits.length = digits :=
      hsame.trans (le_antisymm hlength (hfirst.digits_le hx hfin hrounds))
    have hvalue : (x.shortest .larger).value =
        point * 10 ^ (x.leadingExponent + 1 - digits) := by
      rw [heq, Decimal.trim_value]
      rfl
    obtain ⟨q, hq, hbeside⟩ := exists_point_of_rounds hx hfin ((hreads other).mp h)
    rw [hdigits] at hq hbeside
    have hnearest := gridPoint?_nearest hx hfirst.hit hq
    rw [← hvalue] at hnearest
    rcases hbeside with hother | hnearer
    · rw [← hother] at hnearest
      refine hnearest.imp id (And.imp id fun hle => ?_)
      rw [hother, hvalue]
      gcongr
      exact hle rfl
    · exact .inl ((hnearest.elim le_of_lt (·.1.le)).trans_lt hnearer)

/-- There is one shortest decimal. -/
theorem isShortest_iff (hx : x.isZero = false) (hfin : x.isFinite = true) (d : Decimal) :
    x.IsShortest d ↔ d = x.shortest .larger := by
  have hshortest := shortest_isShortest hx hfin
  refine ⟨fun h => ?_, fun h => h ▸ hshortest⟩
  have hlength : d.digits.length = (x.shortest .larger).digits.length :=
    le_antisymm (h.fewest _ hshortest.reads) (hshortest.fewest _ h.reads)
  refine Decimal.eq_of_value_eq h.trimmed hshortest.trimmed ?_
  rcases h.nearest _ hshortest.reads hlength.symm with hlt | ⟨heq, hle⟩
  · rcases hshortest.nearest _ h.reads hlength with hgt | ⟨heq, -⟩
    · exact absurd hgt hlt.not_gt
    · exact absurd heq hlt.ne'
  · rcases hshortest.nearest _ h.reads hlength with hlt | ⟨-, hge⟩
    · exact absurd heq hlt.ne'
    · exact le_antisymm hge hle

end Binary64

end AttributeCheck
