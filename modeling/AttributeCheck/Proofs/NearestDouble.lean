import AttributeCheck.Proofs.ShortestDecimal

/-! # Which decimals read as a double

Rounding gives a double for the rationals of its interval and for no others. A decimal therefore
reads as the double exactly when its value lies in the interval. -/

namespace AttributeCheck

/-! ## The result of rounding -/

theorem roundHalfEven_rounds (num : ℕ) {den : ℕ} (hd : 0 < den) :
    RoundsToNat (num / den) (roundHalfEven num den) := by
  have hd' : (0 : ℚ) < den := by exact_mod_cast hd
  have hdiv : (num : ℚ) = den * (num / den : ℕ) + (num % den : ℕ) := by
    exact_mod_cast (Nat.div_add_mod num den).symm
  have hmod : ((num % den : ℕ) : ℚ) < den := by exact_mod_cast Nat.mod_lt num hd
  have hrest : (0 : ℚ) ≤ (num % den : ℕ) := by positivity
  have hquotient : (num : ℚ) / den = (num / den : ℕ) + (num % den : ℕ) / den := by
    rw [div_eq_iff hd'.ne', add_mul, div_mul_cancel₀ _ hd'.ne', mul_comm]
    exact hdiv
  have hfraction : (0 : ℚ) ≤ (num % den : ℕ) / den := by positivity
  have hlt : ((num % den : ℕ) : ℚ) / den < 1 := (div_lt_one hd').mpr hmod
  have hhalf : 2 * (num % den) < den ↔ ((num % den : ℕ) : ℚ) / den < 1 / 2 := by
    rw [div_lt_div_iff₀ hd' two_pos, one_mul, mul_comm]
    exact_mod_cast Iff.rfl
  have htie : 2 * (num % den) = den ↔ ((num % den : ℕ) : ℚ) / den = 1 / 2 := by
    rw [div_eq_div_iff hd'.ne' two_ne_zero, one_mul, mul_comm]
    exact_mod_cast Iff.rfl
  simp only [roundHalfEven, hhalf, htie, hquotient]
  generalize ((num % den : ℕ) : ℚ) / den = rest at *
  split
  · rename_i h
    refine ⟨.inl (by linarith), ?_⟩
    rcases h with h | ⟨h, heven⟩
    · exact .inl (by linarith)
    · exact .inr ⟨by linarith, heven⟩
  · rename_i h
    push Not at h
    obtain ⟨hge, hodd⟩ := h
    have hnext : ((num / den + 1 : ℕ) : ℚ) = (num / den : ℕ) + 1 := Nat.cast_succ _
    refine ⟨?_, .inl (by linarith)⟩
    rcases hge.lt_or_eq with hgt | heq
    · exact .inl (by linarith)
    · exact .inr ⟨by linarith, by have := hodd heq.symm; omega⟩

namespace BinaryFormat

theorem of_round_eq_some {format : BinaryFormat} {num den m : ℕ} {scale : ℤ} (hd : 0 < den)
    (h : format.round num den = some (m, scale)) :
    format.IsScale (num / den) scale ∧ RoundsToNat (num / den / 2 ^ scale) m ∧
      (scale < format.maxScale ∨ scale = format.maxScale ∧ m < 2 ^ format.precision) := by
  have hscale := scaleOf_isScale format num hd
  have hround := roundHalfEven_rounds (unscale num den (format.scaleOf num den)).1
    (unscale_den_pos hd num (format.scaleOf num den))
  rw [unscale_ratio] at hround
  simp only [round, Nat.pow_eq] at h
  split at h
  · rename_i hmax
    obtain ⟨rfl, rfl⟩ := Prod.mk.inj (Option.some.inj h)
    exact ⟨hscale, hround, hmax⟩
  · cases h

end BinaryFormat

namespace Binary64

/-! ## Doubles from their parts -/

theorem fields_ofMagnitude (isNegative : Bool) {e f : ℕ} (he : e < 2048) (hf : f < fractionSize) :
    (ofMagnitude isNegative (e * fractionSize + f)).negative = isNegative ∧
      (ofMagnitude isNegative (e * fractionSize + f)).exponentField = e ∧
      (ofMagnitude isNegative (e * fractionSize + f)).fractionField = f := by
  have hbits : (ofMagnitude isNegative (e * fractionSize + f)).bits.toNat =
      (if isNegative then signBit else 0) + (e * fractionSize + f) := by
    rw [ofMagnitude, UInt64.toNat_ofNat']
    refine Nat.mod_eq_of_lt ?_
    simp only [signBit, fractionSize] at hf ⊢
    split <;> omega
  rw [negative, exponentField, fractionField, hbits]
  simp only [fractionSize] at hf ⊢
  cases isNegative with
  | false =>
    refine ⟨decide_eq_false ?_, ?_, ?_⟩ <;> simp [signBit] <;> omega
  | true =>
    refine ⟨decide_eq_true ?_, ?_, ?_⟩ <;> simp [signBit] <;> omega

/-- A significand at a scale makes a double with these parts, when it is full or the scale is the
smallest one. -/
theorem parts_ofScaled (isNegative : Bool) {m : ℕ} {s : ℤ} (hs : -1074 ≤ s) (hmax : s ≤ 971)
    (hm : m < 2 ^ 53) (hfull : s = -1074 ∨ 2 ^ 52 ≤ m) :
    (ofScaled isNegative m s).negative = isNegative ∧
      (ofScaled isNegative m s).isFinite = true ∧
      (ofScaled isNegative m s).significand = m ∧ (ofScaled isNegative m s).scale = s := by
  by_cases hlt : m < 2 ^ 52
  · obtain rfl : s = -1074 := by omega
    obtain ⟨hn, he, hf⟩ := fields_ofMagnitude isNegative (e := 0) (by decide) hlt
    rw [Nat.zero_mul, Nat.zero_add] at hn he hf
    have hx : ofScaled isNegative m (-1074) = ofMagnitude isNegative m := by
      rw [ofScaled]
      simp
    rw [hx, isFinite, significand, scale, he, hf]
    exact ⟨hn, rfl, rfl, rfl⟩
  · obtain ⟨hn, he, hf⟩ := fields_ofMagnitude isNegative (e := (s + 1075).toNat) (f := m - 2 ^ 52)
      (by omega) (by simp only [fractionSize]; omega)
    have hx : ofScaled isNegative m s =
        ofMagnitude isNegative ((s + 1075).toNat * fractionSize + (m - 2 ^ 52)) := by
      have hcarry : (s + 1074).toNat * fractionSize + m =
          (s + 1075).toNat * fractionSize + (m - 2 ^ 52) := by
        simp only [fractionSize]
        omega
      rw [ofScaled, hcarry]
    rw [hx, isFinite, significand, scale, he, hf, if_neg (by omega)]
    refine ⟨hn, bne_iff_ne.mpr (by omega), ?_, by omega⟩
    simp only [fractionSize]
    omega

/-! ## Rounding to a double -/

section

variable {q : ℚ} {m : ℕ} {s : ℤ}

theorem fills_of_isScale (hs : BinaryFormat.double.IsScale q s) :
    s = -1074 ∨ (2 : ℚ) ^ 52 ≤ q / 2 ^ s := by
  refine hs.fills.imp id fun h => ?_
  rw [le_div_iff₀ (by positivity), mul_comm, ← zpow_natCast, ← zpow_add₀ two_ne_zero]
  rwa [show s + (BinaryFormat.double.precision : ℤ) - 1 = s + (52 : ℕ) by
    simp only [BinaryFormat.double]
    ring] at h

theorem full_of_isScale (hs : BinaryFormat.double.IsScale q s) (hm : RoundsToNat (q / 2 ^ s) m) :
    s = -1074 ∨ 2 ^ 52 ≤ m := by
  refine (fills_of_isScale hs).imp id fun h => ?_
  have hhigh : q / 2 ^ s ≤ m + 1 / 2 := hm.high.elim le_of_lt (·.1.le)
  by_contra hlt
  have hlt : (m : ℚ) + 1 ≤ 2 ^ 52 := by exact_mod_cast Nat.lt_of_not_le hlt
  linarith

/-- The double that rounding to a significand gives has the rational in its interval. -/
theorem rounds_ofScaled (isNegative : Bool) (hs : BinaryFormat.double.IsScale q s)
    (hm : RoundsToNat (q / 2 ^ s) m) (hpos : 0 < m)
    (hmax : s < 971 ∨ s = 971 ∧ m < 2 ^ 53) : (ofScaled isNegative m s).Rounds q := by
  have hfills := fills_of_isScale hs
  have hfull := full_of_isScale hs hm
  obtain ⟨hlow, hhigh⟩ := hm
  have hmin : -1074 ≤ s := hs.min_le
  have hfits : q / 2 ^ s < 2 ^ 53 := by
    rw [div_lt_iff₀ (by positivity), mul_comm, ← zpow_natCast, ← zpow_add₀ two_ne_zero]
    exact hs.fits
  have hm : m ≤ 2 ^ 53 := by
    have hm : (m : ℚ) - 1 / 2 ≤ q / 2 ^ s := hlow.elim le_of_lt (·.1.le)
    have hm : (m : ℚ) < 2 ^ 53 + 1 := by linarith
    exact Nat.lt_succ_iff.mp (by exact_mod_cast hm)
  rw [rounds_iff]
  rcases hm.lt_or_eq with hlt | rfl
  · -- The significand fits: below it the interval ends half a place away, or at a power of two.
    obtain ⟨-, -, hsig, hscale⟩ := parts_ofScaled isNegative hmin (by omega) hlt hfull
    have hend := lowerEnd_lt (x := ofScaled isNegative m s) (by omega)
    have hends := lowerEnd_or_power (x := ofScaled isNegative m s) (by omega)
    rw [hsig] at hend hends
    rw [hsig, hscale] at *
    refine ⟨?_, hhigh⟩
    rcases hends with hends | ⟨rfl, hs⟩
    · rw [hends]
      refine hlow.imp (fun h => by linarith) (And.imp_left fun h => by linarith)
    · have := hfills.resolve_left hs.ne'
      push_cast at hend
      exact .inl (by linarith)
  · -- The significand overflows: the double is the next power of two.
    have hcarry : ofScaled isNegative (2 ^ 53) s = ofScaled isNegative (2 ^ 52) (s + 1) := by
      have hcarry : (s + 1074).toNat * fractionSize + 2 ^ 53 =
          (s + 1 + 1074).toNat * fractionSize + 2 ^ 52 := by
        simp only [fractionSize]
        omega
      rw [ofScaled, ofScaled, hcarry]
    obtain ⟨-, -, hsig, hscale⟩ := parts_ofScaled isNegative (m := 2 ^ 52) (s := s + 1)
      (by omega) (by omega) (by decide) (.inr le_rfl)
    have hend := lowerEnd_of_power hsig (by omega)
    have hhalf : q / 2 ^ (s + 1) = q / 2 ^ s / 2 := by
      rw [zpow_add_one₀ two_ne_zero, div_div]
    rw [hcarry, hend, hsig, hscale, hhalf]
    push_cast at hlow ⊢
    refine ⟨?_, .inl (by linarith)⟩
    refine hlow.imp (fun h => by linarith) fun h => ⟨by linarith, by decide⟩

end

theorem isZero_zero (isNegative : Bool) : (zero isNegative).isZero = true := by
  cases isNegative <;> rfl

theorem isFinite_infinity (isNegative : Bool) : (infinity isNegative).isFinite = false := by
  cases isNegative <;> rfl

/-- Rounding a quotient gives a double exactly when the quotient lies in the interval. -/
theorem ofRatio_eq_iff {x : Binary64} (hx : x.isZero = false) (hfin : x.isFinite = true)
    {num den : ℕ} (hd : 0 < den) : ofRatio x.negative num den = x ↔ x.Rounds (num / den) := by
  refine ⟨fun h => ?_, ofRatio_eq_of_rounds hfin hd⟩
  rw [ofRatio] at h
  split at h
  · rename_i m s hround
    obtain ⟨hs, hm, hmax⟩ := BinaryFormat.of_round_eq_some hd hround
    have hpos : 0 < m := by
      rw [Nat.pos_iff_ne_zero]
      rintro rfl
      obtain rfl : s = -1074 := by simpa using full_of_isScale hs hm
      have hzero : ofScaled x.negative 0 (-1074) = zero x.negative := by simp [ofScaled, zero]
      rw [← h, hzero, isZero_zero] at hx
      cases hx
    rw [← h]
    exact rounds_ofScaled x.negative hs hm hpos hmax
  · rw [← h, isFinite_infinity] at hfin
    cases hfin

end Binary64

namespace Numeral

open Binary64

/-- A decimal reads as a double exactly when its value lies in the rounding interval. -/
theorem toDouble_decimal_iff {x : Binary64} (hx : x.isZero = false) (hfin : x.isFinite = true)
    {c : ℕ} {e : ℤ} : (decimal x.negative c e).toDouble = x ↔ x.Rounds (c * 10 ^ e) := by
  refine ⟨fun h => ?_, toDouble_decimal hx hfin⟩
  simp only [toDouble, roundWith] at h
  split at h
  · rw [← h, isZero_zero] at hx
    cases hx
  · split at h
    · rw [← h, isFinite_infinity] at hfin
      cases hfin
    · have hrounds := (ofRatio_eq_iff hx hfin (Nat.pow_pos (by decide))).mp h
      simp only [Nat.pow_eq] at hrounds
      push_cast at hrounds
      rwa [mul_div_assoc, ← zpow_eq_div_toNat (by norm_num)] at hrounds

end Numeral

end AttributeCheck
