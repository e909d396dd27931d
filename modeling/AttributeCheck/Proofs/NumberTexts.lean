import AttributeCheck.Proofs.FewestDigits
import AttributeCheck.Proofs.JsonGrammar
import AttributeCheck.Value.Coercion

/-! # The text of a number has the value of its digits

In each of its layouts the text of a finite number is a number of a JSON text, and its exact value is
that of the shortest decimal. Whole numbers up to two to the fifty-third are written as numerals. -/

namespace AttributeCheck

/-! ## Exact values of texts -/

namespace Scan

/-- The exact value of a number as it is written. -/
def NumberText.exactValue (t : NumberText) : ℚ :=
  (if t.isNegative then -1 else 1) * (t.coefficient * 10 ^ t.scale)

theorem NumberText.Writes.exactValue_eq {t : NumberText} {isNegative : Bool} {d : Decimal}
    (h : t.Writes isNegative d) : t.exactValue = (if isNegative then -1 else 1) * d.value := by
  rw [NumberText.exactValue, h.sign, h.value]

end Scan

/-! ## Layouts -/

namespace Decimal

/-- The digits in two parts; there is no cut beyond the last digit. -/
def cut? (d : Decimal) (count : ℕ) : Option (String × String) :=
  let cs := d.digits.toList
  if count ≤ cs.length then
    some (String.ofList (cs.take count), String.ofList (cs.drop count))
  else none

theorem cut?_eq {d : Decimal} {count : ℕ} (h : count ≤ d.digits.length) :
    d.cut? count = some (String.ofList (d.digits.toList.take count),
      String.ofList (d.digits.toList.drop count)) :=
  if_pos (by rwa [String.length_toList])

/-- The text of a decimal by the number of its digits and the place of its point. There is none when
a cut misses the digits. -/
def layout? (d : Decimal) : Option String :=
  if d.digits.length ≤ d.point ∧ d.point ≤ 21 then
    some (d.digits ++ zeros (d.point - d.digits.length).toNat)
  else if 0 < d.point ∧ d.point ≤ 21 then do
    let (whole, fraction) ← d.cut? d.point.toNat
    some (whole ++ "." ++ fraction)
  else if -6 < d.point ∧ d.point ≤ 0 then
    some ("0." ++ zeros (-d.point).toNat ++ d.digits)
  else do
    let (lead, rest) ← d.cut? 1
    some (lead ++ (if rest.isEmpty then "" else "." ++ rest) ++ "e" ++
      (if d.point - 1 < 0 then "-" else "+") ++ toString (d.point - 1).natAbs)

theorem layout?_eq (d : Decimal) : d.layout? = some d.coercedText := by
  have hpos := d.length_digits_pos
  have hwhole : 0 ≤ d.exponent ↔ (d.digits.length : ℤ) ≤ d.point := by
    rw [point]
    omega
  have hstyle : NumberStyle.coerced.isPositional d = decide (-6 < d.point ∧ d.point ≤ 21) := rfl
  rw [layout?, coercedText, hstyle]
  simp only [decide_eq_true_eq, positional, hwhole]
  split
  · rename_i h
    rw [if_pos (by omega), if_pos h.1, show d.exponent = d.point - d.digits.length by
      rw [point]
      ring]
  · rename_i hlong
    split
    · rename_i h
      rw [if_pos (by omega), if_neg (by omega), if_pos h.1, cut?_eq (by omega)]
      rfl
    · rename_i hinside
      split
      · rename_i h
        rw [if_pos (by omega), if_neg (by omega), if_neg (by omega)]
      · rename_i hbehind
        have hstyle : ¬ (-6 < d.point ∧ d.point ≤ 21) := by omega
        rw [if_neg hstyle, cut?_eq hpos, scientific]
        rfl

theorem isPositional_iff {d : Decimal} (hd : d.coefficient ≠ 0) :
    NumberStyle.coerced.isPositional d = true ↔
      10 ^ (-6 : ℤ) ≤ d.value ∧ d.value < 10 ^ (21 : ℤ) := by
  have hlow := ten_zpow_point_le hd
  have hhigh := value_lt_ten_zpow_point hd
  have hstyle : NumberStyle.coerced.isPositional d = decide (-6 < d.point ∧ d.point ≤ 21) := rfl
  rw [hstyle, decide_eq_true_iff]
  constructor
  · rintro ⟨hlow', hhigh'⟩
    refine ⟨le_trans ?_ hlow, hhigh.trans_le ?_⟩
    · exact zpow_le_zpow_right₀ (by norm_num) (by omega)
    · exact zpow_le_zpow_right₀ (by norm_num) hhigh'
  · rintro ⟨hlow', hhigh'⟩
    have hpoint : (10 : ℚ) ^ (-6 : ℤ) < 10 ^ d.point := hlow'.trans_lt hhigh
    have hpoint' : (10 : ℚ) ^ (d.point - 1) < 10 ^ (21 : ℤ) := hlow.trans_lt hhigh'
    rw [zpow_lt_zpow_iff_right₀ (by norm_num)] at hpoint hpoint'
    omega

theorem exponent_positionalParts (isNegative : Bool) (d : Decimal) :
    (d.positionalParts isNegative).exponent = none := by
  rw [positionalParts]
  split
  · rfl
  · split <;> rfl

theorem exponent_coercedParts (isNegative : Bool) (d : Decimal) :
    (d.coercedParts isNegative).exponent = none ↔ NumberStyle.coerced.isPositional d = true := by
  rw [coercedParts]
  split
  · simp [exponent_positionalParts, *]
  · simp [scientificParts, *]

end Decimal

/-! ## Whole numbers -/

theorem toDigits_mul_ten_pow {c : ℕ} (hc : c ≠ 0) (count : ℕ) :
    Nat.toDigits 10 (c * 10 ^ count) = Nat.toDigits 10 c ++ List.replicate count '0' := by
  induction count with
  | zero => simp
  | succ count ih =>
    have hpos : 0 < c * 10 ^ count := by positivity
    have hstep := Nat.toDigits_append_toDigits (b := 10) (d := 0) (by decide) hpos (by decide)
    rw [List.replicate_succ', ← List.append_assoc, ← ih, pow_succ]
    rw [show 10 * (c * 10 ^ count) + 0 = c * (10 ^ count * 10) by ring] at hstep
    exact hstep.symm

namespace Decimal

variable {d : Decimal} {m : ℕ}

theorem exponent_nonneg_of_value_eq (hd : d.coefficient % 10 ≠ 0) (h : d.value = m) :
    0 ≤ d.exponent :=
  exponent_le_of_value_eq (e := ⟨m, 0⟩) hd (by simpa [value] using h)

theorem coefficient_lt_of_length_lt {e : Decimal} (hd : d.coefficient ≠ 0)
    (he : e.coefficient ≠ 0) (h : d.digits.length < e.digits.length) :
    d.coefficient < e.coefficient := by
  have hhigh := (Numeral.length_digits hd).2
  have hlow := (Numeral.length_digits he).1
  have hpow : (10 : ℚ) ^ (d.digits.length : ℤ) ≤ 10 ^ (e.digits.length - 1 : ℤ) :=
    zpow_le_zpow_right₀ (by norm_num) (by omega)
  exact_mod_cast hhigh.trans_le (hpow.trans hlow)

/-- A whole decimal less than one away from a whole number is that number. -/
theorem value_eq_of_abs_sub_lt (hexponent : 0 ≤ d.exponent) (h : |d.value - m| < 1) :
    d.value = m := by
  have hwhole : d.value = (d.coefficient * 10 ^ d.exponent.toNat : ℕ) := by
    rw [value, ← Int.toNat_of_nonneg hexponent]
    push_cast
    rw [zpow_natCast, Int.toNat_natCast]
  rw [hwhole, abs_lt] at h
  rw [hwhole]
  generalize d.coefficient * 10 ^ d.exponent.toNat = n at h
  have hlow : m < n + 1 := by
    have hlow : (m : ℚ) < n + 1 := by linarith
    exact_mod_cast hlow
  have hhigh : n < m + 1 := by
    have hhigh : (n : ℚ) < m + 1 := by linarith
    exact_mod_cast hhigh
  rw [show n = m by omega]

theorem value_add_one_le (hexponent : d.exponent ≤ 0) (h : d.coefficient < m) :
    d.value + 1 ≤ m := by
  have hpow : (10 : ℚ) ^ d.exponent ≤ 1 := zpow_le_one_of_nonpos₀ (by norm_num) hexponent
  have hvalue : d.value ≤ d.coefficient := mul_le_of_le_one_right (by positivity) hpow
  have hcoefficient : (d.coefficient : ℚ) + 1 ≤ m := by exact_mod_cast h
  linarith

/-- A whole number without its trailing zeros. -/
theorem exists_trimmed_value_eq (hm : m ≠ 0) (hle : m ≤ 10 ^ 17) :
    ∃ e : Decimal, e.coefficient % 10 ≠ 0 ∧ e.coefficient ≤ m ∧ e.value = m := by
  refine ⟨Decimal.trim 17 ⟨m, 0⟩, Decimal.trim_trimmed hm hle, Decimal.trim_coefficient_le 17 _, ?_⟩
  rw [Decimal.trim_value]
  simp [value]

/-- A decimal with the value of a whole number is written as its numeral. -/
theorem positional_of_value_eq (hd : d.coefficient % 10 ≠ 0) (h : d.value = m) :
    d.positional = toString m := by
  have hexponent := exponent_nonneg_of_value_eq hd h
  have hm : d.coefficient * 10 ^ d.exponent.toNat = m := by
    rw [value, ← Int.toNat_of_nonneg hexponent, zpow_natCast] at h
    exact_mod_cast h
  rw [positional, if_pos hexponent, ← hm, Nat.toString_eq_ofList_toDigits,
    toDigits_mul_ten_pow (by omega), String.ofList_append, ← toList_digits, String.ofList_toList]
  rfl

end Decimal

namespace Binary64

variable {x : Binary64} {m : ℕ}

/-- What rounds to a double whose last place is at most one is less than one away from it. -/
theorem Rounds.abs_sub_lt {q : ℚ} (h : x.Rounds q) (hscale : x.scale ≤ 0) :
    |q - x.magnitude| < 1 := by
  have hpow : (0 : ℚ) < 2 ^ x.scale := by positivity
  have hone : (2 : ℚ) ^ x.scale ≤ 1 := zpow_le_one_of_nonpos₀ (by norm_num) hscale
  obtain ⟨hlow, hhigh⟩ := h.roundsToNat
  have hlow : (x.significand : ℚ) - 1 / 2 ≤ q / 2 ^ x.scale := hlow.elim le_of_lt (·.1.le)
  have hhigh : q / 2 ^ x.scale ≤ x.significand + 1 / 2 := hhigh.elim le_of_lt (·.1.le)
  rw [le_div_iff₀ hpow] at hlow
  rw [div_le_iff₀ hpow] at hhigh
  rw [abs_lt, magnitude]
  constructor <;> linarith

theorem whole_bounds (hx : x.isZero = false) (hm : x.magnitude = m) (hscale : x.scale ≤ 0) :
    m ≠ 0 ∧ m < 2 ^ 53 := by
  have hself := magnitude_rounds hx
  constructor
  · rintro rfl
    have hlow := hself.two_zpow_le hx
    rw [hm, Nat.cast_zero] at hlow
    exact absurd hlow (not_le.mpr (by positivity))
  · have hlt : (m : ℚ) < 2 ^ (53 : ℤ) := hm ▸ hself.lt_two_zpow.trans_le
      (zpow_le_zpow_right₀ (by norm_num) (by omega))
    exact_mod_cast hlt

/-- A whole double whose last place is at most one is its own shortest decimal. -/
theorem shortest_value_of_whole (hx : x.isZero = false) (hfin : x.isFinite = true)
    (hm : x.magnitude = m) (hscale : x.scale ≤ 0) : (x.shortest .larger).value = m := by
  obtain ⟨hpos, hlt⟩ := whole_bounds hx hm hscale
  obtain ⟨numeral, htrimmed, hle, hvalue⟩ := Decimal.exists_trimmed_value_eq hpos (by omega)
  have hreads : x.ReadsFrom numeral := by
    refine (Numeral.toDouble_decimal_iff hx hfin).mpr ?_
    rw [← Decimal.value, hvalue, ← hm]
    exact magnitude_rounds hx
  have hshortest := shortest_isShortest hx hfin
  have hnear := (shortest_rounds .larger hx hfin).abs_sub_lt hscale
  generalize x.shortest .larger = d at hshortest hnear
  rw [hm] at hnear
  rcases (hshortest.fewest numeral hreads).eq_or_lt with hsame | hless
  · -- The numeral is at no distance, so the nearest decimal is at none either.
    have hdistance := hshortest.nearest numeral hreads hsame.symm
    rw [hvalue, hm, sub_self, abs_zero] at hdistance
    rcases hdistance with hneg | ⟨hzero, -⟩
    · exact absurd hneg (abs_nonneg _).not_gt
    · exact sub_eq_zero.mp (abs_eq_zero.mp hzero)
  · have htrimmed' := hshortest.trimmed
    rcases le_or_gt 0 d.exponent with hexponent | hexponent
    · exact Decimal.value_eq_of_abs_sub_lt hexponent hnear
    · have hfewer := Decimal.coefficient_lt_of_length_lt (by omega) (by omega) hless
      have hfar := Decimal.value_add_one_le hexponent.le (hfewer.trans_le hle)
      rw [abs_lt] at hnear
      linarith

/-- A whole number below two to the fifty-third fills the significand when it is shifted. -/
theorem shifted_bounds (hm : m ≠ 0) (hlt : m < 2 ^ 53) :
    m.log2 ≤ 52 ∧ 2 ^ 52 ≤ m * 2 ^ (52 - m.log2) ∧ m * 2 ^ (52 - m.log2) < 2 ^ 53 := by
  have hlow : 2 ^ m.log2 ≤ m := Nat.log2_self_le hm
  have hhigh : m < 2 ^ (m.log2 + 1) := Nat.lt_log2_self
  have hlog : m.log2 < 53 := (Nat.log2_lt hm).mpr hlt
  generalize m.log2 = k at hlow hhigh hlog
  refine ⟨by omega, ?_, ?_⟩
  · calc
      2 ^ 52 = 2 ^ k * 2 ^ (52 - k) := by rw [← pow_add]; congr 1; omega
      _ ≤ m * 2 ^ (52 - k) := by gcongr
  · calc
      m * 2 ^ (52 - k) < 2 ^ (k + 1) * 2 ^ (52 - k) := by gcongr
      _ = 2 ^ 53 := by rw [← pow_add]; congr 1; omega

/-- Whole numbers below two to the fifty-third are doubles. -/
theorem parts_ofInt {n : ℤ} (hn : n ≠ 0) (hlt : n.natAbs < 2 ^ 53) :
    (ofInt n).negative = decide (n < 0) ∧ (ofInt n).isFinite = true ∧ (ofInt n).isZero = false ∧
      (ofInt n).magnitude = n.natAbs ∧ (ofInt n).scale ≤ 0 := by
  have hm : n.natAbs ≠ 0 := Int.natAbs_ne_zero.mpr hn
  rw [ofInt]
  generalize n.natAbs = m at hm hlt
  obtain ⟨hlog, hfull, hfits⟩ := shifted_bounds hm hlt
  generalize m.log2 = k at hlog hfull hfits
  -- The double with the significand filled up is the one that rounding gives.
  obtain ⟨hsign, hfin, hsig, hscale⟩ := parts_ofScaled (decide (n < 0)) (m := m * 2 ^ (52 - k))
    (s := k - 52) (by omega) (by omega) hfits (.inr hfull)
  generalize ofScaled (decide (n < 0)) (m * 2 ^ (52 - k)) (k - 52) = x at hsign hfin hsig hscale
  have hmagnitude : x.magnitude = m := by
    rw [magnitude, hsig, hscale, Nat.cast_mul, Nat.cast_pow, Nat.cast_ofNat, mul_assoc,
      ← zpow_natCast, ← zpow_add₀ two_ne_zero, show ((52 - k : ℕ) : ℤ) + (k - 52) = 0 by omega,
      zpow_zero, mul_one]
  have hx : x.isZero = false := by
    rw [← Bool.not_eq_true, ← significand_eq_zero, hsig]
    omega
  have hrounds := magnitude_rounds hx
  rw [hmagnitude, ← div_one (m : ℚ), ← Nat.cast_one] at hrounds
  rw [← hsign, ofRatio_eq_of_rounds hfin one_pos hrounds]
  exact ⟨rfl, hfin, hx, hmagnitude, by omega⟩

end Binary64

namespace Value

theorem toString_eq_sign (n : ℤ) :
    toString n = (if decide (n < 0) then "-" else "") ++ toString n.natAbs := by
  cases n with
  | ofNat m =>
    rw [decide_eq_false (show ¬ Int.ofNat m < 0 from Int.not_lt.mpr (Int.natCast_nonneg m))]
    exact String.empty_append.symm
  | negSucc m =>
    rw [decide_eq_true (Int.negSucc_lt_zero m)]
    rfl

/-- An integer of at most two to the fifty-third is written as its numeral. -/
theorem text_ofInt {n : ℤ} (hn : n ≠ 0) (hle : n.natAbs ≤ 2 ^ 53) :
    (number (Binary64.ofInt n)).text = toString n := by
  rcases Nat.lt_or_eq_of_le hle with hlt | heq
  · obtain ⟨hsign, hfin, hx, hmagnitude, hscale⟩ := Binary64.parts_ofInt hn hlt
    have hvalue := Binary64.shortest_value_of_whole hx hfin hmagnitude hscale
    have htrimmed := (Binary64.shortest_isShortest hx hfin).trimmed
    have hpositional :
        NumberStyle.coerced.isPositional ((Binary64.ofInt n).shortest .larger) = true := by
      rw [Decimal.isPositional_iff (by omega), hvalue]
      have hone : (1 : ℚ) ≤ n.natAbs := by exact_mod_cast Int.natAbs_pos.mpr hn
      have htwo : (n.natAbs : ℚ) < 2 ^ 53 := by exact_mod_cast hlt
      exact ⟨le_trans (by norm_num) hone, htwo.trans (by norm_num)⟩
    rw [text, Binary64.render_of_isFinite hx hfin, Decimal.coercedText, if_pos hpositional,
      Decimal.positional_of_value_eq htrimmed hvalue, hsign, toString_eq_sign]
  · -- The last place of the largest one is two already.
    rcases Int.natAbs_eq n with hn | hn
    · rw [hn, heq]
      decide +kernel
    · rw [hn, heq]
      decide +kernel

end Value

/-! ## All finite numbers -/

/-- What the text of a number says: it is a number of a JSON text, its exact value is that of the
decimal with the sign of the number, it has an exponent outside the range from `1e-6` to `1e21`, and
the number is read back from it. No cut in its layout misses the digits. -/
structure Binary64.IsTextOf (x : Binary64) (d : Decimal) (text : String) : Prop where
  isNumber : Scan.IsNumber text.toList
  parts : ∃ t, Scan.numberText text.toList = .ok (t, []) ∧
    t.exactValue = (if x.negative then -1 else 1) * d.value ∧
    (t.exponent = none ↔ 10 ^ (-6 : ℤ) ≤ d.value ∧ d.value < 10 ^ (21 : ℤ))
  layout : d.layout?.map ((if x.negative then "-" else "") ++ ·) = some text
  read : Scan.readNumber text.toList = .ok (.real x, [])

namespace Binary64

variable {x y : Binary64}

theorem readNumber_render_self (hx : x.isZero = false) (hfin : x.isFinite = true) :
    Scan.readNumber (NumberStyle.coerced.render x).toList = .ok (.real x, []) := by
  have hread := readNumber_render hfin Scan.endsNumber_nil
  rwa [List.append_nil, unsignedZero, hx] at hread

theorem isTextOf_render (hx : x.isZero = false) (hfin : x.isFinite = true) :
    x.IsTextOf (x.shortest .larger) (NumberStyle.coerced.render x) := by
  have hd := shortest_coefficient_ne_zero .larger hx hfin
  have hwrites := writes_shortest hx hfin
  have hscan : Scan.numberText (NumberStyle.coerced.render x).toList =
      .ok ((x.shortest .larger).coercedParts x.negative, []) := by
    have hscan := Scan.numberText_chars hwrites.wellFormed Scan.endsNumber_nil
    rwa [List.append_nil, ← toList_render hx hfin] at hscan
  refine ⟨?_, ⟨_, hscan, hwrites.exactValue_eq, ?_⟩, ?_, readNumber_render_self hx hfin⟩
  · obtain ⟨text, htext, hchars⟩ := Scan.of_numberText hscan
    rwa [hchars, List.append_nil]
  · rw [Decimal.exponent_coercedParts, Decimal.isPositional_iff hd]
  · rw [Decimal.layout?_eq, render_of_isFinite hx hfin]
    rfl

theorem eq_of_render_eq (hx : x.isZero = false) (hfin : x.isFinite = true) (hy : y.isZero = false)
    (hfin' : y.isFinite = true)
    (h : NumberStyle.coerced.render x = NumberStyle.coerced.render y) : x = y := by
  have hread := readNumber_render_self hx hfin
  rw [h, readNumber_render_self hy hfin'] at hread
  cases hread
  rfl

end Binary64

/-- The text of a finite number other than zero is that of its shortest decimal, of which there is
one, and numbers with one text are equal. Integers of at most two to the fifty-third have their
numerals, and zeros of both signs the digit alone. -/
theorem coerced_numbers_keep_value :
    (∀ x : Binary64, x.isFinite = true → x.isZero = false → (∃! d, x.IsShortest d) ∧
      ∀ d, x.IsShortest d → x.IsTextOf d (NumberStyle.coerced.render x)) ∧
    (∀ x y : Binary64, x.isFinite = true → x.isZero = false → y.isFinite = true →
      y.isZero = false → NumberStyle.coerced.render x = NumberStyle.coerced.render y → x = y) ∧
    (∀ n : ℤ, n ≠ 0 → n.natAbs ≤ 2 ^ 53 →
      (Value.number (Binary64.ofInt n)).text = toString n) ∧
    ∀ isNegative, NumberStyle.coerced.render (Binary64.zero isNegative) = "0" := by
  refine ⟨fun x hfin hx => ⟨?_, fun d hd => ?_⟩, fun x y hfin hx hfin' hy h => ?_,
    fun n => Value.text_ofInt, fun isNegative => ?_⟩
  · exact ⟨_, Binary64.shortest_isShortest hx hfin, fun d => (Binary64.isShortest_iff hx hfin d).mp⟩
  · obtain rfl := (Binary64.isShortest_iff hx hfin d).mp hd
    exact Binary64.isTextOf_render hx hfin
  · exact Binary64.eq_of_render_eq hx hfin hy hfin' h
  · exact Binary64.render_of_isZero (Binary64.isZero_zero isNegative)

/-- The least double in magnitude, and the largest integer that has all smaller ones beside it. -/
theorem coerced_numbers_keep_value_extremes :
    (Binary64.ofMagnitude true 1).IsTextOf ⟨5, -324⟩ "-5e-324" ∧
      (Value.number (Binary64.ofInt (2 ^ 53))).text = "9007199254740992" := by
  obtain ⟨hreal, -, hinteger, -⟩ := coerced_numbers_keep_value
  have hx : (Binary64.ofMagnitude true 1).isZero = false := rfl
  have hfin : (Binary64.ofMagnitude true 1).isFinite = true := rfl
  have hshortest : (Binary64.ofMagnitude true 1).IsShortest ⟨5, -324⟩ :=
    (Binary64.isShortest_iff hx hfin _).mpr (by decide +kernel)
  have htext : NumberStyle.coerced.render (Binary64.ofMagnitude true 1) = "-5e-324" := by
    decide +kernel
  refine ⟨?_, hinteger (2 ^ 53) (by decide) (by decide)⟩
  rw [← htext]
  exact (hreal _ hfin hx).2 _ hshortest

end AttributeCheck
