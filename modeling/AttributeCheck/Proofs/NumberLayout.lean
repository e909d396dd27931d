import AttributeCheck.Numeric.Layout
import AttributeCheck.Proofs.JsonTokens

/-! # Coerced numbers are read back

The text of a finite number in each of its layouts is a number of a JSON text, whose nearest double
is the number itself. Zeros lose their sign. -/

namespace AttributeCheck

open Scan

/-! ## Digits -/

theorem head?_toDigits {n : ℕ} (hn : n ≠ 0) : (Nat.toDigits 10 n).head? ≠ some '0' := by
  induction n using Nat.strongRecOn with
  | ind n ih =>
    by_cases hlt : n < 10
    · rw [Nat.toDigits_of_lt_base hlt]
      simpa using hn
    · rw [Nat.toDigits_of_base_le (by decide) (by omega),
        List.head?_append_of_ne_nil _ Nat.toDigits_ne_nil]
      exact ih _ (by omega) (by omega)

namespace Numeral

theorem readDigits_append (ds es : List Char) :
    readDigits (readDigits 0 ds) es = readDigits 0 (ds ++ es) :=
  (List.foldl_append ..).symm

theorem readDigits_toDigits (n : ℕ) : readDigits 0 (Nat.toDigits 10 n) = n :=
  Nat.ofDigitChars_toDigits (by decide) (by decide)

theorem readDigits_zeros (start count : ℕ) :
    readDigits start (List.replicate count '0') = 10 ^ count * start :=
  Nat.ofDigitChars_replicate_zero

end Numeral

namespace Scan.NumberText

/-- All digits as one whole number. -/
def coefficient (t : NumberText) : ℕ :=
  Numeral.readDigits (Numeral.readDigits 0 t.whole) t.fraction

/-- The exponent that belongs to all digits as a whole number. -/
def scale (t : NumberText) : ℤ :=
  t.exponentValue - t.fraction.length

/-- The number is written well-formed and has the sign and the value of a decimal. -/
structure Writes (t : NumberText) (isNegative : Bool) (d : Decimal) : Prop where
  wellFormed : t.IsWellFormed
  sign : t.isNegative = isNegative
  value : (t.coefficient : ℚ) * 10 ^ t.scale = d.value

end Scan.NumberText

namespace Decimal

theorem toList_digits (d : Decimal) : d.digits.toList = Nat.toDigits 10 d.coefficient := by
  simp [digits]

/-! ## Layouts by their parts -/

def positionalParts (isNegative : Bool) (d : Decimal) : NumberText :=
  if 0 ≤ d.exponent then
    ⟨isNegative, d.digits.toList ++ List.replicate d.exponent.toNat '0', [], none⟩
  else if 0 < d.point then
    ⟨isNegative, d.digits.toList.take d.point.toNat, d.digits.toList.drop d.point.toNat, none⟩
  else ⟨isNegative, ['0'], List.replicate (-d.point).toNat '0' ++ d.digits.toList, none⟩

def scientificParts (isNegative : Bool) (d : Decimal) : NumberText :=
  ⟨isNegative, d.digits.toList.take 1, d.digits.toList.drop 1,
    some (decide (d.point - 1 < 0), (toString (d.point - 1).natAbs).toList)⟩

theorem isDigit_of_mem_digits {d : Decimal} {c : Char} (h : c ∈ d.digits.toList) :
    c.isDigit = true := by
  rw [toList_digits] at h
  exact Nat.isDigit_of_mem_toDigits (by decide) (by decide) h

theorem digits_ne_nil (d : Decimal) : d.digits.toList ≠ [] := by
  rw [toList_digits]
  exact Nat.toDigits_ne_nil

theorem head?_digits {d : Decimal} (hd : d.coefficient ≠ 0) :
    d.digits.toList.head? ≠ some '0' := by
  rw [toList_digits]
  exact head?_toDigits hd

theorem isDigit_of_mem_zeros {count : ℕ} {c : Char} (h : c ∈ List.replicate count '0') :
    c.isDigit = true := by
  rw [List.eq_of_mem_replicate h]
  rfl

theorem readDigits_digits (d : Decimal) : Numeral.readDigits 0 d.digits.toList = d.coefficient := by
  rw [toList_digits, Numeral.readDigits_toDigits]

/-- Digits with the point among them or behind the first, and an exponent that makes up for it. -/
theorem writes_split {d : Decimal} (hd : d.coefficient ≠ 0) (isNegative : Bool) {count : ℕ}
    (hcount : 0 < count) {exponent : Option (Bool × List Char)}
    (hdigits : ∀ sign ds, exponent = some (sign, ds) → ds ≠ [] ∧ ∀ c ∈ ds, c.isDigit = true)
    (hscale : NumberText.scale ⟨isNegative, d.digits.toList.take count,
      d.digits.toList.drop count, exponent⟩ = d.exponent) :
    NumberText.Writes ⟨isNegative, d.digits.toList.take count, d.digits.toList.drop count, exponent⟩
      isNegative d where
  wellFormed :=
    { whole_digits := fun c hc => isDigit_of_mem_digits (List.mem_of_mem_take hc)
      whole_ne_nil := by
        have hne := d.digits_ne_nil
        simp only [ne_eq, List.take_eq_nil_iff, hne, or_false]
        omega
      whole_lead := fun h => by
        rw [List.head?_take, if_neg (by omega)] at h
        exact absurd h (head?_digits hd)
      fraction_digits := fun c hc => isDigit_of_mem_digits (List.mem_of_mem_drop hc)
      exponent_digits := hdigits }
  sign := rfl
  value := by
    rw [hscale, NumberText.coefficient, Numeral.readDigits_append, List.take_append_drop,
      readDigits_digits, value]

theorem writes_positionalParts {d : Decimal} (hd : d.coefficient ≠ 0) (isNegative : Bool) :
    (d.positionalParts isNegative).Writes isNegative d := by
  have hlength : d.digits.toList.length = d.digits.length := String.length_toList
  rw [positionalParts]
  split
  · rename_i hexponent
    refine ⟨⟨fun c hc => ?_, ?_, fun h => ?_, List.forall_mem_nil _, by simp⟩, rfl, ?_⟩
    · exact (List.mem_append.mp hc).elim isDigit_of_mem_digits isDigit_of_mem_zeros
    · exact List.append_ne_nil_of_left_ne_nil d.digits_ne_nil _
    · rw [List.head?_append_of_ne_nil _ d.digits_ne_nil] at h
      exact absurd h (head?_digits hd)
    · have hscale : NumberText.scale ⟨isNegative,
          d.digits.toList ++ List.replicate d.exponent.toNat '0', [], none⟩ = 0 := rfl
      rw [hscale, NumberText.coefficient, Numeral.readDigits_append, List.append_nil,
        ← Numeral.readDigits_append, readDigits_digits, Numeral.readDigits_zeros, value]
      conv_rhs => rw [← Int.toNat_of_nonneg hexponent]
      push_cast
      rw [zpow_natCast, mul_one, mul_comm]
  · rename_i hexponent
    split
    · rename_i hpoint
      refine writes_split hd isNegative (by omega) (by simp) ?_
      simp only [NumberText.scale, NumberText.exponentValue, List.length_drop, hlength]
      rw [point] at hpoint ⊢
      omega
    · rename_i hpoint
      refine ⟨⟨?_, List.cons_ne_nil _ _, fun _ => rfl, fun c hc => ?_, by simp⟩, rfl, ?_⟩
      · exact List.forall_mem_singleton.mpr rfl
      · exact (List.mem_append.mp hc).elim isDigit_of_mem_zeros isDigit_of_mem_digits
      · have hscale : NumberText.scale ⟨isNegative, ['0'],
            List.replicate (-d.point).toNat '0' ++ d.digits.toList, none⟩ = d.exponent := by
          simp only [NumberText.scale, NumberText.exponentValue, List.length_append,
            List.length_replicate, hlength]
          rw [point] at hpoint ⊢
          omega
        have hzero : Numeral.readDigits 0 ['0'] = 0 := rfl
        rw [hscale, NumberText.coefficient, hzero, ← Numeral.readDigits_append,
          Numeral.readDigits_zeros, Nat.mul_zero, readDigits_digits, value]

theorem writes_scientificParts {d : Decimal} (hd : d.coefficient ≠ 0) (isNegative : Bool) :
    (d.scientificParts isNegative).Writes isNegative d := by
  have hlength : d.digits.toList.length = d.digits.length := String.length_toList
  have hpos : 0 < d.digits.toList.length := List.length_pos_of_ne_nil d.digits_ne_nil
  refine writes_split hd isNegative Nat.one_pos ?_ ?_
  · intro sign ds heq
    obtain ⟨rfl, rfl⟩ := Prod.mk.inj (Option.some.inj heq)
    rw [Nat.toString_eq_repr, Nat.toList_repr]
    exact ⟨Nat.toDigits_ne_nil, fun c hc => Nat.isDigit_of_mem_toDigits (by decide) (by decide) hc⟩
  · simp only [NumberText.scale, NumberText.exponentValue, Nat.toString_eq_repr, Nat.toList_repr,
      Numeral.readDigits_toDigits, List.length_drop, decide_eq_true_iff]
    rw [hlength] at hpos ⊢
    rw [point]
    split <;> omega

/-! ## Texts by their parts -/

theorem fractionChars_of_ne_nil {t : NumberText} (h : t.fraction ≠ []) :
    t.fractionChars = '.' :: t.fraction := by
  rw [NumberText.fractionChars, if_neg (by simpa using h)]

theorem chars_positionalParts (d : Decimal) (isNegative : Bool) :
    (d.positionalParts isNegative).chars =
      (if isNegative then ['-'] else []) ++ d.positional.toList := by
  have hlength : d.digits.toList.length = d.digits.length := String.length_toList
  rw [positionalParts, positional]
  split
  · simp [NumberText.chars, NumberText.signChars, NumberText.fractionChars,
      NumberText.exponentChars, zeros]
  · rename_i hexponent
    split
    · rename_i hpoint
      have hdrop : d.digits.toList.drop d.point.toNat ≠ [] := by
        rw [ne_eq, List.drop_eq_nil_iff, hlength]
        rw [point] at hpoint ⊢
        omega
      rw [NumberText.chars, fractionChars_of_ne_nil hdrop]
      simp [NumberText.signChars, NumberText.exponentChars]
    · have happend : List.replicate (-d.point).toNat '0' ++ d.digits.toList ≠ [] :=
        List.append_ne_nil_of_right_ne_nil _ d.digits_ne_nil
      rw [NumberText.chars, fractionChars_of_ne_nil happend]
      simp [NumberText.signChars, NumberText.exponentChars, zeros]

theorem chars_scientificParts (d : Decimal) (isNegative : Bool) :
    (d.scientificParts isNegative).chars =
      (if isNegative then ['-'] else []) ++ (d.scientific "+").toList := by
  have hfraction : (d.scientificParts isNegative).fractionChars =
      (if (String.ofList (d.digits.toList.drop 1)).isEmpty then ""
        else "." ++ String.ofList (d.digits.toList.drop 1)).toList := by
    rw [NumberText.fractionChars, scientificParts]
    cases d.digits.toList.drop 1 <;> simp
  have hexponent : (d.scientificParts isNegative).exponentChars =
      'e' :: (if d.point - 1 < 0 then "-" else "+").toList ++
        (toString (d.point - 1).natAbs).toList := by
    simp only [NumberText.exponentChars, scientificParts, decide_eq_true_iff]
    split <;> rfl
  rw [NumberText.chars, hfraction, hexponent, scientific]
  simp only [String.toList_append, List.append_assoc]
  simp [NumberText.signChars, scientificParts]

/-! ## The layout of coerced numbers -/

/-- The text as coercion writes it. -/
def coercedText (d : Decimal) : String :=
  if NumberStyle.coerced.isPositional d then d.positional else d.scientific "+"

/-- The parts of the text as coercion writes it. -/
def coercedParts (isNegative : Bool) (d : Decimal) : Scan.NumberText :=
  if NumberStyle.coerced.isPositional d then d.positionalParts isNegative
  else d.scientificParts isNegative

theorem writes_coercedParts {d : Decimal} (hd : d.coefficient ≠ 0) (isNegative : Bool) :
    (d.coercedParts isNegative).Writes isNegative d := by
  rw [coercedParts]
  split
  · exact writes_positionalParts hd isNegative
  · exact writes_scientificParts hd isNegative

theorem chars_coercedParts (isNegative : Bool) (d : Decimal) :
    (d.coercedParts isNegative).chars =
      ((if isNegative then "-" else "") ++ d.coercedText).toList := by
  have hsign : (if isNegative then "-" else "").toList = if isNegative then ['-'] else [] := by
    cases isNegative <;> rfl
  rw [String.toList_append, hsign, coercedParts, coercedText]
  split
  · exact chars_positionalParts d isNegative
  · exact chars_scientificParts d isNegative

end Decimal

/-! ## Reading numbers back -/

namespace Binary64

variable {x : Binary64}

theorem shortest_coefficient_ne_zero (tie : Tie) (hx : x.isZero = false)
    (hfin : x.isFinite = true) : (x.shortest tie).coefficient ≠ 0 := by
  intro hzero
  have hlow := (shortest_rounds tie hx hfin).two_zpow_le hx
  have hpos : (0 : ℚ) < 2 ^ (-1075 : ℤ) := by positivity
  rw [Decimal.value, hzero, Nat.cast_zero, zero_mul] at hlow
  exact absurd hlow (not_le.mpr hpos)

/-- A number that writes the shortest decimal of a double has the double as its nearest one. -/
theorem real?_of_writes {t : NumberText} {tie : Tie} (hx : x.isZero = false)
    (hfin : x.isFinite = true) (h : t.Writes x.negative (x.shortest tie)) : t.real? = some x := by
  have hdouble : (Numeral.decimal t.isNegative t.coefficient t.scale).toDouble = x := by
    rw [h.sign]
    refine Numeral.toDouble_decimal hx hfin ?_
    rw [h.value]
    exact shortest_rounds tie hx hfin
  have hreal : t.real? = if (Numeral.decimal t.isNegative t.coefficient t.scale).toDouble.isInfinite
      then none else some (Numeral.decimal t.isNegative t.coefficient t.scale).toDouble := rfl
  rw [hreal, hdouble, isInfinite_of_isFinite hfin]
  rfl

theorem render_of_isZero (hx : x.isZero = true) : NumberStyle.coerced.render x = "0" := by
  have hfin : x.isFinite = true := isFinite_of_toInt? (toInt?_of_isZero hx)
  rw [NumberStyle.render, isNaN_of_isFinite hfin, isInfinite_of_isFinite hfin, hx]
  rfl

theorem render_of_isFinite (hx : x.isZero = false) (hfin : x.isFinite = true) :
    NumberStyle.coerced.render x =
      (if x.negative then "-" else "") ++ (x.shortest .larger).coercedText := by
  rw [NumberStyle.render, isNaN_of_isFinite hfin, isInfinite_of_isFinite hfin, hx]
  rfl

theorem toList_render (hx : x.isZero = false) (hfin : x.isFinite = true) :
    (NumberStyle.coerced.render x).toList =
      ((x.shortest .larger).coercedParts x.negative).chars := by
  rw [render_of_isFinite hx hfin, Decimal.chars_coercedParts]

theorem writes_shortest (hx : x.isZero = false) (hfin : x.isFinite = true) :
    ((x.shortest .larger).coercedParts x.negative).Writes x.negative (x.shortest .larger) :=
  Decimal.writes_coercedParts (shortest_coefficient_ne_zero .larger hx hfin) x.negative

/-- The text of a finite number is a well-formed number with the nearest double of the number. -/
theorem exists_numberText (hfin : x.isFinite = true) : ∃ t : NumberText,
    t.IsWellFormed ∧ (NumberStyle.coerced.render x).toList = t.chars ∧
      t.real? = some x.unsignedZero := by
  rw [unsignedZero]
  cases hx : x.isZero with
  | true =>
    refine ⟨⟨false, ['0'], [], none⟩, ⟨?_, List.cons_ne_nil _ _, fun _ => rfl,
      List.forall_mem_nil _, by simp⟩, ?_, rfl⟩
    · exact List.forall_mem_singleton.mpr rfl
    · rw [render_of_isZero hx]
      rfl
  | false =>
    have hwrites := writes_shortest hx hfin
    exact ⟨_, hwrites.wellFormed, toList_render hx hfin, real?_of_writes hx hfin hwrites⟩

end Binary64

/-- The reader reads back a finite number. -/
theorem readNumber_render {x : Binary64} (hfin : x.isFinite = true) {rest : List Char}
    (hrest : EndsNumber rest) :
    readNumber ((NumberStyle.coerced.render x).toList ++ rest) =
      .ok (.real x.unsignedZero, rest) := by
  obtain ⟨t, ht, hchars, hreal⟩ := Binary64.exists_numberText hfin
  rw [readNumber, hchars, numberText_chars ht hrest, ok_bind]
  simp only [hreal]
  rfl

end AttributeCheck
