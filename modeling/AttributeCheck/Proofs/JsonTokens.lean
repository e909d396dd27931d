import AttributeCheck.Json.Number
import AttributeCheck.Text.Quoted
import AttributeCheck.Proofs.JsonData
import AttributeCheck.Proofs.JsonReading
import AttributeCheck.Proofs.ShortestDecimal

/-! # Scanning strings and numbers that were written

The scanners read back what is written for strings and for numbers, and stop right behind it. -/

namespace AttributeCheck

namespace Scan

/-! ## Strings -/

/-- The piece that the escape of a character is scanned as. -/
def pieceOf (c : Char) : Piece :=
  if c.toNat < 32 ∧ c.toNat ∉ [8, 9, 10, 12, 13] then .unit c.toNat else .char c

theorem unit?_hexDigit : ∀ n < 32,
    unit? '0' '0' (Quoted.hexDigit (n / 16)) (Quoted.hexDigit (n % 16)) = some n := by
  decide

theorem pieces_plain {c : Char} (hquote : c ≠ '"') (hslash : c ≠ '\\') (hcontrol : 32 ≤ c.toNat)
    (rest : List Char) : pieces (c :: rest) = (.char c :: (pieces rest).1, (pieces rest).2) := by
  rw [pieces.eq_def]
  split <;> simp_all

theorem pieces_escaped {e c : Char} (hu : e ≠ 'u') (h : shortEscape? e = some c)
    (rest : List Char) :
    pieces ('\\' :: e :: rest) = (.char c :: (pieces rest).1, (pieces rest).2) := by
  rw [pieces.eq_def]
  split <;> grind

theorem pieces_encodeChar (c : Char) (rest : List Char) :
    pieces (Quoted.encodeChar c ++ rest) = (pieceOf c :: (pieces rest).1, (pieces rest).2) := by
  unfold Quoted.encodeChar
  split
  · subst c
    exact pieces_escaped (by decide) rfl rest
  split
  · subst c
    exact pieces_escaped (by decide) rfl rest
  split
  · subst c
    exact pieces_escaped (by decide) rfl rest
  split
  · subst c
    exact pieces_escaped (by decide) rfl rest
  split
  · subst c
    exact pieces_escaped (by decide) rfl rest
  split
  · rename_i h8
    obtain rfl : c = Char.ofNat 8 := by rw [← h8, Char.ofNat_toNat]
    exact pieces_escaped (by decide) rfl rest
  split
  · rename_i h12
    obtain rfl : c = Char.ofNat 12 := by rw [← h12, Char.ofNat_toNat]
    exact pieces_escaped (by decide) rfl rest
  split
  · rename_i hnewline hreturn htab h8 h12 hlt
    have hpiece : pieceOf c = .unit c.toNat := by
      have h10 : c.toNat ≠ '\n'.toNat := fun h => hnewline (Char.toNat_inj.mp h)
      have h13 : c.toNat ≠ '\r'.toNat := fun h => hreturn (Char.toNat_inj.mp h)
      have h9 : c.toNat ≠ '\t'.toNat := fun h => htab (Char.toNat_inj.mp h)
      rw [pieceOf, if_pos]
      simp_all
    rw [hpiece]
    simp only [List.cons_append, List.nil_append, pieces, unit?_hexDigit _ hlt]
  · rename_i hquote hslash _ _ _ _ _ hge
    have hpiece : pieceOf c = .char c := by
      rw [pieceOf, if_neg fun h => hge h.1]
    rw [hpiece]
    exact pieces_plain hquote hslash (by omega) rest

theorem pieces_encode (cs rest : List Char) :
    pieces (Quoted.encode cs ++ '"' :: rest) = (cs.map pieceOf, .ok rest) := by
  induction cs with
  | nil => rfl
  | cons c cs ih =>
    rw [Quoted.encode, List.flatMap_cons, List.append_assoc, ← Quoted.encode, pieces_encodeChar, ih]
    rfl

theorem characters_unit {u : ℕ} (hu : u < 0xD800 ∨ 0xE000 ≤ u)
    (ending : Except Problem (List Char)) (ps : List Piece) : characters ending (.unit u :: ps) =
      (characters ending ps).map (Char.ofNat u :: ·) := by
  have hlead : ¬ (0xD800 ≤ u ∧ u < 0xDC00) := by omega
  have htrail : ¬ (0xDC00 ≤ u ∧ u < 0xE000) := by omega
  have hsurrogate : ¬ (0xD800 ≤ u ∧ u < 0xE000) := by omega
  match ps with
  | [] =>
    conv_lhs => rw [characters.eq_def]
    simp only [if_neg hlead, if_neg htrail]
    rfl
  | .char c :: ps =>
    conv_lhs => rw [characters, if_neg hsurrogate]
    rfl
  | .unit v :: ps =>
    conv_lhs => rw [characters, if_neg hlead, if_neg htrail]
    rfl

theorem characters_pieceOf (ending : Except Problem (List Char)) (cs : List Char) :
    characters ending (cs.map pieceOf) = .ok cs := by
  induction cs with
  | nil => rfl
  | cons c cs ih =>
    rw [List.map_cons, pieceOf]
    split
    · rename_i h
      rw [characters_unit (by omega), ih, Char.ofNat_toNat]
      rfl
    · rw [characters, ih]
      rfl

/-- The scanner reads back a string from its text. -/
theorem string_encode (s : String) (rest : List Char) :
    string (Quoted.encode s.toList ++ '"' :: rest) = .ok (s, rest) := by
  simp only [string, pieces_encode, characters_pieceOf]
  exact congrArg Except.ok (Prod.ext String.ofList_toList rfl)

/-! ## Numbers by their parts -/

/-- The text does not begin with a digit. -/
def NoDigit (rest : List Char) : Prop :=
  ∀ c, rest.head? = some c → c.isDigit = false

/-- The text does not go on with a number that stands before it. -/
def EndsNumber (rest : List Char) : Prop :=
  NoDigit rest ∧ rest.head? ≠ some '.' ∧ rest.head? ≠ some 'e' ∧ rest.head? ≠ some 'E'

theorem endsNumber_nil : EndsNumber [] := by
  simp [EndsNumber, NoDigit]

theorem noDigit_cons {c : Char} (h : c.isDigit = false) (rest : List Char) :
    NoDigit (c :: rest) := by
  intro d hd
  obtain rfl := Option.some.inj hd
  exact h

namespace NumberText

def signChars (t : NumberText) : List Char :=
  if t.isNegative then ['-'] else []

def fractionChars (t : NumberText) : List Char :=
  if t.fraction.isEmpty then [] else '.' :: t.fraction

def exponentChars (t : NumberText) : List Char :=
  match t.exponent with
  | none => []
  | some (isNegative, ds) => 'e' :: (if isNegative then '-' else '+') :: ds

/-- The number as it is written. -/
def chars (t : NumberText) : List Char :=
  t.signChars ++ (t.whole ++ (t.fractionChars ++ t.exponentChars))

/-- Digits only, at least one where there must be one, and no zero in front of others. -/
structure IsWellFormed (t : NumberText) : Prop where
  whole_digits : ∀ c ∈ t.whole, c.isDigit = true
  whole_ne_nil : t.whole ≠ []
  whole_lead : t.whole.head? = some '0' → t.whole = ['0']
  fraction_digits : ∀ c ∈ t.fraction, c.isDigit = true
  exponent_digits : ∀ isNegative ds, t.exponent = some (isNegative, ds) →
    ds ≠ [] ∧ ∀ c ∈ ds, c.isDigit = true

theorem IsWellFormed.start {t : NumberText} (h : t.IsWellFormed) :
    ∃ c cs, t.chars = c :: cs ∧ (c = '-' ∨ c.isDigit = true) := by
  obtain ⟨d, ds, hwhole⟩ := List.exists_cons_of_ne_nil h.whole_ne_nil
  rw [chars, signChars, hwhole]
  split
  · exact ⟨_, _, rfl, .inl rfl⟩
  · exact ⟨_, _, rfl, .inr (h.whole_digits d (hwhole ▸ List.mem_cons_self))⟩

end NumberText

theorem splitDigits_append {ds rest : List Char} (hds : ∀ c ∈ ds, c.isDigit = true)
    (hrest : NoDigit rest) : Numeral.splitDigits (ds ++ rest) = (ds, rest) := by
  have hstop : rest.takeWhile Char.isDigit = [] ∧ rest.dropWhile Char.isDigit = rest := by
    cases rest with
    | nil => exact ⟨rfl, rfl⟩
    | cons c rest => simp [hrest c rfl]
  rw [Numeral.splitDigits, List.takeWhile_append_of_pos hds, List.dropWhile_append_of_pos hds,
    hstop.1, hstop.2, List.append_nil]

theorem digits_append {ds rest : List Char} (hne : ds ≠ []) (hds : ∀ c ∈ ds, c.isDigit = true)
    (hrest : NoDigit rest) : digits (ds ++ rest) = .ok (ds, rest) := by
  rw [digits, splitDigits_append hds hrest]
  cases ds with
  | nil => contradiction
  | cons d ds => rfl

theorem wholeDigits_append {ds rest : List Char} (hne : ds ≠ [])
    (hds : ∀ c ∈ ds, c.isDigit = true) (hlead : ds.head? = some '0' → ds = ['0'])
    (hrest : NoDigit rest) : wholeDigits (ds ++ rest) = .ok (ds, rest) := by
  have hdigits := digits_append hne hds hrest
  rw [wholeDigits.eq_def]
  split
  · rename_i c behind heq
    obtain rfl : ds = ['0'] := by
      cases ds with
      | nil => contradiction
      | cons d ds =>
        obtain ⟨rfl, -⟩ := List.cons.inj heq
        exact hlead rfl
    obtain ⟨-, rfl⟩ := List.cons.inj heq
    rw [hrest c rfl]
    rfl
  · exact hdigits

theorem fractionDigits_none {rest : List Char} (hpoint : rest.head? ≠ some '.') :
    fractionDigits rest = .ok ([], rest) := by
  rw [fractionDigits.eq_def]
  split
  · contradiction
  · rfl

theorem exponentDigits_none {rest : List Char} (hrest : EndsNumber rest) :
    exponentDigits rest = .ok (none, rest) := by
  obtain ⟨-, -, hlower, hupper⟩ := hrest
  cases rest with
  | nil => rfl
  | cons c rest =>
    have hc : ¬ (c = 'e' ∨ c = 'E') := by
      rintro (rfl | rfl) <;> contradiction
    exact if_neg hc

theorem fractionDigits_append {t : NumberText} (ht : t.IsWellFormed) {rest : List Char}
    (hrest : NoDigit rest) (hpoint : rest.head? ≠ some '.') :
    fractionDigits (t.fractionChars ++ rest) = .ok (t.fraction, rest) := by
  rw [NumberText.fractionChars]
  by_cases hempty : t.fraction = []
  · rw [hempty, List.isEmpty_nil, if_pos rfl, List.nil_append, fractionDigits_none hpoint]
  · rw [if_neg (by simpa using hempty), List.cons_append, fractionDigits]
    exact digits_append hempty ht.fraction_digits hrest

theorem exponentDigits_append {t : NumberText} (ht : t.IsWellFormed) {rest : List Char}
    (hrest : EndsNumber rest) :
    exponentDigits (t.exponentChars ++ rest) = .ok (t.exponent, rest) := by
  rw [NumberText.exponentChars]
  cases hexponent : t.exponent with
  | none => exact exponentDigits_none hrest
  | some exponent =>
    obtain ⟨isNegative, ds⟩ := exponent
    obtain ⟨hne, hds⟩ := ht.exponent_digits _ _ hexponent
    have hdigits := digits_append hne hds hrest.1
    cases isNegative <;>
    · simp only [exponentDigits, List.cons_append, Numeral.splitSign, true_or, if_true,
        Bool.false_eq_true, if_false, hdigits]
      rfl

theorem noDigit_exponentChars (t : NumberText) {rest : List Char} (hrest : NoDigit rest) :
    NoDigit (t.exponentChars ++ rest) := by
  rw [NumberText.exponentChars]
  split
  · exact hrest
  · exact noDigit_cons rfl _

theorem noDigit_fractionChars (t : NumberText) {rest : List Char} (hrest : NoDigit rest) :
    NoDigit (t.fractionChars ++ rest) := by
  rw [NumberText.fractionChars]
  split
  · exact hrest
  · exact noDigit_cons rfl _

/-- A number is scanned into its parts. -/
theorem numberText_chars {t : NumberText} (ht : t.IsWellFormed) {rest : List Char}
    (hrest : EndsNumber rest) : numberText (t.chars ++ rest) = .ok (t, rest) := by
  have hexponent := exponentDigits_append ht hrest
  have hpoint : (t.exponentChars ++ rest).head? ≠ some '.' := by
    rw [NumberText.exponentChars]
    split
    · exact hrest.2.1
    · simp
  have hnodigit := noDigit_exponentChars t hrest.1
  have hfraction := fractionDigits_append ht hnodigit hpoint
  have hwhole := wholeDigits_append ht.whole_ne_nil ht.whole_digits ht.whole_lead
    (noDigit_fractionChars t hnodigit)
  have hbody : t.chars ++ rest =
      t.signChars ++ (t.whole ++ (t.fractionChars ++ (t.exponentChars ++ rest))) := by
    simp only [NumberText.chars, List.append_assoc]
  rw [hbody, NumberText.signChars]
  obtain ⟨isNegative, whole, fraction, exponent⟩ := t
  cases isNegative with
  | true =>
    simp only [if_true, List.cons_append, List.nil_append, numberText, hwhole, hfraction,
      hexponent, ok_bind]
    rfl
  | false =>
    simp only [Bool.false_eq_true, if_false, List.nil_append]
    rw [numberText, hwhole]
    · simp only [hfraction, hexponent, ok_bind]
      rfl
    · intro behind heq
      obtain ⟨d, ds, rfl⟩ := List.exists_cons_of_ne_nil ht.whole_ne_nil
      obtain ⟨rfl, -⟩ := List.cons.inj heq
      exact absurd (ht.whole_digits '-' List.mem_cons_self) (by decide)

end Scan

end AttributeCheck
