import AttributeCheck.Proofs.JsonText

/-! # The grammar of JSON texts

Which texts are strings, numbers and values is said by rules. The scanners take a text just when it
begins with one of these, and stop behind it. -/

namespace AttributeCheck

namespace Scan

/-! ## Blanks and words -/

def AreBlanks (cs : List Char) : Prop :=
  ∀ c ∈ cs, isBlank c = true

theorem skipBlank_append {front : List Char} (h : AreBlanks front) (rest : List Char) :
    skipBlank (front ++ rest) = skipBlank rest :=
  List.dropWhile_append_of_pos h

theorem skipBlank_append_cons {front : List Char} (h : AreBlanks front) {c : Char}
    (hc : isBlank c = false) (rest : List Char) : skipBlank (front ++ c :: rest) = c :: rest := by
  rw [skipBlank_append h, skipBlank, List.dropWhile_cons, hc]
  rfl

theorem exists_blanks (cs : List Char) : ∃ front, AreBlanks front ∧ cs = front ++ skipBlank cs :=
  ⟨cs.takeWhile isBlank, fun _ => List.mem_takeWhile_imp, List.takeWhile_append_dropWhile.symm⟩

theorem exists_blanks_of_skipBlank {cs rest : List Char} (h : skipBlank cs = rest) :
    ∃ front, AreBlanks front ∧ cs = front ++ rest :=
  h ▸ exists_blanks cs

/-- The pieces of a text between quotes. Quotes and backslashes are escaped, and so are control
characters. -/
inductive Spells : List Char → List Piece → Prop where
  | nil : Spells [] []
  | plain {c : Char} {cs : List Char} {ps : List Piece} (hquote : c ≠ '"') (hslash : c ≠ '\\')
      (hcontrol : 32 ≤ c.toNat) (h : Spells cs ps) : Spells (c :: cs) (.char c :: ps)
  | short {e c : Char} {cs : List Char} {ps : List Piece} (he : shortEscape? e = some c)
      (h : Spells cs ps) : Spells ('\\' :: e :: cs) (.char c :: ps)
  | unit {a b c d : Char} {u : ℕ} {cs : List Char} {ps : List Piece}
      (hu : unit? a b c d = some u) (h : Spells cs ps) :
      Spells ('\\' :: 'u' :: a :: b :: c :: d :: cs) (.unit u :: ps)

/-- The characters that pieces stand for. A unit is a character, or one of the two surrogates of
one. -/
inductive Encodes : List Piece → List Char → Prop where
  | nil : Encodes [] []
  | char {c : Char} {ps : List Piece} {cs : List Char} (h : Encodes ps cs) :
      Encodes (.char c :: ps) (c :: cs)
  | unit {u : ℕ} {ps : List Piece} {cs : List Char} (hu : u < 0xD800 ∨ 0xE000 ≤ u)
      (h : Encodes ps cs) : Encodes (.unit u :: ps) (Char.ofNat u :: cs)
  | pair {u v : ℕ} {ps : List Piece} {cs : List Char} (hu : 0xD800 ≤ u ∧ u < 0xDC00)
      (hv : 0xDC00 ≤ v ∧ v < 0xE000) (h : Encodes ps cs) :
      Encodes (.unit u :: .unit v :: ps)
        (Char.ofNat (0x10000 + (u - 0xD800) * 0x400 + (v - 0xDC00)) :: cs)

/-- The text of a string, quotes included. -/
inductive IsString (s : String) : List Char → Prop where
  | mk {body : List Char} {ps : List Piece} (hbody : Spells body ps) (hs : Encodes ps s.toList) :
      IsString s ('"' :: (body ++ ['"']))

theorem pieces_append {body : List Char} {ps : List Piece} (h : Spells body ps)
    (rest : List Char) : pieces (body ++ '"' :: rest) = (ps, .ok rest) := by
  induction h with
  | nil => rfl
  | plain hquote hslash hcontrol _ ih =>
      rw [List.cons_append, pieces_plain hquote hslash hcontrol, ih]
  | short he _ ih =>
      rw [List.cons_append, List.cons_append, pieces_escaped (by rintro rfl; cases he) he, ih]
  | unit hu _ ih => simp only [List.cons_append, pieces, hu, ih]

/-- One digit or more. -/
def AreDigits (cs : List Char) : Prop :=
  cs ≠ [] ∧ ∀ c ∈ cs, c.isDigit = true

/-- Nothing, or digits behind a point. -/
inductive IsFraction : List Char → Prop where
  | none : IsFraction []
  | digits {ds : List Char} (h : AreDigits ds) : IsFraction ('.' :: ds)

/-- Nothing, or digits behind the letter, with or without a sign. -/
inductive IsExponent : List Char → Prop where
  | none : IsExponent []
  | digits {e : Char} {sign ds : List Char} (he : e = 'e' ∨ e = 'E')
      (hsign : sign ∈ [[], ['+'], ['-']]) (h : AreDigits ds) : IsExponent (e :: (sign ++ ds))

/-- The text of a number. Of several digits the first is no zero. -/
inductive IsNumber : List Char → Prop where
  | mk {sign ds fraction exponent : List Char} (hsign : sign = [] ∨ sign = ['-'])
      (hds : AreDigits ds) (hlead : ds.head? = some '0' → ds = ['0']) (hf : IsFraction fraction)
      (he : IsExponent exponent) : IsNumber (sign ++ (ds ++ (fraction ++ exponent)))

theorem of_digits {cs ds rest : List Char} (h : digits cs = .ok (ds, rest)) :
    AreDigits ds ∧ cs = ds ++ rest := by
  have hsplit : cs = cs.takeWhile Char.isDigit ++ cs.dropWhile Char.isDigit :=
    List.takeWhile_append_dropWhile.symm
  rw [digits, Numeral.splitDigits] at h
  split at h
  · cases h
  · cases h
  · rename_i front behind hnil hcons heq
    cases h
    cases heq
    refine ⟨⟨fun hempty => ?_, fun c => List.mem_takeWhile_imp⟩, hsplit⟩
    cases hrest : cs.dropWhile Char.isDigit with
    | nil => exact hnil hempty hrest
    | cons c behind => exact hcons c behind hempty hrest

theorem of_wholeDigits {cs ds rest : List Char} (h : wholeDigits cs = .ok (ds, rest)) :
    AreDigits ds ∧ (ds.head? = some '0' → ds = ['0']) ∧ cs = ds ++ rest := by
  rw [wholeDigits.eq_def] at h
  split at h
  · rename_i c behind
    by_cases hc : c.isDigit = true
    · rw [if_pos hc] at h
      cases h
    · rw [if_neg hc] at h
      cases h
      exact ⟨⟨List.cons_ne_nil _ _, List.forall_mem_singleton.mpr rfl⟩, fun _ => rfl, rfl⟩
  · rename_i hnot
    obtain ⟨hds, rfl⟩ := of_digits h
    refine ⟨hds, fun hlead => ?_, rfl⟩
    -- Two digits would be the first case, and so would one with more text behind it.
    cases ds with
    | nil => cases hlead
    | cons d ds =>
        obtain rfl : d = '0' := by simpa using hlead
        cases ds with
        | nil => rfl
        | cons c ds => exact absurd rfl (hnot c (ds ++ rest))

theorem of_fractionDigits {cs ds rest : List Char} (h : fractionDigits cs = .ok (ds, rest)) :
    ∃ fraction, IsFraction fraction ∧ cs = fraction ++ rest := by
  rw [fractionDigits.eq_def] at h
  split at h
  · obtain ⟨hds, rfl⟩ := of_digits h
    exact ⟨_, .digits hds, rfl⟩
  · cases h
    exact ⟨[], .none, rfl⟩

theorem splitSign_cases (cs : List Char) :
    ∃ sign ∈ [[], ['+'], ['-']], cs = sign ++ (Numeral.splitSign cs).2 := by
  rw [Numeral.splitSign.eq_def]
  split <;> simp

theorem of_exponentDigits {cs rest : List Char} {exponent : Option (Bool × List Char)}
    (h : exponentDigits cs = .ok (exponent, rest)) :
    ∃ text, IsExponent text ∧ cs = text ++ rest := by
  cases cs with
  | nil =>
      cases h
      exact ⟨[], .none, rfl⟩
  | cons e behind =>
      rw [exponentDigits] at h
      by_cases he : e = 'e' ∨ e = 'E'
      · rw [if_pos he] at h
        obtain ⟨sign, hsign, hbehind⟩ := splitSign_cases behind
        generalize Numeral.splitSign behind = split at h hbehind
        obtain ⟨⟨ds, _⟩, hdigits, h⟩ := bind_eq_ok.mp h
        cases h
        obtain ⟨hds, hrest⟩ := of_digits hdigits
        rw [hrest] at hbehind
        exact ⟨_, .digits he hsign hds, by simp [hbehind]⟩
      · rw [if_neg he] at h
        cases h
        exact ⟨[], .none, rfl⟩

theorem of_numberText {cs rest : List Char} {t : NumberText} (h : numberText cs = .ok (t, rest)) :
    ∃ text, IsNumber text ∧ cs = text ++ rest := by
  unfold numberText at h
  split at h
  rename_i isNegative unsigned hunsigned
  have hcs : ∃ sign, (sign = [] ∨ sign = ['-']) ∧ cs = sign ++ unsigned := by
    split at hunsigned
    · cases hunsigned
      exact ⟨['-'], .inr rfl, rfl⟩
    · cases hunsigned
      exact ⟨[], .inl rfl, rfl⟩
  obtain ⟨sign, hsign, rfl⟩ := hcs
  obtain ⟨⟨whole, _⟩, hwhole, h⟩ := bind_eq_ok.mp h
  obtain ⟨⟨fraction, _⟩, hfraction, h⟩ := bind_eq_ok.mp h
  obtain ⟨⟨exponent, _⟩, hexponent, h⟩ := bind_eq_ok.mp h
  cases h
  obtain ⟨hds, hlead, rfl⟩ := of_wholeDigits hwhole
  obtain ⟨fractionText, hf, rfl⟩ := of_fractionDigits hfraction
  obtain ⟨exponentText, he, rfl⟩ := of_exponentDigits hexponent
  exact ⟨_, .mk hsign hds hlead hf he, by simp⟩

theorem fractionDigits_of_isFraction {fraction : List Char} (h : IsFraction fraction)
    {rest : List Char} (hrest : NoDigit rest) (hpoint : rest.head? ≠ some '.') :
    ∃ ds, fractionDigits (fraction ++ rest) = .ok (ds, rest) := by
  cases h with
  | none => exact ⟨[], fractionDigits_none hpoint⟩
  | digits hds => exact ⟨_, digits_append hds.1 hds.2 hrest⟩

theorem exists_splitSign_append {sign ds : List Char} (hsign : sign ∈ [[], ['+'], ['-']])
    (hds : AreDigits ds) (rest : List Char) :
    ∃ isNegative, Numeral.splitSign (sign ++ (ds ++ rest)) = (isNegative, ds ++ rest) := by
  simp only [List.mem_cons, List.not_mem_nil, or_false] at hsign
  rcases hsign with rfl | rfl | rfl
  · obtain ⟨d, ds, rfl⟩ := List.exists_cons_of_ne_nil hds.1
    have hd := hds.2 d List.mem_cons_self
    refine ⟨false, ?_⟩
    rw [List.nil_append, List.cons_append, Numeral.splitSign.eq_def]
    split <;> simp_all
  · exact ⟨false, rfl⟩
  · exact ⟨true, rfl⟩

theorem exponentDigits_of_isExponent {exponent : List Char} (h : IsExponent exponent)
    {rest : List Char} (hrest : EndsNumber rest) :
    ∃ e, exponentDigits (exponent ++ rest) = .ok (e, rest) := by
  cases h with
  | none => exact ⟨none, exponentDigits_none hrest⟩
  | digits he hsign hds =>
      obtain ⟨isNegative, hsplit⟩ := exists_splitSign_append hsign hds rest
      rw [List.cons_append, List.append_assoc, exponentDigits, if_pos he, hsplit]
      dsimp only
      rw [digits_append hds.1 hds.2 hrest.1]
      exact ⟨_, rfl⟩

theorem IsExponent.noDigit_append {exponent : List Char} (h : IsExponent exponent)
    {rest : List Char} (hrest : NoDigit rest) : NoDigit (exponent ++ rest) := by
  cases h with
  | none => exact hrest
  | digits he hsign hds =>
      apply noDigit_cons
      rcases he with rfl | rfl <;> rfl

theorem IsExponent.head?_append {exponent : List Char} (h : IsExponent exponent)
    {rest : List Char} (hrest : rest.head? ≠ some '.') : (exponent ++ rest).head? ≠ some '.' := by
  cases h with
  | none => exact hrest
  | digits he hsign hds => rcases he with rfl | rfl <;> simp

theorem IsFraction.noDigit_append {fraction : List Char} (h : IsFraction fraction)
    {rest : List Char} (hrest : NoDigit rest) : NoDigit (fraction ++ rest) := by
  cases h with
  | none => exact hrest
  | digits hds => exact noDigit_cons rfl _

theorem skipNumber_append {text rest : List Char} (h : IsNumber text) (hrest : EndsNumber rest) :
    skipNumber (text ++ rest) = .ok rest := by
  obtain ⟨hsign, hds, hlead, hf, he⟩ := h
  have hdigit := he.noDigit_append hrest.1
  obtain ⟨exponent, hexponent⟩ := exponentDigits_of_isExponent he hrest
  obtain ⟨fraction, hfraction⟩ :=
    fractionDigits_of_isFraction hf hdigit (he.head?_append hrest.2.1)
  have hwhole := wholeDigits_append hds.1 hds.2 hlead (hf.noDigit_append hdigit)
  simp only [List.append_assoc]
  rcases hsign with rfl | rfl
  · rw [List.nil_append, skipNumber, numberText, hwhole]
    · simp only [ok_bind, hfraction, hexponent]
      rfl
    · intro behind heq
      obtain ⟨d, ds, rfl⟩ := List.exists_cons_of_ne_nil hds.1
      obtain ⟨rfl, -⟩ := List.cons.inj heq
      exact absurd (hds.2 '-' List.mem_cons_self) (by decide)
  · simp only [List.cons_append, List.nil_append, skipNumber, numberText, hwhole, ok_bind,
      hfraction, hexponent]
    rfl

theorem IsNumber.start {text : List Char} (h : IsNumber text) :
    ∃ c cs, text = c :: cs ∧ (c = '-' ∨ c.isDigit = true) := by
  obtain ⟨hsign, hds, -, -, -⟩ := h
  obtain ⟨d, ds, rfl⟩ := List.exists_cons_of_ne_nil hds.1
  rcases hsign with rfl | rfl
  · exact ⟨_, _, rfl, .inr (hds.2 d List.mem_cons_self)⟩
  · exact ⟨_, _, rfl, .inl rfl⟩

/-! ## Values -/

mutual

/-- The text of a value of any kind and depth. Its strings may hold surrogates without a partner. -/
inductive IsValue : List Char → Prop where
  | null : IsValue "null".toList
  | true : IsValue "true".toList
  | false : IsValue "false".toList
  | number {text : List Char} (h : IsNumber text) : IsValue text
  | string {body : List Char} {ps : List Piece} (h : Spells body ps) :
      IsValue ('"' :: (body ++ ['"']))
  | emptyList {blanks : List Char} (h : AreBlanks blanks) : IsValue ('[' :: (blanks ++ [']']))
  | list {text : List Char} (h : AreItems text) : IsValue ('[' :: (text ++ [']']))
  | emptyObject {blanks : List Char} (h : AreBlanks blanks) :
      IsValue ('\x7b' :: (blanks ++ ['\x7d']))
  | object {text : List Char} (h : AreMembers text) : IsValue ('\x7b' :: (text ++ ['\x7d']))

/-- A value between blanks. -/
inductive IsItem : List Char → Prop where
  | mk {front text back : List Char} (hfront : AreBlanks front) (h : IsValue text)
      (hback : AreBlanks back) : IsItem (front ++ (text ++ back))

/-- One item or more, with commas in between. -/
inductive AreItems : List Char → Prop where
  | one {text : List Char} (h : IsItem text) : AreItems text
  | cons {text others : List Char} (h : IsItem text) (hs : AreItems others) :
      AreItems (text ++ ',' :: others)

/-- A key and an item, with a colon in between. -/
inductive IsMember : List Char → Prop where
  | mk {front key back item : List Char} {ps : List Piece} (hfront : AreBlanks front)
      (hkey : Spells key ps) (hback : AreBlanks back) (h : IsItem item) :
      IsMember (front ++ '"' :: (key ++ '"' :: (back ++ ':' :: item)))

inductive AreMembers : List Char → Prop where
  | one {text : List Char} (h : IsMember text) : AreMembers text
  | cons {text others : List Char} (h : IsMember text) (hs : AreMembers others) :
      AreMembers (text ++ ',' :: others)

end

theorem IsValue.length_pos {text : List Char} (h : IsValue text) : 0 < text.length := by
  cases h with
  | number h =>
      obtain ⟨c, cs, rfl, -⟩ := h.start
      simp
  | _ => simp

/-! ## Values are skipped -/

theorem skipValueWith_blanks {front : List Char} (h : AreBlanks front) (fuel : ℕ)
    (cs : List Char) : skipValueWith fuel (front ++ cs) = skipValueWith fuel cs := by
  cases fuel with
  | zero => rfl
  | succ fuel => rw [skipValueWith, skipValueWith, skipBlank_append h]

theorem skipItems_skipBlank (fuel : ℕ) (cs : List Char) :
    skipItems fuel (skipBlank cs) = skipItems fuel cs := by
  cases fuel with
  | zero => rfl
  | succ fuel =>
      obtain ⟨front, hfront, hcs⟩ := exists_blanks cs
      conv_rhs => rw [hcs]
      rw [skipItems, skipItems, skipValueWith_blanks hfront]

theorem skipMembers_skipBlank (fuel : ℕ) (cs : List Char) :
    skipMembers fuel (skipBlank cs) = skipMembers fuel cs := by
  cases fuel with
  | zero => rfl
  | succ fuel => rw [skipMembers, skipMembers, skipBlank_skipBlank]

theorem of_skipMembers {fuel : ℕ} {cs rest : List Char}
    (h : skipMembers (fuel + 1) cs = .ok rest) :
    ∃ behindQuote behindKey behindColon behind, skipBlank cs = '"' :: behindQuote ∧
      skipString behindQuote = .ok behindKey ∧ skipBlank behindKey = ':' :: behindColon ∧
      skipValueWith fuel behindColon = .ok behind ∧
      ((∃ next, skipBlank behind = ',' :: next ∧ skipMembers fuel next = .ok rest) ∨
        skipBlank behind = '\x7d' :: rest) := by
  rw [skipMembers] at h
  split at h
  · rename_i behindQuote hquote
    obtain ⟨behindKey, hkey, h⟩ := bind_eq_ok.mp h
    split at h
    · rename_i behindColon hcolon
      obtain ⟨behind, hvalue, h⟩ := bind_eq_ok.mp h
      refine ⟨_, _, _, _, hquote, hkey, hcolon, hvalue, ?_⟩
      split at h
      · exact .inl ⟨_, ‹_›, h⟩
      · cases h
        exact .inr ‹_›
      · cases h
      · cases h
    · cases h
    · cases h
  · cases h
  · cases h

/-- Items begin with neither nothing nor what closes a list. -/
theorem start_of_skipItems {fuel : ℕ} {cs rest : List Char} (h : skipItems fuel cs = .ok rest) :
    skipBlank cs ≠ [] ∧ ∀ behind, skipBlank cs ≠ ']' :: behind := by
  match fuel with
  | 0 => cases h
  | 1 => cases h
  | fuel + 2 =>
    rw [skipItems, skipValueWith] at h
    constructor
    · intro hstart
      rw [hstart] at h
      cases h
    · intro behind hstart
      rw [hstart] at h
      cases h

theorem start_of_skipMembers {fuel : ℕ} {cs rest : List Char}
    (h : skipMembers fuel cs = .ok rest) :
    skipBlank cs ≠ [] ∧ ∀ behind, skipBlank cs ≠ '\x7d' :: behind := by
  cases fuel with
  | zero => cases h
  | succ fuel =>
      obtain ⟨_, _, _, _, hquote, -⟩ := of_skipMembers h
      rw [hquote]
      exact ⟨List.cons_ne_nil _ _, fun _ heq => absurd (List.cons.inj heq).1 (by decide)⟩

theorem skipValueWith_list {fuel : ℕ} {cs rest : List Char} (h : skipItems fuel cs = .ok rest) :
    skipValueWith (fuel + 1) ('[' :: cs) = .ok rest := by
  obtain ⟨hnil, hclose⟩ := start_of_skipItems h
  have hstart : skipBlank ('[' :: cs) = '[' :: cs := rfl
  rw [skipValueWith, hstart]
  -- The other two alternatives are excluded by what stands in front.
  simp only
  rw [skipItems_skipBlank, h]

theorem skipValueWith_object {fuel : ℕ} {cs rest : List Char}
    (h : skipMembers fuel cs = .ok rest) : skipValueWith (fuel + 1) ('\x7b' :: cs) = .ok rest := by
  obtain ⟨hnil, hclose⟩ := start_of_skipMembers h
  have hstart : skipBlank ('\x7b' :: cs) = '\x7b' :: cs := rfl
  rw [skipValueWith, hstart]
  -- The other two alternatives are excluded by what stands in front.
  simp only
  rw [skipMembers_skipBlank, h]

theorem skipValueWith_number {fuel : ℕ} {c : Char} {cs : List Char}
    (hc : c = '-' ∨ c.isDigit = true) :
    skipValueWith (fuel + 1) (c :: cs) = skipNumber (c :: cs) := by
  rw [skipValueWith, skipBlank_number hc]
  split
  · contradiction
  iterate 6
    next heq => exact absurd (List.cons.inj heq).1 (ne_of_startsNumber hc (by decide) rfl)
  · rename_i heq
    obtain ⟨rfl, rfl⟩ := List.cons.inj heq
    exact if_pos hc

theorem skipItems_last {fuel : ℕ} {cs behind rest : List Char}
    (h : skipValueWith fuel cs = .ok behind) (hclose : skipBlank behind = ']' :: rest) :
    skipItems (fuel + 1) cs = .ok rest := by
  rw [skipItems, h, ok_bind, hclose]
  rfl

theorem skipItems_next {fuel : ℕ} {cs behind rest : List Char}
    (h : skipValueWith fuel cs = .ok behind) (hcomma : skipBlank behind = ',' :: rest) :
    skipItems (fuel + 1) cs = skipItems fuel rest := by
  rw [skipItems, h, ok_bind, hcomma]
  rfl

section

variable {front key back : List Char} {ps : List Piece} (hfront : AreBlanks front)
  (hkey : Spells key ps) (hback : AreBlanks back)

include hfront hkey hback

theorem skipMembers_last {fuel : ℕ} {cs behind rest : List Char}
    (h : skipValueWith fuel cs = .ok behind) (hclose : skipBlank behind = '\x7d' :: rest) :
    skipMembers (fuel + 1) (front ++ '"' :: (key ++ '"' :: (back ++ ':' :: cs))) = .ok rest := by
  rw [skipMembers, skipBlank_append_cons hfront rfl]
  simp only [skipString, pieces_append hkey, ok_bind, skipBlank_append_cons hback (c := ':') rfl, h,
    hclose]

theorem skipMembers_next {fuel : ℕ} {cs behind rest : List Char}
    (h : skipValueWith fuel cs = .ok behind) (hcomma : skipBlank behind = ',' :: rest) :
    skipMembers (fuel + 1) (front ++ '"' :: (key ++ '"' :: (back ++ ':' :: cs))) =
      skipMembers fuel rest := by
  rw [skipMembers, skipBlank_append_cons hfront rfl]
  simp only [skipString, pieces_append hkey, ok_bind, skipBlank_append_cons hback (c := ':') rfl, h,
    hcomma]

end

theorem endsNumber_blanks {front : List Char} (h : AreBlanks front) {rest : List Char}
    (hrest : EndsNumber rest) : EndsNumber (front ++ rest) := by
  cases front with
  | nil => exact hrest
  | cons c front =>
      have hc := h c List.mem_cons_self
      simp only [isBlank, Bool.or_eq_true, beq_iff_eq] at hc
      rcases hc with ((rfl | rfl) | rfl) | rfl <;>
        exact Value.endsNumber_cons (by decide) (by decide) _

-- The recursion follows the rules of the grammar. For its text a value takes two steps a character
-- at most, and the loops over items and members one more.
mutual

theorem skipValueWith_append {text : List Char} (h : IsValue text) {fuel : ℕ}
    (hfuel : 2 * text.length ≤ fuel) {rest : List Char} (hrest : EndsNumber rest) :
    skipValueWith fuel (text ++ rest) = .ok rest := by
  have hlength := h.length_pos
  obtain ⟨fuel, rfl⟩ : ∃ n, fuel = n + 1 := ⟨fuel - 1, by omega⟩
  match h with
  | .null => rfl
  | .true => rfl
  | .false => rfl
  | .number h =>
      obtain ⟨c, cs, htext, hc⟩ := h.start
      have hskip := skipNumber_append h hrest
      rw [htext, List.cons_append] at hskip ⊢
      rw [skipValueWith_number hc, hskip]
  | .string h =>
      rw [List.cons_append, List.append_assoc, skipValueWith]
      exact congrArg Prod.snd (pieces_append h rest)
  | .emptyList h =>
      have hstart (cs : List Char) : skipBlank ('[' :: cs) = '[' :: cs := rfl
      have hclose := skipBlank_append_cons h (c := ']') rfl rest
      rw [List.cons_append, List.append_assoc, List.singleton_append, skipValueWith, hstart]
      simp only [hclose]
  | .list h =>
      rw [List.cons_append, List.append_assoc]
      simp only [List.length_cons, List.length_append] at hfuel
      exact skipValueWith_list (skipItems_append h (by omega) rest)
  | .emptyObject h =>
      have hstart (cs : List Char) : skipBlank ('\x7b' :: cs) = '\x7b' :: cs := rfl
      have hclose := skipBlank_append_cons h (c := '\x7d') rfl rest
      rw [List.cons_append, List.append_assoc, List.singleton_append, skipValueWith, hstart]
      simp only [hclose]
  | .object h =>
      rw [List.cons_append, List.append_assoc]
      simp only [List.length_cons, List.length_append] at hfuel
      exact skipValueWith_object (skipMembers_append h (by omega) rest)
termination_by structural h

theorem skipValueWith_item {text : List Char} (h : IsItem text) (fuel : ℕ)
    (hfuel : 2 * text.length ≤ fuel) {rest : List Char} (hrest : EndsNumber rest) :
    ∃ back, AreBlanks back ∧ skipValueWith fuel (text ++ rest) = .ok (back ++ rest) := by
  match h with
  | .mk hfront h hback =>
      simp only [List.length_append] at hfuel
      refine ⟨_, hback, ?_⟩
      rw [List.append_assoc, List.append_assoc, skipValueWith_blanks hfront]
      exact skipValueWith_append h (by omega) (endsNumber_blanks hback hrest)
termination_by structural h

theorem skipItems_append {text : List Char} (h : AreItems text) {fuel : ℕ}
    (hfuel : 2 * text.length + 1 ≤ fuel) (rest : List Char) :
    skipItems fuel (text ++ ']' :: rest) = .ok rest := by
  obtain ⟨fuel, rfl⟩ : ∃ n, fuel = n + 1 := ⟨fuel - 1, by omega⟩
  match h with
  | .one h =>
      obtain ⟨back, hback, hskip⟩ := skipValueWith_item h fuel (by omega)
        (Value.endsNumber_cons (c := ']') rfl (by decide) rest)
      exact skipItems_last hskip (skipBlank_append_cons hback rfl rest)
  | .cons h hs =>
      simp only [List.length_append, List.length_cons] at hfuel
      obtain ⟨back, hback, hskip⟩ := skipValueWith_item h fuel (by omega)
        (Value.endsNumber_cons (c := ',') rfl (by decide) _)
      rw [List.append_assoc, List.cons_append,
        skipItems_next hskip (skipBlank_append_cons hback rfl _)]
      exact skipItems_append hs (by omega) rest
termination_by structural h

theorem skipMembers_append {text : List Char} (h : AreMembers text) {fuel : ℕ}
    (hfuel : 2 * text.length + 1 ≤ fuel) (rest : List Char) :
    skipMembers fuel (text ++ '\x7d' :: rest) = .ok rest := by
  obtain ⟨fuel, rfl⟩ : ∃ n, fuel = n + 1 := ⟨fuel - 1, by omega⟩
  match h with
  | .one (.mk hfront hkey hback h) =>
      simp only [List.length_append, List.length_cons] at hfuel
      obtain ⟨blanks, hblanks, hskip⟩ := skipValueWith_item h fuel (by omega)
        (Value.endsNumber_cons (c := '\x7d') rfl (by decide) rest)
      simp only [List.append_assoc, List.cons_append]
      exact skipMembers_last hfront hkey hback hskip (skipBlank_append_cons hblanks rfl rest)
  | .cons (.mk hfront hkey hback h) hs =>
      simp only [List.length_append, List.length_cons] at hfuel
      obtain ⟨blanks, hblanks, hskip⟩ := skipValueWith_item h fuel (by omega)
        (Value.endsNumber_cons (c := ',') rfl (by decide) _)
      simp only [List.append_assoc, List.cons_append]
      rw [skipMembers_next hfront hkey hback hskip (skipBlank_append_cons hblanks rfl _)]
      exact skipMembers_append hs (by omega) rest
termination_by structural h

end

/-! ## What is skipped is a value -/

end Scan

end AttributeCheck
