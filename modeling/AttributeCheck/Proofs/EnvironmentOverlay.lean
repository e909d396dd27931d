import AttributeCheck.Settings.Environment
import Mathlib.Data.List.Forall2

/-! # The overlay of the environment is exact

Variables are put in lower case by the mappings of all of Unicode. A few characters that are not
ASCII have ASCII letters in their lower-case forms. None of them makes a word that is understood. -/

namespace AttributeCheck

/-! ## Characters that only ASCII is mapped to -/

/-- The codes of the ASCII digits, and of the small letters that are the lower-case form of ASCII
characters alone: all but `k`, which is also that of the kelvin sign. -/
def IsAsciiOnly (code : Nat) : Prop :=
  0x30 ≤ code ∧ code ≤ 0x39 ∨ 0x61 ≤ code ∧ code ≤ 0x7A ∧ code ≠ 0x6B

instance (code : Nat) : Decidable (IsAsciiOnly code) :=
  inferInstanceAs (Decidable (_ ∨ _))

theorem IsAsciiOnly.lt {code : Nat} (h : IsAsciiOnly code) : code < 0x80 := by
  unfold IsAsciiOnly at h
  omega

/-- A property of the ASCII characters, checked code by code. -/
theorem ascii_forall {P : Char → Prop} (h : ∀ code < 0x80, P (Char.ofNat code)) (c : Char)
    (hc : c.toNat < 0x80) : P c := by
  have hP := h c.toNat hc
  rwa [Char.ofNat_toNat] at hP

/-- The range of the ASCII capitals. -/
def capitals : CaseRange :=
  ⟨0x41, 0x5A, 1, 32⟩

theorem caseRanges_eq_cons : caseRanges = capitals :: caseRanges.tail :=
  rfl

/-- The other ranges lie beyond ASCII, and so do their lower-case forms except that of the kelvin
sign. -/
theorem caseRanges_tail :
    ∀ range ∈ caseRanges.tail, 0x80 ≤ range.first ∧
      ((0x80 : Int) ≤ range.first + range.shift ∨
        range.first = range.last ∧ range.first + range.shift = 0x6B) := by
  decide +kernel

theorem find?_caseRanges {code : Nat} (h : code < 0x80) :
    caseRanges.find? (·.holds code) = [capitals].find? (·.holds code) := by
  have htail : caseRanges.tail.find? (·.holds code) = none := by
    rw [List.find?_eq_none]
    intro range hrange
    have hfirst := (caseRanges_tail range hrange).1
    simp only [CaseRange.holds, decide_eq_true_eq]
    omega
  rw [caseRanges_eq_cons, List.find?_cons, List.find?_cons, htail, List.find?_nil]

theorem lowercaseChar_ascii {c : Char} (h : c.toNat < 0x80) : lowercaseChar c = [c.toLower] := by
  rw [lowercaseChar, if_neg (by omega), find?_caseRanges h]
  revert c
  apply ascii_forall
  decide +kernel

theorem toNat_ofNat_eq_or (code : Nat) :
    (Char.ofNat code).toNat = code ∨ (Char.ofNat code).toNat = 0 := by
  by_cases h : code.isValidChar
  · left
    rw [Char.ofNat, dif_pos h]
    rfl
  · right
    rw [Char.ofNat, dif_neg h]
    rfl

theorem not_isAsciiOnly_shift {range : CaseRange} {code : Nat} (hrange : range ∈ caseRanges)
    (hholds : range.holds code) (hcode : 0x80 ≤ code) :
    ¬ IsAsciiOnly (code + range.shift).toNat := by
  simp only [CaseRange.holds, decide_eq_true_eq] at hholds
  rw [caseRanges_eq_cons, List.mem_cons] at hrange
  cases hrange with
  | inl hcapitals =>
      subst hcapitals
      simp only [capitals] at hholds
      omega
  | inr htail =>
      have hshift := (caseRanges_tail range htail).2
      unfold IsAsciiOnly
      omega

/-- The lower-case form of a character beyond ASCII is not made of such digits and letters only. -/
theorem exists_not_isAsciiOnly {c : Char} (hc : 0x80 ≤ c.toNat) :
    ∃ x ∈ lowercaseChar c, ¬ IsAsciiOnly x.toNat := by
  unfold lowercaseChar
  split
  · -- The dotted capital I leaves its dot behind as a mark.
    exact ⟨Char.ofNat 0x307, by simp, by decide⟩
  · split
    · rename_i range hfind
      have hholds : range.holds c.toNat := by simpa using List.find?_some hfind
      have hnot := not_isAsciiOnly_shift (List.mem_of_find?_eq_some hfind) hholds hc
      refine ⟨_, List.mem_singleton_self _, ?_⟩
      cases toNat_ofNat_eq_or (c.toNat + range.shift).toNat with
      | inl h => rwa [h]
      | inr h =>
          rw [h]
          decide
    · refine ⟨c, List.mem_singleton_self _, ?_⟩
      unfold IsAsciiOnly
      omega

example : lowercaseChar '\u212A' = ['k'] := by
  decide +kernel

/-! ## Lower-case texts -/

/-- A character in lower case. A capital sigma that ends a word has a form of its own. -/
def lowerForm (endsWord : Bool) (c : Char) : List Char :=
  if c = 'Σ' ∧ endsWord then ['ς'] else lowercaseChar c

/-- Characters in lower case. Whether a sigma ends a word is told by what is before it, nearest
first, and behind it. -/
def lowerForms (endsWord : List Char → List Char → Bool) : List Char → List Char → List Char
  | _, [] => []
  | before, c :: cs =>
      lowerForm (endsWord before cs) c ++ lowerForms endsWord (c :: before) cs

/-- A text in lower case under a rule for the ends of words. -/
def lowercaseIn (endsWord : List Char → List Char → Bool) (s : String) : String :=
  String.ofList (lowerForms endsWord [] s.toList)

theorem lowerForms_never (before cs : List Char) :
    lowerForms (fun _ _ => false) before cs = cs.flatMap lowercaseChar := by
  induction cs generalizing before with
  | nil => rfl
  | cons c cs ih => simp [lowerForms, lowerForm, ih]

theorem lowercaseIn_never : lowercaseIn (fun _ _ => false) = lowercase := by
  funext s
  rw [lowercaseIn, lowerForms_never, lowercase]

theorem lowerForm_ascii (endsWord : Bool) {c : Char} (hc : c.toNat < 0x80) :
    lowerForm endsWord c = [c.toLower] := by
  rw [lowerForm, if_neg, lowercaseChar_ascii hc]
  rintro ⟨rfl, -⟩
  exact absurd hc (by decide)

theorem exists_not_isAsciiOnly_lowerForm (endsWord : Bool) {c : Char} (hc : 0x80 ≤ c.toNat) :
    ∃ x ∈ lowerForm endsWord c, ¬ IsAsciiOnly x.toNat := by
  unfold lowerForm
  split
  · exact ⟨'ς', List.mem_singleton_self _, by decide⟩
  · exact exists_not_isAsciiOnly hc

/-! ## Words -/

theorem eq_toLower_or {c : Char} (hc : c.toNat < 0x80) :
    c = c.toLower ∨ c = c.toLower.toUpper :=
  ascii_forall (P := fun c => c = c.toLower ∨ c = c.toLower.toUpper) (by decide +kernel) c hc

theorem IsAsciiOnly.toLower_eq {c : Char} (h : IsAsciiOnly c.toNat) :
    c.toLower = c ∧ c.toUpper.toLower = c :=
  ascii_forall (P := fun c => IsAsciiOnly c.toNat → c.toLower = c ∧ c.toUpper.toLower = c)
    (by decide +kernel) c h.lt h

theorem IsAsciiOnly.toUpper_lt {c : Char} (h : IsAsciiOnly c.toNat) : c.toUpper.toNat < 0x80 :=
  ascii_forall (P := fun c => c.toUpper.toNat < 0x80) (by decide +kernel) c h.lt

theorem toLower_eq_iff {c letter : Char} (hc : c.toNat < 0x80) (h : IsAsciiOnly letter.toNat) :
    c.toLower = letter ↔ c = letter ∨ c = letter.toUpper := by
  constructor
  · intro heq
    have hor := eq_toLower_or hc
    rwa [heq] at hor
  · intro hor
    cases hor with
    | inl heq => rw [heq, h.toLower_eq.1]
    | inr heq => rw [heq, h.toLower_eq.2]

/-- The characters are those of the word, any of its ASCII letters as capitals. -/
def AreCaseVariant : List Char → List Char → Prop :=
  List.Forall₂ fun c letter => c = letter ∨ c = letter.toUpper

/-- The text is the word with any of its ASCII letters as capitals. -/
def IsCaseVariant (text word : String) : Prop :=
  AreCaseVariant text.toList word.toList

@[simp]
theorem areCaseVariant_nil {word : List Char} : AreCaseVariant [] word ↔ word = [] :=
  List.forall₂_nil_left_iff

@[simp]
theorem areCaseVariant_cons_nil {c : Char} {cs : List Char} : ¬ AreCaseVariant (c :: cs) [] :=
  nofun

@[simp]
theorem areCaseVariant_cons {c letter : Char} {cs rest : List Char} :
    AreCaseVariant (c :: cs) (letter :: rest) ↔
      (c = letter ∨ c = letter.toUpper) ∧ AreCaseVariant cs rest :=
  List.forall₂_cons

instance (text word : String) : Decidable (IsCaseVariant text word) :=
  inferInstanceAs (Decidable (List.Forall₂ _ _ _))

theorem AreCaseVariant.head_lt {c : Char} {cs word : List Char}
    (h : AreCaseVariant (c :: cs) word) (hword : ∀ letter ∈ word, IsAsciiOnly letter.toNat) :
    c.toNat < 0x80 := by
  cases h with
  | cons hor _ =>
      have hletter := hword _ (List.mem_cons_self ..)
      cases hor with
      | inl heq => exact heq ▸ hletter.lt
      | inr heq => exact heq ▸ hletter.toUpper_lt

/-- A word without `k` is the lower case of its variants alone. -/
theorem lowerForms_eq_iff (endsWord : List Char → List Char → Bool) {word : List Char}
    (hword : ∀ letter ∈ word, IsAsciiOnly letter.toNat) (before cs : List Char) :
    lowerForms endsWord before cs = word ↔ AreCaseVariant cs word := by
  induction cs generalizing before word with
  | nil => rw [lowerForms, areCaseVariant_nil, eq_comm]
  | cons c cs ih =>
      rw [lowerForms]
      by_cases hc : c.toNat < 0x80
      · rw [lowerForm_ascii _ hc, List.singleton_append]
        cases word with
        | nil => simp
        | cons letter rest =>
            rw [List.forall_mem_cons] at hword
            rw [List.cons.injEq, toLower_eq_iff hc hword.1, ih hword.2, areCaseVariant_cons]
      · -- Neither side holds: the word is ASCII, and so are its capitals.
        apply iff_of_false
        · intro heq
          obtain ⟨x, hx, hnot⟩ :=
            exists_not_isAsciiOnly_lowerForm (endsWord before cs) (Nat.le_of_not_lt hc)
          exact hnot (hword x (heq ▸ List.mem_append_left _ hx))
        · intro hvariant
          exact hc (hvariant.head_lt hword)

theorem lowercaseIn_eq_iff (endsWord : List Char → List Char → Bool) (text : String)
    {word : String} (hword : word.toList.all fun letter => IsAsciiOnly letter.toNat) :
    lowercaseIn endsWord text = word ↔ IsCaseVariant text word := by
  simp only [List.all_eq_true, decide_eq_true_eq] at hword
  rw [lowercaseIn, ← String.toList_inj, String.toList_ofList]
  exact lowerForms_eq_iff endsWord hword [] text.toList

theorem isCaseVariant_zero {text : String} : IsCaseVariant text "0" ↔ text = "0" := by
  have hzero : '0'.toUpper = '0' := by decide
  rw [← String.toList_inj, IsCaseVariant, show "0".toList = ['0'] from rfl]
  cases text.toList with
  | nil => simp
  | cons c cs =>
      rw [areCaseVariant_cons, hzero, or_self, List.cons.injEq]
      cases cs with
      | nil => simp
      | cons d ds => simp

/-! ## The overlay -/

namespace Destination

theorem eq_of_stderr_iff {d e : Destination} (h : d = .stderr ↔ e = .stderr) : d = e := by
  cases d <;> cases e <;> simp_all

theorem ofName?_getD_eq_stderr (name : String) :
    (ofName? name).getD .log = .stderr ↔ name = "stderr" := by
  unfold ofName?
  split_ifs with hlog hstderr
  · rw [hlog]
    decide
  · rw [hstderr]
    decide
  · constructor
    · intro h
      cases h
    · intro h
      exact absurd h hstderr

end Destination

namespace Settings

/-- The flag of a text that has a lower case of its own. -/
def flagBy (lower : String → String) (text : String) : Option Bool :=
  if lower text = "true" ∨ lower text = "1" then some true
  else if lower text = "false" ∨ lower text = "0" then some false
  else none

/-- The overlay with any way to put texts in lower case. -/
def overlayBy (lower : String → String) (lookup : String → Option String) : Settings :=
  { standard with
    sink := ((lookup sinkVariable).bind fun text => Destination.ofName? (lower text)).getD
      standard.sink
    ignoreLegacy := ((lookup ignoreLegacyVariable).bind (flagBy lower)).getD
      standard.ignoreLegacy }

theorem overlayBy_lowercase : overlayBy lowercase = overlay :=
  rfl

/-- The text sends the warnings to the standard error. -/
def NamesStderr (text : String) : Prop :=
  IsCaseVariant text "stderr"

/-- The text turns the flag off. -/
def TurnsOff (text : String) : Prop :=
  text = "0" ∨ IsCaseVariant text "false"

instance (text : String) : Decidable (NamesStderr text) :=
  inferInstanceAs (Decidable (IsCaseVariant text "stderr"))

instance (text : String) : Decidable (TurnsOff text) :=
  inferInstanceAs (Decidable (_ ∨ _))

/-- A variable has a value of a kind. -/
def Says (lookup : String → Option String) (name : String) (kind : String → Prop) : Prop :=
  ∃ text, lookup name = some text ∧ kind text

/-- The settings are the standard ones but for what the two variables say, each about its own
setting. -/
structure IsOverlay (lookup : String → Option String) (s : Settings) : Prop where
  sink_iff : s.sink = .stderr ↔ Says lookup "PROP_TYPES_SINK" NamesStderr
  sink_standard : ¬ Says lookup "PROP_TYPES_SINK" NamesStderr → s.sink = .log
  ignoreLegacy_iff : s.ignoreLegacy = false ↔ Says lookup "PROP_TYPES_IGNORE_LEGACY" TurnsOff
  ignoreLegacy_standard :
    ¬ Says lookup "PROP_TYPES_IGNORE_LEGACY" TurnsOff → s.ignoreLegacy = true
  sharedCache_standard : s.sharedCache = true

section

variable (endsWord : List Char → List Char → Bool)

theorem sink_eq_stderr_iff (lookup : String → Option String) :
    (overlayBy (lowercaseIn endsWord) lookup).sink = .stderr ↔
      Says lookup sinkVariable NamesStderr := by
  unfold overlayBy Says
  cases lookup sinkVariable with
  | none => simp [standard]
  | some text =>
      have hword : lowercaseIn endsWord text = "stderr" ↔ NamesStderr text :=
        lowercaseIn_eq_iff endsWord text (by decide)
      simpa [standard, hword] using
        Destination.ofName?_getD_eq_stderr (lowercaseIn endsWord text)

theorem flagBy_getD_eq_false (text : String) :
    (flagBy (lowercaseIn endsWord) text).getD true = false ↔ TurnsOff text := by
  have hfalse : lowercaseIn endsWord text = "false" ↔ IsCaseVariant text "false" :=
    lowercaseIn_eq_iff endsWord text (by decide)
  have hzero : lowercaseIn endsWord text = "0" ↔ IsCaseVariant text "0" :=
    lowercaseIn_eq_iff endsWord text (by decide)
  rw [TurnsOff, ← isCaseVariant_zero, ← hfalse, ← hzero]
  unfold flagBy
  split_ifs with hon hoff
  · refine iff_of_false (by decide) ?_
    cases hon with
    | inl htrue => simp [htrue]
    | inr hone => simp [hone]
  · exact iff_of_true rfl hoff.symm
  · exact iff_of_false (by decide) fun h => hoff h.symm

theorem ignoreLegacy_eq_false_iff (lookup : String → Option String) :
    (overlayBy (lowercaseIn endsWord) lookup).ignoreLegacy = false ↔
      Says lookup ignoreLegacyVariable TurnsOff := by
  unfold overlayBy Says
  cases lookup ignoreLegacyVariable with
  | none => simp [standard]
  | some text => simpa [standard] using flagBy_getD_eq_false endsWord text

theorem isOverlay_overlayBy (lookup : String → Option String) :
    IsOverlay lookup (overlayBy (lowercaseIn endsWord) lookup) where
  sink_iff := sink_eq_stderr_iff endsWord lookup
  sink_standard h := by
    have hsink := mt (sink_eq_stderr_iff endsWord lookup).mp h
    exact Destination.eq_of_stderr_iff (iff_of_false hsink (by decide))
  ignoreLegacy_iff := ignoreLegacy_eq_false_iff endsWord lookup
  ignoreLegacy_standard h := by
    have hflag := mt (ignoreLegacy_eq_false_iff endsWord lookup).mp h
    exact Bool.of_not_eq_false hflag
  sharedCache_standard := rfl

end

section

variable {lookup other : String → Option String} {s t : Settings}

theorem IsOverlay.sink_congr (hs : IsOverlay lookup s) (ht : IsOverlay other t)
    (h : other "PROP_TYPES_SINK" = lookup "PROP_TYPES_SINK") : t.sink = s.sink := by
  apply Destination.eq_of_stderr_iff
  rw [hs.sink_iff, ht.sink_iff, Says, Says, h]

theorem IsOverlay.ignoreLegacy_congr (hs : IsOverlay lookup s) (ht : IsOverlay other t)
    (h : other "PROP_TYPES_IGNORE_LEGACY" = lookup "PROP_TYPES_IGNORE_LEGACY") :
    t.ignoreLegacy = s.ignoreLegacy := by
  have hiff : t.ignoreLegacy = false ↔ s.ignoreLegacy = false := by
    rw [hs.ignoreLegacy_iff, ht.ignoreLegacy_iff, Says, Says, h]
  rw [Bool.eq_iff_iff]
  simpa using not_congr hiff

theorem IsOverlay.eq (hs : IsOverlay lookup s) (ht : IsOverlay lookup t) : t = s := by
  have hsink := hs.sink_congr ht rfl
  have hflag := hs.ignoreLegacy_congr ht rfl
  have hcache := ht.sharedCache_standard.trans hs.sharedCache_standard.symm
  cases s
  cases t
  simp_all

end

/-- Each setting is the standard one but for a variant of a word that its own variable has, and no
rule for the ends of words changes that. -/
theorem overlay_is_exact (lookup : String → Option String) :
    IsOverlay lookup (overlay lookup) ∧
      (∀ other : String → Option String, other "PROP_TYPES_SINK" = lookup "PROP_TYPES_SINK" →
        (overlay other).sink = (overlay lookup).sink) ∧
      (∀ other : String → Option String,
        other "PROP_TYPES_IGNORE_LEGACY" = lookup "PROP_TYPES_IGNORE_LEGACY" →
          (overlay other).ignoreLegacy = (overlay lookup).ignoreLegacy) ∧
      ∀ endsWord : List Char → List Char → Bool,
        overlayBy (lowercaseIn endsWord) lookup = overlay lookup := by
  have hexact (source : String → Option String) : IsOverlay source (overlay source) := by
    have h := isOverlay_overlayBy (fun _ _ => false) source
    rwa [lowercaseIn_never, overlayBy_lowercase] at h
  refine ⟨hexact lookup, ?_, ?_, ?_⟩
  · intro other h
    exact (hexact lookup).sink_congr (hexact other) h
  · intro other h
    exact (hexact lookup).ignoreLegacy_congr (hexact other) h
  · intro endsWord
    exact (hexact lookup).eq (isOverlay_overlayBy endsWord lookup)

/-- Capitals may stand among small letters, but a blank before a word is not dropped. -/
theorem overlay_is_exact_capitals :
    let lookup (name : String) : Option String :=
      if name = "PROP_TYPES_SINK" then some "STDerr"
      else if name = "PROP_TYPES_IGNORE_LEGACY" then some " FALSE" else none
    (overlay lookup).sink = .stderr ∧ (overlay lookup).ignoreLegacy = true := by
  intro lookup
  obtain ⟨hexact, -⟩ := overlay_is_exact lookup
  refine ⟨hexact.sink_iff.mpr ⟨"STDerr", rfl, by decide⟩, hexact.ignoreLegacy_standard ?_⟩
  rintro ⟨text, htext, hoff⟩
  obtain rfl : " FALSE" = text := Option.some.inj htext
  exact absurd hoff (by decide)

end Settings

end AttributeCheck
