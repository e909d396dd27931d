import AttributeCheck.Proofs.Reporting
import Mathlib.Logic.Basic

/-! # What a channel promises

A warning is judged by its format alone. Only then do the condition and the start that is ignored
decide whether a line is written. -/

namespace AttributeCheck

/-! ## Descriptive formats -/

/-- A character in UTF-16: beyond U+FFFF it is a pair of surrogates. -/
def utf16Units (c : Char) : List UInt16 :=
  if c.toNat < 0x10000 then [.ofNat c.toNat]
  else
    [.ofNat (0xD800 + (c.toNat - 0x10000) / 0x400), .ofNat (0xDC00 + (c.toNat - 0x10000) % 0x400)]

def utf16 (s : String) : List UInt16 :=
  s.toList.flatMap utf16Units

theorem utf16_append (s t : String) : utf16 (s ++ t) = utf16 s ++ utf16 t := by
  rw [utf16, String.toList_append, List.flatMap_append]
  rfl

theorem utf16Length_eq (s : String) : utf16Length s = (utf16 s).length := by
  rw [utf16Length, utf16]
  induction s.toList with
  | nil => rfl
  | cons c rest ih =>
      rw [List.foldr_cons, ih, List.flatMap_cons, List.length_append, utf16Units]
      split <;> rfl

/-- An ASCII letter, an ASCII digit or the underscore. -/
def IsWord (c : Char) : Prop :=
  'A' ≤ c ∧ c ≤ 'Z' ∨ 'a' ≤ c ∧ c ≤ 'z' ∨ '0' ≤ c ∧ c ≤ '9' ∨ c = '_'

theorem isWordChar_iff (c : Char) : isWordChar c = true ↔ IsWord c := by
  have hupper : c.isUpper = decide ('A' ≤ c ∧ c ≤ 'Z') := rfl
  have hlower : c.isLower = (decide ('a' ≤ c) && decide (c ≤ 'z')) := rfl
  have hdigit : c.isDigit = (decide ('0' ≤ c) && decide (c ≤ '9')) := rfl
  have hclasses : c.isAlphanum = (c.isUpper || c.isLower || c.isDigit) := rfl
  simp only [isWordChar, IsWord, hclasses, hupper, hlower, hdigit, Bool.or_eq_true,
    Bool.and_eq_true, decide_eq_true_iff, beq_iff_eq, or_assoc]

/-- The format has ten units and a word character other than `s`. -/
structure Identifies (format : String) : Prop where
  units : 10 ≤ (utf16 format).length
  word : ∃ c ∈ format.toList, c ≠ 's' ∧ IsWord c

theorem identifies_iff (format : String) :
    Identifies format ↔
      10 ≤ (utf16 format).length ∧ ∃ c ∈ format.toList, c ≠ 's' ∧ IsWord c :=
  ⟨fun h => ⟨h.units, h.word⟩, fun h => ⟨h.1, h.2⟩⟩

theorem not_identifies_iff (format : String) :
    ¬ Identifies format ↔
      (utf16 format).length < 10 ∨ ∀ c ∈ format.toList, IsWord c → c = 's' := by
  rw [identifies_iff, not_and_or, Nat.not_le]
  simp only [not_exists, not_and, ne_eq, not_imp_not]

theorem isDescriptive_iff (format : String) : isDescriptive format = true ↔ Identifies format := by
  rw [isDescriptive, Bool.and_eq_true, decide_eq_true_iff, utf16Length_eq, List.any_eq_true,
    identifies_iff]
  simp only [Bool.and_eq_true, bne_iff_ne, isWordChar_iff]

/-- A face takes two units. Neither it nor a letter outside ASCII is a word character. -/
example : ["😀😀😀😀😀", "😀😀😀😀sé", "😀😀😀😀a", "😀😀😀😀a."].map isDescriptive =
    [false, false, false, true] := by
  decide +kernel

/-- Text around a format does not make it less descriptive. -/
theorem Identifies.append {format : String} (h : Identifies format) (front back : String) :
    Identifies (front ++ format ++ back) := by
  obtain ⟨c, hc, hword⟩ := h.word
  refine ⟨?_, c, ?_, hword⟩
  · have hunits := h.units
    simp only [utf16_append, List.length_append]
    omega
  · simp [hc]

/-! ## The decisions of a warning -/

/-- A line is due for a format: it is descriptive, the condition fails, and the format does not begin
with what the channel ignores. -/
structure IsDue (channel : Channel) (condition : Bool) (format : String) : Prop where
  identifies : Identifies format
  fails : condition = false
  kept : ∀ start ∈ channel.ignored, ¬ start.toList <+: format.toList

/-- What comes of a warning, in the order in which it is decided. -/
inductive Decides (channel : Channel) (condition : Bool) (args : List String) :
    Option String → Except Misuse Unit × List Effect → Prop where
  | missing : Decides channel condition args none (.error .missingFormat, [])
  | nonDescriptive {format : String} (h : ¬ Identifies format) :
      Decides channel condition args (some format) (.error (.nonDescriptive format), [])
  | ignored {format start : String} (h : Identifies format) (hs : channel.ignored = some start)
      (hstart : start.toList <+: format.toList) :
      Decides channel condition args (some format) (.ok (), [.event (.ignored format)])
  | holds {format : String} (h : Identifies format) (hc : condition = true) :
      Decides channel condition args (some format) (.ok (), [])
  | due {format : String} (h : IsDue channel condition format) :
      Decides channel condition args (some format)
        (.ok (), [.line channel.sink (Channel.warningLine format args), .event .emitted])

theorem warn_decides (channel : Channel) (condition : Bool) (format : Option String)
    (args : List String) :
    Decides channel condition args format (channel.warn condition format args) := by
  cases format with
  | none => exact .missing
  | some format =>
      by_cases hdescriptive : isDescriptive format = true
      · have h := (isDescriptive_iff format).mp hdescriptive
        cases hignores : channel.ignores format with
        | true =>
            obtain ⟨start, hignored, hstart⟩ := (Option.any_eq_true _ _).mp hignores
            simp only [Channel.warn, hdescriptive, hignores]
            exact .ignored h hignored (List.isPrefixOf_iff_prefix.mp hstart)
        | false =>
            cases condition with
            | true =>
                simp only [Channel.warn, hdescriptive, hignores]
                exact .holds h rfl
            | false =>
                simp only [Channel.warn, hdescriptive, hignores]
                exact .due ⟨h, rfl, (channel.ignores_eq_false_iff format).mp hignores⟩
      · simp only [Channel.warn, hdescriptive]
        exact .nonDescriptive fun h => hdescriptive ((isDescriptive_iff format).mpr h)

/-- The judgement of a format, whatever the channel, the condition and the arguments are. -/
def judge : Option String → Except Misuse Unit
  | none => .error .missingFormat
  | some format => if isDescriptive format then .ok () else .error (.nonDescriptive format)

theorem judge_of_identifies {format : String} (h : Identifies format) :
    judge (some format) = .ok () :=
  if_pos ((isDescriptive_iff format).mpr h)

theorem judge_of_not_identifies {format : String} (h : ¬ Identifies format) :
    judge (some format) = .error (.nonDescriptive format) :=
  if_neg (mt (isDescriptive_iff format).mp h)

theorem judge_eq_missing_iff (format : Option String) :
    judge format = .error .missingFormat ↔ format = none := by
  cases format with
  | none => simp [judge]
  | some format => by_cases h : isDescriptive format = true <;> simp [judge, h]

theorem judge_eq_nonDescriptive_iff (format : Option String) (text : String) :
    judge format = .error (.nonDescriptive text) ↔ format = some text ∧ ¬ Identifies text := by
  constructor
  · intro hjudge
    cases format with
    | none => cases hjudge
    | some format =>
        by_cases h : Identifies format
        · rw [judge_of_identifies h] at hjudge
          cases hjudge
        · rw [judge_of_not_identifies h] at hjudge
          cases hjudge
          exact ⟨rfl, h⟩
  · rintro ⟨rfl, h⟩
    exact judge_of_not_identifies h

theorem judge_eq_ok_iff (format : Option String) :
    judge format = .ok () ↔ ∃ text ∈ format, Identifies text := by
  cases format with
  | none => simp [judge]
  | some format => simp [judge, isDescriptive_iff]

namespace Decides

variable {channel : Channel} {condition : Bool} {args : List String} {format : Option String}
  {outcome : Except Misuse Unit × List Effect}

theorem fst_eq (h : Decides channel condition args format outcome) : outcome.1 = judge format := by
  cases h with
  | missing => rfl
  | nonDescriptive h => exact (judge_of_not_identifies h).symm
  | ignored h _ _ => exact (judge_of_identifies h).symm
  | holds h _ => exact (judge_of_identifies h).symm
  | due h => exact (judge_of_identifies h.identifies).symm

/-- An error leaves no line, and nothing in the log. -/
theorem effects_of_error (h : Decides channel condition args format outcome) {misuse : Misuse}
    (he : outcome.1 = .error misuse) : outcome.2 = [] := by
  cases h with
  | missing => rfl
  | nonDescriptive _ => rfl
  | ignored _ _ _ => cases he
  | holds _ _ => cases he
  | due _ => cases he

theorem lines_of_due (h : Decides channel condition args format outcome)
    (hdue : ∃ text ∈ format, IsDue channel condition text) :
    ∃ line, sinkLines outcome.2 = [(channel.sink, line)] := by
  obtain ⟨text, rfl, hdue⟩ := hdue
  cases h with
  | nonDescriptive h => exact absurd hdue.identifies h
  | ignored _ hs hstart => exact absurd hstart (hdue.kept _ hs)
  | holds _ hc => rw [hdue.fails] at hc; cases hc
  | due _ => exact ⟨_, rfl⟩

theorem lines_of_not_due (h : Decides channel condition args format outcome)
    (hdue : ¬ ∃ text ∈ format, IsDue channel condition text) :
    sinkLines outcome.2 = [] := by
  cases h with
  | due h => exact absurd ⟨_, rfl, h⟩ hdue
  | _ => rfl

theorem lines_iff (h : Decides channel condition args format outcome) :
    (∃ line, sinkLines outcome.2 = [(channel.sink, line)]) ↔
      ∃ text ∈ format, IsDue channel condition text := by
  refine ⟨fun ⟨line, hline⟩ => Classical.byContradiction fun hdue => ?_, h.lines_of_due⟩
  rw [h.lines_of_not_due hdue] at hline
  cases hline

end Decides

theorem fst_warn (channel : Channel) (condition : Bool) (format : Option String)
    (args : List String) : (channel.warn condition format args).1 = judge format :=
  (warn_decides channel condition format args).fst_eq

/-! ## The contract -/

/-- What a channel promises of a warning and what comes of it. The result depends on the format
only, errors leave no effects, and a line is written if and only if it is due. -/
structure WarningContract (channel : Channel) (condition : Bool) (format : Option String)
    (args : List String) (outcome : Except Misuse Unit × List Effect) : Prop where
  missing : outcome.1 = .error .missingFormat ↔ format = none
  nonDescriptive : ∀ text, outcome.1 = .error (.nonDescriptive text) ↔ format = some text ∧
    ((utf16 text).length < 10 ∨ ∀ c ∈ text.toList, IsWord c → c = 's')
  accepted : outcome.1 = .ok () ↔ ∃ text ∈ format, Identifies text
  same_for_all : ∀ (other : Channel) (holds : Bool) (texts : List String),
    (other.warn holds format texts).1 = outcome.1
  surrounded : outcome.1 = .ok () → ∀ text ∈ format, ∀ front back,
    (channel.warn condition (some (front ++ text ++ back)) args).1 = .ok ()
  one_line : (∃ line, sinkLines outcome.2 = [(channel.sink, line)]) ↔
    ∃ text ∈ format, IsDue channel condition text
  no_line : (¬ ∃ text ∈ format, IsDue channel condition text) → sinkLines outcome.2 = []
  errors_are_silent : ∀ misuse, outcome.1 = .error misuse → outcome.2 = []

theorem warn_keeps_contract (channel : Channel) (condition : Bool) (format : Option String)
    (args : List String) :
    WarningContract channel condition format args (channel.warn condition format args) := by
  have hdecides := warn_decides channel condition format args
  refine ⟨?_, ?_, ?_, ?_, ?_, hdecides.lines_iff, hdecides.lines_of_not_due,
    fun _ => hdecides.effects_of_error⟩
  · rw [fst_warn, judge_eq_missing_iff]
  · intro text
    rw [fst_warn, judge_eq_nonDescriptive_iff, not_identifies_iff]
  · rw [fst_warn, judge_eq_ok_iff]
  · intro other holds texts
    rw [fst_warn, fst_warn]
  · intro hok text htext front back
    rw [fst_warn, judge_eq_ok_iff] at hok
    obtain ⟨accepted, haccepted, h⟩ := hok
    obtain rfl := Option.mem_unique haccepted htext
    rw [fst_warn]
    exact judge_of_identifies (h.append front back)

end AttributeCheck
