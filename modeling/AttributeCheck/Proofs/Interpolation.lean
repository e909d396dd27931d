import AttributeCheck.Proofs.Reporting
import Mathlib.Data.List.Infix

/-! # Interpolation is one scan of the format

A format is cut at its placeholders, and its pieces are written with the arguments in between. A
scanner goes over the characters of the format instead. What it has written and what the pieces of
the rest come to stay the same together, so both write the same text. -/

namespace AttributeCheck

/-- What stands for an argument in a format. -/
def placeholder : List Char :=
  ['%', 's']

/-! ## Cutting at the placeholders -/

theorem cutFormat_placeholder (rest : List Char) :
    cutFormat (placeholder ++ rest) = ([], (cutFormat rest).1 :: (cutFormat rest).2) :=
  rfl

theorem cutFormat_cons {c : Char} {rest : List Char} (h : ¬ placeholder <+: c :: rest) :
    cutFormat (c :: rest) = (c :: (cutFormat rest).1, (cutFormat rest).2) := by
  rw [cutFormat.eq_def]
  split
  · rename_i heq
    cases heq
  · rename_i tail heq
    rw [heq] at h
    exact absurd (List.prefix_append placeholder tail) h
  · rename_i heq
    cases heq
    rfl

/-- A format is empty, begins with a placeholder, or begins with a character that is copied. -/
theorem format_induction {P : List Char → Prop} (nil : P [])
    (placeholder : ∀ rest, P rest → P (placeholder ++ rest))
    (copy : ∀ c rest, ¬ AttributeCheck.placeholder <+: c :: rest → P rest → P (c :: rest))
    (format : List Char) : P format := by
  fun_induction cutFormat format with
  | case1 => exact nil
  | case2 rest _ _ _ ih => exact placeholder rest ih
  | case3 c rest hne _ _ _ ih =>
      refine copy c rest (fun ⟨tail, htail⟩ => ?_) ih
      cases htail
      exact hne tail rfl rfl

/-- There is a piece behind each placeholder. -/
theorem length_cutFormat (format : List Char) :
    (cutFormat format).2.length = format.tails.countP (placeholder <+: ·) := by
  induction format using format_induction with
  | nil => rfl
  | placeholder rest ih =>
      rw [cutFormat_placeholder, List.length_cons, ih]
      simp [placeholder, List.tails, List.cons_prefix_cons]
  | copy c rest h ih =>
      rw [cutFormat_cons h, ih]
      simp [List.tails, h]

/-! ## Filling in -/

theorem joinArguments_cons (part : List Char) (parts : List (List Char)) (args : List String) :
    joinArguments (part :: parts) args =
      (args.headD "undefined").toList ++ part ++ joinArguments parts args.tail := by
  cases args <;> rfl

/-- What the pieces come to with the arguments in between. -/
def fillIn (pieces : List Char × List (List Char)) (args : List String) : List Char :=
  pieces.1 ++ joinArguments pieces.2 args

/-- Arguments beyond the placeholders are dropped. -/
theorem joinArguments_append {parts : List (List Char)} {args : List String}
    (h : parts.length ≤ args.length) (surplus : List String) :
    joinArguments parts (args ++ surplus) = joinArguments parts args := by
  induction parts generalizing args with
  | nil => rfl
  | cons part parts ih =>
      cases args with
      | nil => simp at h
      | cons arg args =>
          rw [List.cons_append, joinArguments, joinArguments, ih (by simpa using h)]

/-! ## Scanning -/

/-- A scanner of a format: the position of the next character, the number of arguments used, and
what has been written. -/
structure Scanner where
  position : ℕ
  used : ℕ
  written : List Char

namespace Scanner

def start : Scanner :=
  ⟨0, 0, []⟩

/-- Writes the next argument at a placeholder, and the character elsewhere. -/
def step (format : List Char) (args : List String) (s : Scanner) : Scanner :=
  if placeholder <+: format.drop s.position then
    ⟨s.position + 2, s.used + 1, s.written ++ (args.getD s.used "undefined").toList⟩
  else ⟨s.position + 1, s.used, s.written ++ format[s.position]?.toList⟩

theorem position_lt_step (format : List Char) (args : List String) (s : Scanner) :
    s.position < (step format args s).position := by
  unfold step
  split <;> simp

/-- Steps to the end of the format, and gives what is written then. -/
def scan (format : List Char) (args : List String) (s : Scanner) : List Char :=
  if s.position < format.length then scan format args (step format args s) else s.written
termination_by format.length - s.position
decreasing_by
  have hstep := position_lt_step format args s
  omega

variable {format : List Char} {args : List String}

/-- What is written when the rest of the format is filled in with the arguments left. -/
def outcome (format : List Char) (args : List String) (s : Scanner) : List Char :=
  s.written ++ fillIn (cutFormat (format.drop s.position)) (args.drop s.used)

/-- A step leaves the outcome as it is. -/
theorem outcome_step {s : Scanner} (h : s.position < format.length) :
    outcome format args (step format args s) = outcome format args s := by
  unfold step
  split
  · rename_i hplaceholder
    obtain ⟨rest, hrest⟩ := hplaceholder
    have hdrop : format.drop (s.position + 2) = rest := by
      rw [← List.drop_drop, ← hrest]
      rfl
    simp [outcome, hdrop, ← hrest, cutFormat_placeholder, fillIn, joinArguments_cons]
  · rename_i hcopy
    have hdrop := List.drop_eq_getElem_cons h
    rw [hdrop] at hcopy
    simp only [outcome, hdrop, cutFormat_cons hcopy, fillIn]
    simp [h]

theorem scan_eq_outcome (s : Scanner) : scan format args s = outcome format args s := by
  fun_induction scan format args s with
  | case1 s h ih => rw [ih, outcome_step h]
  | case2 s h =>
      have hdrop : format.drop s.position = [] := List.drop_eq_nil_of_le (Nat.le_of_not_lt h)
      simp [outcome, hdrop, cutFormat, fillIn, joinArguments]

end Scanner

/-- The text that a scan of a whole format writes. -/
def scanned (format : String) (args : List String) : String :=
  String.ofList (Scanner.scan format.toList args .start)

theorem interpolate_eq_scanned (format : String) (args : List String) :
    interpolate format args = scanned format args := by
  rw [scanned, Scanner.scan_eq_outcome]
  rfl

/-! ## Lines -/

theorem warn_of_descriptive {channel : Channel} {format : String}
    (hf : isDescriptive format = true) (hk : channel.ignores format = false)
    (args : List String) :
    channel.warn false (some format) args =
      (.ok (), [.line channel.sink (Channel.warningLine format args), .event .emitted]) := by
  simp [Channel.warn, hf, hk]

theorem interpolate_append {format : String} {args : List String}
    (h : format.toList.tails.countP (placeholder <+: ·) ≤ args.length) (surplus : List String) :
    interpolate format (args ++ surplus) = interpolate format args := by
  rw [← length_cutFormat] at h
  simp only [interpolate, joinArguments_append h]

/-- A warning's line is what a scan of its format writes, and arguments beyond the placeholders are
dropped. The line for a failure has the message as it is, so distinct messages have distinct
lines. -/
theorem warnings_are_scans :
    (∀ (channel : Channel) (format : String) (args : List String),
      isDescriptive format = true → channel.ignores format = false →
        channel.warn false (some format) args =
            (.ok (), [.line channel.sink ("Warning: " ++ scanned format args),
              .event .emitted]) ∧
          ∀ surplus, format.toList.tails.countP (placeholder <+: ·) ≤ args.length →
            scanned format (args ++ surplus) = scanned format args) ∧
      (∀ (channel : Channel) (cache : Cache) (failure : Failure), channel.Delivers →
        cache.contains failure.message = false →
          sinkLines (channel.report cache failure).2 =
            [(channel.sink, "Warning: Failed propType: " ++ failure.message)]) ∧
      ∀ (c d : Channel) (s t : Cache) (f g : Failure), f.message ≠ g.message →
        ∀ l ∈ sinkLines (c.report s f).2, ∀ m ∈ sinkLines (d.report t g).2, l.2 ≠ m.2 := by
  refine ⟨fun channel format args hf hk => ⟨?_, fun surplus h => ?_⟩, ?_, ?_⟩
  · rw [warn_of_descriptive hf hk, Channel.warningLine, interpolate_eq_scanned]
  · rw [← interpolate_eq_scanned, ← interpolate_eq_scanned, interpolate_append h]
  · intro channel cache failure hd hnew
    rw [Channel.report_of_delivers hnew hd]
    rfl
  · intro c d s t f g hne l hl m hm
    obtain ⟨-, -, rfl⟩ := Channel.mem_sinkLines_report hl
    obtain ⟨-, -, rfl⟩ := Channel.mem_sinkLines_report hm
    exact fun heq => hne (failureLine_inj.mp heq)

/-- A percent sign in front of a placeholder, two more placeholders, and one at the end. -/
def rateFormat : String :=
  "Rate %%s of %s is %s %"

theorem warnings_are_scans_rate :
    isDescriptive rateFormat = true ∧ (Channel.legacy .stderr).ignores rateFormat = false ∧
      (Channel.legacy .stderr).warn false (some rateFormat) ["%s", "x"] =
        (.ok (), [.line .stderr "Warning: Rate %%s of x is undefined %", .event .emitted]) := by
  have hf : isDescriptive rateFormat = true := by decide +kernel
  have hk : (Channel.legacy .stderr).ignores rateFormat = false := by decide +kernel
  have hscan : scanned rateFormat ["%s", "x"] = "Rate %%s of x is undefined %" := by
    rw [← interpolate_eq_scanned]
    decide +kernel
  have hline := (warnings_are_scans.1 (.legacy .stderr) rateFormat ["%s", "x"] hf hk).1
  rw [hscan] at hline
  exact ⟨hf, hk, hline⟩

end AttributeCheck
