import AttributeCheck.Session

/-! # Each message is reported once

Every call of a validator that checks a bag relates the cache before and after it, the failing
evaluations it reports, and the lines it delivers. The relation holds of one report and is closed
under composition, so it holds of runs of any length. -/

namespace AttributeCheck

/-! ## The warning for a failure -/

/-- The line for a failure with the message. -/
def failureLine (message : String) : String :=
  "Warning: Failed propType: " ++ message

@[simp] theorem failureLine_inj {m n : String} : failureLine m = failureLine n ↔ m = n :=
  String.append_right_inj "Warning: Failed propType: "

theorem isDescriptive_failureFormat : isDescriptive failureFormat = true := by
  decide +kernel

theorem warningLine_failureFormat (message : String) :
    Channel.warningLine failureFormat [message] = failureLine message := by
  have hcut : cutFormat failureFormat.toList = ("Failed propType: ".toList, [[]]) := rfl
  have hline : interpolate failureFormat [message] = "Failed propType: " ++ message := by
    rw [interpolate_of_cutFormat hcut, joinArguments, joinArguments, List.append_nil,
      List.append_nil, String.ofList_append, String.ofList_toList, String.ofList_toList]
  rw [Channel.warningLine, hline, ← String.append_assoc]
  rfl

/-- A channel that does not ignore the warnings for failures. -/
def Channel.Delivers (channel : Channel) : Prop :=
  ∀ start ∈ channel.ignored, ¬ start.toList <+: failureFormat.toList

theorem Channel.ignores_eq_false_iff (channel : Channel) (format : String) :
    channel.ignores format = false ↔
      ∀ start ∈ channel.ignored, ¬ start.toList <+: format.toList := by
  obtain ⟨sink, ignored⟩ := channel
  cases ignored with
  | none => simp [ignores]
  | some start => simp [ignores, ← List.isPrefixOf_iff_prefix]

theorem Channel.delivers_iff (channel : Channel) :
    channel.Delivers ↔ channel.ignores failureFormat = false :=
  (channel.ignores_eq_false_iff failureFormat).symm

theorem Channel.delivers_legacy (sink : Sink) : (legacy sink).Delivers := by
  rw [delivers_iff]
  rfl

/-! ## Lines -/

/-- A line with the sink that it goes to. -/
def Effect.sinkLine? : Effect → Option (Sink × String)
  | line sink text => some (sink, text)
  | event _ => none

def sinkLines (effects : List Effect) : List (Sink × String) :=
  effects.filterMap Effect.sinkLine?

@[simp] theorem sinkLines_append (front rest : List Effect) :
    sinkLines (front ++ rest) = sinkLines front ++ sinkLines rest :=
  List.filterMap_append

@[simp] theorem sinkLines_events (events : List Event) : sinkLines (events.map .event) = [] := by
  simp [sinkLines, Effect.sinkLine?, Function.comp_def]

/-- The lines for failures with a message. -/
def linesFor (message : String) (lines : List (Sink × String)) : List (Sink × String) :=
  lines.filter (·.2 == failureLine message)

@[simp] theorem linesFor_append (message : String) (front rest : List (Sink × String)) :
    linesFor message (front ++ rest) = linesFor message front ++ linesFor message rest :=
  List.filter_append front rest

/-! ## One report -/

namespace Channel

variable {channel : Channel} {cache : Cache} {failure : Failure}

theorem report_of_contains (h : cache.contains failure.message = true) :
    channel.report cache failure =
      (cache, [.event (.suppressed failure.code failure.message)]) := by
  simp [report, Cache.mark, h]

theorem report_of_delivers (h : cache.contains failure.message = false)
    (hd : channel.Delivers) :
    channel.report cache failure = (⟨failure.message :: cache.messages⟩,
      [.line channel.sink (failureLine failure.message), .event .emitted]) := by
  have hi := channel.delivers_iff.mp hd
  simp [report, Cache.mark, h, warn, isDescriptive_failureFormat, hi, warningLine_failureFormat]

theorem report_of_not_delivers (h : cache.contains failure.message = false)
    (hd : ¬ channel.Delivers) :
    channel.report cache failure =
      (⟨failure.message :: cache.messages⟩, [.event (.ignored failureFormat)]) := by
  have hi : channel.ignores failureFormat = true := by
    simpa [channel.delivers_iff] using hd
  simp [report, Cache.mark, h, warn, isDescriptive_failureFormat, hi]

theorem fst_report (channel : Channel) (cache : Cache) (failure : Failure) :
    (channel.report cache failure).1 = (cache.mark failure.message).2 := by
  by_cases h : cache.contains failure.message = true
  · rw [report_of_contains h]
    simp [Cache.mark, h]
  · by_cases hd : channel.Delivers
    · rw [report_of_delivers (by simpa using h) hd]
      simp [Cache.mark, h]
    · rw [report_of_not_delivers (by simpa using h) hd]
      simp [Cache.mark, h]

theorem mem_sinkLines_report {line : Sink × String}
    (hl : line ∈ sinkLines (channel.report cache failure).2) :
    cache.contains failure.message = false ∧ channel.Delivers ∧
      line = (channel.sink, failureLine failure.message) := by
  by_cases h : cache.contains failure.message = true
  · simp [report_of_contains h, sinkLines, Effect.sinkLine?] at hl
  · rw [Bool.not_eq_true] at h
    by_cases hd : channel.Delivers
    · refine ⟨h, hd, ?_⟩
      simpa [report_of_delivers h hd, sinkLines, Effect.sinkLine?] using hl
    · simp [report_of_not_delivers h hd, sinkLines, Effect.sinkLine?] at hl

theorem of_mem_linesFor_report {line : Sink × String} {message : String}
    (hl : line ∈ linesFor message (sinkLines (channel.report cache failure).2)) :
    failure.message = message ∧ cache.contains message = false ∧ channel.Delivers := by
  obtain ⟨hline, hm⟩ := List.mem_filter.mp hl
  obtain ⟨hnew, hd, rfl⟩ := mem_sinkLines_report hline
  have hmessage : failure.message = message := by simpa using hm
  rw [hmessage] at hnew
  exact ⟨hmessage, hnew, hd⟩

end Channel

/-! ## What reports come to -/

/-- A failing evaluation that a validator reports. -/
structure Finding where
  validator : Validator
  failure : Failure

/-- The first of the findings that has the message. -/
def firstFinding? (findings : List Finding) (message : String) : Option Finding :=
  findings.find? (·.failure.message == message)

theorem firstFinding?_eq_none_iff (findings : List Finding) (message : String) :
    firstFinding? findings message = none ↔
      ¬ ∃ finding ∈ findings, finding.failure.message = message := by
  simp [firstFinding?]

theorem exists_of_firstFinding? {findings : List Finding} {message : String} {first : Finding}
    (h : firstFinding? findings message = some first) :
    ∃ finding ∈ findings, finding.failure.message = message :=
  ⟨first, List.mem_of_find?_eq_some h, by simpa using List.find?_some h⟩

theorem firstFinding?_append (front rest : List Finding) (message : String) :
    firstFinding? (front ++ rest) message =
      (firstFinding? front message).or (firstFinding? rest message) :=
  List.find?_append

/-- Findings reported in order through one cache, from before the first to after the last: the cache
gains their messages, and each message that is new is delivered by its first finding, unless the
channel of that validator ignores it. -/
structure ReportedOnce (before after : Cache) (findings : List Finding)
    (lines : List (Sink × String)) : Prop where
  contains_iff : ∀ message, after.contains message = true ↔
    before.contains message = true ∨ ∃ finding ∈ findings, finding.failure.message = message
  nodup : before.messages.Nodup → after.messages.Nodup
  delivered : ∀ message first, before.contains message = false →
    firstFinding? findings message = some first → first.validator.channel.Delivers →
    linesFor message lines = [(first.validator.channel.sink, failureLine message)]
  known : ∀ message, before.contains message = true → linesFor message lines = []
  withheld : ∀ message, (∀ first, firstFinding? findings message = some first →
    ¬ first.validator.channel.Delivers) → linesFor message lines = []
  lines_of_failures : ∀ line ∈ lines, ∃ message, line.2 = failureLine message

namespace ReportedOnce

theorem refl (cache : Cache) : ReportedOnce cache cache [] [] := by
  refine ⟨by simp, id, ?_, fun _ _ => rfl, fun _ _ => rfl, by simp⟩
  intro message first _ hfirst
  simp [firstFinding?] at hfirst

theorem contains_of_found {before after : Cache} {findings : List Finding}
    {lines : List (Sink × String)} (h : ReportedOnce before after findings lines)
    {message : String} {first : Finding} (hf : firstFinding? findings message = some first) :
    after.contains message = true :=
  (h.contains_iff message).mpr (.inr (exists_of_firstFinding? hf))

theorem not_contains_of_not_found {before after : Cache} {findings : List Finding}
    {lines : List (Sink × String)} (h : ReportedOnce before after findings lines)
    {message : String} (hb : before.contains message = false)
    (hf : firstFinding? findings message = none) : after.contains message = false := by
  rw [← Bool.not_eq_true, h.contains_iff, hb]
  simpa using (firstFinding?_eq_none_iff findings message).mp hf

/-- Reports on a cache may follow each other: what the earlier ones have found is known to the later
ones. -/
theorem trans {a b c : Cache} {fs gs : List Finding} {ls ms : List (Sink × String)}
    (h : ReportedOnce a b fs ls) (k : ReportedOnce b c gs ms) :
    ReportedOnce a c (fs ++ gs) (ls ++ ms) where
  contains_iff message := by
    rw [k.contains_iff, h.contains_iff, or_assoc]
    simp only [List.mem_append, or_and_right, exists_or]
  nodup hn := k.nodup (h.nodup hn)
  delivered message first hnew hfirst hd := by
    rw [firstFinding?_append] at hfirst
    rw [linesFor_append]
    -- The earlier reports have found the message, or it is still new to the later ones.
    cases hf : firstFinding? fs message with
    | some found =>
        obtain rfl : found = first := by simpa [hf] using hfirst
        rw [h.delivered message found hnew hf hd, k.known message (h.contains_of_found hf),
          List.append_nil]
    | none =>
        have hb := h.not_contains_of_not_found hnew hf
        rw [h.withheld message (by simp [hf]), List.nil_append]
        exact k.delivered message first hb (by simpa [hf] using hfirst) hd
  known message hknown := by
    have hb : b.contains message = true := (h.contains_iff message).mpr (.inl hknown)
    rw [linesFor_append, h.known message hknown, k.known message hb, List.append_nil]
  withheld message hfirst := by
    simp only [firstFinding?_append] at hfirst
    rw [linesFor_append, h.withheld message fun first hf => hfirst first (by simp [hf]),
      List.nil_append]
    cases hf : firstFinding? fs message with
    | some found => exact k.known message (h.contains_of_found hf)
    | none => exact k.withheld message fun first hg => hfirst first (by simp [hf, hg])
  lines_of_failures line hline := by
    rcases List.mem_append.mp hline with hline | hline
    · exact h.lines_of_failures line hline
    · exact k.lines_of_failures line hline

end ReportedOnce

theorem firstFinding?_singleton (finding : Finding) (message : String) :
    firstFinding? [finding] message =
      if finding.failure.message = message then some finding else none := by
  by_cases h : finding.failure.message = message <;> simp [firstFinding?, h]

theorem report_reportedOnce (v : Validator) (cache : Cache) (failure : Failure) :
    ReportedOnce cache (v.channel.report cache failure).1 [⟨v, failure⟩]
      (sinkLines (v.channel.report cache failure).2) where
  contains_iff message := by
    rw [Channel.fst_report, Cache.contains_mark, Bool.or_eq_true, beq_iff_eq, or_comm]
    simp only [List.mem_singleton, exists_eq_left, eq_comm]
  nodup hn := by
    rw [Channel.fst_report]
    exact Cache.nodup_mark hn failure.message
  delivered message first hnew hfirst hd := by
    rw [firstFinding?_singleton] at hfirst
    split at hfirst
    · rename_i hm
      obtain rfl := Option.some.inj hfirst
      subst hm
      rw [Channel.report_of_delivers hnew hd]
      simp [sinkLines, Effect.sinkLine?, linesFor]
    · cases hfirst
  known message hknown := by
    refine List.eq_nil_iff_forall_not_mem.mpr fun line hl => ?_
    obtain ⟨-, hnew, -⟩ := Channel.of_mem_linesFor_report hl
    rw [hknown] at hnew
    cases hnew
  withheld message hfirst := by
    refine List.eq_nil_iff_forall_not_mem.mpr fun line hl => ?_
    obtain ⟨hmessage, -, hd⟩ := Channel.of_mem_linesFor_report hl
    have hfound : firstFinding? [⟨v, failure⟩] message = some ⟨v, failure⟩ := by
      rw [firstFinding?_singleton, if_pos hmessage]
    exact hfirst ⟨v, failure⟩ hfound hd
  lines_of_failures line hl := by
    obtain ⟨-, -, rfl⟩ := Channel.mem_sinkLines_report hl
    exact ⟨failure.message, rfl⟩

/-! ## Declarations -/

/-- Checks one of the declared attributes of a bag. -/
def evaluateEntry (bag : Entries String Value) (component : String) (location : Location)
    (entry : String × Declaration) : Evaluation :=
  entry.2.evaluate entry.1 bag component location

/-- The failures of declared attributes, in order. -/
def failuresOf (bag : Entries String Value) (component : String) (location : Location)
    (entries : Entries String Declaration) : List Failure :=
  entries.filterMap fun entry => (evaluateEntry bag component location entry).failure

section

variable {bag : Entries String Value} {component : String} {location : Location}
  {entry : String × Declaration} {rest : Entries String Declaration}

theorem failuresOf_cons_of_passes
    (h : (evaluateEntry bag component location entry).failure = none) :
    failuresOf bag component location (entry :: rest) = failuresOf bag component location rest :=
  List.filterMap_cons_none h

theorem failuresOf_cons_of_fails {failure : Failure}
    (h : (evaluateEntry bag component location entry).failure = some failure) :
    failuresOf bag component location (entry :: rest) =
      failure :: failuresOf bag component location rest :=
  List.filterMap_cons_some h

theorem failuresOf_append_of_pass {passed : Entries String Declaration}
    (h : ∀ entry ∈ passed, (evaluateEntry bag component location entry).failure = none) :
    failuresOf bag component location (passed ++ rest) =
      failuresOf bag component location rest := by
  rw [failuresOf, List.filterMap_append, List.filterMap_eq_nil_iff.mpr h]
  rfl

theorem reportAll_cons_of_passes (channel : Channel) (cache : Cache)
    (h : (evaluateEntry bag component location entry).failure = none) :
    channel.reportAll bag component location cache (entry :: rest) =
      let evaluation := evaluateEntry bag component location entry
      let report := channel.reportAll bag component location cache rest
      ⟨report.cache, evaluation.events.map .event ++ report.effects,
        evaluation.calls ++ report.calls⟩ := by
  rw [evaluateEntry] at h
  simp [Channel.reportAll, evaluateEntry, h]

theorem reportAll_cons_of_fails (channel : Channel) (cache : Cache) {failure : Failure}
    (h : (evaluateEntry bag component location entry).failure = some failure) :
    channel.reportAll bag component location cache (entry :: rest) =
      let evaluation := evaluateEntry bag component location entry
      let first := channel.report cache failure
      let report := channel.reportAll bag component location first.1 rest
      ⟨report.cache, evaluation.events.map .event ++ first.2 ++ report.effects,
        evaluation.calls ++ report.calls⟩ := by
  rw [evaluateEntry] at h
  simp [Channel.reportAll, evaluateEntry, h]

end

theorem reportAll_reportedOnce (v : Validator) (bag : Entries String Value) (component : String)
    (location : Location) (cache : Cache) (entries : Entries String Declaration) :
    ReportedOnce cache (v.channel.reportAll bag component location cache entries).cache
      ((failuresOf bag component location entries).map (⟨v, ·⟩))
      (sinkLines (v.channel.reportAll bag component location cache entries).effects) := by
  induction entries generalizing cache with
  | nil => exact .refl cache
  | cons entry rest ih =>
      cases hf : (evaluateEntry bag component location entry).failure with
      | none =>
          rw [reportAll_cons_of_passes v.channel cache hf, failuresOf_cons_of_passes hf]
          simpa only [sinkLines_append, sinkLines_events, List.nil_append] using ih cache
      | some failure =>
          have hfirst := report_reportedOnce v cache failure
          have hrest := ih (v.channel.report cache failure).1
          rw [reportAll_cons_of_fails v.channel cache hf, failuresOf_cons_of_fails hf]
          simp only [sinkLines_append, sinkLines_events, List.nil_append]
          exact hfirst.trans hrest

/-! ## Runs -/

/-- A call that checks a bag: one reports all failures, the other answers with the first. -/
inductive CheckCall where
  | report (declared : Declarations) (bag : Entries String Value) (component : Option String)
      (location : Location)
  | answer (declared : Declarations) (bag : Entries String Value) (component : Option String)

namespace CheckCall

def request : CheckCall → Request
  | report declared bag component location => .validate declared bag component location
  | answer declared bag component => .firstFailure declared bag component

/-- The failures that are reported. -/
def reported : CheckCall → List Failure
  | report declared bag component location =>
      failuresOf bag (displayName component) location declared.entries
  | answer _ _ _ => []

end CheckCall

/-- Makes calls one after the other; each reply comes with the validator that gave it. -/
def Session.callAll (s : Session) :
    List (Validator × CheckCall) → Session × List (Validator × Reply)
  | [] => (s, [])
  | (v, call) :: rest =>
      let (s, reply) := s.ask v call.request
      let (s, replies) := s.callAll rest
      (s, (v, reply) :: replies)

/-- The failing evaluations of a run that are reported through a cache, in order. -/
def findingsOn (name : CacheName) (calls : List (Validator × CheckCall)) : List Finding :=
  (calls.filter (·.1.cache = name)).flatMap fun (v, call) => call.reported.map (⟨v, ·⟩)

/-- The lines that the validators of a cache deliver in a run, in order. -/
def linesOn (name : CacheName) (replies : List (Validator × Reply)) : List (Sink × String) :=
  (replies.filter (·.1.cache = name)).flatMap fun (_, reply) => sinkLines reply.effects

theorem ask_reportedOnce (s : Session) (v : Validator) (call : CheckCall) :
    ReportedOnce (s.caches.get v.cache) ((s.ask v call.request).1.caches.get v.cache)
      (call.reported.map (⟨v, ·⟩)) (sinkLines (s.ask v call.request).2.effects) := by
  cases call with
  | report declared bag component location =>
      simp only [CheckCall.request, Session.ask, Validator.answer, Validator.validate,
        Caches.get_set, if_true]
      exact reportAll_reportedOnce v bag (displayName component) location _ declared.entries
  | answer declared bag component =>
      simp only [CheckCall.request, Session.ask, Validator.answer, sinkLines_events]
      exact .refl _

theorem get_caches_ask (s : Session) (v : Validator) (call : CheckCall) {name : CacheName}
    (h : v.cache ≠ name) : (s.ask v call.request).1.caches.get name = s.caches.get name := by
  cases call with
  | report declared bag component location =>
      simp only [CheckCall.request, Session.ask, Validator.answer, Validator.validate,
        Caches.get_set, if_neg h]
  | answer declared bag component => rfl

/-- In a run of any length, through every cache each new message is reported once. The channels of
older declarations do not ignore the warnings for failures. -/
theorem callAll_reportedOnce (s : Session) (calls : List (Validator × CheckCall))
    (name : CacheName) :
    ReportedOnce (s.caches.get name) ((s.callAll calls).1.caches.get name)
      (findingsOn name calls) (linesOn name (s.callAll calls).2) ∧
      ∀ sink, (Channel.legacy sink).Delivers := by
  refine ⟨?_, Channel.delivers_legacy⟩
  induction calls generalizing s with
  | nil => exact .refl _
  | cons entry rest ih =>
      obtain ⟨v, call⟩ := entry
      -- A call through another cache adds no findings and no lines of this one.
      by_cases h : v.cache = name
      · subst h
        have hcall := ask_reportedOnce s v call
        have hrest := ih (s.ask v call.request).1
        simpa [Session.callAll, findingsOn, linesOn] using hcall.trans hrest
      · have hkept := get_caches_ask s v call h
        have hrest := ih (s.ask v call.request).1
        simpa [Session.callAll, findingsOn, linesOn, h, hkept] using hrest

end AttributeCheck
