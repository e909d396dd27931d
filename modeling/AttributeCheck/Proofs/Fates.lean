import AttributeCheck.Proofs.Containment
import AttributeCheck.Proofs.Visits

/-! # Every failure has one fate

In a run of calls, each failing check that is reported is delivered, suppressed or ignored, and the
log says which. It tells of each panic besides, right before. Among the reports of one message
through one cache only the first can escape suppression. One report keeps this law, and so do
reports that follow each other. -/

namespace AttributeCheck

/-! ## Failing checks -/

section

variable {bag : Entries String Value} {component : String} {location : Location}
  {entry : String × Declaration}

/-- How the check of a declared attribute fails, if it does. Something else than a checker fails as
such, and a panic is a failure of the attribute. -/
def checkFailure? (bag : Entries String Value) (component : String) (location : Location)
    (entry : String × Declaration) : Option Failure :=
  match entry.2 with
  | .checker c =>
      match (c.check bag entry.1 (some component) location).verdict with
      | .accept => none
      | .reject failure => some failure
      | .panic text => some (panicFailure entry.1 text)
  | .invalid _ => some (Fault.notChecker.failure entry.1 component location.text)

/-- The text of the panic that the check of a declared attribute ends with. -/
def panicText? (bag : Entries String Value) (component : String) (location : Location)
    (entry : String × Declaration) : Option String :=
  match entry.2 with
  | .checker c =>
      match (c.check bag entry.1 (some component) location).verdict with
      | .panic text => some (payloadText text)
      | _ => none
  | .invalid _ => none

/-- What the log is told when the check of a declared attribute panics. -/
def panicEvent? (bag : Entries String Value) (component : String) (location : Location)
    (entry : String × Declaration) : Option Event :=
  (panicText? bag component location entry).map (.panicked entry.1 component)

theorem failure_evaluateEntry : (evaluateEntry bag component location entry).failure =
    checkFailure? bag component location entry := by
  obtain ⟨name, declaration⟩ := entry
  cases declaration with
  | invalid v => rfl
  | checker c =>
      cases hv : (c.check bag name (some component) location).verdict with
      | accept => simp only [evaluateEntry, Declaration.evaluate, checkFailure?, hv]
      | reject failure => simp only [evaluateEntry, Declaration.evaluate, checkFailure?, hv]
      | panic text => simp only [evaluateEntry_of_panics hv, checkFailure?, hv]

theorem events_evaluateEntry : (evaluateEntry bag component location entry).events =
    (panicEvent? bag component location entry).toList := by
  obtain ⟨name, declaration⟩ := entry
  cases declaration with
  | invalid v => rfl
  | checker c =>
      cases hv : (c.check bag name (some component) location).verdict with
      | accept => simp [evaluateEntry, Declaration.evaluate, panicEvent?, panicText?, hv]
      | reject failure => simp [evaluateEntry, Declaration.evaluate, panicEvent?, panicText?, hv]
      | panic text => simp [evaluateEntry_of_panics hv, panicEvent?, panicText?, hv]

theorem checkFailure?_of_panicText? {text : String}
    (h : panicText? bag component location entry = some text) :
    checkFailure? bag component location entry =
      some ⟨"checker_panicked", text, some entry.1, []⟩ := by
  obtain ⟨name, declaration⟩ := entry
  cases declaration with
  | invalid v => cases h
  | checker c =>
      simp only [panicText?] at h
      cases hv : (c.check bag name (some component) location).verdict with
      | panic payload =>
          rw [hv] at h
          cases h
          simp only [checkFailure?, hv, panicFailure]
      | accept => simp [hv] at h
      | reject failure => simp [hv] at h

theorem panicEvent?_of_passes (h : checkFailure? bag component location entry = none) :
    panicEvent? bag component location entry = none := by
  rw [panicEvent?]
  cases hp : panicText? bag component location entry with
  | none => rfl
  | some text => simp [checkFailure?_of_panicText? hp] at h

theorem events_evaluateEntry_of_passes
    (h : (evaluateEntry bag component location entry).failure = none) :
    (evaluateEntry bag component location entry).events = [] := by
  rw [failure_evaluateEntry] at h
  rw [events_evaluateEntry, panicEvent?_of_passes h]
  rfl

end

/-! ## Incidents -/

/-- A failing check of a declared attribute. The failure may be the answer of the call, and it may
come from a panic, which has a text. -/
structure Incident where
  validator : Validator
  isAnswer : Bool
  name : String
  component : String
  panic? : Option String
  failure : Failure

/-- What the log is told of the panic, if there was one. -/
def Incident.panicEvent? (i : Incident) : Option Event :=
  i.panic?.map (.panicked i.name i.component)

section

variable (v : Validator) (isAnswer : Bool) (bag : Entries String Value) (component : String)
  (location : Location) (entry : String × Declaration)

def incidentOf (failure : Failure) : Incident :=
  ⟨v, isAnswer, entry.1, component, panicText? bag component location entry, failure⟩

def incident? : Option Incident :=
  (checkFailure? bag component location entry).map
    (incidentOf v isAnswer bag component location entry)

variable {v isAnswer bag component location entry}

theorem incident?_of_passes (h : (evaluateEntry bag component location entry).failure = none) :
    incident? v isAnswer bag component location entry = none := by
  rw [failure_evaluateEntry] at h
  rw [incident?, h]
  rfl

theorem incident?_of_fails {failure : Failure}
    (h : (evaluateEntry bag component location entry).failure = some failure) :
    incident? v isAnswer bag component location entry =
      some (incidentOf v isAnswer bag component location entry failure) := by
  rw [failure_evaluateEntry] at h
  rw [incident?, h]
  rfl

/-- A check that panics is a failing one, with the text that the log is told. -/
theorem bind_panicEvent?_incident? :
    (incident? v isAnswer bag component location entry).bind Incident.panicEvent? =
      panicEvent? bag component location entry := by
  cases hf : checkFailure? bag component location entry with
  | none =>
      rw [incident?, hf, panicEvent?_of_passes hf]
      rfl
  | some failure =>
      rw [incident?, hf]
      rfl

theorem failure_of_mem_incident? {i : Incident} {text : String}
    (hi : incident? v isAnswer bag component location entry = some i)
    (h : i.panic? = some text) : i.failure = ⟨"checker_panicked", text, some i.name, []⟩ := by
  obtain ⟨failure, hf, rfl⟩ := Option.map_eq_some_iff.mp hi
  have hpanic : panicText? bag component location entry = some text := h
  rw [checkFailure?_of_panicText? hpanic] at hf
  exact (Option.some.inj hf).symm

end

/-- The failing checks of a call, in order: all of them, or the first for an answer. -/
def CheckCall.incidents (v : Validator) : CheckCall → List Incident
  | report declared bag component location =>
      declared.entries.filterMap (incident? v false bag (shownComponent component) location)
  | answer declared bag component =>
      (declared.entries.filterMap
        (incident? v true bag (shownComponent component) .property)).head?.toList

/-- What the log is told of the checks of a call that panic, in order. For an answer nothing is
checked after the first check that fails. -/
def CheckCall.panicEvents : CheckCall → List Event
  | report declared bag component location =>
      declared.entries.filterMap (panicEvent? bag (shownComponent component) location)
  | answer declared bag component =>
      (upToStop (fun entry => (checkFailure? bag (shownComponent component) .property entry).isNone)
        declared.entries).filterMap (panicEvent? bag (shownComponent component) .property)

theorem filterMap_panicEvent?_head? (v : Validator) (bag : Entries String Value)
    (component : String) (entries : Entries String Declaration) :
    (entries.filterMap (incident? v true bag component .property)).head?.toList.filterMap
        Incident.panicEvent? =
      (upToStop (fun entry => (checkFailure? bag component .property entry).isNone)
        entries).filterMap (panicEvent? bag component .property) := by
  induction entries with
  | nil => rfl
  | cons entry rest ih =>
      cases hf : checkFailure? bag component .property entry with
      | none => simpa [incident?, upToStop, hf, panicEvent?_of_passes hf] using ih
      | some failure =>
          have hi : incident? v true bag component .property entry =
              some (incidentOf v true bag component .property entry failure) :=
            incident?_of_fails (failure_evaluateEntry.trans hf)
          rw [List.filterMap_cons_some hi, upToStop, hf]
          rfl

/-- The checks that panic are among the failing ones, in the same order. -/
theorem CheckCall.filterMap_panicEvent?_incidents (v : Validator) (call : CheckCall) :
    (call.incidents v).filterMap Incident.panicEvent? = call.panicEvents := by
  cases call with
  | report declared bag component location =>
      rw [incidents, panicEvents, List.filterMap_filterMap]
      simp only [bind_panicEvent?_incident?]
  | answer declared bag component =>
      exact filterMap_panicEvent?_head? v bag (shownComponent component) declared.entries

/-- The failure that a panic counts as has the text as its message. -/
theorem CheckCall.failure_of_panic (v : Validator) (call : CheckCall) {i : Incident}
    (hi : i ∈ call.incidents v) {text : String} (h : i.panic? = some text) :
    i.failure = ⟨"checker_panicked", text, some i.name, []⟩ := by
  cases call with
  | report declared bag component location =>
      obtain ⟨entry, -, hentry⟩ := List.mem_filterMap.mp hi
      exact failure_of_mem_incident? hentry h
  | answer declared bag component =>
      have hmem := List.mem_of_head? (Option.mem_toList.mp hi)
      obtain ⟨entry, -, hentry⟩ := List.mem_filterMap.mp hmem
      exact failure_of_mem_incident? hentry h

/-! ## Fates -/

/-- What becomes of a failure. -/
inductive Fate where
  | delivered
  | suppressed
  | ignored
  | answered
deriving DecidableEq

namespace Fate

variable (channel : Channel) (failure : Failure)

/-- What a failure of this fate leaves behind. -/
def effects : Fate → List Effect
  | delivered => [.line channel.sink (failureLine failure.message), .event .emitted]
  | suppressed => [.event (.suppressed failure.code failure.message)]
  | ignored => [.event (.ignored failureFormat)]
  | answered => []

def records : Fate → List Record
  | delivered =>
      (match channel.sink with
        | .log => [⟨.warn, [("message", failureLine failure.message)]⟩]
        | _ => []) ++ [⟨.trace, [("message", "warning emitted"), ("backtrace", "<backtrace>")]⟩]
  | suppressed =>
      [⟨.debug, [("message", "suppressed repeated failure"), ("code", failure.code),
        ("message", failure.message)]⟩]
  | ignored => [⟨.trace, [("message", "ignored legacy warning"), ("format", failureFormat)]⟩]
  | answered => []

theorem records_effects (fate : Fate) :
    (fate.effects channel failure).filterMap Effect.record? = fate.records channel failure := by
  obtain ⟨sink, ignored⟩ := channel
  cases fate with
  | delivered => cases sink <;> rfl
  | _ => rfl

/-- No fate is told as an error. -/
theorem level_ne_error (fate : Fate) :
    ∀ record ∈ fate.records channel failure, record.level ≠ .error := by
  obtain ⟨sink, ignored⟩ := channel
  cases fate with
  | delivered => cases sink <;> simp [records]
  | _ => simp [records]

end Fate

/-- The fates that the call and the channel allow for. -/
inductive Incident.Allows (i : Incident) : Fate → Prop where
  | delivered (hr : i.isAnswer = false) (hd : i.validator.channel.Delivers) : Allows i .delivered
  | suppressed (hr : i.isAnswer = false) : Allows i .suppressed
  | ignored (hr : i.isAnswer = false) (hd : ¬ i.validator.channel.Delivers) : Allows i .ignored
  | answered (ha : i.isAnswer = true) : Allows i .answered

/-- A failing check and what became of the failure. -/
structure Case where
  incident : Incident
  fate : Fate
  allows : incident.Allows fate

namespace Case

/-- A panic is told right before the fate of the failure that it counts as. -/
def effects (e : Case) : List Effect :=
  e.incident.panicEvent?.toList.map .event ++
    e.fate.effects e.incident.validator.channel e.incident.failure

def records (e : Case) : List Record :=
  e.incident.panic?.toList.map (fun text =>
    ⟨.debug, [("message", "checker panicked"), ("prop", e.incident.name),
      ("component", e.incident.component), ("message", text)]⟩) ++
    e.fate.records e.incident.validator.channel e.incident.failure

theorem records_effects (e : Case) : e.effects.filterMap Effect.record? = e.records := by
  obtain ⟨⟨v, isAnswer, name, component, panic?, failure⟩, fate, _⟩ := e
  have hfate := fate.records_effects v.channel failure
  cases panic? with
  | none => exact hfate
  | some text => exact congrArg (List.cons _) hfate

theorem level_ne_error (e : Case) : ∀ record ∈ e.records, record.level ≠ .error := by
  rw [records, List.forall_mem_append]
  refine ⟨?_, e.fate.level_ne_error e.incident.validator.channel e.incident.failure⟩
  simp

/-- The failure is reported through a cache and has the message. -/
def isReportOf (e : Case) (name : CacheName) (message : String) : Bool :=
  !e.incident.isAnswer && e.incident.validator.cache == name &&
    e.incident.failure.message == message

end Case

/-- The fates of the reports of a message through a cache, in order. -/
def fatesOn (name : CacheName) (message : String) (cases : List Case) : List Fate :=
  (cases.filter (·.isReportOf name message)).map Case.fate

section

variable {name : CacheName} {message : String}

theorem fatesOn_append (front rest : List Case) :
    fatesOn name message (front ++ rest) =
      fatesOn name message front ++ fatesOn name message rest := by
  rw [fatesOn, List.filter_append, List.map_append]
  rfl

theorem fatesOn_singleton (e : Case) :
    fatesOn name message [e] = if e.isReportOf name message then [e.fate] else [] := by
  cases h : e.isReportOf name message <;> simp [fatesOn, h]

end

/-- The first report escapes suppression unless its message is known, and no later one does. -/
def OnlyFirstEscapes (isKnown : Bool) : List Fate → Prop
  | [] => True
  | first :: later => (first = .suppressed ↔ isKnown = true) ∧ ∀ fate ∈ later, fate = .suppressed

namespace OnlyFirstEscapes

theorem all_suppressed {fates : List Fate} (h : OnlyFirstEscapes true fates) :
    ∀ fate ∈ fates, fate = .suppressed := by
  cases fates with
  | nil => simp
  | cons first later => exact List.forall_mem_cons.mpr ⟨h.1.mpr rfl, h.2⟩

/-- After a first report the message is known. -/
theorem append {isKnown : Bool} {front rest : List Fate} (h : OnlyFirstEscapes isKnown front)
    (k : OnlyFirstEscapes (isKnown || !front.isEmpty) rest) :
    OnlyFirstEscapes isKnown (front ++ rest) := by
  cases front with
  | nil => simpa using k
  | cons first later =>
      have hrest : ∀ fate ∈ rest, fate = .suppressed := by
        apply all_suppressed
        simpa using k
      exact ⟨h.1, List.forall_mem_append.mpr ⟨h.2, hrest⟩⟩

end OnlyFirstEscapes

/-! ## Settled cases -/

/-- Cases one after the other, from the caches before the first to those after the last. -/
structure Settled (before after : Caches) (cases : List Case) : Prop where
  onlyFirstEscapes : ∀ name message,
    OnlyFirstEscapes ((before.get name).contains message) (fatesOn name message cases)
  contains_eq : ∀ name message, (after.get name).contains message =
    ((before.get name).contains message || !(fatesOn name message cases).isEmpty)

namespace Settled

theorem refl (caches : Caches) : Settled caches caches [] :=
  ⟨fun _ _ => trivial, fun _ _ => (Bool.or_false _).symm⟩

theorem trans {a b c : Caches} {front rest : List Case} (h : Settled a b front)
    (k : Settled b c rest) : Settled a c (front ++ rest) where
  onlyFirstEscapes name message := by
    rw [fatesOn_append]
    apply (h.onlyFirstEscapes name message).append
    rw [← h.contains_eq]
    exact k.onlyFirstEscapes name message
  contains_eq name message := by
    rw [fatesOn_append, k.contains_eq, h.contains_eq, Bool.or_assoc]
    cases fatesOn name message front <;> simp

theorem of_get_eq {a b c : Caches} {cases : List Case} (h : Settled a b cases)
    (hget : ∀ name, c.get name = b.get name) : Settled a c cases :=
  ⟨h.onlyFirstEscapes, fun name message => by rw [hget, h.contains_eq]⟩

end Settled

/-! ## One report -/

/-- The fate of a failure with a message that is reported through a cache. -/
def Channel.fate (channel : Channel) (cache : Cache) (message : String) : Fate :=
  if cache.contains message then .suppressed
  else if channel.ignores failureFormat then .ignored
  else .delivered

section

variable {channel : Channel} {cache : Cache}

theorem Channel.fate_cases (channel : Channel) (cache : Cache) (message : String) :
    (cache.contains message = true ∧ channel.fate cache message = .suppressed) ∨
    (cache.contains message = false ∧ ¬ channel.Delivers ∧
      channel.fate cache message = .ignored) ∨
    (cache.contains message = false ∧ channel.Delivers ∧
      channel.fate cache message = .delivered) := by
  rw [fate, delivers_iff]
  cases cache.contains message <;> cases channel.ignores failureFormat <;> simp

theorem Channel.fate_eq_suppressed_iff {message : String} :
    channel.fate cache message = .suppressed ↔ cache.contains message = true := by
  rcases channel.fate_cases cache message with ⟨h, hf⟩ | ⟨h, -, hf⟩ | ⟨h, -, hf⟩ <;> simp [h, hf]

theorem Channel.snd_report (channel : Channel) (cache : Cache) (failure : Failure) :
    (channel.report cache failure).2 =
      (channel.fate cache failure.message).effects channel failure := by
  rcases channel.fate_cases cache failure.message with ⟨h, hf⟩ | ⟨h, hd, hf⟩ | ⟨h, hd, hf⟩
  · rw [hf, report_of_contains h]
    rfl
  · rw [hf, report_of_not_delivers h hd]
    rfl
  · rw [hf, report_of_delivers h hd]
    rfl

end

/-- The fate that a failing check has when the caches are these. -/
def Incident.fate (caches : Caches) (i : Incident) : Fate :=
  if i.isAnswer then .answered
  else i.validator.channel.fate (caches.get i.validator.cache) i.failure.message

theorem Incident.allows_fate (caches : Caches) (i : Incident) : i.Allows (i.fate caches) := by
  rw [fate]
  cases hi : i.isAnswer with
  | true => exact .answered hi
  | false =>
      rw [if_neg Bool.false_ne_true]
      rcases i.validator.channel.fate_cases (caches.get i.validator.cache) i.failure.message with
        ⟨-, hf⟩ | ⟨-, hd, hf⟩ | ⟨-, hd, hf⟩ <;> rw [hf]
      · exact .suppressed hi
      · exact .ignored hi hd
      · exact .delivered hi hd

/-- A failing check with the fate that it has when the caches are these. -/
def Incident.settle (caches : Caches) (i : Incident) : Case :=
  ⟨i, i.fate caches, i.allows_fate caches⟩

theorem Settled.of_answer (caches : Caches) {i : Incident} (h : i.isAnswer = true) :
    Settled caches caches [i.settle caches] := by
  have hfates (name : CacheName) (message : String) :
      fatesOn name message [i.settle caches] = [] := by
    simp [fatesOn_singleton, Case.isReportOf, Incident.settle, h]
  refine ⟨fun name message => ?_, fun name message => ?_⟩
  · rw [hfates]
    trivial
  · rw [hfates]
    exact (Bool.or_false _).symm

theorem Settled.of_report (caches : Caches) {i : Incident} (h : i.isAnswer = false) :
    Settled caches (caches.set i.validator.cache
      (i.validator.channel.report (caches.get i.validator.cache) i.failure).1)
      [i.settle caches] := by
  have hreport (name : CacheName) (message : String) :
      (i.settle caches).isReportOf name message = true ↔
        i.validator.cache = name ∧ i.failure.message = message := by
    simp [Case.isReportOf, Incident.settle, h]
  have hfate : (i.settle caches).fate =
      i.validator.channel.fate (caches.get i.validator.cache) i.failure.message := by
    simp [Incident.settle, Incident.fate, h]
  refine ⟨fun name message => ?_, fun name message => ?_⟩
  · rw [fatesOn_singleton]
    split
    · rename_i hr
      obtain ⟨rfl, rfl⟩ := (hreport name message).mp hr
      exact ⟨hfate ▸ Channel.fate_eq_suppressed_iff, by simp⟩
    · trivial
  · rw [Channel.fst_report, Caches.get_set, fatesOn_singleton]
    simp only [hreport]
    by_cases hn : i.validator.cache = name
    · subst hn
      by_cases hm : i.failure.message = message
      · simp [Cache.contains_mark, hm]
      · simp [Cache.contains_mark, hm, Ne.symm hm]
    · simp [hn]

theorem effects_settle {v : Validator} {isAnswer : Bool} {bag : Entries String Value}
    {component : String} {location : Location} {entry : String × Declaration} {failure : Failure}
    (caches : Caches) :
    let i := incidentOf v isAnswer bag component location entry failure
    (i.settle caches).effects =
      (evaluateEntry bag component location entry).events.map .event ++
        (i.fate caches).effects v.channel failure := by
  simp only [events_evaluateEntry]
  rfl

/-! ## Calls -/

/-- The failures that are reported of a bag are settled, each against the cache that those before it
leave. -/
theorem exists_settled_reportAll (v : Validator) (bag : Entries String Value) (component : String)
    (location : Location) (caches : Caches) (entries : Entries String Declaration) :
    ∃ cases : List Case,
      cases.map Case.incident = entries.filterMap (incident? v false bag component location) ∧
      (v.channel.reportAll bag component location (caches.get v.cache) entries).effects =
        cases.flatMap Case.effects ∧
      Settled caches (caches.set v.cache
        (v.channel.reportAll bag component location (caches.get v.cache) entries).cache) cases := by
  induction entries generalizing caches with
  | nil =>
      have hkept : ∀ name, (caches.set v.cache (caches.get v.cache)).get name = caches.get name :=
        fun name => caches.get_set_get v.cache name
      exact ⟨[], rfl, rfl, (Settled.refl caches).of_get_eq hkept⟩
  | cons entry rest ih =>
      cases hf : (evaluateEntry bag component location entry).failure with
      | none =>
          rw [reportAll_cons_of_passes v.channel _ hf,
            List.filterMap_cons_none (incident?_of_passes hf)]
          simpa only [events_evaluateEntry_of_passes hf, List.map_nil, List.nil_append] using
            ih caches
      | some failure =>
          let i := incidentOf v false bag component location entry failure
          have hfirst : Settled caches (caches.set v.cache
              (v.channel.report (caches.get v.cache) failure).1) [i.settle caches] :=
            Settled.of_report caches (i := i) rfl
          obtain ⟨cases, hincidents, heffects, hrest⟩ := ih (caches.set v.cache
            (v.channel.report (caches.get v.cache) failure).1)
          simp only [Caches.get_set, if_true] at heffects hrest
          rw [reportAll_cons_of_fails v.channel _ hf,
            List.filterMap_cons_some (incident?_of_fails hf)]
          refine ⟨i.settle caches :: cases, congrArg (i :: ·) hincidents, ?_, ?_⟩
          · rw [List.flatMap_cons, ← heffects, effects_settle]
            simp only [Channel.snd_report]
            rfl
          · apply (hfirst.trans hrest).of_get_eq
            intro name
            exact (caches.get_set_set v.cache name _ _).symm

/-- The first failure of a bag is settled as an answer. -/
theorem exists_settled_firstFailure (v : Validator) (bag : Entries String Value)
    (component : String) (caches : Caches) (entries : Entries String Declaration) :
    ∃ cases : List Case,
      cases.map Case.incident =
        (entries.filterMap (incident? v true bag component .property)).head?.toList ∧
      (firstFailure bag component .property entries).events.map .event =
        cases.flatMap Case.effects ∧
      Settled caches caches cases := by
  induction entries with
  | nil => exact ⟨[], rfl, rfl, .refl caches⟩
  | cons entry rest ih =>
      cases hf : (evaluateEntry bag component .property entry).failure with
      | none =>
          have he := events_evaluateEntry_of_passes hf
          rw [List.filterMap_cons_none (incident?_of_passes hf)]
          rw [evaluateEntry] at hf he
          simpa only [firstFailure, hf, he, List.nil_append] using ih
      | some failure =>
          let i := incidentOf v true bag component .property entry failure
          refine ⟨[i.settle caches], ?_, ?_, .of_answer caches rfl⟩
          · rw [List.filterMap_cons_some (incident?_of_fails hf)]
            rfl
          · rw [List.flatMap_singleton, effects_settle]
            rw [evaluateEntry] at hf ⊢
            simp only [firstFailure, hf]
            exact (List.append_nil _).symm

theorem ask_settled (s : Session) (v : Validator) (call : CheckCall) :
    ∃ cases : List Case,
      cases.map Case.incident = call.incidents v ∧
      (s.ask v call.request).2.effects = cases.flatMap Case.effects ∧
      Settled s.caches (s.ask v call.request).1.caches cases := by
  cases call with
  | report declared bag component location =>
      rw [CheckCall.incidents, ← displayName_eq_shownComponent]
      exact exists_settled_reportAll v bag (displayName component) location s.caches
        declared.entries
  | answer declared bag component =>
      rw [CheckCall.incidents, ← displayName_eq_shownComponent]
      exact exists_settled_firstFailure v bag (displayName component) s.caches declared.entries

/-! ## Runs -/

/-- A run of calls with the cases of each call: every failing check is one of them, so is every
panic, nothing else is told, and no report comes to an error. -/
structure EachHasOneFate (before after : Caches) (calls : List (Validator × CheckCall))
    (replies : List (Validator × Reply)) (cases : List (List Case)) : Prop where
  incidents_eq : cases.map (·.map Case.incident) = calls.map fun (v, call) => call.incidents v
  panicEvents_eq : cases.map (·.filterMap (·.incident.panicEvent?)) =
    calls.map fun (_, call) => call.panicEvents
  effects_eq : replies.map (·.2.effects) = cases.map (·.flatMap Case.effects)
  records_eq : replies.map (·.2.records) = cases.map (·.flatMap Case.records)
  settled : Settled before after cases.flatten
  panics : ∀ e ∈ cases.flatten, ∀ text, e.incident.panic? = some text →
    e.incident.failure = ⟨"checker_panicked", text, some e.incident.name, []⟩
  no_errors : ∀ reply ∈ replies, ∀ record ∈ reply.2.records, record.level ≠ .error

namespace EachHasOneFate

theorem nil (caches : Caches) : EachHasOneFate caches caches [] [] [] :=
  ⟨rfl, rfl, rfl, rfl, .refl caches, by simp, by simp⟩

/-- Runs that follow each other make one run. -/
theorem append {a b c : Caches} {front rest : List (Validator × CheckCall)}
    {frontReplies restReplies : List (Validator × Reply)} {frontCases restCases : List (List Case)}
    (h : EachHasOneFate a b front frontReplies frontCases)
    (k : EachHasOneFate b c rest restReplies restCases) :
    EachHasOneFate a c (front ++ rest) (frontReplies ++ restReplies)
      (frontCases ++ restCases) where
  incidents_eq := by rw [List.map_append, List.map_append, h.incidents_eq, k.incidents_eq]
  panicEvents_eq := by rw [List.map_append, List.map_append, h.panicEvents_eq, k.panicEvents_eq]
  effects_eq := by rw [List.map_append, List.map_append, h.effects_eq, k.effects_eq]
  records_eq := by rw [List.map_append, List.map_append, h.records_eq, k.records_eq]
  settled := by
    rw [List.flatten_append]
    exact h.settled.trans k.settled
  panics := by
    rw [List.flatten_append]
    exact List.forall_mem_append.mpr ⟨h.panics, k.panics⟩
  no_errors := List.forall_mem_append.mpr ⟨h.no_errors, k.no_errors⟩

end EachHasOneFate

/-- One call keeps the law: what it records follows from what its cases leave behind. -/
theorem ask_eachHasOneFate (s : Session) (v : Validator) (call : CheckCall) :
    ∃ cases : List Case, EachHasOneFate s.caches (s.ask v call.request).1.caches [(v, call)]
      [(v, (s.ask v call.request).2)] [cases] := by
  obtain ⟨cases, hincidents, heffects, hsettled⟩ := ask_settled s v call
  have hevents : cases.filterMap (·.incident.panicEvent?) = call.panicEvents := by
    rw [← call.filterMap_panicEvent?_incidents v, ← hincidents, List.filterMap_map]
    rfl
  have hrecords : (s.ask v call.request).2.records = cases.flatMap Case.records := by
    rw [Reply.records, heffects, List.filterMap_flatMap]
    simp only [Case.records_effects]
  have hpanics : ∀ e ∈ cases, ∀ text, e.incident.panic? = some text →
      e.incident.failure = ⟨"checker_panicked", text, some e.incident.name, []⟩ := by
    intro e he text h
    have hmem : e.incident ∈ call.incidents v := by
      rw [← hincidents]
      exact List.mem_map_of_mem he
    exact call.failure_of_panic v hmem h
  have herrors : ∀ record ∈ (s.ask v call.request).2.records, record.level ≠ .error := by
    rw [hrecords]
    simpa using fun record e _ => e.level_ne_error record
  exact ⟨cases, congrArg ([·]) hincidents, congrArg ([·]) hevents, congrArg ([·]) heffects,
    congrArg ([·]) hrecords, by simpa using hsettled, by simpa using hpanics,
    List.forall_mem_singleton.mpr herrors⟩

/-- In a run of any length no failure is lost and none is told twice. -/
theorem callAll_eachHasOneFate (s : Session) (calls : List (Validator × CheckCall)) :
    ∃ cases : List (List Case),
      EachHasOneFate s.caches (s.callAll calls).1.caches calls (s.callAll calls).2 cases := by
  induction calls generalizing s with
  | nil => exact ⟨[], .nil s.caches⟩
  | cons entry rest ih =>
      obtain ⟨v, call⟩ := entry
      obtain ⟨front, hfront⟩ := ask_eachHasOneFate s v call
      obtain ⟨later, hlater⟩ := ih (s.ask v call.request).1
      exact ⟨front :: later, hfront.append hlater⟩

/-- Two reports of one panic: the first is delivered, the second suppressed. -/
example : let v : Validator := ⟨.shared, .strict .stderr⟩
    let size : Declaration := .checker (.custom fun _ _ => .panic (some "no size"))
    let call : CheckCall := .report ⟨[("size", size)]⟩ [("size", .bool true)] none .property
    let panicked : Record := ⟨.debug, [("message", "checker panicked"), ("prop", "size"),
      ("component", anonymousName), ("message", "no size")]⟩
    ((Session.start []).callAll [(v, call), (v, call)]).2.map (·.2.records) =
      [[panicked, ⟨.trace, [("message", "warning emitted"), ("backtrace", "<backtrace>")]⟩],
        [panicked, ⟨.debug, [("message", "suppressed repeated failure"),
          ("code", "checker_panicked"), ("message", "no size")]⟩]] := by
  decide +kernel

end AttributeCheck
