import AttributeCheck.Proofs.Reporting

/-! # Reporting all failures and answering with the first agree

The two ways to check a bag go through the same declarations. One stops at the first that fails and
changes nothing, the other reports and goes on. -/

namespace AttributeCheck

variable {bag : Entries String Value} {component : String} {location : Location}

/-- The calls of host rules that checking declared attributes makes, in order. -/
def callsOf (bag : Entries String Value) (component : String) (location : Location)
    (entries : Entries String Declaration) : List Call :=
  entries.flatMap fun entry => (evaluateEntry bag component location entry).calls

/-! ## Going through all declarations -/

theorem calls_reportAll (channel : Channel) (cache : Cache) (entries : Entries String Declaration) :
    (channel.reportAll bag component location cache entries).calls =
      callsOf bag component location entries := by
  induction entries generalizing cache with
  | nil => rfl
  | cons entry rest ih =>
      cases hf : (evaluateEntry bag component location entry).failure with
      | none =>
          rw [reportAll_cons_of_passes channel cache hf]
          simp only [ih, callsOf, List.flatMap_cons]
      | some failure =>
          rw [reportAll_cons_of_fails channel cache hf]
          simp only [ih, callsOf, List.flatMap_cons]

/-- With an empty cache the first failure is the first to be delivered. -/
theorem head?_sinkLines_reportAll {channel : Channel} (hd : channel.Delivers) {cache : Cache}
    (hc : cache.messages = []) (entries : Entries String Declaration) :
    (sinkLines (channel.reportAll bag component location cache entries).effects).head? =
      (failuresOf bag component location entries).head?.map fun failure =>
        (channel.sink, failureLine failure.message) := by
  induction entries with
  | nil => rfl
  | cons entry rest ih =>
      cases hf : (evaluateEntry bag component location entry).failure with
      | none =>
          rw [reportAll_cons_of_passes channel cache hf, failuresOf_cons_of_passes hf]
          simpa only [sinkLines_append, sinkLines_events, List.nil_append] using ih
      | some failure =>
          have hnew : cache.contains failure.message = false := by simp [Cache.contains, hc]
          rw [reportAll_cons_of_fails channel cache hf, failuresOf_cons_of_fails hf,
            Channel.report_of_delivers hnew hd]
          simp only [sinkLines_append, sinkLines_events, List.nil_append]
          rfl

/-! ## Stopping at the first failure -/

/-- How stopping at the first failure ends: no declaration fails, or one does after others that
pass, and it is the last that is checked. -/
inductive Stops (bag : Entries String Value) (component : String) (location : Location)
    (entries : Entries String Declaration) (e : Evaluation) : Prop where
  | passes (h : ∀ entry ∈ entries, (evaluateEntry bag component location entry).failure = none)
      (hf : e.failure = none) (hc : e.calls = callsOf bag component location entries)
  | fails {passed rest : Entries String Declaration} {last : String × Declaration}
      {failure : Failure} (hs : entries = passed ++ last :: rest)
      (h : ∀ entry ∈ passed, (evaluateEntry bag component location entry).failure = none)
      (hl : (evaluateEntry bag component location last).failure = some failure)
      (hf : e.failure = some failure)
      (hc : e.calls = callsOf bag component location (passed ++ [last]))

theorem firstFailure_stops (entries : Entries String Declaration) :
    Stops bag component location entries (firstFailure bag component location entries) := by
  induction entries with
  | nil => exact .passes (by simp) rfl rfl
  | cons entry rest ih =>
      cases hf : (evaluateEntry bag component location entry).failure with
      | none =>
          have he := hf
          rw [evaluateEntry] at he
          simp only [firstFailure, he]
          cases ih with
          | passes h hf' hc =>
              exact .passes (List.forall_mem_cons.mpr ⟨hf, h⟩) hf' (by rw [hc]; rfl)
          | fails hs h hl hf' hc =>
              refine .fails (congrArg (entry :: ·) hs) (List.forall_mem_cons.mpr ⟨hf, h⟩) hl hf' ?_
              rw [hc]
              rfl
      | some failure =>
          have he := hf
          rw [evaluateEntry] at he
          simp only [firstFailure, he]
          have hs : entry :: rest = [] ++ entry :: rest := rfl
          exact .fails hs (by simp) hf hf (List.flatMap_singleton ..).symm

theorem Stops.failure_eq {entries : Entries String Declaration} {e : Evaluation}
    (h : Stops bag component location entries e) :
    e.failure = (failuresOf bag component location entries).head? := by
  cases h with
  | passes h hf _ =>
      rw [hf, failuresOf, List.filterMap_eq_nil_iff.mpr h]
      rfl
  | fails hs h hl hf _ =>
      rw [hf, hs, failuresOf_append_of_pass h, failuresOf_cons_of_fails hl]
      rfl

theorem Stops.calls_prefix {entries : Entries String Declaration} {e : Evaluation}
    (h : Stops bag component location entries e) :
    e.calls <+: callsOf bag component location entries := by
  cases h with
  | passes _ _ hc =>
      exact ⟨[], by rw [hc, List.append_nil]⟩
  | @fails passed rest last failure hs _ _ _ hc =>
      have hsplit : entries = passed ++ [last] ++ rest := by
        rw [hs, List.append_cons]
      refine ⟨callsOf bag component location rest, ?_⟩
      rw [hc, hsplit]
      exact List.flatMap_append.symm

/-! ## Agreement -/

/-- A call that answers with the first failure leaves the session as it is and delivers no line. -/
theorem ask_firstFailure (s : Session) (v : Validator) (declared : Declarations)
    (bag : Entries String Value) (component : Option String) :
    (s.ask v (.firstFailure declared bag component)).1 = s ∧
      sinkLines (s.ask v (.firstFailure declared bag component)).2.effects = [] := by
  refine ⟨?_, sinkLines_events _⟩
  have hnotes (events : List Event) : (events.map Effect.event).filterMap Effect.note? = [] := by
    simp [Effect.note?]
  simp [Session.ask, Validator.answer, Reply.notes, hnotes]

/-- A call that answers with the first failure agrees with one that reports all of them to a sink.
Both go through the declared attributes of a bag. -/
structure Agree (bag : Entries String Value) (component : String) (location : Location)
    (entries : Entries String Declaration) (sink : Sink) (answering reporting : Reply) : Prop where
  accepts_iff : answering.answer = .verdict none ↔ sinkLines reporting.effects = []
  calls_reporting : reporting.calls = callsOf bag component location entries
  calls_prefix : answering.calls <+: reporting.calls
  passes : sinkLines reporting.effects = [] → answering.calls = reporting.calls
  fails : sinkLines reporting.effects ≠ [] → ∃ failure passed last rest,
    answering.answer = .verdict (some failure) ∧
    (sinkLines reporting.effects).head? = some (sink, failureLine failure.message) ∧
    entries = passed ++ last :: rest ∧
    (∀ entry ∈ passed, (evaluateEntry bag component location entry).failure = none) ∧
    (evaluateEntry bag component location last).failure = some failure ∧
    answering.calls = callsOf bag component location (passed ++ [last])

theorem Stops.agree {entries : Entries String Declaration} {e : Evaluation}
    (h : Stops bag component location entries e) {sink : Sink} {reporting : Reply}
    (hcalls : reporting.calls = callsOf bag component location entries)
    (hhead : (sinkLines reporting.effects).head? =
      (failuresOf bag component location entries).head?.map fun failure =>
        (sink, failureLine failure.message)) (effects : List Effect) :
    Agree bag component location entries sink ⟨.verdict e.failure, effects, e.calls⟩ reporting := by
  rw [← h.failure_eq] at hhead
  refine ⟨?_, hcalls, hcalls ▸ h.calls_prefix, ?_, ?_⟩
  · rw [← List.head?_eq_none_iff, hhead]
    simp
  · intro hlines
    cases h with
    | passes _ _ hc => rw [hc, hcalls]
    | fails _ _ _ hf _ => simp [hf, hlines] at hhead
  · intro hlines
    cases h with
    | passes _ hf _ => simp [hf, hlines] at hhead
    | fails hs h hl hf hc =>
        rw [hf] at hhead ⊢
        exact ⟨_, _, _, _, rfl, hhead, hs, h, hl, hc⟩

/-- Answering with the first failure has no effect on caches and sinks, and on an empty cache and a
channel that delivers it agrees with reporting all failures. -/
theorem firstFailure_agrees_with_validate (v : Validator) (declared : Declarations)
    (bag : Entries String Value) (component : Option String) :
    (∀ s : Session, (s.ask v (.firstFailure declared bag component)).1 = s ∧
      sinkLines (s.ask v (.firstFailure declared bag component)).2.effects = []) ∧
    ∀ s : Session, (s.caches.get v.cache).messages = [] → v.channel.Delivers →
      Agree bag (displayName component) .property declared.entries v.channel.sink
        (s.ask v (.firstFailure declared bag component)).2
        (s.ask v (.validate declared bag component .property)).2 := by
  refine ⟨fun s => ask_firstFailure s v declared bag component, fun s hc hd => ?_⟩
  have h : Stops bag (displayName component) .property declared.entries
      (firstFailure bag (displayName component) .property declared.entries) :=
    firstFailure_stops declared.entries
  exact h.agree (calls_reportAll v.channel _ declared.entries)
    (head?_sinkLines_reportAll hd hc declared.entries) _

/-- A declaration that passes stands before one whose rule panics and one that is no checker. -/
theorem agree_on_panic_and_mistake :
    ((Session.start []).caches.get .shared).messages = [] ∧
      (Channel.legacy .stderr).Delivers ∧
      Agree [("icon", .bool true)] anonymousName .property
        [("size", .checker .number), ("icon", .checker (.custom fun _ _ => .panic none)),
          ("label", .invalid .null)] .stderr
        ((Session.start []).ask ⟨.shared, .legacy .stderr⟩ (.firstFailure
          ⟨[("size", .checker .number), ("icon", .checker (.custom fun _ _ => .panic none)),
            ("label", .invalid .null)]⟩ [("icon", .bool true)] none)).2
        ((Session.start []).ask ⟨.shared, .legacy .stderr⟩ (.validate
          ⟨[("size", .checker .number), ("icon", .checker (.custom fun _ _ => .panic none)),
            ("label", .invalid .null)]⟩ [("icon", .bool true)] none .property)).2 :=
  ⟨rfl, Channel.delivers_legacy .stderr,
    (firstFailure_agrees_with_validate ⟨.shared, .legacy .stderr⟩ _ _ none).2 (Session.start []) rfl
      (Channel.delivers_legacy .stderr)⟩

end AttributeCheck
