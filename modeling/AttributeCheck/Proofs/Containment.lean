import AttributeCheck.Proofs.Modes
import AttributeCheck.Proofs.Supply
import Mathlib.Data.List.Forall2

/-! # A panic is contained and counts as a plain failure

A rule of the host that panics could as well reject with the text of the panic. Outside of unions,
which go on after a rejection but not after a panic, that makes no difference to the lines and the
caches that checking a bag leaves behind. It shows in the code, the field and the log only. -/

namespace AttributeCheck

/-! ## Rejecting in place of a panic -/

/-- What is told of a panic: its text, or that there was one. -/
def payloadText : Option String → String
  | some text => text
  | none => "checker panicked"

theorem panicText_eq_payloadText (text : Option String) : panicText text = payloadText text := by
  cases text <;> rfl

/-- What rules reject with in place of a panic: failures with its text as their message, and with
any code, field and parameters. -/
structure Substitute where
  failure : Value → Site → String → Failure
  message_eq (v : Value) (site : Site) (text : String) : (failure v site text).message = text

/-- As the rule, but rejects where that one panics. -/
def HostRule.tamed (s : Substitute) (rule : HostRule) : HostRule := fun v site =>
  match rule v site with
  | .panic text => .reject (s.failure v site (payloadText text))
  | verdict => verdict

mutual

/-- Tames the rules of the host in a rule, at any depth outside of unions. -/
def Rule.tamed (s : Substitute) : Rule → Rule
  | .arrayOf item => .arrayOf (item.tamed s)
  | .objectOf property => .objectOf (property.tamed s)
  | .shape fields => .shape (tamedFields s fields)
  | .custom rule => .custom (HostRule.tamed s rule)
  | .observed label inner => .observed label (inner.tamed s)
  | rule => rule

def Checker.tamed (s : Substitute) : Checker → Checker
  | .mk rule isRequired => .mk (rule.tamed s) isRequired

def tamedFields (s : Substitute) :
    List (String × Option Checker) → List (String × Option Checker)
  | [] => []
  | (name, none) :: rest => (name, none) :: tamedFields s rest
  | (name, some field) :: rest => (name, some (field.tamed s)) :: tamedFields s rest

end

def Declaration.tamed (s : Substitute) : Declaration → Declaration
  | .checker c => .checker (c.tamed s)
  | .invalid v => .invalid v

/-- The same declared attribute with tamed rules. -/
def tamedEntry (s : Substitute) (entry : String × Declaration) : String × Declaration :=
  (entry.1, entry.2.tamed s)

def Declarations.tamed (s : Substitute) (declared : Declarations) : Declarations :=
  ⟨declared.entries.map (tamedEntry s)⟩

/-! ## Outcomes of tamed rules -/

/-- The same verdict, or a rejection in place of a panic. -/
inductive Verdict.Tames : Verdict → Verdict → Prop where
  | same (verdict : Verdict) : Tames verdict verdict
  | panic {text : Option String} {failure : Failure} (h : failure.message = payloadText text) :
      Tames (.panic text) (.reject failure)

/-- The same call, with the same verdict or a rejection in place of a panic. -/
structure Call.Tames (call other : Call) : Prop where
  label_eq : call.label = other.label
  site_eq : call.site = other.site
  value_eq : call.value = other.value
  verdict : call.verdict.Tames other.verdict

theorem Call.Tames.refl (call : Call) : call.Tames call :=
  ⟨rfl, rfl, rfl, .same call.verdict⟩

/-- The same outcome, or a rejection in place of a panic, after the same calls. -/
inductive Outcome.Tames : Outcome → Outcome → Prop where
  | same (o : Outcome) : Tames o o
  | panic {text : Option String} {failure : Failure} {calls others : List Call}
      (h : failure.message = payloadText text) (hc : List.Forall₂ Call.Tames calls others) :
      Tames ⟨.panic text, calls⟩ ⟨.reject failure, others⟩

namespace Outcome.Tames

theorem after {o p : Outcome} (h : o.Tames p) (calls : List Call) :
    (o.after calls).Tames (p.after calls) := by
  cases h with
  | same => exact .same _
  | panic h hc =>
      have hfront : List.Forall₂ Call.Tames calls calls :=
        List.forall₂_same.mpr fun call _ => .refl call
      exact .panic h (List.rel_append hfront hc)

theorem eq_of_not_panics {o p : Outcome} (h : o.Tames p) (ho : ∀ text, o.verdict ≠ .panic text) :
    p = o := by
  cases h with
  | same => rfl
  | panic => exact absurd rfl (ho _)

/-- A panic and a rejection both keep a container from going on. -/
theorem andThen {o p : Outcome} {next other : Unit → Outcome} (h : o.Tames p)
    (hn : (next ()).Tames (other ())) : (o.andThen next).Tames (p.andThen other) := by
  cases h with
  | same =>
      obtain ⟨verdict, calls⟩ := o
      cases verdict with
      | accept => exact hn.after calls
      | reject failure => exact .same _
      | panic text => exact .same _
  | panic h hc => exact .panic h hc

theorem forEach {check other : String → Value → Outcome}
    (h : ∀ name x, (check name x).Tames (other name x)) (entries : List (String × Value)) :
    (Outcome.forEach check entries).Tames (Outcome.forEach other entries) := by
  induction entries with
  | nil => exact .same _
  | cons entry rest ih =>
      obtain ⟨name, x⟩ := entry
      exact (h name x).andThen ih

/-- The note on an observed checker says how it ended. -/
theorem observe {o p : Outcome} (h : o.Tames p) (label : String) (site : Site) (v : Value) :
    (o.after [⟨some label, site, v, o.verdict⟩]).Tames
      (p.after [⟨some label, site, v, p.verdict⟩]) := by
  cases h with
  | same => exact .same _
  | panic h hc => exact .panic h (.cons ⟨rfl, rfl, rfl, .panic h⟩ hc)

theorem custom (s : Substitute) (rule : HostRule) (v : Value) (site : Site) :
    ((Rule.custom rule).run v site).Tames ((Rule.custom (HostRule.tamed s rule)).run v site) := by
  rw [Rule.run, Rule.run, HostRule.tamed]
  cases rule v site with
  | accept => exact .same _
  | reject failure => exact .same _
  | panic text =>
      have hm := s.message_eq v site (payloadText text)
      exact .panic hm (.cons ⟨rfl, rfl, rfl, .panic hm⟩ .nil)

end Outcome.Tames

-- Unions are left as they are, so their alternatives need no case here.
mutual

theorem Rule.run_tames (s : Substitute) (rule : Rule) (v : Value) (site : Site) :
    (rule.run v site).Tames ((rule.tamed s).run v site) := by
  cases rule with
  | arrayOf item =>
      cases v with
      | array items =>
          rw [Rule.tamed, Rule.run, Rule.run]
          exact .forEach (fun name x => item.run_tames s (some x) (site.within name)) _
      | _ => exact .same _
  | objectOf property =>
      rw [Rule.tamed, Rule.run, Rule.run]
      split
      · exact .forEach (fun name x => property.run_tames s (some x) (site.within name)) _
      · exact .same _
  | shape fields =>
      rw [Rule.tamed, Rule.run, Rule.run]
      split
      · exact runFields_tames s fields v site
      · exact .same _
  | custom rule => exact .custom s rule v site
  | observed label inner =>
      rw [Rule.tamed, Rule.run, Rule.run]
      exact (inner.run_tames s (some v) site).observe label site v
  | _ => exact .same _

theorem Checker.run_tames (s : Substitute) (c : Checker) (supplied : Option Value) (site : Site) :
    (c.run supplied site).Tames ((c.tamed s).run supplied site) := by
  obtain ⟨rule, isRequired⟩ := c
  rw [Checker.tamed]
  rcases isAbsent_or_supplied supplied with ha | ⟨v, rfl, hv⟩
  · rw [Checker.run_of_isAbsent ha, Checker.run_of_isAbsent ha]
    exact .same _
  · rw [Checker.run_some hv, Checker.run_some hv]
    exact rule.run_tames s v site

theorem runFields_tames (s : Substitute) (fields : List (String × Option Checker)) (v : Value)
    (site : Site) : (runFields fields v site).Tames (runFields (tamedFields s fields) v site) := by
  cases fields with
  | nil => exact .same _
  | cons field rest =>
      obtain ⟨name, checker?⟩ := field
      cases checker? with
      | none =>
          rw [tamedFields, runFields, runFields]
          exact runFields_tames s rest v site
      | some c =>
          have hfield := c.run_tames s (v.property? name) (site.within name)
          have hrest := runFields_tames s rest v site
          rw [tamedFields, runFields, runFields]
          exact hfield.andThen hrest

end

/-! ## Evaluations of tamed declarations -/

/-- The failure of a declared attribute whose check panics. It names the attribute, also when the
rule was asked for something inside the value. -/
def panicFailure (name : String) (text : Option String) : Failure :=
  ⟨"checker_panicked", payloadText text, some name, []⟩

/-- The same evaluation of a declared attribute, or one that fails with the same message, where a
panic is caught before. -/
inductive Evaluation.Tames (name component : String) : Evaluation → Evaluation → Prop where
  | same (e : Evaluation) : Tames name component e e
  | panic {text : Option String} {failure : Failure} {calls others : List Call}
      (h : failure.message = payloadText text) (hc : List.Forall₂ Call.Tames calls others) :
      Tames name component
        ⟨some (panicFailure name text), [.panicked name component (payloadText text)], calls⟩
        ⟨some failure, [], others⟩

theorem Evaluation.Tames.failure_cases {name component : String} {e f : Evaluation}
    (h : e.Tames name component f) :
    (e.failure = none ∧ f.failure = none) ∨
      ∃ failure other, e.failure = some failure ∧ f.failure = some other ∧
        failure.message = other.message := by
  cases h with
  | same =>
      cases hf : e.failure with
      | none => exact .inl ⟨rfl, rfl⟩
      | some failure => exact .inr ⟨failure, failure, rfl, rfl, rfl⟩
  | panic h _ => exact .inr ⟨_, _, rfl, rfl, h.symm⟩

section

variable {bag : Entries String Value} {component : String} {location : Location}

theorem evaluateEntry_of_panics {name : String} {c : Checker} {text : Option String}
    (h : (c.check bag name (some component) location).verdict = .panic text) :
    evaluateEntry bag component location (name, .checker c) =
      ⟨some (panicFailure name text), [.panicked name component (payloadText text)],
        (c.check bag name (some component) location).calls⟩ := by
  simp only [evaluateEntry, Declaration.evaluate, h, panicText_eq_payloadText]
  rfl

theorem evaluateEntry_tames (s : Substitute) (entry : String × Declaration) :
    (evaluateEntry bag component location entry).Tames entry.1 component
      (evaluateEntry bag component location (tamedEntry s entry)) := by
  obtain ⟨name, declaration⟩ := entry
  cases declaration with
  | invalid v => exact .same _
  | checker c =>
      have hrun : (c.check bag name (some component) location).Tames
          ((c.tamed s).check bag name (some component) location) :=
        c.run_tames s (Entries.get? bag name) _
      simp only [evaluateEntry, Declaration.evaluate, tamedEntry, Declaration.tamed,
        panicText_eq_payloadText]
      generalize c.check bag name (some component) location = o at hrun
      generalize (c.tamed s).check bag name (some component) location = p at hrun
      cases hrun with
      | same => exact .same _
      | panic h hc => exact .panic h hc

end

/-! ## Reports of tamed declarations -/

/-- Failures with one message are reported alike, but for the code in the log. -/
theorem Channel.report_of_message_eq (channel : Channel) (cache : Cache) {failure other : Failure}
    (h : failure.message = other.message) :
    (channel.report cache failure).1 = (channel.report cache other).1 ∧
      sinkLines (channel.report cache failure).2 = sinkLines (channel.report cache other).2 := by
  constructor
  · rw [fst_report, fst_report, h]
  · by_cases hc : cache.contains other.message = true
    · rw [report_of_contains hc, report_of_contains (h ▸ hc)]
      rfl
    · rw [Bool.not_eq_true] at hc
      by_cases hd : channel.Delivers
      · rw [report_of_delivers hc hd, report_of_delivers (h ▸ hc) hd, h]
      · rw [report_of_not_delivers hc hd, report_of_not_delivers (h ▸ hc) hd]

theorem reportAll_tamed (s : Substitute) (channel : Channel) (bag : Entries String Value)
    (component : String) (location : Location) (cache : Cache)
    (entries : Entries String Declaration) :
    let report := channel.reportAll bag component location cache entries
    let other := channel.reportAll bag component location cache (entries.map (tamedEntry s))
    report.cache = other.cache ∧ sinkLines report.effects = sinkLines other.effects := by
  induction entries generalizing cache with
  | nil => exact ⟨rfl, rfl⟩
  | cons entry rest ih =>
      rw [List.map_cons]
      have hentry : (evaluateEntry bag component location entry).Tames entry.1 component
          (evaluateEntry bag component location (tamedEntry s entry)) := evaluateEntry_tames s entry
      rcases hentry.failure_cases with ⟨hf, hg⟩ | ⟨failure, other, hf, hg, hm⟩
      · rw [reportAll_cons_of_passes channel cache hf, reportAll_cons_of_passes channel cache hg]
        simpa only [sinkLines_append, sinkLines_events, List.nil_append] using ih cache
      · rw [reportAll_cons_of_fails channel cache hf, reportAll_cons_of_fails channel cache hg]
        obtain ⟨hcache, hlines⟩ := channel.report_of_message_eq cache hm
        simp only [sinkLines_append, sinkLines_events, List.nil_append, hcache, hlines]
        exact (ih _).imp id (congrArg _)

theorem messages_failuresOf_tamed (s : Substitute) (bag : Entries String Value)
    (component : String) (location : Location) (entries : Entries String Declaration) :
    (failuresOf bag component location entries).map Failure.message =
      (failuresOf bag component location (entries.map (tamedEntry s))).map Failure.message := by
  induction entries with
  | nil => rfl
  | cons entry rest ih =>
      rw [List.map_cons]
      have hentry : (evaluateEntry bag component location entry).Tames entry.1 component
          (evaluateEntry bag component location (tamedEntry s entry)) := evaluateEntry_tames s entry
      rcases hentry.failure_cases with ⟨hf, hg⟩ | ⟨failure, other, hf, hg, hm⟩
      · rw [failuresOf_cons_of_passes hf, failuresOf_cons_of_passes hg, ih]
      · rw [failuresOf_cons_of_fails hf, failuresOf_cons_of_fails hg, List.map_cons, List.map_cons,
          hm, ih]

/-! ## A panic counts as a failure -/

/-- How checking a bag against declarations compares with checking it against tamed ones. -/
structure PanicsContained (s : Substitute) (v : Validator) (caches : Caches)
    (declared : Declarations) (bag : Entries String Value) (component : Option String)
    (location : Location) : Prop where
  /-- All declared attributes are evaluated, each for itself. -/
  calls_eq : (v.validate caches declared bag component location).2.2 =
    callsOf bag (displayName component) location declared.entries
  caught : ∀ name c text, (name, .checker c) ∈ declared.entries →
    (c.check bag name (some (displayName component)) location).verdict = .panic text →
    (evaluateEntry bag (displayName component) location (name, .checker c)).failure =
      some (panicFailure name text)
  unaffected : ∀ entry ∈ declared.entries,
    (∀ c text, entry.2 = .checker c →
      (c.check bag entry.1 (some (displayName component)) location).verdict ≠ .panic text) →
    evaluateEntry bag (displayName component) location (tamedEntry s entry) =
      evaluateEntry bag (displayName component) location entry
  evaluations : ∀ entry ∈ declared.entries,
    (evaluateEntry bag (displayName component) location entry).Tames entry.1
      (displayName component) (evaluateEntry bag (displayName component) location
        (tamedEntry s entry))
  lines_eq : sinkLines (v.validate caches declared bag component location).2.1 =
    sinkLines (v.validate caches (declared.tamed s) bag component location).2.1
  caches_eq : (v.validate caches declared bag component location).1 =
    (v.validate caches (declared.tamed s) bag component location).1
  firstFailure_message : (declared.firstFailure bag component).failure.map Failure.message =
    ((declared.tamed s).firstFailure bag component).failure.map Failure.message
  /-- The answer when the first attribute that fails is one whose check panics. -/
  firstFailure_of_panics : ∀ passed name c rest text,
    declared.entries = passed ++ (name, .checker c) :: rest →
    (∀ entry ∈ passed,
      (evaluateEntry bag (displayName component) .property entry).failure = none) →
    (c.check bag name (some (displayName component)) .property).verdict = .panic text →
    (declared.firstFailure bag component).failure = some (panicFailure name text)

theorem evaluateEntry_tamed_of_not_panics (s : Substitute) {bag : Entries String Value}
    {component : String} {location : Location} {entry : String × Declaration}
    (h : ∀ c text, entry.2 = .checker c →
      (c.check bag entry.1 (some component) location).verdict ≠ .panic text) :
    evaluateEntry bag component location (tamedEntry s entry) =
      evaluateEntry bag component location entry := by
  obtain ⟨name, declaration⟩ := entry
  cases declaration with
  | invalid v => rfl
  | checker c =>
      have hrun : (c.check bag name (some component) location).Tames
          ((c.tamed s).check bag name (some component) location) :=
        c.run_tames s (Entries.get? bag name) _
      have heq := hrun.eq_of_not_panics fun text => h c text rfl
      simp only [evaluateEntry, Declaration.evaluate, tamedEntry, Declaration.tamed, heq]

theorem failure_firstFailure (declared : Declarations) (bag : Entries String Value)
    (component : Option String) :
    (declared.firstFailure bag component).failure =
      (failuresOf bag (displayName component) .property declared.entries).head? :=
  (firstFailure_stops declared.entries).failure_eq

/-- Rules of the host may panic or, outside of unions, reject with the same text: every attribute is
evaluated, the lines and caches are the same, and the answer with the first failure has the same
message. A panic is answered under the name of the attribute. -/
theorem panics_contained (s : Substitute) (v : Validator) (caches : Caches)
    (declared : Declarations) (bag : Entries String Value) (component : Option String)
    (location : Location) : PanicsContained s v caches declared bag component location where
  calls_eq := calls_reportAll v.channel (caches.get v.cache) declared.entries
  caught name c text _ h := by rw [evaluateEntry_of_panics h]
  unaffected entry _ h := evaluateEntry_tamed_of_not_panics s h
  evaluations entry _ := evaluateEntry_tames s entry
  lines_eq := (reportAll_tamed s v.channel bag (displayName component) location
    (caches.get v.cache) declared.entries).2
  caches_eq := by
    have h := (reportAll_tamed s v.channel bag (displayName component) location
      (caches.get v.cache) declared.entries).1
    exact congrArg (caches.set v.cache) h
  firstFailure_message := by
    have h := messages_failuresOf_tamed s bag (displayName component) .property declared.entries
    rw [failure_firstFailure, failure_firstFailure, ← List.head?_map, ← List.head?_map, h]
    rfl
  firstFailure_of_panics passed name c rest text hs hpassed h := by
    have hfails : (evaluateEntry bag (displayName component) .property (name, .checker c)).failure =
        some (panicFailure name text) := by rw [evaluateEntry_of_panics h]
    rw [failure_firstFailure, hs, failuresOf_append_of_pass hpassed,
      failuresOf_cons_of_fails hfails]
    rfl

/-- The second size has no name of its own in the failure of the panic. A rejection keeps it. -/
example : let sizes : Checker := .arrayOf (.custom fun _ site =>
      .panic (some ("no size: " ++ site.name)))
    let substitute : Substitute :=
      ⟨fun _ site text => (Failure.plain "size" text).withField site.name, fun _ _ _ => rfl⟩
    let failureOf (c : Checker) := (evaluateEntry [("sizes", .array [.null, .bool true])] "Box"
      .property ("sizes", .checker c)).failure
    (failureOf sizes, failureOf (sizes.tamed substitute)) =
      (some ⟨"checker_panicked", "no size: 1", some "sizes", []⟩,
        some ⟨"size", "no size: 1", some "1", []⟩) :=
  rfl

end AttributeCheck
