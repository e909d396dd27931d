import AttributeCheck.Checker.Basic

/-! # Outcomes of checks

An outcome goes with the calls that led to it. Two outcomes are joined by going on after an
acceptance, as containers do, or by going on after a rejection, as unions do. -/

namespace AttributeCheck

/-- A use of a rule written by the host, or of an observed checker, which has a label; how it ended
is noted. -/
structure Call where
  label : Option String
  site : Site
  value : Value
  verdict : Verdict

/-- How a check ended, and the calls it made, in order. -/
structure Outcome where
  verdict : Verdict
  calls : List Call

namespace Outcome

def accept : Outcome :=
  ⟨.accept, []⟩

def fault (site : Site) (f : Fault) : Outcome :=
  ⟨.reject (site.failure f), []⟩

def after (calls : List Call) (o : Outcome) : Outcome :=
  ⟨o.verdict, calls ++ o.calls⟩

/-- Goes on only after an acceptance. -/
def andThen (o : Outcome) (next : Unit → Outcome) : Outcome :=
  match o.verdict with
  | .accept => (next ()).after o.calls
  | _ => o

/-- Goes on only after a rejection: an acceptance settles the check, and so does a panic. -/
def orElse (o : Outcome) (next : Unit → Outcome) : Outcome :=
  match o.verdict with
  | .reject _ => (next ()).after o.calls
  | _ => o

/-- Runs a check on each entry, up to the first one that is not accepted. -/
def forEach (check : String → Value → Outcome) : List (String × Value) → Outcome
  | [] => accept
  | (name, value) :: rest => (check name value).andThen fun _ => forEach check rest

/-! ### Verdicts of joined checks -/

theorem verdict_andThen (o : Outcome) (next : Unit → Outcome) :
    (o.andThen next).verdict = match o.verdict with
      | .accept => (next ()).verdict
      | other => other := by
  obtain ⟨verdict, calls⟩ := o
  cases verdict <;> rfl

theorem verdict_orElse (o : Outcome) (next : Unit → Outcome) :
    (o.orElse next).verdict = match o.verdict with
      | .reject _ => (next ()).verdict
      | other => other := by
  obtain ⟨verdict, calls⟩ := o
  cases verdict <;> rfl

end Outcome

end AttributeCheck
