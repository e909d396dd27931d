import AttributeCheck.Cache
import AttributeCheck.Declarations
import AttributeCheck.Warning.Channel

/-! # Validators: each distinct failure is reported once -/

namespace AttributeCheck

/-- The format of the warning for a failure. -/
def failureFormat : String :=
  "Failed propType: %s"

/-- Reports a failure on a channel, unless its message is in the cache. -/
def Channel.report (channel : Channel) (cache : Cache) (failure : Failure) :
    Cache × List Effect :=
  match cache.mark failure.message with
  | (false, cache) => (cache, [.event (.suppressed failure.code failure.message)])
  | (true, cache) =>
      match channel.warn false (some failureFormat) [failure.message] with
      | (.ok (), effects) => (cache, effects)
      | (.error misuse, effects) => (cache, effects ++ [.event (.unreported misuse)])

/-- What checking an attribute bag leaves behind. -/
structure Report where
  cache : Cache
  effects : List Effect
  calls : List Call

/-- Checks the declared attributes in order, and reports the failure of each. -/
def Channel.reportAll (channel : Channel) (bag : Entries String Value) (component : String)
    (location : Location) (cache : Cache) : Entries String Declaration → Report
  | [] => ⟨cache, [], []⟩
  | (name, declaration) :: rest =>
      let evaluation := declaration.evaluate name bag component location
      let (cache, effects) := match evaluation.failure with
        | some failure => channel.report cache failure
        | none => (cache, [])
      let report := channel.reportAll bag component location cache rest
      ⟨report.cache, evaluation.events.map .event ++ effects ++ report.effects,
        evaluation.calls ++ report.calls⟩

/-- Checks the declared attributes in order up to the first failure. -/
def firstFailure (bag : Entries String Value) (component : String) (location : Location) :
    Entries String Declaration → Evaluation
  | [] => ⟨none, [], []⟩
  | (name, declaration) :: rest =>
      let evaluation := declaration.evaluate name bag component location
      match evaluation.failure with
      | some _ => evaluation
      | none =>
          let later := firstFailure bag component location rest
          ⟨later.failure, evaluation.events ++ later.events, evaluation.calls ++ later.calls⟩

/-- A validator remembers in a cache and warns on a channel. -/
structure Validator where
  cache : CacheName
  channel : Channel

namespace Validator

/-- The validator of the whole process: the shared cache, and warnings to the log. -/
def standard : Validator :=
  ⟨.shared, .legacy .log⟩

/-- Checks an attribute bag against declarations and reports each new failure. -/
def validate (v : Validator) (caches : Caches) (declared : Declarations)
    (bag : Entries String Value) (component : Option String) (location : Location) :
    Caches × List Effect × List Call :=
  let report :=
    v.channel.reportAll bag (displayName component) location (caches.get v.cache) declared.entries
  (caches.set v.cache report.cache, report.effects, report.calls)

end Validator

/-- The first failure of an attribute bag against declarations. Nothing is reported. -/
def Declarations.firstFailure (declared : Declarations) (bag : Entries String Value)
    (component : Option String) : Evaluation :=
  AttributeCheck.firstFailure bag (displayName component) .property declared.entries

end AttributeCheck
