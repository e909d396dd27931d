import AttributeCheck.Validator

/-! # Settings of validators -/

namespace AttributeCheck

/-- Where the warnings of a configured validator go. -/
inductive Destination where
  | log
  | stderr
deriving DecidableEq

namespace Destination

/-- The name in configuration documents and variables. -/
def name : Destination → String
  | log => "tracing"
  | stderr => "stderr"

def ofName? (s : String) : Option Destination :=
  if s = log.name then some log else if s = stderr.name then some stderr else none

def sink : Destination → Sink
  | log => .log
  | stderr => .stderr

end Destination

structure Settings where
  sink : Destination
  ignoreLegacy : Bool
  sharedCache : Bool
deriving DecidableEq

namespace Settings

def standard : Settings :=
  ⟨.log, true, true⟩

def channel (s : Settings) : Channel :=
  let channel := Channel.strict s.sink.sink
  if s.ignoreLegacy then channel.ignoring legacyStart else channel

/-- The validator of these settings; without the shared cache it has the cache of the given number.
-/
def validator (s : Settings) (number : Nat) : Validator :=
  ⟨if s.sharedCache then .shared else .own number, s.channel⟩

/-- The compact document of the settings. -/
def document (s : Settings) : String :=
  let flag (b : Bool) := if b then "true" else "false"
  "\x7b\"sink\":\"" ++ s.sink.name ++ "\",\"ignore_legacy_composite\":" ++ flag s.ignoreLegacy ++
    ",\"shared_cache\":" ++ flag s.sharedCache ++ "\x7d"

end Settings

end AttributeCheck
