/-! # Effects of warnings and checks

What can be seen from outside: lines for sinks, and entries of the log. -/

namespace AttributeCheck

/-- Where a warning line goes. A sink of the host keeps the note that it makes of the line. -/
inductive Sink where
  | log
  | stderr
  | host (note : String → String)

inductive Level where
  | error
  | warn
  | debug
  | trace
deriving DecidableEq

def Level.text : Level → String
  | .error => "ERROR"
  | .warn => "WARN"
  | .debug => "DEBUG"
  | .trace => "TRACE"

/-- Misuse of a channel. -/
inductive Misuse where
  | missingFormat
  | nonDescriptive (format : String)
deriving DecidableEq

def Misuse.message : Misuse → String
  | .missingFormat => "`warning(condition, format, ...args)` requires a warning message argument"
  | .nonDescriptive format =>
      "The warning format should be able to uniquely identify this warning. " ++
        "Please, use a more descriptive format than: " ++ format

/-- What is logged besides the warning lines. -/
inductive Event where
  | emitted
  | ignored (format : String)
  | panicked (name component text : String)
  | suppressed (code message : String)
  | unreported (misuse : Misuse)
deriving DecidableEq

/-- A visible effect: a line for a sink, or an event for the log. -/
inductive Effect where
  | line (sink : Sink) (text : String)
  | event (e : Event)

/-- An entry of the log. -/
structure Record where
  level : Level
  fields : List (String × String)
deriving DecidableEq

def Event.record : Event → Record
  | .emitted => ⟨.trace, [("message", "warning emitted"), ("backtrace", "<backtrace>")]⟩
  | .ignored format => ⟨.trace, [("message", "ignored legacy warning"), ("format", format)]⟩
  | .panicked name component text =>
      ⟨.debug, [("message", "checker panicked"), ("prop", name), ("component", component),
        ("message", text)]⟩
  | .suppressed code message =>
      ⟨.debug, [("message", "suppressed repeated failure"), ("code", code), ("message", message)]⟩
  | .unreported misuse =>
      ⟨.error, [("message", "failure could not be reported"), ("error", misuse.message)]⟩

namespace Effect

/-- The log entry of an effect: lines for the log are warnings there. -/
def record? : Effect → Option Record
  | line .log text => some ⟨.warn, [("message", text)]⟩
  | line _ _ => none
  | event e => some e.record

/-- The note that a sink of the host keeps. -/
def note? : Effect → Option String
  | line (.host note) text => some (note text)
  | _ => none

def stderrLine? : Effect → Option String
  | line .stderr text => some text
  | _ => none

end Effect

end AttributeCheck
