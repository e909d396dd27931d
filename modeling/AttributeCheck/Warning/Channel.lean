import AttributeCheck.Warning.Effect
import AttributeCheck.Warning.Format

/-! # Warning channels -/

namespace AttributeCheck

/-- Where warnings go, and the start of the formats that are ignored. -/
structure Channel where
  sink : Sink
  ignored : Option String

/-- The start of warnings that older declarations give. -/
def legacyStart : String :=
  "Failed Composite propType: "

namespace Channel

/-- A channel that ignores nothing. -/
def strict (sink : Sink) : Channel :=
  ⟨sink, none⟩

def legacy (sink : Sink) : Channel :=
  ⟨sink, some legacyStart⟩

def ignoring (channel : Channel) (start : String) : Channel :=
  { channel with ignored := some start }

def ignoringNothing (channel : Channel) : Channel :=
  { channel with ignored := none }

/-- Whether a format begins with what the channel ignores. -/
def ignores (channel : Channel) (format : String) : Bool :=
  channel.ignored.any fun start => start.toList.isPrefixOf format.toList

/-- The line of a warning. -/
def warningLine (format : String) (args : List String) : String :=
  "Warning: " ++ interpolate format args

/-- Warns unless the condition holds. A format is needed, and must be descriptive, in any case. -/
def warn (channel : Channel) (condition : Bool) (format : Option String) (args : List String) :
    Except Misuse Unit × List Effect :=
  match format with
  | none => (.error .missingFormat, [])
  | some format =>
      if !isDescriptive format then (.error (.nonDescriptive format), [])
      else if channel.ignores format then (.ok (), [.event (.ignored format)])
      else if condition then (.ok (), [])
      else (.ok (), [.line channel.sink (warningLine format args), .event .emitted])

end Channel

end AttributeCheck
