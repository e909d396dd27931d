import AttributeCheck.Settings.Basic
import AttributeCheck.Text.Lowercase

/-! # Settings from the environment -/

namespace AttributeCheck

/-- Environment variables with their bytes. -/
abbrev Environment := Entries String ByteArray

/-- The text of a variable. One whose bytes are no text counts as unset. -/
def Environment.text? (environment : Environment) (name : String) : Option String :=
  (Entries.get? environment name).bind String.fromUTF8?

namespace Settings

def sinkVariable : String :=
  "PROP_TYPES_SINK"

def ignoreLegacyVariable : String :=
  "PROP_TYPES_IGNORE_LEGACY"

/-- A flag as a variable gives it, in any case. -/
def flag? (text : String) : Option Bool :=
  let word := lowercase text
  if word = "true" ∨ word = "1" then some true
  else if word = "false" ∨ word = "0" then some false
  else none

/-- The standard settings with what two variables say. A value that is not understood changes
nothing. -/
def overlay (lookup : String → Option String) : Settings :=
  { standard with
    sink := ((lookup sinkVariable).bind fun text => Destination.ofName? (lowercase text)).getD
      standard.sink
    ignoreLegacy := ((lookup ignoreLegacyVariable).bind flag?).getD standard.ignoreLegacy }

def ofEnvironment (environment : Environment) : Settings :=
  overlay environment.text?

end Settings

end AttributeCheck
