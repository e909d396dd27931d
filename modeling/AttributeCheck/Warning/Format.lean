/-! # Warning formats -/

namespace AttributeCheck

/-- Length in UTF-16 units: a character beyond U+FFFF takes two. -/
def utf16Length (s : String) : Nat :=
  s.toList.foldr (fun c count => (if c.toNat < 0x10000 then 1 else 2) + count) 0

/-- ASCII letters, digits and the underscore. -/
def isWordChar (c : Char) : Bool :=
  c.isAlphanum || c == '_'

/-- A format identifies its warning when it has ten UTF-16 units and a word character other
than `s`. -/
def isDescriptive (format : String) : Bool :=
  decide (10 ≤ utf16Length format) && format.toList.any fun c => c != 's' && isWordChar c

/-- Cuts a format at each `%s`: the part in front of the first one, and the parts behind each. -/
def cutFormat : List Char → List Char × List (List Char)
  | [] => ([], [])
  | '%' :: 's' :: rest =>
      let (part, parts) := cutFormat rest
      ([], part :: parts)
  | c :: rest =>
      let (part, parts) := cutFormat rest
      (c :: part, parts)

/-- Stands for an argument when there are no more. -/
def missingArgument : String :=
  "undefined"

/-- Puts an argument in front of each part. -/
def joinArguments : List (List Char) → List String → List Char
  | [], _ => []
  | part :: parts, [] => missingArgument.toList ++ part ++ joinArguments parts []
  | part :: parts, arg :: args => arg.toList ++ part ++ joinArguments parts args

/-- The format with its arguments in place of the `%s`, in order. -/
def interpolate (format : String) (args : List String) : String :=
  let (part, parts) := cutFormat format.toList
  String.ofList (part ++ joinArguments parts args)

theorem interpolate_of_cutFormat {format : String} {part : List Char} {parts : List (List Char)}
    (h : cutFormat format.toList = (part, parts)) (args : List String) :
    interpolate format args = String.ofList (part ++ joinArguments parts args) := by
  simp only [interpolate, h]

end AttributeCheck
