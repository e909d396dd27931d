import AttributeCheck.Numeric.Layout
import AttributeCheck.Text.Listed

/-! # What can be wrong with a document -/

namespace AttributeCheck

/-- A value that was found where another was expected. -/
inductive Found where
  | null
  | bool (b : Bool)
  | integer (n : Int)
  | real (x : Binary64)
  | string (s : String)
  | list
  | object
deriving DecidableEq

def Found.text : Found → String
  | null => "null"
  | bool b => "boolean `" ++ (if b then "true" else "false") ++ "`"
  | integer n => "integer `" ++ toString n ++ "`"
  | real x => "floating point `" ++ NumberStyle.quoted.render x ++ "`"
  | string s => "string " ++ listedString s
  | list => "sequence"
  | object => "map"

/-- A value that does not fit its place in a well-formed document. -/
inductive Mismatch where
  | wrongType (found : Found) (expected : String)
  | unknownVariant (found : String) (expected : List String)
  | duplicateField (name : String)
deriving DecidableEq

def Mismatch.text : Mismatch → String
  | wrongType found expected => "invalid type: " ++ found.text ++ ", expected " ++ expected
  | unknownVariant found expected =>
      "unknown variant `" ++ found ++ "`, expected " ++
        " or ".intercalate (expected.map fun name => "`" ++ name ++ "`")
  | duplicateField name => "duplicate field `" ++ name ++ "`"

/-- The first problem of a text that is read from left to right. -/
inductive Problem where
  /-- The text ends inside the document. -/
  | incomplete
  | malformed
  | mismatch (m : Mismatch)
deriving DecidableEq

end AttributeCheck
