import AttributeCheck.Entries
import AttributeCheck.Numeric.Binary64

/-! # JSON data -/

namespace AttributeCheck

/-- A JSON datum. Numbers are kept as integers where they are written as such. -/
inductive Datum where
  | null
  | bool (b : Bool)
  | integer (n : Int)
  | real (x : Binary64)
  | string (s : String)
  | list (items : List Datum)
  | object (members : List (String × Datum))

end AttributeCheck
