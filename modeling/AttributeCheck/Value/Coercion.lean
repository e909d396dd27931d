import AttributeCheck.Numeric.Layout
import AttributeCheck.Value.Basic

/-! # The text a value is coerced to -/

namespace AttributeCheck

namespace Value

mutual

def text : Value → String
  | undefined => "undefined"
  | null => "null"
  | bool b => if b then "true" else "false"
  | number x => NumberStyle.coerced.render x
  | string s => s
  | array items => ",".intercalate (itemTexts items)
  | object _ => "[object Object]"
  | function f => "function " ++ f.name.getD "" ++ "() \x7b [native code] \x7d"
  | date t => t.text
  | pattern source => "/" ++ source ++ "/"
  | inst _ _ => "[object Object]"

/-- A missing item leaves its place between the commas empty. -/
def itemTexts : List Value → List String
  | [] => []
  | item :: rest => (if item.isMissing then "" else item.text) :: itemTexts rest

end

end Value

end AttributeCheck
