import AttributeCheck.Declarations
import AttributeCheck.Numeric.Layout
import AttributeCheck.Text.Listed
import AttributeCheck.Warning.Channel

/-! # Debug listings -/

namespace AttributeCheck

namespace Inspect

/-- A name with its fields in braces; `isOpen` says that there are others which are not shown. -/
def record (name : String) (fields : List (String × String)) (isOpen : Bool) : String :=
  let shown := fields.map fun field => field.1 ++ ": " ++ field.2
  name ++ " \x7b " ++ ", ".intercalate (shown ++ if isOpen then [".."] else []) ++ " \x7d"

def map (entries : List (String × String)) : String :=
  "\x7b" ++ ", ".intercalate (entries.map fun entry => listedString entry.1 ++ ": " ++ entry.2) ++
    "\x7d"

def option (shown : Option String) : String :=
  match shown with
  | some s => "Some(" ++ s ++ ")"
  | none => "None"

def optionalName (name : Option String) : String :=
  option (name.map listedString)

def function (f : HostFunction) : String :=
  record "Callable" [("name", optionalName f.name), ("f", listedString "<function>")] false

/-- A class with all its ancestors. -/
def cls : Class → String
  | c@(.root _ _) => node c "None"
  | c@(.derived _ _ parent) => node c ("Some(" ++ cls parent ++ ")")
where
  node (c : Class) (parent : String) : String :=
    "Class(" ++ record "ClassInner" [("name", optionalName c.name), ("parent", parent)] false ++ ")"

mutual

def value : Value → String
  | .undefined => "Undefined"
  | .null => "Null"
  | .bool b => "Bool(" ++ (if b then "true" else "false") ++ ")"
  | .number x => "Number(" ++ NumberStyle.listed.render x ++ ")"
  | .string s => "String(" ++ listedString s ++ ")"
  | .array items => "Array([" ++ ", ".intercalate (values items) ++ "])"
  | .object properties => "Object(" ++ map (valueEntries properties) ++ ")"
  | .function f => "Function(" ++ function f ++ ")"
  | .date t => "Date(" ++ t.exactText ++ ")"
  | .pattern source => "RegExp(" ++ listedString source ++ ")"
  | .inst c properties =>
      "Instance(" ++
        record "Instance" [("class", cls c), ("props", map (valueEntries properties))] false ++ ")"

def values : List Value → List String
  | [] => []
  | v :: rest => value v :: values rest

def valueEntries : List (String × Value) → List (String × String)
  | [] => []
  | (key, v) :: rest => (key, value v) :: valueEntries rest

end

def checker (c : Checker) : String :=
  record "PropType" [("required", if c.isRequired then "true" else "false")] true

def descriptor (d : Descriptor) : String :=
  record "TypeDescriptor" [("name", listedString d.displayName)] true

def declaration : Declaration → String
  | .checker c => "Checker(" ++ checker c ++ ")"
  | .invalid v => "Invalid(" ++ value v ++ ")"

def declarations (d : Declarations) : String :=
  record "PropTypes"
    [("declarations", map (d.entries.map fun entry => (entry.1, declaration entry.2)))] false

def channel (c : Channel) : String :=
  record "WarningChannel" [("ignored_prefix", optionalName c.ignored)] true

end Inspect

end AttributeCheck
