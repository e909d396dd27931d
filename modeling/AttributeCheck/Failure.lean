import AttributeCheck.Value.Basic

/-! # Failures of checks -/

namespace AttributeCheck

/-- Stands for the name of a component or type that has none. -/
def anonymousName : String :=
  "<<anonymous>>"

/-- The name itself, unless it is absent or empty. -/
def displayName (name : Option String) : String :=
  match name with
  | some n => if n.isEmpty then anonymousName else n
  | none => anonymousName

/-- Where a value comes from. -/
inductive Location where
  | property
  | context
  | childContext
deriving DecidableEq

def Location.text : Location → String
  | .property => "prop"
  | .context => "context"
  | .childContext => "child context"

/-- A failed check as it is handed to the caller. Two failures with one message are reported as one.
-/
structure Failure where
  code : String
  message : String
  field : Option String
  params : List (String × String)
deriving DecidableEq

namespace Failure

/-- A failure without field and parameters. -/
def plain (code message : String) : Failure :=
  ⟨code, message, none, []⟩

def withField (f : Failure) (field : String) : Failure :=
  { f with field := some field }

def withParam (f : Failure) (key value : String) : Failure :=
  { f with params := f.params ++ [(key, value)] }

/-- The first parameter with the key. -/
def param? (f : Failure) (key : String) : Option String :=
  f.params.lookup key

def hasCode (f : Failure) (code : String) : Bool :=
  f.code == code

end Failure

/-- Why a check or a declaration fails. -/
inductive Fault where
  /-- No value, or null, where one is required. -/
  | missing
  /-- A value of another kind; `actual` is its type name. -/
  | wrongKind (expected : Kind) (actual : String)
  | notArray (actual : Kind)
  | notObject (actual : Kind)
  /-- As `notObject`, for a value whose fields are declared. -/
  | notShape (actual : Kind)
  | notInstance (typeName : String)
  /-- A value outside an enumeration; both texts are quoted in the message. -/
  | notAllowed (value : String) (allowed : String)
  | noAlternative
  /-- A declaration that holds no checker. -/
  | notChecker
  /-- A checker that panicked. -/
  | panicked (text : String)
deriving DecidableEq

namespace Fault

def code : Fault → String
  | missing => "required"
  | wrongKind _ _ => "invalid_type"
  | notArray _ => "expected_array"
  | notObject _ => "expected_object"
  | notShape _ => "expected_object"
  | notInstance _ => "invalid_instance"
  | notAllowed _ _ => "invalid_enum"
  | noAlternative => "invalid_union"
  | notChecker => "invalid_prop_type"
  | panicked _ => "checker_panicked"

/-- The sentence for a fault of the attribute `name` of `component` at `location`. -/
def message (name component location : String) : Fault → String
  | missing => s!"Required {location} `{name}` was not specified in `{component}`."
  | wrongKind expected actual =>
      s!"Invalid {location} `{name}` of type `{actual}` supplied to `{component}`, " ++
        s!"expected `{expected.text}`."
  | notArray actual =>
      s!"Invalid {location} `{name}` of type `{actual.text}` supplied to `{component}`, " ++
        "expected an array."
  | notObject actual =>
      s!"Invalid {location} `{name}` of type `{actual.text}` supplied to `{component}`, " ++
        "expected an object."
  | notShape actual =>
      s!"Invalid {location} `{name}` of type `{actual.text}` supplied to `{component}`, " ++
        "expected `object`."
  | notInstance typeName =>
      s!"Invalid {location} `{name}` supplied to `{component}`, " ++
        s!"expected instance of `{typeName}`."
  | notAllowed value allowed =>
      s!"Invalid {location} `{name}` of value `{value}` supplied to `{component}`, " ++
        s!"expected one of {allowed}."
  | noAlternative => s!"Invalid {location} `{name}` supplied to `{component}`."
  | notChecker =>
      s!"{component}: attributes type `{name}` is invalid; it must be a function, " ++
        "usually from PropTypes."
  | panicked text => text

def params (component : String) : Fault → List (String × String)
  | missing => [("component", component)]
  | wrongKind expected actual => [("expected", expected.text), ("actual", actual)]
  | notArray actual => [("actual", actual.text)]
  | notObject actual => [("actual", actual.text)]
  | notShape actual => [("actual", actual.text)]
  | notInstance typeName => [("expected", typeName)]
  | notAllowed value allowed => [("expected", allowed), ("actual", value)]
  | noAlternative => []
  | notChecker => []
  | panicked _ => []

/-- The failure of the attribute `name`, which is also its field. -/
def failure (fault : Fault) (name component location : String) : Failure where
  code := fault.code
  message := fault.message name component location
  field := some name
  params := fault.params component

end Fault

end AttributeCheck
