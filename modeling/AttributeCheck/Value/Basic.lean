import AttributeCheck.Calendar.Instant
import AttributeCheck.Entries
import AttributeCheck.Numeric.Binary64
import AttributeCheck.Numeric.Rounding
import AttributeCheck.Value.Class

/-! # Values of a dynamically typed host -/

namespace AttributeCheck

/-- What a host function does when it is called. -/
inductive Action where
  | noop
  | countArguments
  | firstArgument
  | allArguments
deriving DecidableEq

/-- A function value. The identity is what its creation gave it: functions that do the same differ
when they were created apart. -/
structure HostFunction where
  identity : Nat
  name : Option String
  action : Action
deriving DecidableEq

/-- A value that an attribute can have. Objects and instances list their own properties in order of
insertion. -/
inductive Value where
  | undefined
  | null
  | bool (b : Bool)
  | number (x : Binary64)
  | string (s : String)
  | array (items : List Value)
  | object (properties : List (String × Value))
  | function (f : HostFunction)
  | date (t : Instant)
  | pattern (source : String)
  | inst (cls : Class) (properties : List (String × Value))

/-- The kinds of values that checkers tell apart. -/
inductive Kind where
  | array
  | object
  | boolean
  | number
  | string
  | function
  | undefined
deriving DecidableEq

namespace Kind

def text : Kind → String
  | array => "array"
  | object => "object"
  | boolean => "boolean"
  | number => "number"
  | string => "string"
  | function => "function"
  | undefined => "undefined"

def all : List Kind :=
  [array, object, boolean, number, string, function, undefined]

def ofText? (s : String) : Option Kind :=
  all.find? (·.text == s)

end Kind

namespace Value

/-- An array is never an object; null, dates, patterns and instances are. -/
def kind : Value → Kind
  | undefined => .undefined
  | null => .object
  | bool _ => .boolean
  | number _ => .number
  | string _ => .string
  | array _ => .array
  | object _ => .object
  | function _ => .function
  | date _ => .object
  | pattern _ => .object
  | inst _ _ => .object

/-- The name of the kind, except that dates and patterns are named as such. -/
def typeName : Value → String
  | date _ => "date"
  | pattern _ => "regexp"
  | v => v.kind.text

/-- Null and undefined count as not supplied. -/
def isMissing : Value → Bool
  | undefined => true
  | null => true
  | _ => false

/-- The own properties, for values that can have any. -/
def properties? : Value → Option (Entries String Value)
  | object properties => some properties
  | inst _ properties => some properties
  | _ => none

def property? (v : Value) (key : String) : Option Value :=
  v.properties?.bind (Entries.get? · key)

mutual

/-- Whether no object or instance in the value lists a key twice. Values that are made by inserting
properties never do. -/
def hasDistinctKeys : Value → Bool
  | array items => itemsHaveDistinctKeys items
  | object properties =>
      decide (Entries.keys properties).Nodup && propertiesHaveDistinctKeys properties
  | inst _ properties =>
      decide (Entries.keys properties).Nodup && propertiesHaveDistinctKeys properties
  | _ => true

def itemsHaveDistinctKeys : List Value → Bool
  | [] => true
  | item :: rest => item.hasDistinctKeys && itemsHaveDistinctKeys rest

def propertiesHaveDistinctKeys : List (String × Value) → Bool
  | [] => true
  | (_, value) :: rest => value.hasDistinctKeys && propertiesHaveDistinctKeys rest

end

/-- Whether a value is an instance of a class or of one of its subclasses. -/
def isInstanceOf : Value → Class → Bool
  | inst cls _, ancestor => cls.isSubclassOf ancestor
  | _, _ => false

end Value

/-- The value that a call returns. -/
def HostFunction.call (f : HostFunction) (arguments : List Value) : Value :=
  match f.action with
  | .noop => .undefined
  | .countArguments => .number (Binary64.ofInt arguments.length)
  | .firstArgument => arguments.headD .undefined
  | .allArguments => .array arguments

end AttributeCheck
