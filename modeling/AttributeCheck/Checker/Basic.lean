import AttributeCheck.Failure

/-! # Checkers: types that attributes are declared with -/

namespace AttributeCheck

/-- The naming context of a check: which attribute of which component, from where. -/
structure Site where
  name : String
  component : String
  location : Location
deriving DecidableEq

/-- The same context for an item, a property or a field of the value. -/
def Site.within (site : Site) (name : String) : Site :=
  { site with name }

/-- The failure that a fault gives in this context. -/
def Site.failure (site : Site) (fault : Fault) : Failure :=
  fault.failure site.name site.component site.location.text

/-- How a check ends. A panic carries its text, if it has one. -/
inductive Verdict where
  | accept
  | reject (failure : Failure)
  | panic (text : Option String)
deriving DecidableEq

/-- A rule written by the host. -/
abbrev HostRule := Value → Site → Verdict

/-- A type at run time: a name for messages, and which values belong to it. -/
inductive Descriptor where
  /-- The instances of a class and of its subclasses. -/
  | instancesOf (cls : Class)
  | dates
  | patterns
  | functions
  | custom (name : Option String) (member : Value → Bool)

namespace Descriptor

def name : Descriptor → Option String
  | instancesOf cls => cls.name
  | dates => some "Date"
  | patterns => some "RegExp"
  | functions => some "Function"
  | custom name _ => name

def displayName (d : Descriptor) : String :=
  AttributeCheck.displayName d.name

def admits : Descriptor → Value → Bool
  | instancesOf cls, v => v.isInstanceOf cls
  | dates, v => v.typeName == "date"
  | patterns, v => v.typeName == "regexp"
  | functions, v => v.kind == .function
  | custom _ member, v => member v

end Descriptor

mutual

/-- What is asked of a value that is supplied. -/
inductive Rule where
  | kind (expected : Kind)
  | any
  /-- An array whose items all pass. -/
  | arrayOf (item : Checker)
  /-- An object whose own properties all pass. -/
  | objectOf (property : Checker)
  | instanceOf (type : Descriptor)
  /-- One of some values. -/
  | oneOf (allowed : List Value)
  /-- A value that passes one of some checkers. -/
  | oneOfType (alternatives : List Checker)
  /-- An object whose declared fields pass; a field declared without a checker is skipped. -/
  | shape (fields : List (String × Option Checker))
  | custom (rule : HostRule)
  /-- As the inner checker, and each of its uses is logged under the label. -/
  | observed (label : String) (inner : Checker)

/-- A rule in one of two modes: an optional checker accepts null and absent values, a required one
rejects them. -/
inductive Checker where
  | mk (rule : Rule) (isRequired : Bool)

end

/-- The declared fields of an object, in order. -/
abbrev Fields := Entries String (Option Checker)

/-- Declares a field. One that is declared again gets the later checker and keeps its first place.
-/
def Fields.declare (fields : Fields) (name : String) (checker : Option Checker) : Fields :=
  Entries.insert fields name checker

namespace Checker

def rule : Checker → Rule
  | mk rule _ => rule

def isRequired : Checker → Bool
  | mk _ isRequired => isRequired

/-- The required variant. -/
def required (c : Checker) : Checker :=
  mk c.rule true

/-- The optional variant. -/
def optional (c : Checker) : Checker :=
  mk c.rule false

/-! ### Checkers to declare attributes with -/

def ofRule (rule : Rule) : Checker :=
  mk rule false

def array : Checker := ofRule (.kind .array)

def bool : Checker := ofRule (.kind .boolean)

def func : Checker := ofRule (.kind .function)

def number : Checker := ofRule (.kind .number)

def object : Checker := ofRule (.kind .object)

def string : Checker := ofRule (.kind .string)

def any : Checker := ofRule .any

def arrayOf (item : Checker) : Checker := ofRule (.arrayOf item)

def objectOf (property : Checker) : Checker := ofRule (.objectOf property)

def instanceOf (type : Descriptor) : Checker := ofRule (.instanceOf type)

def oneOf (allowed : List Value) : Checker := ofRule (.oneOf allowed)

def oneOfType (alternatives : List Checker) : Checker := ofRule (.oneOfType alternatives)

/-- Declares fields one after the other. -/
def shape (fields : List (String × Option Checker)) : Checker :=
  ofRule (.shape (Entries.ofPairs fields))

def custom (rule : HostRule) : Checker := ofRule (.custom rule)

def observed (label : String) (inner : Checker) : Checker := ofRule (.observed label inner)

end Checker

end AttributeCheck
