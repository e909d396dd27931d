import AttributeCheck.Json.Datum
import AttributeCheck.Numeric.Layout
import AttributeCheck.Text.Quoted
import AttributeCheck.Value.Basic

/-! # Values as JSON data and as JSON text -/

namespace AttributeCheck

/-- A number without fraction below `2 ^ 63` in magnitude is an integer, another finite number a
real; the others have no datum but null. -/
def Binary64.toDatum (x : Binary64) : Datum :=
  if x.isFinite then
    match x.toInt? with
    | some n => if n.natAbs < 0x8000000000000000 then .integer n else .real x
    | none => .real x
  else .null

namespace Value

/-- Undefined values and functions are left out of objects. -/
def isHidden : Value → Bool
  | undefined => true
  | function _ => true
  | _ => false

mutual

/-- Functions and undefined values become null, dates their text, patterns empty objects. -/
def toDatum : Value → Datum
  | undefined => .null
  | null => .null
  | bool b => .bool b
  | number x => x.toDatum
  | string s => .string s
  | array items => .list (itemData items)
  | object properties => .object (memberData properties)
  | function _ => .null
  | date t => .string t.text
  | pattern _ => .object []
  | inst _ properties => .object (memberData properties)

def itemData : List Value → List Datum
  | [] => []
  | item :: rest => item.toDatum :: itemData rest

def memberData : List (String × Value) → List (String × Datum)
  | [] => []
  | (key, value) :: rest =>
      if value.isHidden then memberData rest else (key, value.toDatum) :: memberData rest

end

mutual

/-- The value of a datum; an integer becomes the nearest double. -/
def ofDatum : Datum → Value
  | .null => null
  | .bool b => bool b
  | .integer n => number (Binary64.ofInt n)
  | .real x => number x
  | .string s => string s
  | .list items => array (itemValues items)
  | .object members => object (memberValues members)

def itemValues : List Datum → List Value
  | [] => []
  | item :: rest => ofDatum item :: itemValues rest

def memberValues : List (String × Datum) → List (String × Value)
  | [] => []
  | (key, datum) :: rest => (key, ofDatum datum) :: memberValues rest

end

/-- The attribute bag of an object; other data have none. -/
def bagOfDatum? : Datum → Option (Entries String Value)
  | .object members => some (memberValues members)
  | _ => none

mutual

/-- The compact JSON text of the value. Numbers are written as in coercion. -/
def jsonText : Value → String
  | undefined => "null"
  | null => "null"
  | bool b => if b then "true" else "false"
  | number x => if x.isFinite then NumberStyle.coerced.render x else "null"
  | string s => quoted s
  | array items => "[" ++ ",".intercalate (itemJsonTexts items) ++ "]"
  | object properties => "\x7b" ++ ",".intercalate (memberJsonTexts properties) ++ "\x7d"
  | function _ => "null"
  | date t => quoted t.text
  | pattern _ => "\x7b\x7d"
  | inst _ properties => "\x7b" ++ ",".intercalate (memberJsonTexts properties) ++ "\x7d"

def itemJsonTexts : List Value → List String
  | [] => []
  | item :: rest => item.jsonText :: itemJsonTexts rest

def memberJsonTexts : List (String × Value) → List String
  | [] => []
  | (key, value) :: rest =>
      if value.isHidden then memberJsonTexts rest
      else (quoted key ++ ":" ++ value.jsonText) :: memberJsonTexts rest

end

/-! ### Containers and numbers -/

theorem toDatum_number (x : Binary64) : (number x).toDatum = x.toDatum :=
  rfl

theorem toDatum_array (items : List Value) : (array items).toDatum = .list (itemData items) :=
  rfl

theorem toDatum_object (properties : List (String × Value)) :
    (object properties).toDatum = .object (memberData properties) :=
  rfl

theorem toDatum_inst (cls : Class) (properties : List (String × Value)) :
    (inst cls properties).toDatum = .object (memberData properties) :=
  rfl

theorem ofDatum_list (items : List Datum) : ofDatum (.list items) = array (itemValues items) :=
  rfl

theorem ofDatum_object (members : List (String × Datum)) :
    ofDatum (.object members) = object (memberValues members) :=
  rfl

theorem jsonText_number (x : Binary64) :
    (number x).jsonText = if x.isFinite then NumberStyle.coerced.render x else "null" :=
  rfl

theorem jsonText_array (items : List Value) :
    (array items).jsonText = "[" ++ ",".intercalate (itemJsonTexts items) ++ "]" :=
  rfl

theorem jsonText_object (properties : List (String × Value)) :
    (object properties).jsonText =
      "\x7b" ++ ",".intercalate (memberJsonTexts properties) ++ "\x7d" :=
  rfl

theorem jsonText_inst (cls : Class) (properties : List (String × Value)) :
    (inst cls properties).jsonText =
      "\x7b" ++ ",".intercalate (memberJsonTexts properties) ++ "\x7d" :=
  rfl

end Value

end AttributeCheck
