import AttributeCheck.Value.Basic

/-! # Strict equality of values -/

namespace AttributeCheck

namespace Value

mutual

/-- Equality without coercion: a NaN differs from itself, functions and classes equal
themselves only, arrays item by item, and properties by key, whatever their order. -/
def strictEq : Value → Value → Bool
  | undefined, undefined => true
  | null, null => true
  | bool a, bool b => a == b
  | number x, number y => x.equal y
  | string s, string t => s == t
  | array as, array bs => itemsEq as bs
  | object ps, object qs => ps.length == qs.length && propertiesWithin ps qs
  | function f, function g => f == g
  | date s, date t => s == t
  | pattern s, pattern t => s == t
  | inst c ps, inst d qs => c == d && (ps.length == qs.length && propertiesWithin ps qs)
  | _, _ => false

def itemsEq : List Value → List Value → Bool
  | [], [] => true
  | a :: as, b :: bs => a.strictEq b && itemsEq as bs
  | _, _ => false

/-- Whether the other properties hold an equal value under each key. -/
def propertiesWithin : List (String × Value) → Entries String Value → Bool
  | [], _ => true
  | (key, a) :: rest, others =>
      (match Entries.get? others key with
        | some b => a.strictEq b
        | none => false) && propertiesWithin rest others

end

end Value

end AttributeCheck
