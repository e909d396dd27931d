import AttributeCheck.Text.Quoted
import AttributeCheck.Text.Unprintable

/-! # Quoted strings of debug listings -/

namespace AttributeCheck

/-- The lower-case hexadecimal digits of a number. -/
def hexDigits (n : Nat) : String :=
  String.ofList (Nat.toDigits 16 n)

/-- A character inside the quotes. -/
def listedChar (c : Char) : String :=
  if c = '"' then "\\\""
  else if c = '\\' then "\\\\"
  else if c = '\n' then "\\n"
  else if c = '\r' then "\\r"
  else if c = '\t' then "\\t"
  else if c.toNat = 0 then "\\0"
  else if isUnprintable c then "\\u\x7b" ++ hexDigits c.toNat ++ "\x7d"
  else String.singleton c

/-- The string in quotes. What cannot be shown is given by its code point. -/
def listedString (s : String) : String :=
  "\"" ++ String.join (s.toList.map listedChar) ++ "\""

end AttributeCheck
