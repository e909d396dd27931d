import AttributeCheck.Json.Problem
import AttributeCheck.Numeric.Numeral

/-! # Scanning JSON texts

Each scanner takes the characters that are left and gives what it read together with the rest, or
the first problem. -/

namespace AttributeCheck

namespace Scan

/-- The four characters that may stand between tokens. -/
def isBlank (c : Char) : Bool :=
  c == ' ' || c == '\n' || c == '\t' || c == '\r'

def skipBlank (cs : List Char) : List Char :=
  cs.dropWhile isBlank

/-- The rest after a word. -/
def word : List Char → List Char → Except Problem (List Char)
  | [], cs => .ok cs
  | _ :: _, [] => .error .incomplete
  | w :: ws, c :: cs => if w = c then word ws cs else .error .malformed

/-! ### Strings -/

/-- A piece of a string: a character, or the UTF-16 unit of an escape `\uXXXX`. -/
inductive Piece where
  | char (c : Char)
  | unit (u : Nat)
deriving DecidableEq

/-- The character that stands behind the backslash of a short escape. -/
def shortEscape? : Char → Option Char
  | '"' => some '"'
  | '\\' => some '\\'
  | '/' => some '/'
  | 'b' => some (Char.ofNat 8)
  | 'f' => some (Char.ofNat 12)
  | 'n' => some '\n'
  | 'r' => some '\r'
  | 't' => some '\t'
  | _ => none

def hexValue? (c : Char) : Option Nat :=
  if c.isDigit then some (c.toNat - '0'.toNat)
  else if 'a' ≤ c ∧ c ≤ 'f' then some (c.toNat - 'a'.toNat + 10)
  else if 'A' ≤ c ∧ c ≤ 'F' then some (c.toNat - 'A'.toNat + 10)
  else none

/-- The value of four hexadecimal digits. -/
def unit? (a b c d : Char) : Option Nat := do
  let a ← hexValue? a
  let b ← hexValue? b
  let c ← hexValue? c
  let d ← hexValue? d
  return ((a * 16 + b) * 16 + c) * 16 + d

/-- What is wrong where four hexadecimal digits are missing: the text is incomplete if fewer than
four bytes of it are left. -/
def missingDigits (cs : List Char) : Problem :=
  if (String.ofList (cs.take 4)).utf8ByteSize < 4 then .incomplete else .malformed

/-- The pieces of a string up to its closing quote, and either the rest or the problem behind the
last piece. -/
def pieces : List Char → List Piece × Except Problem (List Char)
  | [] => ([], .error .incomplete)
  | '"' :: rest => ([], .ok rest)
  | '\\' :: 'u' :: a :: b :: c :: d :: rest =>
      match unit? a b c d with
      | some u =>
          let (ps, ending) := pieces rest
          (.unit u :: ps, ending)
      | none => ([], .error (missingDigits [a, b, c, d]))
  | '\\' :: 'u' :: rest => ([], .error (missingDigits rest))
  | '\\' :: e :: rest =>
      match shortEscape? e with
      | some c =>
          let (ps, ending) := pieces rest
          (.char c :: ps, ending)
      | none => ([], .error .malformed)
  | ['\\'] => ([], .error .incomplete)
  | c :: rest =>
      if c.toNat < 0x20 then ([], .error .malformed)
      else
        let (ps, ending) := pieces rest
        (.char c :: ps, ending)

/-- The characters of some pieces. Units of surrogates count in pairs only; a leading one that is
followed by the end of the pieces is as bad as what ended them. -/
def characters (ending : Except Problem (List Char)) : List Piece → Except Problem (List Char)
  | [] => .ok []
  | .char c :: ps => do return c :: (← characters ending ps)
  | [.unit u] =>
      if 0xD800 ≤ u ∧ u < 0xDC00 then
        match ending with
        | .ok _ => .error .malformed
        | .error problem => .error problem
      else if 0xDC00 ≤ u ∧ u < 0xE000 then .error .malformed
      else .ok [Char.ofNat u]
  | .unit u :: .char c :: ps =>
      if 0xD800 ≤ u ∧ u < 0xE000 then .error .malformed
      else do return Char.ofNat u :: (← characters ending (.char c :: ps))
  | .unit u :: .unit v :: ps =>
      if 0xD800 ≤ u ∧ u < 0xDC00 then
        if 0xDC00 ≤ v ∧ v < 0xE000 then do
          return Char.ofNat (0x10000 + (u - 0xD800) * 0x400 + (v - 0xDC00)) ::
            (← characters ending ps)
        else .error .malformed
      else if 0xDC00 ≤ u ∧ u < 0xE000 then .error .malformed
      else do return Char.ofNat u :: (← characters ending (.unit v :: ps))

/-- Reads a string behind its opening quote. -/
def string (cs : List Char) : Except Problem (String × List Char) := do
  let (ps, ending) := pieces cs
  let s ← characters ending ps
  return (String.ofList s, ← ending)

/-- Skips a string behind its opening quote. Any unit passes. -/
def skipString (cs : List Char) : Except Problem (List Char) :=
  (pieces cs).2

/-! ### Numbers -/

/-- The parts of a number as they are written. -/
structure NumberText where
  isNegative : Bool
  whole : List Char
  fraction : List Char
  exponent : Option (Bool × List Char)

/-- One digit or more. -/
def digits (cs : List Char) : Except Problem (List Char × List Char) :=
  match Numeral.splitDigits cs with
  | ([], []) => .error .incomplete
  | ([], _ :: _) => .error .malformed
  | (ds, rest) => .ok (ds, rest)

/-- The whole part: a zero, or digits that do not begin with one. -/
def wholeDigits : List Char → Except Problem (List Char × List Char)
  | '0' :: c :: rest => if c.isDigit then .error .malformed else .ok (['0'], c :: rest)
  | cs => digits cs

def fractionDigits : List Char → Except Problem (List Char × List Char)
  | '.' :: rest => digits rest
  | rest => .ok ([], rest)

def exponentDigits : List Char → Except Problem (Option (Bool × List Char) × List Char)
  | [] => .ok (none, [])
  | c :: rest =>
      if c = 'e' ∨ c = 'E' then do
        let (isNegative, rest) := Numeral.splitSign rest
        let (ds, rest) ← digits rest
        return (some (isNegative, ds), rest)
      else .ok (none, c :: rest)

def numberText (cs : List Char) : Except Problem (NumberText × List Char) := do
  let (isNegative, cs) := match cs with
    | '-' :: rest => (true, rest)
    | cs => (false, cs)
  let (whole, cs) ← wholeDigits cs
  let (fraction, cs) ← fractionDigits cs
  let (exponent, cs) ← exponentDigits cs
  return (⟨isNegative, whole, fraction, exponent⟩, cs)

/-- Skips a number. One that breaks off is malformed. -/
def skipNumber (cs : List Char) : Except Problem (List Char) :=
  match numberText cs with
  | .ok (_, rest) => .ok rest
  | .error _ => .error .malformed

/-! ### Values -/

mutual

/-- Skips a value of any kind; the fuel bounds how often values, items and members follow. -/
def skipValueWith : Nat → List Char → Except Problem (List Char)
  | 0, _ => .error .incomplete
  | fuel + 1, cs =>
      match skipBlank cs with
      | [] => .error .incomplete
      | 'n' :: rest => word "ull".toList rest
      | 't' :: rest => word "rue".toList rest
      | 'f' :: rest => word "alse".toList rest
      | '"' :: rest => skipString rest
      | '[' :: rest =>
          match skipBlank rest with
          | ']' :: rest => .ok rest
          | [] => .error .incomplete
          | rest => skipItems fuel rest
      | '\x7b' :: rest =>
          match skipBlank rest with
          | '\x7d' :: rest => .ok rest
          | [] => .error .incomplete
          | rest => skipMembers fuel rest
      | c :: rest => if c = '-' ∨ c.isDigit then skipNumber (c :: rest) else .error .malformed

/-- Skips items up to the closing bracket. -/
def skipItems : Nat → List Char → Except Problem (List Char)
  | 0, _ => .error .incomplete
  | fuel + 1, cs => do
      let rest ← skipValueWith fuel cs
      match skipBlank rest with
      | ',' :: rest => skipItems fuel rest
      | ']' :: rest => .ok rest
      | [] => .error .incomplete
      | _ :: _ => .error .malformed

/-- Skips members up to the closing brace. -/
def skipMembers : Nat → List Char → Except Problem (List Char)
  | 0, _ => .error .incomplete
  | fuel + 1, cs =>
      match skipBlank cs with
      | '"' :: rest => do
          let rest ← skipString rest
          match skipBlank rest with
          | ':' :: rest => do
              let rest ← skipValueWith fuel rest
              match skipBlank rest with
              | ',' :: rest => skipMembers fuel rest
              | '\x7d' :: rest => .ok rest
              | [] => .error .incomplete
              | _ :: _ => .error .malformed
          | [] => .error .incomplete
          | _ :: _ => .error .malformed
      | [] => .error .incomplete
      | _ :: _ => .error .malformed

end

/-- Skips a value of any kind and depth. No more than two steps are made for each character. -/
def skipValue (cs : List Char) : Except Problem (List Char) :=
  skipValueWith (2 * cs.length + 1) cs

end Scan

end AttributeCheck
