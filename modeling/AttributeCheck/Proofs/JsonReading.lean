import AttributeCheck.Json.Datum
import AttributeCheck.Json.Number
import Mathlib.Data.Nat.Notation

/-! # Reading JSON texts

A reader for whole documents on top of the scanners. It keeps members in order and reads each number
as the nearest double. -/

namespace AttributeCheck

namespace Scan

/-- Reads a number, behind which the text may go on. -/
def readNumber (cs : List Char) : Except Problem (Datum × List Char) := do
  let (t, rest) ← numberText cs
  match t.real? with
  | some x => return (.real x, rest)
  | none => .error .malformed

mutual

/-- Reads a value of any kind; the fuel bounds how often values, items and members follow. -/
def readValueWith : ℕ → List Char → Except Problem (Datum × List Char)
  | 0, _ => .error .incomplete
  | fuel + 1, cs =>
      match skipBlank cs with
      | [] => .error .incomplete
      | 'n' :: rest => do return (.null, ← word "ull".toList rest)
      | 't' :: rest => do return (.bool true, ← word "rue".toList rest)
      | 'f' :: rest => do return (.bool false, ← word "alse".toList rest)
      | '"' :: rest => do
          let (s, rest) ← string rest
          return (.string s, rest)
      | '[' :: rest =>
          match skipBlank rest with
          | ']' :: rest => .ok (.list [], rest)
          | [] => .error .incomplete
          | rest => do
              let (items, rest) ← readItems fuel rest
              return (.list items, rest)
      | '\x7b' :: rest =>
          match skipBlank rest with
          | '\x7d' :: rest => .ok (.object [], rest)
          | [] => .error .incomplete
          | rest => do
              let (members, rest) ← readMembers fuel rest
              return (.object members, rest)
      | c :: rest => if c = '-' ∨ c.isDigit then readNumber (c :: rest) else .error .malformed

/-- Reads items up to the closing bracket. -/
def readItems : ℕ → List Char → Except Problem (List Datum × List Char)
  | 0, _ => .error .incomplete
  | fuel + 1, cs => do
      let (item, rest) ← readValueWith fuel cs
      match skipBlank rest with
      | ',' :: rest => do
          let (items, rest) ← readItems fuel rest
          return (item :: items, rest)
      | ']' :: rest => return ([item], rest)
      | [] => .error .incomplete
      | _ :: _ => .error .malformed

/-- Reads members up to the closing brace. -/
def readMembers : ℕ → List Char → Except Problem (List (String × Datum) × List Char)
  | 0, _ => .error .incomplete
  | fuel + 1, cs =>
      match skipBlank cs with
      | '"' :: rest => do
          let (key, rest) ← string rest
          match skipBlank rest with
          | ':' :: rest => do
              let (value, rest) ← readValueWith fuel rest
              match skipBlank rest with
              | ',' :: rest => do
                  let (members, rest) ← readMembers fuel rest
                  return ((key, value) :: members, rest)
              | '\x7d' :: rest => return ([(key, value)], rest)
              | [] => .error .incomplete
              | _ :: _ => .error .malformed
          | [] => .error .incomplete
          | _ :: _ => .error .malformed
      | [] => .error .incomplete
      | _ :: _ => .error .malformed

end

/-- Reads a value of any kind and depth. No more than two steps are made for each character. -/
def readValue (cs : List Char) : Except Problem (Datum × List Char) :=
  readValueWith (2 * cs.length + 1) cs

/-- Reads a text that consists of one value, with nothing but blanks behind it. -/
def readDocument (text : String) : Except Problem Datum := do
  let (datum, rest) ← readValue text.toList
  if (skipBlank rest).isEmpty then return datum else .error .malformed

/-! ## What is read is well-formed -/

theorem bind_eq_ok {α β : Type} {x : Except Problem α} {f : α → Except Problem β} {b : β} :
    x >>= f = .ok b ↔ ∃ a, x = .ok a ∧ f a = .ok b := by
  cases x <;> simp [bind, Except.bind]

theorem ok_bind {α β : Type} (a : α) (f : α → Except Problem β) :
    ((.ok a : Except Problem α) >>= f) = f a :=
  rfl

theorem pure_eq_ok {α : Type} {a b : α} : (pure a : Except Problem α) = .ok b ↔ a = b := by
  simp [pure, Except.pure]

theorem skipString_of_string {cs rest : List Char} {s : String}
    (h : string cs = .ok (s, rest)) : skipString cs = .ok rest := by
  simp only [string, bind_eq_ok] at h
  obtain ⟨_, -, ending, hending, h⟩ := h
  obtain ⟨-, rfl⟩ := Prod.mk.inj (Except.ok.inj h)
  exact hending

theorem skipNumber_of_readNumber {cs rest : List Char} {d : Datum}
    (h : readNumber cs = .ok (d, rest)) : skipNumber cs = .ok rest := by
  simp only [readNumber, bind_eq_ok] at h
  obtain ⟨⟨t, rest'⟩, htext, h⟩ := h
  cases hreal : t.real? with
  | none =>
    rw [hreal] at h
    cases h
  | some x =>
    rw [hreal] at h
    obtain ⟨-, rfl⟩ := Prod.mk.inj (Except.ok.inj h)
    rw [skipNumber, htext]

/-- What stands at the front of members that were read. -/
theorem of_readMembers {fuel : ℕ} {cs rest : List Char} {ds : List (String × Datum)}
    (h : readMembers (fuel + 1) cs = .ok (ds, rest)) :
    ∃ behindQuote key behindKey behindColon value behind, skipBlank cs = '"' :: behindQuote ∧
      string behindQuote = .ok (key, behindKey) ∧ skipBlank behindKey = ':' :: behindColon ∧
      readValueWith fuel behindColon = .ok (value, behind) ∧
      ((∃ next members, skipBlank behind = ',' :: next ∧
        readMembers fuel next = .ok (members, rest)) ∨ skipBlank behind = '\x7d' :: rest) := by
  rw [readMembers] at h
  split at h
  · rename_i behindQuote hquote
    obtain ⟨⟨key, behindKey⟩, hkey, h⟩ := bind_eq_ok.mp h
    dsimp only at h
    split at h
    · rename_i behindColon hcolon
      obtain ⟨⟨value, behind⟩, hvalue, h⟩ := bind_eq_ok.mp h
      refine ⟨_, _, _, _, _, _, hquote, hkey, hcolon, hvalue, ?_⟩
      dsimp only at h
      split at h
      · rename_i next hcomma
        obtain ⟨⟨members, _⟩, hmembers, h⟩ := bind_eq_ok.mp h
        obtain ⟨-, rfl⟩ := Prod.mk.inj (Except.ok.inj h)
        exact .inl ⟨next, members, hcomma, hmembers⟩
      · rename_i hclose
        obtain ⟨-, rfl⟩ := Prod.mk.inj (Except.ok.inj h)
        exact .inr hclose
      · cases h
      · cases h
    · cases h
    · cases h
  · cases h
  · cases h

/-- The reader and the scanner that skips values take the same way. -/
theorem skip_of_read (fuel : ℕ) :
    (∀ cs d rest, readValueWith fuel cs = .ok (d, rest) → skipValueWith fuel cs = .ok rest) ∧
    (∀ cs ds rest, readItems fuel cs = .ok (ds, rest) → skipItems fuel cs = .ok rest) ∧
    (∀ cs ds rest, readMembers fuel cs = .ok (ds, rest) → skipMembers fuel cs = .ok rest) := by
  induction fuel with
  | zero => exact ⟨nofun, nofun, nofun⟩
  | succ fuel ih =>
    obtain ⟨ihValue, ihItems, ihMembers⟩ := ih
    refine ⟨fun cs d rest h => ?_, fun cs ds rest h => ?_, fun cs ds rest h => ?_⟩
    · rw [readValueWith] at h
      rw [skipValueWith]
      grind [bind_eq_ok, pure_eq_ok, skipString_of_string, skipNumber_of_readNumber]
    · rw [readItems] at h
      obtain ⟨⟨item, behind⟩, hitem, h⟩ := bind_eq_ok.mp h
      rw [skipItems, ihValue _ _ _ hitem, ok_bind]
      grind [bind_eq_ok, pure_eq_ok]
    · obtain ⟨_, _, _, _, _, behind, hquote, hkey, hcolon, hvalue, hrest⟩ := of_readMembers h
      rw [skipMembers]
      simp only [hquote, skipString_of_string hkey, ok_bind, hcolon, ihValue _ _ _ hvalue]
      rcases hrest with ⟨_, _, hcomma, hmembers⟩ | hclose
      · simp only [hcomma, ihMembers _ _ _ hmembers]
      · simp only [hclose]

end Scan

end AttributeCheck
