import AttributeCheck.Proofs.JsonGrammar
import AttributeCheck.Settings.Document

/-! # Which documents hold settings

The documents of settings are said by rules on top of the grammar of JSON, with the members that a
text writes. Reading is then a fold over these members. -/

namespace AttributeCheck

namespace Settings

open Scan

/-! ## Members -/

/-- What a document says: a setting, or something under a name that is not known. -/
inductive Member where
  | sink (destination : Destination)
  | ignoreLegacy (flag : Bool)
  | sharedCache (flag : Bool)
  | other (name : String)

/-- The names of settings, in the order of a list. -/
def knownNames : List String :=
  ["sink", "ignore_legacy_composite", "shared_cache"]

namespace Member

def name : Member → String
  | sink _ => "sink"
  | ignoreLegacy _ => "ignore_legacy_composite"
  | sharedCache _ => "shared_cache"
  | other name => name

def isKnown : Member → Bool
  | other _ => false
  | _ => true

end Member

/-- How a destination is called in documents. -/
def sinkWord : Destination → String
  | .log => "tracing"
  | .stderr => "stderr"

/-- A sink is its word, or an object with null under that word. -/
inductive IsSink (d : Destination) : List Char → Prop where
  | name {text : List Char} (h : IsString (sinkWord d) text) : IsSink d text
  | object {front key back before after : List Char} (hfront : AreBlanks front)
      (hkey : IsString (sinkWord d) key) (hback : AreBlanks back) (hbefore : AreBlanks before)
      (hafter : AreBlanks after) :
      IsSink d ('\x7b' ::
        (front ++ (key ++ (back ++ ':' :: (before ++ ("null".toList ++ (after ++ ['\x7d'])))))))

def flagText (flag : Bool) : List Char :=
  if flag then "true".toList else "false".toList

namespace Member

/-- The text of what the member holds. Under a name that is not known it is any value. -/
inductive IsText : Member → List Char → Prop where
  | sink {d : Destination} {text : List Char} (h : IsSink d text) : IsText (.sink d) text
  | ignoreLegacy (flag : Bool) : IsText (.ignoreLegacy flag) (flagText flag)
  | sharedCache (flag : Bool) : IsText (.sharedCache flag) (flagText flag)
  | other {name : String} {text : List Char} (hname : name ∉ knownNames) (h : IsValue text) :
      IsText (.other name) text

/-- Between blanks. -/
inductive IsItem (m : Member) : List Char → Prop where
  | mk {front text back : List Char} (hfront : AreBlanks front) (h : m.IsText text)
      (hback : AreBlanks back) : IsItem m (front ++ (text ++ back))

/-- Behind its name. -/
inductive IsPair (m : Member) : List Char → Prop where
  | mk {front key back item : List Char} (hfront : AreBlanks front) (hkey : IsString m.name key)
      (hback : AreBlanks back) (h : m.IsItem item) :
      IsPair m (front ++ (key ++ (back ++ ':' :: item)))

end Member

/-- A text for each of one or more members, with commas in between. -/
inductive AreSeparated (P : Member → List Char → Prop) : List Member → List Char → Prop where
  | one {m : Member} {text : List Char} (h : P m text) : AreSeparated P [m] text
  | cons {m : Member} {members : List Member} {text others : List Char} (h : P m text)
      (hs : AreSeparated P members others) : AreSeparated P (m :: members) (text ++ ',' :: others)

section

variable {P : Member → List Char → Prop} {m m' : Member} {members : List Member}
  {text : List Char}

end

/-- The settings by position; the last ones may be left out. -/
inductive InOrder : List Member → Prop where
  | one (destination : Destination) : InOrder [.sink destination]
  | two (destination : Destination) (ignored : Bool) :
      InOrder [.sink destination, .ignoreLegacy ignored]
  | three (destination : Destination) (ignored shared : Bool) :
      InOrder [.sink destination, .ignoreLegacy ignored, .sharedCache shared]

/-- An object has the members under their names, and in any order. -/
inductive Writes : List Member → List Char → Prop where
  | emptyObject {blanks : List Char} (h : AreBlanks blanks) :
      Writes [] ('\x7b' :: (blanks ++ ['\x7d']))
  | object {members : List Member} {text : List Char}
      (h : AreSeparated Member.IsPair members text) : Writes members ('\x7b' :: (text ++ ['\x7d']))
  | emptyList {blanks : List Char} (h : AreBlanks blanks) : Writes [] ('[' :: (blanks ++ [']']))
  | list {members : List Member} {text : List Char} (h : AreSeparated Member.IsItem members text)
      (horder : InOrder members) : Writes members ('[' :: (text ++ [']']))

namespace Draft

/-- The draft with one more member; a setting may be given once. -/
def add (d : Draft) : Member → Except Problem Draft
  | .sink destination => do
      onlyOnce sinkName d.sink
      return { d with sink := some destination }
  | .ignoreLegacy flag => do
      onlyOnce ignoreLegacyName d.ignoreLegacy
      return { d with ignoreLegacy := some flag }
  | .sharedCache flag => do
      onlyOnce sharedCacheName d.sharedCache
      return { d with sharedCache := some flag }
  | .other _ => .ok d

theorem toList_inj {α : Type} {slot other : Option α} :
    slot.toList = other.toList ↔ slot = other := by
  cases slot <;> cases other <;> simp

end Draft

section

variable {α : Type} {name : String} {slot : Option α} {cs behind rest : List Char} {a : α}
  {read : List Char → Except Problem (α × List Char)} (filled : α → Draft)

end

/-- What may stand in front of a member: nothing, or a comma behind blanks. -/
inductive IsGap : Bool → List Char → Prop where
  | first : IsGap true []
  | next {blanks : List Char} (h : AreBlanks blanks) : IsGap false (blanks ++ [','])

/-- Members end, or there is another one. -/
theorem of_readMembers {fuel : ℕ} {isFirst : Bool} {d last : Draft} {cs rest : List Char}
    (h : readMembers (fuel + 1) isFirst d cs = .ok (last, rest)) :
    (skipBlank cs = '\x7d' :: rest ∧ d = last) ∨
      ∃ gap front behind, IsGap isFirst gap ∧ AreBlanks front ∧
        cs = gap ++ (front ++ '"' :: behind) ∧ (do
          let (name, rest) ← string behind
          let (d, rest) ← readMember d name rest
          readMembers fuel false d rest) = .ok (last, rest) := by
  rw [readMembers] at h
  split at h
  · cases h
    exact .inl ⟨‹_›, rfl⟩
  · rename_i hquote
    split_ifs at h with hfirst
    subst hfirst
    obtain ⟨front, hfront, hcs⟩ := exists_blanks_of_skipBlank hquote
    exact .inr ⟨[], front, _, .first, hfront, hcs, h⟩
  · rename_i hcomma
    split_ifs at h with hfirst
    split at h
    · rename_i hquote
      obtain rfl : isFirst = false := by simpa using hfirst
      obtain ⟨blanks, hblanks, hcs⟩ := exists_blanks_of_skipBlank hcomma
      obtain ⟨front, hfront, rfl⟩ := exists_blanks_of_skipBlank hquote
      exact .inr ⟨_, front, _, .next hblanks, hfront, by simp [hcs], h⟩
    · cases h
    · cases h
  · cases h
  · cases h

end Settings

end AttributeCheck
