import AttributeCheck.Settings.Basic
import AttributeCheck.Json.Number

/-! # Settings from a JSON document

The document is an object of settings by name, or a list of them by position. Names that are not
known are skipped with their values; a setting that is not given has its standard value. -/

namespace AttributeCheck

namespace Settings

/-- The settings read so far. -/
structure Draft where
  sink : Option Destination
  ignoreLegacy : Option Bool
  sharedCache : Option Bool

namespace Draft

def empty : Draft :=
  ⟨none, none, none⟩

def settings (d : Draft) : Settings :=
  ⟨d.sink.getD standard.sink, d.ignoreLegacy.getD standard.ignoreLegacy,
    d.sharedCache.getD standard.sharedCache⟩

end Draft

/-! ### Single settings -/

def destinationOf (name : String) : Except Problem Destination :=
  match Destination.ofName? name with
  | some destination => .ok destination
  | none =>
      .error (.mismatch (.unknownVariant name [Destination.log.name, Destination.stderr.name]))

def readFlag (cs : List Char) : Except Problem (Bool × List Char) :=
  match Scan.skipBlank cs with
  | 't' :: rest => do return (true, ← Scan.word "rue".toList rest)
  | 'f' :: rest => do return (false, ← Scan.word "alse".toList rest)
  | rest => .error (Scan.unexpected "a boolean" rest)

def readNull (cs : List Char) : Except Problem (List Char) :=
  match Scan.skipBlank cs with
  | 'n' :: rest => Scan.word "ull".toList rest
  | rest => .error (Scan.unexpected "unit" rest)

def readColon (cs : List Char) : Except Problem (List Char) :=
  match Scan.skipBlank cs with
  | ':' :: rest => .ok rest
  | [] => .error .incomplete
  | _ :: _ => .error .malformed

/-- A sink is its name, or an object with null under that name and nothing else. -/
def readSink (cs : List Char) : Except Problem (Destination × List Char) :=
  match Scan.skipBlank cs with
  | '"' :: rest => do
      let (name, rest) ← Scan.string rest
      return (← destinationOf name, rest)
  | '\x7b' :: rest =>
      match Scan.skipBlank rest with
      | '"' :: rest => do
          let (name, rest) ← Scan.string rest
          let destination ← destinationOf name
          let rest ← readColon rest
          let rest ← readNull rest
          match Scan.skipBlank rest with
          | '\x7d' :: rest => .ok (destination, rest)
          | [] => .error .incomplete
          | _ :: _ => .error .malformed
      -- The key of an object is a string before it is the name of a sink.
      | [] => .error .incomplete
      | _ :: _ => .error .malformed
  | [] => .error .incomplete
  | _ :: _ => .error .malformed

/-! ### Settings by name -/

def sinkName : String := "sink"

def ignoreLegacyName : String := "ignore_legacy_composite"

def sharedCacheName : String := "shared_cache"

/-- A setting may be given once. -/
def onlyOnce {α : Type} (name : String) : Option α → Except Problem Unit
  | none => .ok ()
  | some _ => .error (.mismatch (.duplicateField name))

/-- Reads the colon and the value of a member behind its name. -/
def readMember (draft : Draft) (name : String) (cs : List Char) :
    Except Problem (Draft × List Char) :=
  if name = sinkName then do
    onlyOnce name draft.sink
    let (sink, rest) ← readSink (← readColon cs)
    return ({ draft with sink := some sink }, rest)
  else if name = ignoreLegacyName then do
    onlyOnce name draft.ignoreLegacy
    let (flag, rest) ← readFlag (← readColon cs)
    return ({ draft with ignoreLegacy := some flag }, rest)
  else if name = sharedCacheName then do
    onlyOnce name draft.sharedCache
    let (flag, rest) ← readFlag (← readColon cs)
    return ({ draft with sharedCache := some flag }, rest)
  else do
    let rest ← Scan.skipValue (← readColon cs)
    return (draft, rest)

/-- Reads members up to the closing brace, each behind a comma but the first; the fuel bounds how
many follow. -/
def readMembers : Nat → Bool → Draft → List Char → Except Problem (Draft × List Char)
  | 0, _, _, _ => .error .incomplete
  | fuel + 1, isFirst, draft, cs =>
      let member (rest : List Char) := do
        let (name, rest) ← Scan.string rest
        let (draft, rest) ← readMember draft name rest
        readMembers fuel false draft rest
      match Scan.skipBlank cs with
      | '\x7d' :: rest => .ok (draft, rest)
      | '"' :: rest => if isFirst then member rest else .error .malformed
      | ',' :: rest =>
          if isFirst then .error .malformed
          else match Scan.skipBlank rest with
            | '"' :: rest => member rest
            | [] => .error .incomplete
            | _ :: _ => .error .malformed
      | [] => .error .incomplete
      | _ :: _ => .error .malformed

/-! ### Settings by position -/

/-- Whether another item follows, and the text from where it starts; else the text from the closing
bracket on. -/
def nextItem (isFirst : Bool) (cs : List Char) : Except Problem (Bool × List Char) :=
  match Scan.skipBlank cs with
  | [] => .error .incomplete
  | ']' :: rest => .ok (false, ']' :: rest)
  | c :: rest =>
      if isFirst then .ok (true, c :: rest)
      else if c = ',' then
        match Scan.skipBlank rest with
        | [] => .error .incomplete
        | ']' :: _ => .error .malformed
        | rest => .ok (true, rest)
      else .error .malformed

/-- Reads an item if there is one. -/
def readItem {α : Type} (read : List Char → Except Problem (α × List Char)) (isFirst : Bool)
    (cs : List Char) : Except Problem (Option α × List Char) := do
  let (follows, rest) ← nextItem isFirst cs
  if follows then do
    let (item, rest) ← read rest
    return (some item, rest)
  else return (none, rest)

/-- The end of a list after its last item. -/
def readListEnd (cs : List Char) : Except Problem (List Char) :=
  match Scan.skipBlank cs with
  | ']' :: rest => .ok rest
  | [] => .error .incomplete
  | _ :: _ => .error .malformed

def readItems (cs : List Char) : Except Problem (Draft × List Char) := do
  let (sink, cs) ← readItem readSink true cs
  let (ignoreLegacy, cs) ← readItem readFlag false cs
  let (sharedCache, cs) ← readItem readFlag false cs
  return (⟨sink, ignoreLegacy, sharedCache⟩, ← readListEnd cs)

/-! ### Documents -/

/-- Reads an object or a list behind blanks. -/
def readDraft (cs : List Char) : Except Problem (Draft × List Char) :=
  match Scan.skipBlank cs with
  | '[' :: rest => readItems rest
  | '\x7b' :: rest => readMembers (rest.length + 1) true .empty rest
  | rest => .error (Scan.unexpected "struct ValidatorConfig" rest)

/-- The settings of a document; behind it only blanks may follow. -/
def ofDocument (text : String) : Except Problem Settings := do
  let (draft, rest) ← readDraft text.toList
  if (Scan.skipBlank rest).isEmpty then return draft.settings else throw .malformed

/-- The message for a document of settings that has a value of the wrong type. -/
def mismatchMessage (m : Mismatch) : String :=
  "invalid validator configuration: " ++ m.text

end Settings

end AttributeCheck
