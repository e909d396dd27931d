import AttributeCheck.Proofs.JsonReading
import AttributeCheck.Proofs.NumberLayout
import Mathlib.Data.List.DropRight

/-! # JSON text and JSON data agree

The text of a value is one well-formed document. Reading it gives the JSON data of the value, with
every number as a double. -/

namespace AttributeCheck

/-! ## Data with doubles only -/

namespace Datum

mutual

/-- The datum with each integer as its nearest double. -/
def inDoubles : Datum → Datum
  | .integer n => .real (Binary64.ofInt n)
  | .list items => .list (itemsInDoubles items)
  | .object members => .object (membersInDoubles members)
  | d => d

def itemsInDoubles : List Datum → List Datum
  | [] => []
  | item :: rest => item.inDoubles :: itemsInDoubles rest

def membersInDoubles : List (String × Datum) → List (String × Datum)
  | [] => []
  | (key, d) :: rest => (key, d.inDoubles) :: membersInDoubles rest

end

mutual

/-- Whether no object in the datum repeats a key. -/
def hasDistinctKeys : Datum → Bool
  | .list items => itemsHaveDistinctKeys items
  | .object members => decide (Entries.keys members).Nodup && membersHaveDistinctKeys members
  | _ => true

def itemsHaveDistinctKeys : List Datum → Bool
  | [] => true
  | item :: rest => item.hasDistinctKeys && itemsHaveDistinctKeys rest

def membersHaveDistinctKeys : List (String × Datum) → Bool
  | [] => true
  | (_, d) :: rest => d.hasDistinctKeys && membersHaveDistinctKeys rest

end

theorem itemsInDoubles_eq_map (items : List Datum) :
    itemsInDoubles items = items.map inDoubles := by
  induction items with
  | nil => rfl
  | cons item rest ih => rw [itemsInDoubles, ih, List.map_cons]

theorem membersInDoubles_eq_map (members : List (String × Datum)) :
    membersInDoubles members = members.map fun entry => (entry.1, entry.2.inDoubles) := by
  induction members with
  | nil => rfl
  | cons entry rest ih => rw [membersInDoubles, ih, List.map_cons]

theorem itemsHaveDistinctKeys_iff (items : List Datum) :
    itemsHaveDistinctKeys items = true ↔ ∀ d ∈ items, d.hasDistinctKeys = true := by
  induction items with
  | nil => simp [itemsHaveDistinctKeys]
  | cons item rest ih =>
    rw [itemsHaveDistinctKeys, Bool.and_eq_true, ih, List.forall_mem_cons]

theorem membersHaveDistinctKeys_iff (members : List (String × Datum)) :
    membersHaveDistinctKeys members = true ↔
      ∀ entry ∈ members, entry.2.hasDistinctKeys = true := by
  induction members with
  | nil => simp [membersHaveDistinctKeys]
  | cons entry rest ih =>
    rw [membersHaveDistinctKeys, Bool.and_eq_true, ih, List.forall_mem_cons]

end Datum

/-! ## Steps of the reader -/

namespace Scan

theorem skipBlank_skipBlank (cs : List Char) : skipBlank (skipBlank cs) = skipBlank cs :=
  List.dropWhile_idempotent isBlank cs

theorem readValueWith_skipBlank (fuel : ℕ) (cs : List Char) :
    readValueWith fuel (skipBlank cs) = readValueWith fuel cs := by
  cases fuel with
  | zero => rfl
  | succ fuel => rw [readValueWith, readValueWith, skipBlank_skipBlank]

theorem readItems_skipBlank (fuel : ℕ) (cs : List Char) :
    readItems fuel (skipBlank cs) = readItems fuel cs := by
  cases fuel with
  | zero => rfl
  | succ fuel => rw [readItems, readItems, readValueWith_skipBlank]

theorem readMembers_skipBlank (fuel : ℕ) (cs : List Char) :
    readMembers fuel (skipBlank cs) = readMembers fuel cs := by
  cases fuel with
  | zero => rfl
  | succ fuel => rw [readMembers, readMembers, skipBlank_skipBlank]

/-- Items begin with neither nothing nor what closes a list. -/
theorem start_of_readItems {fuel : ℕ} {cs rest : List Char} {items : List Datum}
    (h : readItems fuel cs = .ok (items, rest)) :
    skipBlank cs ≠ [] ∧ ∀ behind, skipBlank cs ≠ ']' :: behind := by
  match fuel with
  | 0 => cases h
  | 1 => cases h
  | fuel + 2 =>
    rw [readItems, readValueWith] at h
    constructor
    · intro hstart
      rw [hstart] at h
      cases h
    · intro behind hstart
      rw [hstart] at h
      cases h

theorem start_of_readMembers {fuel : ℕ} {cs rest : List Char} {members : List (String × Datum)}
    (h : readMembers fuel cs = .ok (members, rest)) :
    skipBlank cs ≠ [] ∧ ∀ behind, skipBlank cs ≠ '\x7d' :: behind := by
  cases fuel with
  | zero => cases h
  | succ fuel =>
    obtain ⟨_, _, _, _, _, _, hquote, -⟩ := of_readMembers h
    rw [hquote]
    exact ⟨List.cons_ne_nil _ _, fun _ heq => absurd (List.cons.inj heq).1 (by decide)⟩

theorem readValueWith_list {fuel : ℕ} {cs rest : List Char} {items : List Datum}
    (h : readItems fuel cs = .ok (items, rest)) :
    readValueWith (fuel + 1) ('[' :: cs) = .ok (.list items, rest) := by
  obtain ⟨hnil, hclose⟩ := start_of_readItems h
  have hstart : skipBlank ('[' :: cs) = '[' :: cs := rfl
  rw [readValueWith, hstart]
  -- The other two alternatives are excluded by what stands in front.
  simp only
  rw [readItems_skipBlank, h]
  rfl

theorem readValueWith_object {fuel : ℕ} {cs rest : List Char} {members : List (String × Datum)}
    (h : readMembers fuel cs = .ok (members, rest)) :
    readValueWith (fuel + 1) ('\x7b' :: cs) = .ok (.object members, rest) := by
  obtain ⟨hnil, hclose⟩ := start_of_readMembers h
  have hstart : skipBlank ('\x7b' :: cs) = '\x7b' :: cs := rfl
  rw [readValueWith, hstart]
  -- The other two alternatives are excluded by what stands in front.
  simp only
  rw [readMembers_skipBlank, h]
  rfl

theorem toList_quoted_append (s : String) (rest : List Char) :
    (quoted s).toList ++ rest = '"' :: (Quoted.encode s.toList ++ '"' :: rest) := by
  simp [quoted]

theorem readValueWith_string (fuel : ℕ) (s : String) (rest : List Char) :
    readValueWith (fuel + 1) ((quoted s).toList ++ rest) = .ok (.string s, rest) := by
  rw [toList_quoted_append, readValueWith]
  change (string (Quoted.encode s.toList ++ '"' :: rest) >>= _) = _
  rw [string_encode]
  rfl

theorem ne_of_startsNumber {c k : Char} (hc : c = '-' ∨ c.isDigit = true) (hminus : k ≠ '-')
    (hdigit : k.isDigit = false) : c ≠ k := by
  rintro rfl
  simp_all

theorem skipBlank_number {c : Char} (hc : c = '-' ∨ c.isDigit = true) (cs : List Char) :
    skipBlank (c :: cs) = c :: cs := by
  have hne {k : Char} := ne_of_startsNumber (k := k) hc
  have hblank : isBlank c = false := by
    simp [isBlank, hne (k := ' ') (by decide) rfl, hne (k := '\n') (by decide) rfl,
      hne (k := '\t') (by decide) rfl, hne (k := '\r') (by decide) rfl]
  rw [skipBlank, List.dropWhile_cons, hblank]
  rfl

theorem readValueWith_number {fuel : ℕ} {c : Char} {cs : List Char}
    (hc : c = '-' ∨ c.isDigit = true) :
    readValueWith (fuel + 1) (c :: cs) = readNumber (c :: cs) := by
  rw [readValueWith, skipBlank_number hc]
  split
  · contradiction
  iterate 6
    next heq => exact absurd (List.cons.inj heq).1 (ne_of_startsNumber hc (by decide) rfl)
  · rename_i heq
    obtain ⟨rfl, rfl⟩ := List.cons.inj heq
    exact if_pos hc

theorem readItems_last {fuel : ℕ} {cs rest : List Char} {item : Datum}
    (h : readValueWith fuel cs = .ok (item, ']' :: rest)) :
    readItems (fuel + 1) cs = .ok ([item], rest) := by
  rw [readItems, h]
  rfl

theorem readItems_next {fuel : ℕ} {cs behind rest : List Char} {item : Datum} {items : List Datum}
    (h : readValueWith fuel cs = .ok (item, ',' :: behind))
    (hrest : readItems fuel behind = .ok (items, rest)) :
    readItems (fuel + 1) cs = .ok (item :: items, rest) := by
  rw [readItems, h, ok_bind]
  change (readItems fuel behind >>= _) = _
  rw [hrest]
  rfl

theorem readMembers_last {fuel : ℕ} {cs rest : List Char} (key : String) {d : Datum}
    (h : readValueWith fuel cs = .ok (d, '\x7d' :: rest)) :
    readMembers (fuel + 1) ((quoted key).toList ++ ':' :: cs) = .ok ([(key, d)], rest) := by
  have hkey := string_encode key (':' :: cs)
  rw [toList_quoted_append, readMembers]
  change (string (Quoted.encode key.toList ++ '"' :: ':' :: cs) >>= _) = _
  rw [hkey, ok_bind]
  change (readValueWith fuel cs >>= _) = _
  rw [h]
  rfl

theorem readMembers_next {fuel : ℕ} {cs behind rest : List Char} (key : String) {d : Datum}
    {members : List (String × Datum)} (h : readValueWith fuel cs = .ok (d, ',' :: behind))
    (hrest : readMembers fuel behind = .ok (members, rest)) :
    readMembers (fuel + 1) ((quoted key).toList ++ ':' :: cs) =
      .ok ((key, d) :: members, rest) := by
  have hkey := string_encode key (':' :: cs)
  rw [toList_quoted_append, readMembers]
  change (string (Quoted.encode key.toList ++ '"' :: ':' :: cs) >>= _) = _
  rw [hkey, ok_bind]
  change (readValueWith fuel cs >>= _) = _
  rw [h, ok_bind]
  change (readMembers fuel behind >>= _) = _
  rw [hrest]
  rfl

end Scan

namespace Value

open Scan

/-! ## Reading values back -/

/-- The reader reads the text of the value back, wherever it stands, and stops behind it. -/
def ReadsBack (v : Value) : Prop :=
  ∀ fuel rest, 2 * v.jsonText.toList.length ≤ fuel → EndsNumber rest →
    readValueWith fuel (v.jsonText.toList ++ rest) = .ok (v.toDatum.inDoubles, rest)

theorem endsNumber_cons {c : Char} (hdigit : c.isDigit = false) (hc : c ∉ ['.', 'e', 'E'])
    (rest : List Char) : EndsNumber (c :: rest) := by
  refine ⟨noDigit_cons hdigit rest, ?_⟩
  simpa using hc

/-- The induction follows the items; each needs two steps for every character of its text, and one
is left for the loop because of the comma behind it. -/
theorem readItems_jsonTexts {items : List Value} (h : ∀ v ∈ items, v.ReadsBack) (hne : items ≠ [])
    {fuel : ℕ} (hfuel : 2 * (",".intercalate (items.map jsonText)).toList.length + 1 ≤ fuel)
    (rest : List Char) :
    readItems fuel ((",".intercalate (items.map jsonText)).toList ++ ']' :: rest) =
      .ok (items.map (·.toDatum.inDoubles), rest) := by
  induction items generalizing fuel with
  | nil => contradiction
  | cons v items ih =>
    obtain ⟨fuel, rfl⟩ : ∃ n, fuel = n + 1 := ⟨fuel - 1, by omega⟩
    obtain ⟨hv, hitems⟩ := List.forall_mem_cons.mp h
    have hcomma : ",".toList = [','] := rfl
    cases items with
    | nil =>
      rw [List.map_singleton, String.intercalate_singleton] at hfuel ⊢
      exact readItems_last (hv fuel _ (by omega) (endsNumber_cons rfl (by decide) rest))
    | cons w items =>
      rw [List.map_cons, List.map_cons, String.intercalate_cons_cons, ← List.map_cons] at hfuel ⊢
      simp only [String.toList_append, List.length_append, List.append_assoc, hcomma,
        List.length_singleton] at hfuel ⊢
      exact readItems_next (hv fuel _ (by omega) (endsNumber_cons rfl (by decide) _))
        (ih hitems (List.cons_ne_nil _ _) (by omega))

theorem readMembers_jsonTexts {properties : List (String × Value)}
    (h : ∀ property ∈ properties, property.2.ReadsBack) (hne : properties ≠ []) {fuel : ℕ}
    (hfuel : 2 * (",".intercalate (properties.map memberText)).toList.length + 1 ≤ fuel)
    (rest : List Char) :
    readMembers fuel ((",".intercalate (properties.map memberText)).toList ++ '\x7d' :: rest) =
      .ok (properties.map fun property => (property.1, property.2.toDatum.inDoubles), rest) := by
  induction properties generalizing fuel with
  | nil => contradiction
  | cons property properties ih =>
    obtain ⟨fuel, rfl⟩ : ∃ n, fuel = n + 1 := ⟨fuel - 1, by omega⟩
    obtain ⟨hproperty, hproperties⟩ := List.forall_mem_cons.mp h
    have hcolon : ":".toList = [':'] := rfl
    have hcomma : ",".toList = [','] := rfl
    cases properties with
    | nil =>
      rw [List.map_singleton, String.intercalate_singleton, memberText] at hfuel ⊢
      simp only [String.toList_append, List.length_append, List.append_assoc, hcolon] at hfuel ⊢
      exact readMembers_last _ (hproperty fuel _ (by omega) (endsNumber_cons rfl (by decide) rest))
    | cons other properties =>
      rw [List.map_cons, List.map_cons, String.intercalate_cons_cons, ← List.map_cons,
        memberText] at hfuel ⊢
      simp only [String.toList_append, List.length_append, List.append_assoc, hcolon, hcomma,
        List.length_singleton] at hfuel ⊢
      exact readMembers_next _ (hproperty fuel _ (by omega) (endsNumber_cons rfl (by decide) _))
        (ih hproperties (List.cons_ne_nil _ _) (by omega))

theorem readsBack_string {v : Value} {s : String} (htext : v.jsonText = quoted s)
    (hdatum : v.toDatum = .string s) : v.ReadsBack := by
  intro fuel rest hfuel _
  have hlength : 0 < (quoted s).toList.length := by simp [quoted]
  rw [htext] at hfuel ⊢
  obtain ⟨fuel, rfl⟩ : ∃ n, fuel = n + 1 := ⟨fuel - 1, by omega⟩
  rw [readValueWith_string, hdatum]
  rfl

theorem readsBack_null {v : Value} (htext : v.jsonText = "null") (hdatum : v.toDatum = .null) :
    v.ReadsBack := by
  intro fuel rest hfuel _
  have hlength : "null".toList.length = 4 := rfl
  rw [htext] at hfuel ⊢
  obtain ⟨fuel, rfl⟩ : ∃ n, fuel = n + 1 := ⟨fuel - 1, by omega⟩
  rw [hdatum]
  rfl

theorem inDoubles_toDatum (x : Binary64) (h : x.isFinite = true) :
    x.toDatum.inDoubles = .real x.unsignedZero := by
  rcases Binary64.toDatum_cases h with ⟨n, hdatum, hn⟩ | ⟨hdatum, hx⟩
  · rw [hdatum, Datum.inDoubles, hn]
  · rw [hdatum, hx]
    rfl

theorem readsBack_number {x : Binary64} (h : x.isFinite = true) : (number x).ReadsBack := by
  intro fuel rest hfuel hrest
  obtain ⟨t, ht, hchars, -⟩ := Binary64.exists_numberText h
  obtain ⟨c, cs, hstart, hc⟩ := ht.start
  have htext : (number x).jsonText = NumberStyle.coerced.render x := by
    rw [jsonText_number, if_pos h]
  rw [htext] at hfuel ⊢
  have hread := readNumber_render h hrest
  rw [hchars, hstart, List.length_cons] at hfuel
  obtain ⟨fuel, rfl⟩ : ∃ n, fuel = n + 1 := ⟨fuel - 1, by omega⟩
  rw [hchars, hstart, List.cons_append] at hread ⊢
  rw [readValueWith_number hc, hread, toDatum_number, inDoubles_toDatum x h]

theorem readsBack_list {items : List Value} (h : ∀ v ∈ items, v.ReadsBack) :
    (array items).ReadsBack := by
  intro fuel rest hfuel _
  have htext : (array items).jsonText.toList =
      '[' :: ((",".intercalate (items.map jsonText)).toList ++ [']']) := by
    rw [jsonText_array, itemJsonTexts_eq_map]
    simp
  rw [htext, List.length_cons, List.length_append, List.length_singleton] at hfuel
  obtain ⟨fuel, rfl⟩ : ∃ n, fuel = n + 1 := ⟨fuel - 1, by omega⟩
  rw [htext, toDatum_array, Datum.inDoubles, itemData_eq_map, Datum.itemsInDoubles_eq_map,
    List.map_map]
  by_cases hne : items = []
  · subst hne
    rfl
  · rw [List.cons_append, List.append_assoc]
    exact readValueWith_list (readItems_jsonTexts h hne (by omega) rest)

theorem readsBack_members {v : Value} {properties : List (String × Value)}
    (htext : v.jsonText = "\x7b" ++ ",".intercalate (memberJsonTexts properties) ++ "\x7d")
    (hdatum : v.toDatum = .object (memberData properties))
    (h : ∀ x ∈ properties.map Prod.snd, x.ReadsBack) : v.ReadsBack := by
  intro fuel rest hfuel _
  have htext : v.jsonText.toList =
      '\x7b' :: ((",".intercalate ((visible properties).map memberText)).toList ++ ['\x7d']) := by
    rw [htext, memberJsonTexts_eq_map]
    simp
  have hvisible : ∀ property ∈ visible properties, property.2.ReadsBack := fun property hmem =>
    h _ (mem_parts_of_entry (mem_of_mem_visible hmem))
  rw [htext, List.length_cons, List.length_append, List.length_singleton] at hfuel
  obtain ⟨fuel, rfl⟩ : ∃ n, fuel = n + 1 := ⟨fuel - 1, by omega⟩
  rw [htext, hdatum, Datum.inDoubles, memberData_eq_map, Datum.membersInDoubles_eq_map,
    List.map_map]
  by_cases hne : visible properties = []
  · rw [hne]
    rfl
  · rw [List.cons_append, List.append_assoc]
    exact readValueWith_object (readMembers_jsonTexts hvisible hne (by omega) rest)

theorem readsBack (v : Value) : v.ReadsBack := by
  induction v using induction with
  | step v ih =>
    cases v with
    | undefined => exact readsBack_null rfl rfl
    | null => exact readsBack_null rfl rfl
    | bool b =>
      intro fuel rest hfuel _
      obtain ⟨fuel, rfl⟩ : ∃ n, fuel = n + 1 := ⟨fuel - 1, by cases b <;> simp [jsonText] at hfuel <;> omega⟩
      cases b <;> rfl
    | number x =>
      by_cases hfinite : x.isFinite = true
      · exact readsBack_number hfinite
      · refine readsBack_null ?_ ?_
        · rw [jsonText_number, if_neg hfinite]
        · rw [toDatum_number, Binary64.toDatum, if_neg hfinite]
    | string s => exact readsBack_string rfl rfl
    | array items => exact readsBack_list ih
    | object properties => exact readsBack_members rfl rfl ih
    | function f => exact readsBack_null rfl rfl
    | date t => exact readsBack_string rfl rfl
    | pattern source => exact @readsBack_members _ [] rfl rfl (List.forall_mem_nil _)
    | inst cls properties => exact readsBack_members rfl rfl ih

/-! ## Keys -/

theorem keys_visible_sublist (properties : List (String × Value)) :
    (Entries.keys (visible properties)).Sublist (Entries.keys properties) :=
  List.filter_sublist.map Prod.fst

theorem membersHaveDistinctKeys_inDoubles {properties : List (String × Value)}
    (hnodup : (Entries.keys properties).Nodup)
    (h : ∀ x ∈ properties.map Prod.snd, x.toDatum.inDoubles.hasDistinctKeys = true) :
    (Datum.object (memberData properties)).inDoubles.hasDistinctKeys = true := by
  rw [Datum.inDoubles, memberData_eq_map, Datum.membersInDoubles_eq_map, List.map_map,
    Datum.hasDistinctKeys, Bool.and_eq_true, decide_eq_true_iff, Datum.membersHaveDistinctKeys_iff]
  constructor
  · have hkeys : Entries.keys (visible properties) =
        Entries.keys ((visible properties).map ((fun entry => (entry.1, entry.2.inDoubles)) ∘
          fun property => (property.1, property.2.toDatum))) := by
      rw [Entries.keys, Entries.keys, List.map_map]
      rfl
    rw [← hkeys]
    exact hnodup.sublist (keys_visible_sublist properties)
  · intro entry hentry
    obtain ⟨property, hproperty, rfl⟩ := List.mem_map.mp hentry
    exact h _ (mem_parts_of_entry (mem_of_mem_visible hproperty))

theorem hasDistinctKeys_inDoubles {v : Value} (h : v.hasDistinctKeys = true) :
    v.toDatum.inDoubles.hasDistinctKeys = true := by
  induction v using induction with
  | step v ih =>
    obtain ⟨hkeys, hparts⟩ := (hasDistinctKeys_iff v).mp h
    have ih : ∀ x ∈ v.parts, x.toDatum.inDoubles.hasDistinctKeys = true := fun x hx =>
      ih x hx (hparts x hx)
    cases v with
    | number x =>
      by_cases hfinite : x.isFinite = true
      · rw [toDatum_number, inDoubles_toDatum x hfinite]
        rfl
      · rw [toDatum_number, Binary64.toDatum, if_neg hfinite]
        rfl
    | array items =>
      rw [toDatum_array, Datum.inDoubles, itemData_eq_map, Datum.itemsInDoubles_eq_map, List.map_map,
        Datum.hasDistinctKeys, Datum.itemsHaveDistinctKeys_iff]
      exact List.forall_mem_map.mpr ih
    | object properties => exact membersHaveDistinctKeys_inDoubles (hkeys _ rfl) ih
    | inst cls properties => exact membersHaveDistinctKeys_inDoubles (hkeys _ rfl) ih
    | _ => rfl

/-- The text of a value is one well-formed document, and reading it gives the JSON data of the value
with its numbers as doubles, without a repeated key. -/
theorem readDocument_jsonText (v : Value) :
    skipValue v.jsonText.toList = .ok [] ∧ readDocument v.jsonText = .ok v.toDatum.inDoubles ∧
      (v.hasDistinctKeys = true → v.toDatum.inDoubles.hasDistinctKeys = true) := by
  have hread : readValue v.jsonText.toList = .ok (v.toDatum.inDoubles, []) := by
    have h := v.readsBack (2 * v.jsonText.toList.length + 1) [] (by omega) endsNumber_nil
    rwa [List.append_nil] at h
  refine ⟨(skip_of_read _).1 _ _ _ hread, ?_, hasDistinctKeys_inDoubles⟩
  rw [readDocument, hread]
  rfl

/-- A record with hidden properties at both ends and a whole number beyond 64 bits. -/
def partialRecord : Value :=
  object [("gone", undefined), ("total", number (Binary64.ofMagnitude false 0x43F0000000000000)),
    ("note", string "a \"quote\""), ("list", array [undefined]),
    ("run", function ⟨0, none, .noop⟩)]

theorem readDocument_partialRecord :
    readDocument partialRecord.jsonText = .ok partialRecord.toDatum.inDoubles ∧
      partialRecord.toDatum.inDoubles = .object
        [("total", .real (Binary64.ofMagnitude false 0x43F0000000000000)),
          ("note", .string "a \"quote\""), ("list", .list [.null])] ∧
      partialRecord.hasDistinctKeys = true ∧
      partialRecord.toDatum.inDoubles.hasDistinctKeys = true := by
  have hkeys : partialRecord.hasDistinctKeys = true := by decide
  obtain ⟨-, hread, hdistinct⟩ := readDocument_jsonText partialRecord
  exact ⟨hread, rfl, hkeys, hdistinct hkeys⟩

end Value

end AttributeCheck
