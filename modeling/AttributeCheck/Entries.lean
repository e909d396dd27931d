/-! # Keyed lists in order of first insertion -/

namespace AttributeCheck

/-- Pairs in the order in which their keys were first inserted. -/
abbrev Entries (κ α : Type) := List (κ × α)

namespace Entries

variable {κ α : Type} [DecidableEq κ]

/-- The value under a key. -/
def get? : Entries κ α → κ → Option α
  | [], _ => none
  | (k, v) :: rest, key => if k = key then some v else get? rest key

/-- Inserting under a key that is present replaces its value and keeps its place. -/
def insert : Entries κ α → κ → α → Entries κ α
  | [], key, value => [(key, value)]
  | (k, v) :: rest, key, value =>
      if k = key then (key, value) :: rest else (k, v) :: insert rest key value

/-- Inserts pairs one after the other. -/
def insertAll (entries : Entries κ α) (pairs : List (κ × α)) : Entries κ α :=
  pairs.foldl (fun acc pair => insert acc pair.1 pair.2) entries

/-- Collects pairs: a repeated key has its first place and its last value. -/
def ofPairs (pairs : List (κ × α)) : Entries κ α :=
  insertAll [] pairs

def keys (entries : Entries κ α) : List κ :=
  entries.map Prod.fst

theorem get?_eq_lookup (entries : Entries κ α) (key : κ) :
    get? entries key = entries.lookup key := by
  induction entries with
  | nil => rfl
  | cons entry rest ih =>
      obtain ⟨k, v⟩ := entry
      by_cases hk : k = key
      · subst hk
        simp [get?]
      · simp [get?, List.lookup_cons, hk, beq_false_of_ne (Ne.symm hk), ih]

/-! ### Looking up after an insertion -/

theorem get?_insert (entries : Entries κ α) (key other : κ) (value : α) :
    get? (insert entries key value) other =
      if key = other then some value else get? entries other := by
  induction entries with
  | nil => simp [insert, get?]
  | cons entry rest ih =>
      obtain ⟨k, v⟩ := entry
      by_cases hk : k = key
      · subst hk
        by_cases ho : k = other <;> simp [insert, get?, ho]
      · by_cases ho : k = other
        · subst ho
          simp [insert, get?, hk, Ne.symm hk]
        · simp [insert, get?, hk, ho, ih]

theorem get?_eq_none_iff (entries : Entries κ α) (key : κ) :
    get? entries key = none ↔ key ∉ keys entries := by
  induction entries with
  | nil => simp [get?, keys]
  | cons entry rest ih =>
      obtain ⟨k, v⟩ := entry
      by_cases hk : k = key
      · subst hk
        simp [get?, keys]
      · simpa [get?, keys, hk, Ne.symm hk] using ih

/-! ### Keys after an insertion -/

theorem keys_insert (entries : Entries κ α) (key : κ) (value : α) :
    keys (insert entries key value) =
      if key ∈ keys entries then keys entries else keys entries ++ [key] := by
  induction entries with
  | nil => simp [insert, keys]
  | cons entry rest ih =>
      obtain ⟨k, v⟩ := entry
      by_cases hk : k = key
      · subst hk
        simp [insert, keys]
      · simp only [insert, hk, if_false, keys, List.map_cons] at ih ⊢
        rw [ih]
        by_cases hm : key ∈ List.map Prod.fst rest <;> simp [hm, Ne.symm hk]

theorem nodup_keys_insert {entries : Entries κ α} (h : (keys entries).Nodup) (key : κ) (value : α) :
    (keys (insert entries key value)).Nodup := by
  rw [keys_insert]
  split
  · exact h
  · rename_i hm
    exact List.nodup_append.mpr ⟨h, by simp, by
      intro a ha b hb
      simp only [List.mem_singleton] at hb
      subst hb
      exact fun hab => hm (hab ▸ ha)⟩

theorem nodup_keys_insertAll {entries : Entries κ α} (h : (keys entries).Nodup)
    (pairs : List (κ × α)) : (keys (insertAll entries pairs)).Nodup := by
  induction pairs generalizing entries with
  | nil => exact h
  | cons pair rest ih => exact ih (nodup_keys_insert h pair.1 pair.2)

theorem nodup_keys_ofPairs (pairs : List (κ × α)) : (keys (ofPairs pairs)).Nodup :=
  nodup_keys_insertAll (show (keys ([] : Entries κ α)).Nodup from List.nodup_nil) pairs

end Entries

end AttributeCheck
