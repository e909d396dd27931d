import AttributeCheck.Entries

/-! # Caches of reported failures -/

namespace AttributeCheck

/-- The failure messages that have been reported. -/
structure Cache where
  messages : List String

namespace Cache

def empty : Cache := ⟨[]⟩

def contains (cache : Cache) (message : String) : Bool :=
  cache.messages.contains message

/-- Adds a message; `true` when it is new. -/
def mark (cache : Cache) (message : String) : Bool × Cache :=
  if cache.contains message then (false, cache) else (true, ⟨message :: cache.messages⟩)

def size (cache : Cache) : Nat :=
  cache.messages.length

def isEmpty (cache : Cache) : Bool :=
  cache.messages.isEmpty

theorem contains_mark (cache : Cache) (message other : String) :
    (cache.mark message).2.contains other = (other == message || cache.contains other) := by
  by_cases h : cache.contains message = true
  · rw [mark, if_pos h]
    by_cases ho : other = message
    · simp [ho, h]
    · simp [ho]
  · rw [mark, if_neg h]
    exact List.contains_cons

theorem nodup_mark {cache : Cache} (h : cache.messages.Nodup) (message : String) :
    (cache.mark message).2.messages.Nodup := by
  by_cases hm : cache.contains message = true
  · rwa [mark, if_pos hm]
  · rw [mark, if_neg hm]
    exact List.nodup_cons.mpr ⟨by simpa [contains] using hm, h⟩

end Cache

/-- Which cache a validator uses. -/
inductive CacheName where
  /-- The one of the whole process. -/
  | shared
  | named (name : String)
  /-- One that no other validator is made with. -/
  | own (number : Nat)
deriving DecidableEq

/-- The caches in use. A cache that was never written is empty. -/
abbrev Caches := Entries CacheName Cache

/-- The cache of a name. -/
def Caches.get (caches : Caches) (name : CacheName) : Cache :=
  (Entries.get? caches name).getD .empty

def Caches.set (caches : Caches) (name : CacheName) (cache : Cache) : Caches :=
  Entries.insert caches name cache

theorem Caches.get_set (caches : Caches) (name other : CacheName) (cache : Cache) :
    (caches.set name cache).get other = if name = other then cache else caches.get other := by
  simp only [get, set, Entries.get?_insert]
  split <;> rfl

theorem Caches.get_set_get (caches : Caches) (name other : CacheName) :
    (caches.set name (caches.get name)).get other = caches.get other := by
  rw [get_set]
  split
  · rename_i h
    rw [h]
  · rfl

theorem Caches.get_set_set (caches : Caches) (name other : CacheName) (cache later : Cache) :
    ((caches.set name cache).set name later).get other = (caches.set name later).get other := by
  simp only [get_set]
  split <;> rfl

end AttributeCheck
