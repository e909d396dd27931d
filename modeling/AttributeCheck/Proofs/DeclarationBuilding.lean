import AttributeCheck.Proofs.Modes
import AttributeCheck.Proofs.StrictEquality
import AttributeCheck.Proofs.Visits
import Mathlib.Data.Finset.Card
import Mathlib.Data.List.Induction

/-! # All ways to build declarations agree

Declarations can be collected from pairs, declared one after the other, or merged from parts. Each
step keeps one law: names stand in the order in which they first appear, and each has what was given
for it last. So only the sequence of pairs matters. The fields of a shape are built alike. -/

namespace AttributeCheck

/-! ## Without repetitions -/

theorem eraseDups_concat {κ : Type} [DecidableEq κ] (xs : List κ) (x : κ) :
    (xs ++ [x]).eraseDups = if x ∈ xs then xs.eraseDups else xs.eraseDups ++ [x] := by
  rw [List.eraseDups_append]
  by_cases h : x ∈ xs <;> simp [List.removeAll, List.eraseDups_cons, h]

theorem eraseDups_append_eraseDups {κ : Type} [DecidableEq κ] (xs ys : List κ) :
    (xs ++ ys.eraseDups).eraseDups = (xs ++ ys).eraseDups := by
  induction ys using List.reverseRecOn with
  | nil => simp
  | append_singleton ys y ih =>
      rw [← List.append_assoc, eraseDups_concat, eraseDups_concat, ← ih]
      by_cases h : y ∈ ys
      · simp [h]
      · rw [if_neg h, ← List.append_assoc, eraseDups_concat]
        simp only [List.mem_append, List.mem_eraseDups]

namespace Entries

variable {κ α : Type} [DecidableEq κ]

/-! ## The last values of keys -/

/-- The values given for a key, in order. -/
def givenFor (pairs : List (κ × α)) (key : κ) : List α :=
  pairs.filterMap fun pair => if pair.1 = key then some pair.2 else none

/-- Each key at the place where it first appears, with the value given for it last. -/
def latest (pairs : List (κ × α)) : Entries κ α :=
  (keys pairs).eraseDups.filterMap fun key => (givenFor pairs key).getLast?.map (key, ·)

theorem getLast?_givenFor_append (front rest : List (κ × α)) (key : κ) :
    (givenFor (front ++ rest) key).getLast? =
      (givenFor rest key).getLast?.or (givenFor front key).getLast? := by
  rw [givenFor, List.filterMap_append, List.getLast?_append]
  rfl

theorem getLast?_givenFor_singleton (key other : κ) (value : α) :
    (givenFor [(key, value)] other).getLast? = if key = other then some value else none := by
  by_cases h : key = other <;> simp [givenFor, h]

/-- The last value given for a key that no entry repeats is the one it has. -/
theorem getLast?_givenFor {entries : Entries κ α} (h : (keys entries).Nodup) (key : κ) :
    (givenFor entries key).getLast? = get? entries key := by
  induction entries with
  | nil => rfl
  | cons entry rest ih =>
      obtain ⟨k, value⟩ := entry
      obtain ⟨hk, hrest⟩ := List.nodup_cons.mp h
      rw [← List.singleton_append, getLast?_givenFor_append, getLast?_givenFor_singleton,
        ih hrest, List.singleton_append, get?]
      by_cases heq : k = key
      · subst heq
        rw [(get?_eq_none_iff rest k).mpr hk]
        simp
      · simp [heq]

theorem eq_filterMap_keys {entries : Entries κ α} (h : (keys entries).Nodup) :
    entries = (keys entries).filterMap fun key => (get? entries key).map (key, ·) := by
  induction entries with
  | nil => rfl
  | cons entry rest ih =>
      obtain ⟨k, value⟩ := entry
      obtain ⟨hk, hrest⟩ := List.nodup_cons.mp h
      have htail : (keys rest).filterMap (fun key => (get? ((k, value) :: rest) key).map (key, ·)) =
          (keys rest).filterMap fun key => (get? rest key).map (key, ·) := by
        apply List.filterMap_congr
        intro key hkey
        have hne : k ≠ key := fun heq => hk (heq ▸ hkey)
        simp [get?, hne]
      have hcons : keys ((k, value) :: rest) = k :: keys rest := rfl
      rw [hcons, List.filterMap_cons, htail, ← ih hrest]
      simp [get?]

/-! ## What building keeps -/

/-- Entries that record pairs, as they come: first places and last values. -/
structure Records (pairs : List (κ × α)) (entries : Entries κ α) : Prop where
  keys_eq : keys entries = (keys pairs).eraseDups
  get?_eq : ∀ key, get? entries key = (givenFor pairs key).getLast?
  nodup : (keys entries).Nodup

namespace Records

variable {pairs more : List (κ × α)} {entries others : Entries κ α}

theorem nil : Records ([] : List (κ × α)) [] :=
  ⟨rfl, fun _ => rfl, List.nodup_nil⟩

theorem insert (h : Records pairs entries) (key : κ) (value : α) :
    Records (pairs ++ [(key, value)]) (insert entries key value) where
  keys_eq := by
    have hkeys : keys (pairs ++ [(key, value)]) = keys pairs ++ [key] := List.map_append
    rw [keys_insert, hkeys, eraseDups_concat, h.keys_eq]
    simp only [List.mem_eraseDups]
  get?_eq other := by
    rw [get?_insert, getLast?_givenFor_append, getLast?_givenFor_singleton, h.get?_eq]
    by_cases hk : key = other <;> simp [hk]
  nodup := nodup_keys_insert h.nodup key value

theorem insertAll (h : Records pairs entries) (more : List (κ × α)) :
    Records (pairs ++ more) (insertAll entries more) := by
  induction more generalizing pairs entries with
  | nil => simpa [Entries.insertAll] using h
  | cons pair more ih =>
      have hrest := ih (h.insert pair.1 pair.2)
      rwa [List.append_assoc, List.singleton_append] at hrest

theorem ofPairs (pairs : List (κ × α)) : Records pairs (ofPairs pairs) :=
  nil.insertAll pairs

/-- Entries can be merged: those of one part are inserted behind those of another. -/
theorem merge (h : Records pairs entries) (k : Records more others) :
    Records (pairs ++ more) (Entries.insertAll entries others) := by
  have hmerged := h.insertAll others
  refine ⟨?_, fun key => ?_, hmerged.nodup⟩
  · have hkeys (xs ys : List (κ × α)) : keys (xs ++ ys) = keys xs ++ keys ys := List.map_append
    rw [hmerged.keys_eq, hkeys, hkeys, k.keys_eq, eraseDups_append_eraseDups]
  · rw [hmerged.get?_eq, getLast?_givenFor_append, getLast?_givenFor_append,
      getLast?_givenFor k.nodup, k.get?_eq]

theorem eq_latest (h : Records pairs entries) : entries = latest pairs := by
  rw [eq_filterMap_keys h.nodup, latest, h.keys_eq]
  simp only [h.get?_eq]

theorem length_eq (h : Records pairs entries) :
    entries.length = (pairs.map Prod.fst).toFinset.card := by
  have hset : (pairs.map Prod.fst).toFinset = (keys entries).toFinset := by
    ext key
    rw [List.mem_toFinset, List.mem_toFinset, h.keys_eq, List.mem_eraseDups]
    rfl
  rw [hset, List.toFinset_card_of_nodup h.nodup, keys, List.length_map]

end Records

theorem exists_getLast?_givenFor {pairs : List (κ × α)} {key : κ} (h : key ∈ keys pairs) :
    ∃ value, (givenFor pairs key).getLast? = some value := by
  have hrecords := Records.ofPairs pairs
  rw [← hrecords.get?_eq, ← Option.ne_none_iff_exists', ne_eq, get?_eq_none_iff, not_not,
    hrecords.keys_eq, List.mem_eraseDups]
  exact h

/-- A value that is replaced later leaves nothing behind. -/
theorem latest_of_replaced {key : κ} (front : List (κ × α)) (value other : α)
    {rest : List (κ × α)} (h : key ∈ keys rest) :
    latest (front ++ (key, value) :: rest) = latest (front ++ (key, other) :: rest) := by
  obtain ⟨last, hlast⟩ := exists_getLast?_givenFor h
  have hsplit (x : α) : front ++ (key, x) :: rest = front ++ [(key, x)] ++ rest := by simp
  have hkeys : keys (front ++ (key, value) :: rest) = keys (front ++ (key, other) :: rest) := by
    simp [keys]
  have hgiven (k : κ) : (givenFor (front ++ (key, value) :: rest) k).getLast? =
      (givenFor (front ++ (key, other) :: rest) k).getLast? := by
    simp only [hsplit, getLast?_givenFor_append, getLast?_givenFor_singleton]
    by_cases hk : key = k
    · subst hk
      rw [hlast]
      rfl
    · simp [hk]
  simp only [latest, hkeys, hgiven]

end Entries

/-! ## Declarations -/

/-- The ways to build declarations from pairs. Declaring one more is the same in a chain and in
place; a checker can be declared as such. Parts that were built apart can be merged. -/
inductive Declarations.BuiltFrom : List (String × Declaration) → Declarations → Prop where
  | empty : BuiltFrom [] .empty
  | collected (pairs : List (String × Declaration)) : BuiltFrom pairs (.ofPairs pairs)
  | declared {pairs : List (String × Declaration)} {d : Declarations} (h : BuiltFrom pairs d)
      (name : String) (declaration : Declaration) :
      BuiltFrom (pairs ++ [(name, declaration)]) (d.declare name declaration)
  | withChecker {pairs : List (String × Declaration)} {d : Declarations} (h : BuiltFrom pairs d)
      (name : String) (c : Checker) :
      BuiltFrom (pairs ++ [(name, .checker c)]) (d.withChecker name c)
  | several {pairs : List (String × Declaration)} {d : Declarations} (h : BuiltFrom pairs d)
      (more : List (String × Declaration)) : BuiltFrom (pairs ++ more) (d.declareAll more)
  | merged {pairs more : List (String × Declaration)} {d e : Declarations}
      (h : BuiltFrom pairs d) (k : BuiltFrom more e) :
      BuiltFrom (pairs ++ more) (d.declareAll e.entries)

theorem Declarations.BuiltFrom.records {pairs : List (String × Declaration)} {d : Declarations}
    (h : BuiltFrom pairs d) : Entries.Records pairs d.entries := by
  induction h with
  | empty => exact .nil
  | collected pairs => exact .ofPairs pairs
  | declared _ name declaration ih => exact ih.insert name declaration
  | withChecker _ name c ih => exact ih.insert name (.checker c)
  | several _ more ih => exact ih.insertAll more
  | merged _ _ ih ih' => exact ih.merge ih'

/-- What reporting the evaluations of declared attributes leaves behind. -/
def Channel.reportEvaluations (channel : Channel) (cache : Cache) : List Evaluation → Report
  | [] => ⟨cache, [], []⟩
  | evaluation :: rest =>
      let first := match evaluation.failure with
        | some failure => channel.report cache failure
        | none => (cache, [])
      let report := channel.reportEvaluations first.1 rest
      ⟨report.cache, evaluation.events.map .event ++ first.2 ++ report.effects,
        evaluation.calls ++ report.calls⟩

/-- Each entry is evaluated once, in order, and reported on the basis of that. -/
theorem reportAll_eq_reportEvaluations (channel : Channel) (bag : Entries String Value)
    (component : String) (location : Location) (cache : Cache)
    (entries : Entries String Declaration) :
    channel.reportAll bag component location cache entries =
      channel.reportEvaluations cache (entries.map (evaluateEntry bag component location)) := by
  induction entries generalizing cache with
  | nil => rfl
  | cons entry rest ih =>
      simp only [Channel.reportAll, List.map_cons, Channel.reportEvaluations, ih]
      rfl

/-- Declarations hold what was given last for each name, and a check evaluates exactly this, in the
order of first places. -/
structure Declarations.HoldsLatest (d : Declarations) (pairs : List (String × Declaration)) :
    Prop where
  eq_ofPairs : d = .ofPairs pairs
  names_eq : d.names = (pairs.map Prod.fst).eraseDups
  get?_eq : ∀ name, d.get? name = (Entries.givenFor pairs name).getLast?
  size_eq : d.size = (pairs.map Prod.fst).toFinset.card
  validate_eq : ∀ (v : Validator) (caches : Caches) (bag : Entries String Value)
    (component : Option String) (location : Location),
    v.validate caches d bag component location =
      let report := v.channel.reportEvaluations (caches.get v.cache)
        ((Entries.latest pairs).map (evaluateEntry bag (displayName component) location))
      (caches.set v.cache report.cache, report.effects, report.calls)

theorem Declarations.BuiltFrom.holdsLatest {pairs : List (String × Declaration)}
    {d : Declarations} (h : BuiltFrom pairs d) : d.HoldsLatest pairs where
  eq_ofPairs := by
    have hcollected := (Entries.Records.ofPairs pairs).eq_latest
    rw [ofPairs, hcollected, ← h.records.eq_latest]
  names_eq := h.records.keys_eq
  get?_eq := h.records.get?_eq
  size_eq := h.records.length_eq
  validate_eq v caches bag component location := by
    simp only [Validator.validate, reportAll_eq_reportEvaluations, h.records.eq_latest]

/-! ## Fields of shapes -/

/-- The ways to build the fields of a shape. -/
inductive Fields.BuiltFrom : List (String × Option Checker) → Fields → Prop where
  | empty : BuiltFrom [] []
  | collected (pairs : List (String × Option Checker)) : BuiltFrom pairs (Entries.ofPairs pairs)
  | declared {pairs : List (String × Option Checker)} {fields : Fields}
      (h : BuiltFrom pairs fields) (name : String) (checker : Option Checker) :
      BuiltFrom (pairs ++ [(name, checker)]) (fields.declare name checker)

theorem Fields.BuiltFrom.records {pairs : List (String × Option Checker)} {fields : Fields}
    (h : BuiltFrom pairs fields) : Entries.Records pairs fields := by
  induction h with
  | empty => exact .nil
  | collected pairs => exact .ofPairs pairs
  | declared _ name checker ih => exact ih.insert name checker

/-- Fields hold what was given last for each name, and a shape visits exactly this, in the order of
first places. What was given without a checker is skipped. -/
structure Fields.HoldLatest (fields : Fields) (pairs : List (String × Option Checker)) :
    Prop where
  shape_eq : Checker.ofRule (.shape fields) = .shape pairs
  names_eq : Entries.keys fields = (pairs.map Prod.fst).eraseDups
  get?_eq : ∀ name, Entries.get? fields name = (Entries.givenFor pairs name).getLast?
  size_eq : fields.length = (pairs.map Prod.fst).toFinset.card
  run_eq : ∀ (v : Value) (site : Site), v.kind = .object →
    (Rule.shape fields).run v site = runParts Verdict.isAcceptance .accept
      ((Entries.latest pairs).filterMap fun (name, field) =>
        field.map fun c =>
          ⟨c, v.own.lookup name, ⟨name, site.component, site.location⟩⟩)

theorem Fields.BuiltFrom.holdLatest {pairs : List (String × Option Checker)} {fields : Fields}
    (h : BuiltFrom pairs fields) : Fields.HoldLatest fields pairs where
  shape_eq := by
    have hcollected := (Entries.Records.ofPairs pairs).eq_latest
    rw [Checker.shape, hcollected, ← h.records.eq_latest]
  names_eq := h.records.keys_eq
  get?_eq := h.records.get?_eq
  size_eq := h.records.length_eq
  run_eq v site hk := by
    rw [Rule.run, if_pos hk, runFields_eq_runParts, h.records.eq_latest]

/-! ## Agreement -/

/-- However declarations and fields are built, they hold what was given last for each name at the
place where it was first given. What is replaced could have been anything. -/
theorem building_ways_agree :
    (∀ pairs d, Declarations.BuiltFrom pairs d → d.HoldsLatest pairs) ∧
      (∀ pairs fields, Fields.BuiltFrom pairs fields → Fields.HoldLatest fields pairs) ∧
      (∀ front rest name replaced other d e, name ∈ rest.map Prod.fst →
        Declarations.BuiltFrom (front ++ (name, replaced) :: rest) d →
        Declarations.BuiltFrom (front ++ (name, other) :: rest) e → d = e) ∧
      ∀ front rest name replaced other fields others, name ∈ rest.map Prod.fst →
        Fields.BuiltFrom (front ++ (name, replaced) :: rest) fields →
        Fields.BuiltFrom (front ++ (name, other) :: rest) others → fields = others := by
  refine ⟨fun _ _ h => h.holdsLatest, fun _ _ h => h.holdLatest, ?_, ?_⟩
  · intro front rest name replaced other d e hname hd he
    have hlatest := Entries.latest_of_replaced front replaced other hname
    rw [← hd.records.eq_latest, ← he.records.eq_latest] at hlatest
    exact congrArg Declarations.mk hlatest
  · intro front rest name replaced other fields others hname hf ho
    have hlatest := Entries.latest_of_replaced front replaced other hname
    rwa [← hf.records.eq_latest, ← ho.records.eq_latest] at hlatest

/-- The checker of the icon panics at first, and its replacement is no checker until the last one.
-/
def iconRevisions : List (String × Declaration) :=
  [("icon", .checker (.custom fun _ _ => .panic none)), ("size", .checker .number),
    ("icon", .invalid .null), ("size", .checker (.required .string)), ("icon", .checker .bool)]

def revisedIcon : Declarations :=
  let correction := (Declarations.empty.declare "icon" (.invalid .null)).withChecker "size"
    (.required .string)
  ((Declarations.ofPairs (iconRevisions.take 2)).declareAll correction.entries).withChecker "icon"
    .bool

/-- The size is skipped in the end. -/
def sizeRevisions : List (String × Option Checker) :=
  [("size", some (.required .string)), ("icon", some .bool), ("size", none)]

theorem building_ways_agree_icon :
    Declarations.BuiltFrom iconRevisions revisedIcon ∧ revisedIcon.names = ["icon", "size"] ∧
      revisedIcon = .ofPairs (("icon", .invalid .undefined) :: iconRevisions.tail) ∧
      (revisedIcon.firstFailure [("icon", .bool true)] none).failure =
        some (Fault.missing.failure "size" anonymousName "prop") ∧
      Fields.BuiltFrom sizeRevisions
        (Fields.declare (Entries.ofPairs (sizeRevisions.take 2)) "size" none) ∧
      Entries.keys (Entries.ofPairs sizeRevisions) = ["size", "icon"] ∧
      (Fields.declare (Entries.ofPairs (sizeRevisions.take 2)) "size" none) =
        Entries.ofPairs (("size", some .number) :: sizeRevisions.tail) := by
  have hbuilt : Declarations.BuiltFrom iconRevisions revisedIcon :=
    .withChecker (.merged (.collected (iconRevisions.take 2))
      (.withChecker (.declared .empty "icon" (.invalid .null)) "size" (.required .string)))
      "icon" .bool
  have hfields : Fields.BuiltFrom sizeRevisions
      (Fields.declare (Entries.ofPairs (sizeRevisions.take 2)) "size" none) :=
    .declared (.collected (sizeRevisions.take 2)) "size" none
  obtain ⟨hdeclared, hshape, hreplaced, hfieldReplaced⟩ := building_ways_agree
  refine ⟨hbuilt, (hdeclared _ _ hbuilt).names_eq, ?_, rfl, hfields,
    (hshape _ _ (.collected sizeRevisions)).names_eq, ?_⟩
  · exact hreplaced [] iconRevisions.tail "icon" _ _ _ _ (by decide) hbuilt (.collected _)
  · exact hfieldReplaced [] sizeRevisions.tail "size" _ _ _ _ (by decide) hfields (.collected _)

end AttributeCheck
