import AttributeCheck.Value.Coercion
import AttributeCheck.Value.Equality
import Mathlib.Data.List.Forall2
import Mathlib.Data.List.Perm.Subperm

/-! # Strict equality is a partial equivalence

Properties are compared by key, from one side only. Since no key is listed twice, values with as
many properties still agree in all of them. Only a NaN, at whatever depth, keeps a value from being
equal to itself. -/

namespace AttributeCheck

theorem forall₂_imp_of_mem {α β : Type} {R S : α → β → Prop} {as : List α} {bs : List β}
    (h : List.Forall₂ R as bs) (hRS : ∀ a ∈ as, ∀ b, R a b → S a b) : List.Forall₂ S as bs := by
  induction h with
  | nil => exact .nil
  | cons hab _ ih =>
      rw [List.forall_mem_cons] at hRS
      exact .cons (hRS.1 _ hab) (ih hRS.2)

/-! ## Entries under equal keys -/

namespace Entries

variable {κ α : Type} [DecidableEq κ]

theorem mem_of_get? {entries : Entries κ α} {key : κ} {value : α}
    (h : get? entries key = some value) : (key, value) ∈ entries := by
  induction entries with
  | nil => cases h
  | cons entry rest ih =>
      obtain ⟨k, v⟩ := entry
      rw [get?] at h
      split at h
      · rename_i hk
        subst hk
        obtain rfl := Option.some.inj h
        exact List.mem_cons_self
      · exact List.mem_cons_of_mem _ (ih h)

omit [DecidableEq κ] in
theorem mem_keys {entries : Entries κ α} {key : κ} {value : α} (h : (key, value) ∈ entries) :
    key ∈ keys entries :=
  List.mem_map_of_mem h

theorem get?_of_mem {entries : Entries κ α} (hn : (keys entries).Nodup) {key : κ} {value : α}
    (h : (key, value) ∈ entries) : get? entries key = some value := by
  induction entries with
  | nil => cases h
  | cons entry rest ih =>
      obtain ⟨k, v⟩ := entry
      obtain ⟨hk, hrest⟩ := List.nodup_cons.mp hn
      rcases List.mem_cons.mp h with heq | hmem
      · obtain ⟨rfl, rfl⟩ := Prod.mk.inj heq
        rw [get?, if_pos rfl]
      · have hne : k ≠ key := fun heq => hk (by rw [heq]; exact mem_keys hmem)
        rw [get?, if_neg hne]
        exact ih hrest hmem

/-- Each entry of the first list has one under its key in the second, with a related value. -/
def Within (R : α → α → Prop) (ps qs : Entries κ α) : Prop :=
  ∀ entry ∈ ps, ∃ other, get? qs entry.1 = some other ∧ R entry.2 other

/-- By counting, a list with distinct keys that is no shorter has no further keys. -/
theorem Within.keys_perm {R : α → α → Prop} {ps qs : Entries κ α} (h : Within R ps qs)
    (hl : ps.length = qs.length) (hn : (keys ps).Nodup) : (keys ps).Perm (keys qs) := by
  have hsub : keys ps ⊆ keys qs := by
    intro key hkey
    obtain ⟨entry, hentry, rfl⟩ := List.mem_map.mp hkey
    obtain ⟨other, hget, -⟩ := h entry hentry
    exact mem_keys (mem_of_get? hget)
  refine (List.subperm_of_subset hn hsub).perm_of_length_le ?_
  simp [keys, hl]

theorem Within.symm {R S : α → α → Prop} {ps qs : Entries κ α} (h : Within R ps qs)
    (hl : ps.length = qs.length) (hn : (keys ps).Nodup)
    (hRS : ∀ entry ∈ ps, ∀ other, R entry.2 other → S other entry.2) : Within S qs ps := by
  have hperm := h.keys_perm hl hn
  intro entry hentry
  have hkey : entry.1 ∈ keys ps := hperm.mem_iff.mpr (mem_keys hentry)
  obtain ⟨⟨key, value⟩, hmem, hk⟩ := List.mem_map.mp hkey
  obtain ⟨other, hget, hR⟩ := h _ hmem
  have hother : get? qs entry.1 = some entry.2 := get?_of_mem (hperm.nodup_iff.mp hn) hentry
  have heq : other = entry.2 := by
    rw [hk, hother] at hget
    exact (Option.some.inj hget).symm
  refine ⟨value, ?_, heq ▸ hRS _ hmem _ hR⟩
  rw [← hk]
  exact get?_of_mem hn hmem

theorem Within.trans {R S T : α → α → Prop} {ps qs rs : Entries κ α} (h : Within R ps qs)
    (k : Within S qs rs) (ht : ∀ entry ∈ ps, ∀ y z, R entry.2 y → S y z → T entry.2 z) :
    Within T ps rs := by
  intro entry hentry
  obtain ⟨y, hget, hy⟩ := h entry hentry
  obtain ⟨z, hgetz, hz⟩ := k _ (mem_of_get? hget)
  exact ⟨z, hgetz, ht entry hentry y z hy hz⟩

theorem within_self_iff {R : α → α → Prop} {entries : Entries κ α} (hn : (keys entries).Nodup) :
    Within R entries entries ↔ ∀ value ∈ entries.map Prod.snd, R value value := by
  rw [List.forall_mem_map]
  refine forall₂_congr fun entry hentry => ?_
  rw [get?_of_mem hn hentry]
  simp

/-- Lookups under any key agree. -/
theorem Within.get?_rel {R : α → α → Prop} {ps qs : Entries κ α} (h : Within R ps qs)
    (hl : ps.length = qs.length) (hn : (keys ps).Nodup) (key : κ) :
    Option.Rel R (get? ps key) (get? qs key) := by
  cases hp : get? ps key with
  | some value =>
      obtain ⟨other, hget, hR⟩ := h _ (mem_of_get? hp)
      rw [hget]
      exact .some hR
  | none =>
      have hkey : key ∉ keys qs := by
        rw [← (h.keys_perm hl hn).mem_iff]
        exact (get?_eq_none_iff ps key).mp hp
      rw [(get?_eq_none_iff qs key).mpr hkey]
      exact .none

end Entries

namespace Value

/-! ## Values by their parts -/

/-- The items or the property values. -/
def parts : Value → List Value
  | array items => items
  | object properties => properties.map Prod.snd
  | inst _ properties => properties.map Prod.snd
  | _ => []

theorem sizeOf_of_mem_parts {v x : Value} (h : x ∈ v.parts) : sizeOf x < sizeOf v := by
  have hproperty {properties : List (String × Value)} (hx : x ∈ properties.map Prod.snd) :
      sizeOf x < sizeOf properties := by
    obtain ⟨⟨key, value⟩, hentry, rfl⟩ := List.mem_map.mp hx
    have hsize := List.sizeOf_lt_of_mem hentry
    simp only [Prod.mk.sizeOf_spec] at hsize ⊢
    omega
  cases v with
  | array items =>
      have hsize : sizeOf x < sizeOf items := List.sizeOf_lt_of_mem h
      simp only [array.sizeOf_spec]
      omega
  | object properties =>
      have hsize := hproperty h
      simp only [object.sizeOf_spec]
      omega
  | inst cls properties =>
      have hsize := hproperty h
      simp only [inst.sizeOf_spec]
      omega
  | _ => cases h

/-- What a value gets from its parts, all values have. -/
theorem induction {P : Value → Prop} (step : ∀ v, (∀ x ∈ v.parts, P x) → P v) (v : Value) :
    P v := by
  induction hn : sizeOf v using Nat.strongRecOn generalizing v with
  | ind n ih =>
      refine step v fun x hx => ih _ ?_ x rfl
      rw [← hn]
      exact sizeOf_of_mem_parts hx

theorem propertiesHaveDistinctKeys_iff (properties : List (String × Value)) :
    propertiesHaveDistinctKeys properties = true ↔
      ∀ x ∈ properties.map Prod.snd, x.hasDistinctKeys = true := by
  induction properties with
  | nil => simp [propertiesHaveDistinctKeys]
  | cons entry rest ih =>
      obtain ⟨key, value⟩ := entry
      rw [propertiesHaveDistinctKeys, Bool.and_eq_true, ih, List.map_cons, List.forall_mem_cons]

theorem itemsHaveDistinctKeys_iff (items : List Value) :
    itemsHaveDistinctKeys items = true ↔ ∀ x ∈ items, x.hasDistinctKeys = true := by
  induction items with
  | nil => simp [itemsHaveDistinctKeys]
  | cons item rest ih =>
      rw [itemsHaveDistinctKeys, Bool.and_eq_true, ih, List.forall_mem_cons]

theorem hasDistinctKeys_iff (v : Value) :
    v.hasDistinctKeys = true ↔ (∀ properties, v.properties? = some properties →
      (Entries.keys properties).Nodup) ∧ ∀ x ∈ v.parts, x.hasDistinctKeys = true := by
  cases v <;>
    simp [hasDistinctKeys, properties?, parts, itemsHaveDistinctKeys_iff,
      propertiesHaveDistinctKeys_iff]

/-! ## Comparing contents -/

/-- Strict equality as a relation. -/
def StrictlyEqual (a b : Value) : Prop :=
  a.strictEq b = true

theorem itemsEq_iff (as bs : List Value) :
    itemsEq as bs = true ↔ List.Forall₂ StrictlyEqual as bs := by
  induction as generalizing bs with
  | nil => cases bs <;> simp [itemsEq]
  | cons a as ih =>
      cases bs with
      | nil => simp [itemsEq]
      | cons b bs => rw [itemsEq, Bool.and_eq_true, ih, List.forall₂_cons, StrictlyEqual]

theorem propertiesWithin_iff (ps qs : List (String × Value)) :
    propertiesWithin ps qs = true ↔ Entries.Within StrictlyEqual ps qs := by
  induction ps with
  | nil => simp [propertiesWithin, Entries.Within]
  | cons entry rest ih =>
      obtain ⟨key, a⟩ := entry
      rw [propertiesWithin, Bool.and_eq_true, ih]
      unfold Entries.Within
      rw [List.forall_mem_cons]
      refine and_congr_left fun _ => ?_
      cases Entries.get? qs key <;> simp [StrictlyEqual]

/-- Values that are equal to themselves and to nothing else. -/
def isAtom : Value → Bool
  | number _ => false
  | array _ => false
  | object _ => false
  | inst _ _ => false
  | _ => true

/-- The rules of strict equality. -/
inductive Match : Value → Value → Prop where
  | atom {v : Value} (h : v.isAtom = true) : Match v v
  | number {x y : Binary64} (h : x.equal y = true) : Match (number x) (number y)
  | array {as bs : List Value} (h : List.Forall₂ StrictlyEqual as bs) : Match (array as) (array bs)
  | object {ps qs : List (String × Value)} (hl : ps.length = qs.length)
      (h : Entries.Within StrictlyEqual ps qs) : Match (object ps) (object qs)
  | inst {c : Class} {ps qs : List (String × Value)} (hl : ps.length = qs.length)
      (h : Entries.Within StrictlyEqual ps qs) : Match (inst c ps) (inst c qs)

theorem strictlyEqual_iff_match (a b : Value) : StrictlyEqual a b ↔ Match a b := by
  constructor
  · intro h
    rw [StrictlyEqual, strictEq.eq_def] at h
    split at h
    · exact .atom rfl
    · exact .atom rfl
    · obtain rfl := beq_iff_eq.mp h
      exact .atom rfl
    · exact .number h
    · obtain rfl := beq_iff_eq.mp h
      exact .atom rfl
    · exact .array ((itemsEq_iff _ _).mp h)
    · obtain ⟨hl, hw⟩ := Bool.and_eq_true_iff.mp h
      exact .object (beq_iff_eq.mp hl) ((propertiesWithin_iff _ _).mp hw)
    · obtain rfl := beq_iff_eq.mp h
      exact .atom rfl
    · obtain rfl := beq_iff_eq.mp h
      exact .atom rfl
    · obtain rfl := beq_iff_eq.mp h
      exact .atom rfl
    · obtain ⟨hc, hps⟩ := Bool.and_eq_true_iff.mp h
      obtain ⟨hl, hw⟩ := Bool.and_eq_true_iff.mp hps
      obtain rfl := beq_iff_eq.mp hc
      exact .inst (beq_iff_eq.mp hl) ((propertiesWithin_iff _ _).mp hw)
    · cases h
  · intro h
    cases h with
    | atom h => cases a <;> simp_all [StrictlyEqual, strictEq, isAtom]
    | number h => simpa [StrictlyEqual, strictEq] using h
    | array h => simpa [StrictlyEqual, strictEq] using (itemsEq_iff _ _).mpr h
    | object hl h =>
        simpa [StrictlyEqual, strictEq, hl] using (propertiesWithin_iff _ _).mpr h
    | inst hl h =>
        simpa [StrictlyEqual, strictEq, hl] using (propertiesWithin_iff _ _).mpr h

/-! ## Symmetry and transitivity -/

theorem forall₂_trans {R S T : Value → Value → Prop} {as bs cs : List Value}
    (h : List.Forall₂ R as bs) (k : List.Forall₂ S bs cs)
    (ht : ∀ a ∈ as, ∀ b c, R a b → S b c → T a c) : List.Forall₂ T as cs := by
  induction h generalizing cs with
  | nil =>
      cases k
      exact .nil
  | cons hab _ ih =>
      cases k with
      | cons hbc k =>
          exact .cons (ht _ List.mem_cons_self _ _ hab hbc)
            (ih k fun a ha => ht a (List.mem_cons_of_mem _ ha))

theorem mem_parts_of_entry {properties : List (String × Value)} {entry : String × Value}
    (h : entry ∈ properties) : entry.2 ∈ properties.map Prod.snd :=
  List.mem_map_of_mem h

theorem StrictlyEqual.symm {a b : Value} (ha : a.hasDistinctKeys = true) (h : StrictlyEqual a b) :
    StrictlyEqual b a := by
  induction a using induction generalizing b with
  | step a ih =>
      obtain ⟨hkeys, hparts⟩ := (hasDistinctKeys_iff a).mp ha
      rw [strictlyEqual_iff_match] at h ⊢
      cases h with
      | atom h => exact .atom h
      | number h => exact .number (by rwa [Binary64.equal_comm])
      | array h =>
          have hback := forall₂_imp_of_mem h fun x hx y hxy => ih x hx (hparts x hx) hxy
          exact .array hback.flip
      | object hl h =>
          refine .object hl.symm (h.symm hl (hkeys _ rfl) fun entry hentry other => ?_)
          have hx := mem_parts_of_entry hentry
          exact ih _ hx (hparts _ hx)
      | inst hl h =>
          refine .inst hl.symm (h.symm hl (hkeys _ rfl) fun entry hentry other => ?_)
          have hx := mem_parts_of_entry hentry
          exact ih _ hx (hparts _ hx)

theorem StrictlyEqual.trans {a b c : Value} (hab : StrictlyEqual a b) (hbc : StrictlyEqual b c) :
    StrictlyEqual a c := by
  induction a using induction generalizing b c with
  | step a ih =>
      rw [strictlyEqual_iff_match] at hab hbc ⊢
      cases hab with
      | atom h => exact hbc
      | number h =>
          cases hbc with
          | atom h => cases h
          | number k => exact .number (Binary64.equal_trans h k)
      | array h =>
          cases hbc with
          | atom h => cases h
          | array k => exact .array (forall₂_trans h k fun x hx y z hxy hyz => ih x hx hxy hyz)
      | object hl h =>
          cases hbc with
          | atom h => cases h
          | object kl k =>
              refine .object (hl.trans kl) (h.trans k fun entry hentry y z hy hz => ?_)
              exact ih _ (mem_parts_of_entry hentry) hy hz
      | inst hl h =>
          cases hbc with
          | atom h => cases h
          | inst kl k =>
              refine .inst (hl.trans kl) (h.trans k fun entry hentry y z hy hz => ?_)
              exact ih _ (mem_parts_of_entry hentry) hy hz

/-! ## Values that equal themselves -/

/-- A value occurs in another one when it is that value or occurs in an item, a property or a field
of it. -/
inductive Occurs (x : Value) : Value → Prop where
  | here : Occurs x x
  | item {items : List Value} {v : Value} (h : v ∈ items) (inside : Occurs x v) :
      Occurs x (array items)
  | property {properties : List (String × Value)} {entry : String × Value}
      (h : entry ∈ properties) (inside : Occurs x entry.2) : Occurs x (object properties)
  | field {cls : Class} {properties : List (String × Value)} {entry : String × Value}
      (h : entry ∈ properties) (inside : Occurs x entry.2) : Occurs x (inst cls properties)

theorem occurs_iff (x v : Value) : Occurs x v ↔ x = v ∨ ∃ y ∈ v.parts, Occurs x y := by
  constructor
  · intro h
    cases h with
    | here => exact .inl rfl
    | item h inside => exact .inr ⟨_, h, inside⟩
    | property h inside => exact .inr ⟨_, mem_parts_of_entry h, inside⟩
    | field h inside => exact .inr ⟨_, mem_parts_of_entry h, inside⟩
  · rintro (rfl | ⟨y, hy, inside⟩)
    · exact .here
    · cases v with
      | array items => exact .item hy inside
      | object properties =>
          obtain ⟨entry, hentry, rfl⟩ := List.mem_map.mp hy
          exact .property hentry inside
      | inst cls properties =>
          obtain ⟨entry, hentry, rfl⟩ := List.mem_map.mp hy
          exact .field hentry inside
      | _ => cases hy

/-- No NaN occurs in the value. -/
def NaNFree (v : Value) : Prop :=
  ∀ x, Occurs (number x) v → x.isNaN = false

theorem nanFree_iff (v : Value) :
    NaNFree v ↔ (∀ x, v = number x → x.isNaN = false) ∧ ∀ y ∈ v.parts, NaNFree y := by
  constructor
  · intro h
    refine ⟨fun x hx => h x (hx ▸ .here), fun y hy x inside => h x ?_⟩
    exact (occurs_iff _ _).mpr (.inr ⟨y, hy, inside⟩)
  · rintro ⟨hv, hparts⟩ x h
    rcases (occurs_iff _ _).mp h with heq | ⟨y, hy, inside⟩
    · exact hv x heq.symm
    · exact hparts y hy x inside

theorem strictlyEqual_self_iff_parts {v : Value} (hv : v.hasDistinctKeys = true) :
    StrictlyEqual v v ↔
      (∀ x, v = number x → x.isNaN = false) ∧ ∀ y ∈ v.parts, StrictlyEqual y y := by
  obtain ⟨hkeys, -⟩ := (hasDistinctKeys_iff v).mp hv
  rw [StrictlyEqual]
  cases v with
  | number x => simp [strictEq, parts, Binary64.equal_self]
  | array items =>
      rw [strictEq, itemsEq_iff, List.forall₂_same]
      simp [parts]
  | object properties =>
      rw [strictEq, beq_self_eq_true, Bool.true_and, propertiesWithin_iff,
        Entries.within_self_iff (hkeys _ rfl)]
      simp only [parts, reduceCtorEq, false_implies, implies_true, true_and]
  | inst cls properties =>
      rw [strictEq, beq_self_eq_true, beq_self_eq_true, Bool.true_and, Bool.true_and,
        propertiesWithin_iff, Entries.within_self_iff (hkeys _ rfl)]
      simp only [parts, reduceCtorEq, false_implies, implies_true, true_and]
  | _ => simp [strictEq, parts]

theorem strictlyEqual_self_iff {v : Value} (hv : v.hasDistinctKeys = true) :
    StrictlyEqual v v ↔ NaNFree v := by
  induction v using induction with
  | step v ih =>
      obtain ⟨-, hparts⟩ := (hasDistinctKeys_iff v).mp hv
      rw [strictlyEqual_self_iff_parts hv, nanFree_iff]
      exact and_congr_right fun _ => forall₂_congr fun y hy => ih y hy (hparts y hy)

end Value

/-- Strict equality is symmetric and transitive, and a value equals itself unless a NaN occurs in
it. -/
theorem strictEq_partialEquivalence {a b c : Value} (ha : a.hasDistinctKeys = true) :
    (a.strictEq b = true → b.strictEq a = true) ∧
      (a.strictEq b = true → b.strictEq c = true → a.strictEq c = true) ∧
      (a.strictEq a = true ↔ ¬∃ x, Value.Occurs (.number x) a ∧ x.isNaN = true) := by
  refine ⟨Value.StrictlyEqual.symm ha, Value.StrictlyEqual.trans, ?_⟩
  rw [← Value.StrictlyEqual, Value.strictlyEqual_self_iff ha]
  simp [Value.NaNFree]

/-- A list of sizes; the zeros and the order of the keys vary. -/
def sizesFrom (isNegative : Bool) : Value :=
  .array [.object [("width", .number (.zero isNegative)), ("unit", .string "px")]]

def sizesByUnit (isNegative : Bool) : Value :=
  .array [.object [("unit", .string "px"), ("width", .number (.zero isNegative))]]

/-- An instance with a list of an object with a NaN. -/
def unmeasured : Value :=
  .inst (.root 0 (some "Sizes")) [("sizes", .array [.object [("width", .number .nan)]])]

theorem strictEq_partialEquivalence_sizes :
    (sizesFrom false).hasDistinctKeys = true ∧ unmeasured.hasDistinctKeys = true ∧
      (sizesFrom false).strictEq (sizesByUnit true) = true ∧
      (sizesByUnit true).strictEq (sizesFrom true) = true ∧
      (sizesByUnit true).strictEq (sizesFrom false) = true ∧
      (sizesFrom false).strictEq (sizesFrom true) = true ∧
      (¬∃ x, Value.Occurs (.number x) (sizesFrom false) ∧ x.isNaN = true) ∧
      unmeasured.strictEq unmeasured = false := by
  have hsizes := strictEq_partialEquivalence (a := sizesFrom false) (b := sizesByUnit true)
    (c := sizesFrom true) rfl
  have hunmeasured := strictEq_partialEquivalence (a := unmeasured) (b := unmeasured)
    (c := unmeasured) rfl
  obtain ⟨hsymm, htrans, hself⟩ := hsizes
  have hnan : ∃ x, Value.Occurs (.number x) unmeasured ∧ x.isNaN = true := by
    refine ⟨.nan, ?_, rfl⟩
    apply Value.Occurs.field (List.mem_singleton_self _)
    apply Value.Occurs.item (List.mem_singleton_self _)
    exact .property (List.mem_singleton_self _) .here
  refine ⟨rfl, rfl, rfl, rfl, hsymm rfl, htrans rfl rfl, hself.mp rfl, ?_⟩
  exact Bool.eq_false_iff.mpr fun h => hunmeasured.2.2.mp h hnan

end AttributeCheck
