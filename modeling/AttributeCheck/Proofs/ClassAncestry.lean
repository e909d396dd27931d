import AttributeCheck.Proofs.Loosening
import Mathlib.Data.List.Nodup

/-! # Classes are ordered by ancestry

Classes are made one after the other, and a parent is made before its subclasses. So the search for
an ancestor ends, no two classes inherit from each other, and the ancestors of a class stand in one
line. Names decide nothing of this. Of two classes one is a subclass of the other exactly if the
checker for its instances accepts no more. -/

namespace AttributeCheck

namespace Class

/-! ## The line of ancestors -/

theorem isSubclassOf_refl (c : Class) : c.isSubclassOf c = true := by
  cases c <;> simp [isSubclassOf]

theorem isSubclassOf_derived_iff {identity : Nat} {name : String} {parent ancestor : Class} :
    (derived identity name parent).isSubclassOf ancestor = true ↔
      derived identity name parent = ancestor ∨ parent.isSubclassOf ancestor = true := by
  rw [isSubclassOf, Bool.or_eq_true, beq_iff_eq]

/-- What two classes both descend from one, one of them descends from the other. -/
theorem isSubclassOf_or_of_isSubclassOf {c a b : Class} (ha : c.isSubclassOf a = true)
    (hb : c.isSubclassOf b = true) : a.isSubclassOf b = true ∨ b.isSubclassOf a = true := by
  induction c with
  | root identity name =>
      rw [isSubclassOf, Bool.or_false, beq_iff_eq] at ha hb
      left
      rw [← ha, ← hb]
      exact isSubclassOf_refl _
  | derived identity name parent ih =>
      rw [isSubclassOf_derived_iff] at ha hb
      rcases ha with rfl | ha
      · exact .inl (isSubclassOf_derived_iff.mpr hb)
      · rcases hb with rfl | hb
        · exact .inr (isSubclassOf_derived_iff.mpr (.inr ha))
        · exact ih ha hb

theorem isSubclassOf_of_identity_ne {c a : Class} (h : c.identity ≠ a.identity) :
    c.isSubclassOf a = c.parent.any (·.isSubclassOf a) := by
  have hne : c ≠ a := mt (congrArg identity) h
  cases c <;> simp [isSubclassOf, parent, hne]

/-- The same class with other names along its line, which are given by identity. -/
def renamed (rootName : Nat → Option String) (derivedName : Nat → String) : Class → Class
  | root identity _ => root identity (rootName identity)
  | derived identity _ parent =>
      derived identity (derivedName identity) (parent.renamed rootName derivedName)

theorem identity_renamed (rootName : Nat → Option String) (derivedName : Nat → String)
    (c : Class) : (c.renamed rootName derivedName).identity = c.identity := by
  cases c <;> rfl

theorem lineage_renamed (rootName : Nat → Option String) (derivedName : Nat → String)
    (c : Class) :
    (c.renamed rootName derivedName).lineage.map identity = c.lineage.map identity := by
  induction c with
  | root identity name => rfl
  | derived identity name parent ih => simp [renamed, lineage, ih, Class.identity]

/-- The search for an ancestor, from a class or from beyond a root: it compares identities, goes up
from one class to its parent, and counts the classes it looks at. -/
inductive Search (ancestor : Class) : Option Class → Nat → Bool → Prop where
  | finds {c : Class} (h : c.identity = ancestor.identity) : Search ancestor (some c) 1 true
  | climbs {c : Class} {looks : Nat} {answer : Bool} (h : c.identity ≠ ancestor.identity)
      (hp : Search ancestor c.parent looks answer) : Search ancestor (some c) (looks + 1) answer
  | ends : Search ancestor none 0 false

theorem Search.unique {ancestor : Class} {start : Option Class} {looks others : Nat}
    {answer other : Bool} (h : Search ancestor start looks answer)
    (ho : Search ancestor start others other) : others = looks ∧ other = answer := by
  induction h generalizing others other with
  | finds h =>
      cases ho with
      | finds _ => exact ⟨rfl, rfl⟩
      | climbs hne _ => exact absurd h hne
  | climbs h _ ih =>
      cases ho with
      | finds heq => exact absurd heq h
      | climbs _ hp =>
          obtain ⟨rfl, rfl⟩ := ih hp
          exact ⟨rfl, rfl⟩
  | ends =>
      cases ho
      exact ⟨rfl, rfl⟩

/-! ## Registries -/

namespace Registry

/-- The registries that come about by making classes one after the other, where a parent is a class
made before. -/
inductive Made : Registry → Prop where
  | empty : Made .empty
  | declare {r : Registry} (h : Made r) (name : Option String) : Made (r.declare name).2
  | derive {r : Registry} {parent : Class} (h : Made r) (name : String)
      (hp : parent ∈ r.created) : Made (r.derive name parent).2

/-- Identities number the classes, and a parent has a smaller one than its subclasses. -/
structure IsNumbered (r : Registry) : Prop where
  identities : r.created.map identity = List.range r.created.length
  parent_earlier : ∀ c ∈ r.created, ∀ p, c.parent = some p → p ∈ r.created ∧ p.identity < c.identity

theorem IsNumbered.identity_lt {r : Registry} (h : r.IsNumbered) {c : Class}
    (hc : c ∈ r.created) : c.identity < r.created.length := by
  have hmem : c.identity ∈ r.created.map identity := List.mem_map_of_mem hc
  rw [h.identities] at hmem
  exact List.mem_range.mp hmem

theorem IsNumbered.add {r : Registry} (h : r.IsNumbered) {c : Class} (hi : c.identity = r.fresh)
    (hp : ∀ p, c.parent = some p → p ∈ r.created) : (r.add c).2.IsNumbered where
  identities := by
    simp [Registry.add, h.identities, List.range_succ, hi, fresh]
  parent_earlier := by
    intro d hd p hparent
    simp only [Registry.add, List.mem_append, List.mem_singleton] at hd ⊢
    rcases hd with hd | rfl
    · have hearlier := h.parent_earlier d hd p hparent
      exact ⟨.inl hearlier.1, hearlier.2⟩
    · have hlt := h.identity_lt (hp p hparent)
      rw [hi, fresh]
      exact ⟨.inl (hp p hparent), hlt⟩

theorem Made.isNumbered {r : Registry} (h : r.Made) : r.IsNumbered := by
  induction h with
  | empty => exact ⟨rfl, by simp [Registry.empty]⟩
  | declare _ name ih =>
      apply ih.add rfl
      intro p hp
      cases hp
  | derive _ name hparent ih =>
      apply ih.add rfl
      intro p hp
      obtain rfl := Option.some.inj hp
      exact hparent

namespace IsNumbered

variable {r : Registry} {c d a : Class}

theorem identity_inj (h : r.IsNumbered) (hc : c ∈ r.created) (hd : d ∈ r.created) :
    c.identity = d.identity ↔ c = d := by
  have hnodup : (r.created.map identity).Nodup := by
    rw [h.identities]
    exact List.nodup_range
  exact ⟨List.inj_on_of_nodup_map hnodup hc hd, congrArg identity⟩

/-- Going up never leaves the registry, and never leads to a later class. -/
theorem ancestor (h : r.IsNumbered) (hc : c ∈ r.created) (ha : c.isSubclassOf a = true) :
    a ∈ r.created ∧ a.identity ≤ c.identity := by
  induction c with
  | root identity name =>
      rw [isSubclassOf, Bool.or_false, beq_iff_eq] at ha
      rw [← ha]
      exact ⟨hc, Nat.le_refl _⟩
  | derived identity name parent ih =>
      rcases isSubclassOf_derived_iff.mp ha with rfl | ha
      · exact ⟨hc, Nat.le_refl _⟩
      · have hparent := h.parent_earlier _ hc parent rfl
        have hup := ih hparent.1 ha
        exact ⟨hup.1, Nat.le_trans hup.2 (Nat.le_of_lt hparent.2)⟩

theorem isSubclassOf_antisymm (h : r.IsNumbered) (hc : c ∈ r.created)
    (hcd : c.isSubclassOf d = true) (hdc : d.isSubclassOf c = true) : c = d := by
  have hd := h.ancestor hc hcd
  have hback := h.ancestor hd.1 hdc
  exact (h.identity_inj hc hd.1).mp (Nat.le_antisymm hback.2 hd.2)

theorem search_of_identity_eq (h : r.IsNumbered) (hc : c ∈ r.created) (ha : a ∈ r.created)
    (hid : c.identity = a.identity) : Search a (some c) 1 (c.isSubclassOf a) := by
  obtain rfl := (h.identity_inj hc ha).mp hid
  rw [isSubclassOf_refl]
  exact .finds rfl

/-- The search ends after at most as many looks as there are classes up to where it starts. -/
theorem search (h : r.IsNumbered) (hc : c ∈ r.created) (ha : a ∈ r.created) :
    ∃ looks ≤ c.identity + 1, Search a (some c) looks (c.isSubclassOf a) := by
  induction c with
  | root i name =>
      by_cases hid : (root i name).identity = a.identity
      · exact ⟨1, by omega, h.search_of_identity_eq hc ha hid⟩
      · rw [isSubclassOf_of_identity_ne hid]
        exact ⟨1, by omega, .climbs hid .ends⟩
  | derived i name parent ih =>
      by_cases hid : (derived i name parent).identity = a.identity
      · exact ⟨1, by omega, h.search_of_identity_eq hc ha hid⟩
      · have hparent := h.parent_earlier _ hc parent rfl
        obtain ⟨looks, hle, hsearch⟩ := ih hparent.1
        rw [isSubclassOf_of_identity_ne hid]
        exact ⟨looks + 1, by omega, .climbs hid hsearch⟩

end IsNumbered

/-! ### Names -/

/-- The same classes, named by their identities in another way. -/
def renamed (r : Registry) (rootName : Nat → Option String) (derivedName : Nat → String) :
    Registry :=
  ⟨r.created.map (·.renamed rootName derivedName)⟩

variable (rootName : Nat → Option String) (derivedName : Nat → String)

theorem Made.renamed {r : Registry} (h : r.Made) : (r.renamed rootName derivedName).Made := by
  induction h with
  | empty => exact .empty
  | @declare r _ name ih =>
      have hnext := ih.declare (rootName r.fresh)
      simpa [Registry.renamed, Registry.declare, Registry.add, fresh, Class.renamed] using hnext
  | @derive r parent _ name hp ih =>
      have hparent :
          parent.renamed rootName derivedName ∈ (r.renamed rootName derivedName).created :=
        List.mem_map_of_mem hp
      have hnext := ih.derive (derivedName r.fresh) hparent
      simpa [Registry.renamed, Registry.derive, Registry.add, fresh, Class.renamed] using hnext

theorem IsNumbered.isSubclassOf_iff {r : Registry} (h : r.IsNumbered) {c a : Class}
    (hc : c ∈ r.created) (ha : a ∈ r.created) :
    c.isSubclassOf a = true ↔ a.identity ∈ c.lineage.map identity := by
  rw [isSubclassOf_iff_mem_lineage, List.mem_map]
  constructor
  · intro hmem
    exact ⟨a, hmem, rfl⟩
  · rintro ⟨b, hb, hid⟩
    have hbr := (h.ancestor hc ((isSubclassOf_iff_mem_lineage c b).mpr hb)).1
    rwa [← (h.identity_inj hbr ha).mp hid]

theorem Made.isSubclassOf_renamed {r : Registry} (h : r.Made) {c a : Class} (hc : c ∈ r.created)
    (ha : a ∈ r.created) :
    (c.renamed rootName derivedName).isSubclassOf (a.renamed rootName derivedName) =
      c.isSubclassOf a := by
  have hrenamed := (h.renamed rootName derivedName).isNumbered
  rw [Bool.eq_iff_iff, h.isNumbered.isSubclassOf_iff hc ha,
    hrenamed.isSubclassOf_iff (List.mem_map_of_mem hc) (List.mem_map_of_mem ha),
    lineage_renamed, identity_renamed]

end Registry

end Class

/-! ## Checkers for instances -/

theorem verdict_instanceOf_of_supplied {v : Value} (hv : v.isMissing = false) (cls : Class)
    (isRequired : Bool) (site : Site) :
    ((Checker.mk (.instanceOf (.instancesOf cls)) isRequired).run (some v) site).verdict =
        .accept ↔ v.isInstanceOf cls = true := by
  rw [Checker.run_some hv, Rule.run]
  by_cases h : v.isInstanceOf cls = true <;>
    simp [Descriptor.admits, h, Outcome.accept, Outcome.fault]

/-- A class is a subclass of another one exactly if the checker for its instances accepts no
more. -/
theorem isSubclassOf_iff_accepts (c p : Class) (isRequired : Bool) (site : Site) :
    c.isSubclassOf p = true ↔ ∀ supplied,
      ((Checker.mk (.instanceOf (.instancesOf c)) isRequired).run supplied site).verdict = .accept →
      ((Checker.mk (.instanceOf (.instancesOf p)) isRequired).run supplied site).verdict =
        .accept := by
  constructor
  · intro h supplied haccept
    rcases isAbsent_or_supplied supplied with ha | ⟨v, rfl, hv⟩
    · rwa [Checker.run_of_isAbsent ha] at haccept ⊢
    · rw [verdict_instanceOf_of_supplied hv] at haccept ⊢
      exact Value.isInstanceOf_of_isSubclassOf haccept h
  · intro h
    have hinstance : (Value.inst c []).isInstanceOf c = true := c.isSubclassOf_refl
    have haccept := h (some (.inst c []))
    simp only [verdict_instanceOf_of_supplied (v := .inst c []) rfl] at haccept
    exact haccept hinstance

/-! ## The order of a registry -/

namespace Class.Registry

/-- The subclass relation of a registry is an order in which ancestors form a line. Searching for an
ancestor decides it, names have no say in it, and instances tell it. -/
structure IsAncestry (r : Registry) : Prop where
  same_iff : ∀ c ∈ r.created, ∀ d ∈ r.created, c.identity = d.identity ↔ c = d
  search : ∀ c ∈ r.created, ∀ a ∈ r.created, ∃ looks ≤ r.created.length,
    Search a (some c) looks (c.isSubclassOf a) ∧
      ∀ others answer, Search a (some c) others answer →
        others = looks ∧ answer = c.isSubclassOf a
  refl : ∀ c ∈ r.created, c.isSubclassOf c = true
  trans : ∀ c ∈ r.created, ∀ d ∈ r.created, ∀ e ∈ r.created,
    c.isSubclassOf d = true → d.isSubclassOf e = true → c.isSubclassOf e = true
  antisymm : ∀ c ∈ r.created, ∀ d ∈ r.created,
    c.isSubclassOf d = true → d.isSubclassOf c = true → c = d
  linear : ∀ c ∈ r.created, ∀ a ∈ r.created, ∀ b ∈ r.created,
    c.isSubclassOf a = true → c.isSubclassOf b = true →
      a.isSubclassOf b = true ∨ b.isSubclassOf a = true
  names : ∀ rootName derivedName, (r.renamed rootName derivedName).Made ∧
    ∀ c ∈ r.created, ∀ a ∈ r.created,
      (c.renamed rootName derivedName).isSubclassOf (a.renamed rootName derivedName) =
        c.isSubclassOf a
  instances : ∀ c ∈ r.created, ∀ p ∈ r.created, ∀ isRequired site,
    c.isSubclassOf p = true ↔ ∀ supplied,
      ((Checker.mk (.instanceOf (.instancesOf c)) isRequired).run supplied site).verdict =
        .accept →
      ((Checker.mk (.instanceOf (.instancesOf p)) isRequired).run supplied site).verdict = .accept

/-- However classes are made, subclassing is ancestry. -/
theorem subclassing_is_ancestry {r : Registry} (h : r.Made) : r.IsAncestry where
  same_iff _ hc _ hd := h.isNumbered.identity_inj hc hd
  search c hc a ha := by
    obtain ⟨looks, hle, hsearch⟩ := h.isNumbered.search hc ha
    have hlt := h.isNumbered.identity_lt hc
    exact ⟨looks, by omega, hsearch, fun _ _ => hsearch.unique⟩
  refl c _ := c.isSubclassOf_refl
  trans _ _ _ _ _ _ := isSubclassOf_trans
  antisymm _ hc _ _ := h.isNumbered.isSubclassOf_antisymm hc
  linear _ _ _ _ _ _ := isSubclassOf_or_of_isSubclassOf
  names rootName derivedName :=
    ⟨h.renamed rootName derivedName,
      fun _ hc _ ha => h.isSubclassOf_renamed rootName derivedName hc ha⟩
  instances c _ p _ := isSubclassOf_iff_accepts c p

/-- A class without a name stands behind a root, and a class of the root's own name and one with an
empty name descend from the root. -/
def shapes : Registry :=
  let root := Registry.empty.declare (some "Shape")
  let unnamed := root.2.declare none
  let namesake := unnamed.2.derive "Shape" root.1
  (namesake.2.derive "" namesake.1).2

theorem subclassing_is_ancestry_shapes :
    shapes.Made ∧ shapes.IsAncestry ∧
      shapes.created.map (fun c => shapes.created.map c.isSubclassOf) =
        [[true, false, false, false], [false, true, false, false], [true, false, true, false],
          [true, false, true, true]] := by
  have hmade : shapes.Made :=
    .derive (.derive (.declare (.declare .empty _) _) _ (List.mem_cons_self ..)) _
      (List.mem_append_right _ (List.mem_singleton_self _))
  exact ⟨hmade, subclassing_is_ancestry hmade, by decide⟩

end Class.Registry

end AttributeCheck
