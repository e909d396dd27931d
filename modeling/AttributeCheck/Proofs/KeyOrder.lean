import AttributeCheck.Proofs.Similarity
import Mathlib.Data.List.Perm.Basic

/-! # The order of keys

A value in which the own properties of objects and instances are put in another order, at any depth,
is similar to the first one. So built-in checkers accept both or neither, and only a rule on all
properties can fail in two ways. Unlike strict equality this also holds of values with a NaN. -/

namespace AttributeCheck

/-! ## Entries in another order -/

namespace Entries

variable {κ α : Type} {R S : α → α → Prop}

/-- The same keys in the same order, with related values. -/
def Aligned (R : α → α → Prop) : Entries κ α → Entries κ α → Prop :=
  List.Forall₂ fun p q => p.1 = q.1 ∧ R p.2 q.2

theorem aligned_iff (ps qs : Entries κ α) :
    Aligned R ps qs ↔ keys ps = keys qs ∧ List.Forall₂ R (ps.map Prod.snd) (qs.map Prod.snd) := by
  induction ps generalizing qs with
  | nil => cases qs <;> simp [Aligned, keys]
  | cons p ps ih =>
      cases qs with
      | nil => simp [Aligned, keys]
      | cons q qs =>
          have htail := ih qs
          simp only [Aligned, keys, List.map_cons, List.forall₂_cons, List.cons.injEq] at htail ⊢
          rw [htail]
          tauto

theorem Aligned.exists_left {ps qs : Entries κ α} (h : Aligned R ps qs) {entry : κ × α}
    (hentry : entry ∈ qs) : ∃ x, (entry.1, x) ∈ ps ∧ R x entry.2 := by
  induction h with
  | nil => cases hentry
  | @cons p q ps qs hpq _ ih =>
      obtain ⟨hkey, hR⟩ := hpq
      rcases List.mem_cons.mp hentry with rfl | hentry
      · refine ⟨p.2, ?_, hR⟩
        rw [← hkey]
        exact List.mem_cons_self
      · obtain ⟨x, hx, hR⟩ := ih hentry
        exact ⟨x, List.mem_cons_of_mem _ hx, hR⟩

/-- The same keys in any order, with related values. -/
def Shuffled (R : α → α → Prop) (ps rs : Entries κ α) : Prop :=
  ∃ qs, ps.Perm qs ∧ Aligned R qs rs

namespace Shuffled

variable {ps rs : Entries κ α}

theorem symm (h : Shuffled R ps rs)
    (hRS : ∀ entry ∈ ps, ∀ y, R entry.2 y → S y entry.2) : Shuffled S rs ps := by
  obtain ⟨qs, hperm, haligned⟩ := h
  -- The same exchange of entries, done after the values are replaced.
  obtain ⟨ss, hvalues, hback⟩ := List.perm_comp_forall₂ hperm haligned
  refine ⟨ss, hback.symm, List.Forall₂.flip ?_⟩
  apply forall₂_imp_of_mem hvalues
  intro p hp q hpq
  exact ⟨hpq.1.symm, hRS p hp q.2 hpq.2⟩

theorem exists_left (h : Shuffled R ps rs) {entry : κ × α} (hentry : entry ∈ rs) :
    ∃ x, (entry.1, x) ∈ ps ∧ R x entry.2 := by
  obtain ⟨qs, hperm, haligned⟩ := h
  obtain ⟨x, hx, hR⟩ := haligned.exists_left hentry
  exact ⟨x, hperm.mem_iff.mpr hx, hR⟩

theorem length_eq (h : Shuffled R ps rs) : ps.length = rs.length := by
  obtain ⟨qs, hperm, haligned⟩ := h
  exact hperm.length_eq.trans (List.Forall₂.length_eq haligned)

theorem keys_perm (h : Shuffled R ps rs) : (keys ps).Perm (keys rs) := by
  obtain ⟨qs, hperm, haligned⟩ := h
  rw [← ((aligned_iff qs rs).mp haligned).1]
  exact hperm.map Prod.fst

theorem within [DecidableEq κ] (h : Shuffled R ps rs) (hn : (keys ps).Nodup) : Within R ps rs := by
  intro entry hentry
  have hback : Shuffled (fun y x => R x y) rs ps := h.symm fun _ _ _ hR => hR
  obtain ⟨y, hy, hR⟩ := hback.exists_left hentry
  exact ⟨y, get?_of_mem (h.keys_perm.nodup_iff.mp hn) hy, hR⟩

end Shuffled

end Entries

/-! ## Values in another order -/

namespace Value

theorem mem_parts_of_own {v : Value} {entry : String × Value} (h : entry ∈ v.own) :
    entry.2 ∈ v.parts := by
  cases v with
  | object properties => exact mem_parts_of_entry h
  | inst cls properties => exact mem_parts_of_entry h
  | _ => cases h

/-- The second value is the first one with the own properties of its objects and instances put in
any order, at any depth. -/
inductive Rearranged : Value → Value → Prop where
  | leaf {v : Value} (h : v.parts = []) : Rearranged v v
  | array {as bs : List Value} (h : List.Forall₂ Rearranged as bs) :
      Rearranged (array as) (array bs)
  | object {ps qs rs : List (String × Value)} (hp : ps.Perm qs)
      (hk : Entries.keys qs = Entries.keys rs)
      (hv : List.Forall₂ Rearranged (qs.map Prod.snd) (rs.map Prod.snd)) :
      Rearranged (object ps) (object rs)
  | inst {cls : Class} {ps qs rs : List (String × Value)} (hp : ps.Perm qs)
      (hk : Entries.keys qs = Entries.keys rs)
      (hv : List.Forall₂ Rearranged (qs.map Prod.snd) (rs.map Prod.snd)) :
      Rearranged (inst cls ps) (inst cls rs)

namespace Rearranged

theorem object_of_shuffled {ps rs : List (String × Value)}
    (h : Entries.Shuffled Rearranged ps rs) : Rearranged (.object ps) (.object rs) := by
  obtain ⟨qs, hperm, haligned⟩ := h
  obtain ⟨hk, hv⟩ := (Entries.aligned_iff qs rs).mp haligned
  exact .object hperm hk hv

theorem inst_of_shuffled {ps rs : List (String × Value)}
    (h : Entries.Shuffled Rearranged ps rs) (cls : Class) :
    Rearranged (.inst cls ps) (.inst cls rs) := by
  obtain ⟨qs, hperm, haligned⟩ := h
  obtain ⟨hk, hv⟩ := (Entries.aligned_iff qs rs).mp haligned
  exact .inst hperm hk hv

theorem shuffled {ps qs rs : List (String × Value)} (hp : ps.Perm qs)
    (hk : Entries.keys qs = Entries.keys rs)
    (hv : List.Forall₂ Rearranged (qs.map Prod.snd) (rs.map Prod.snd)) :
    Entries.Shuffled Rearranged ps rs :=
  ⟨qs, hp, (Entries.aligned_iff qs rs).mpr ⟨hk, hv⟩⟩

theorem refl (v : Value) : Rearranged v v := by
  induction v using Value.induction with
  | step v ih =>
      cases v with
      | array items => exact .array (List.forall₂_same.mpr ih)
      | object properties => exact .object (.refl _) rfl (List.forall₂_same.mpr ih)
      | inst cls properties => exact .inst (.refl _) rfl (List.forall₂_same.mpr ih)
      | _ => exact .leaf rfl

theorem symm {a b : Value} (h : Rearranged a b) : Rearranged b a := by
  induction a using Value.induction generalizing b with
  | step a ih =>
      cases h with
      | leaf h => exact .leaf h
      | array h =>
          have hback := forall₂_imp_of_mem h fun x hx y hxy => ih x hx hxy
          exact .array hback.flip
      | object hp hk hv =>
          apply object_of_shuffled
          apply (shuffled hp hk hv).symm
          intro entry hentry y hy
          exact ih _ (mem_parts_of_entry hentry) hy
      | inst hp hk hv =>
          apply inst_of_shuffled
          apply (shuffled hp hk hv).symm
          intro entry hentry y hy
          exact ih _ (mem_parts_of_entry hentry) hy

/-! ### What a rearrangement keeps -/

theorem isMissing_eq {a b : Value} (h : Rearranged a b) : a.isMissing = b.isMissing := by
  cases h <;> rfl

theorem text_eq {a b : Value} (h : Rearranged a b) : a.text = b.text := by
  induction a using Value.induction generalizing b with
  | step a ih =>
      cases h with
      | leaf _ => rfl
      | array hab =>
          rw [text, text, itemTexts_eq_map, itemTexts_eq_map]
          refine congrArg _ (map_eq_map_of_forall₂ (forall₂_imp_of_mem hab fun x hx y hxy => ?_))
          rw [hxy.isMissing_eq, ih x hx hxy]
      | object _ _ _ => rfl
      | inst _ _ _ => rfl

theorem own_shuffled {a b : Value} (h : Rearranged a b) :
    Entries.Shuffled Rearranged a.own b.own := by
  cases h with
  | leaf _ =>
      refine ⟨a.own, .refl a.own, ?_⟩
      exact List.forall₂_same.mpr fun entry _ => ⟨rfl, refl entry.2⟩
  | array _ => exact ⟨[], .nil, .nil⟩
  | object hp hk hv => exact shuffled hp hk hv
  | inst hp hk hv => exact shuffled hp hk hv

theorem exists_part {a b : Value} (h : Rearranged a b) {y : Value} (hy : y ∈ b.parts) :
    ∃ x ∈ a.parts, Rearranged x y := by
  have hentries {ps rs : List (String × Value)} (hs : Entries.Shuffled Rearranged ps rs)
      (hy : y ∈ rs.map Prod.snd) : ∃ x ∈ ps.map Prod.snd, Rearranged x y := by
    obtain ⟨entry, hentry, rfl⟩ := List.mem_map.mp hy
    obtain ⟨x, hx, hR⟩ := hs.exists_left hentry
    exact ⟨x, mem_parts_of_entry hx, hR⟩
  cases h with
  | leaf h => exact ⟨y, hy, refl y⟩
  | array h => exact IsSimilarity.exists_of_mem_right h hy
  | object hp hk hv => exact hentries (shuffled hp hk hv) hy
  | inst hp hk hv => exact hentries (shuffled hp hk hv) hy

theorem hasDistinctKeys {a b : Value} (h : Rearranged a b) (ha : a.hasDistinctKeys = true) :
    b.hasDistinctKeys = true := by
  induction b using Value.induction generalizing a with
  | step b ih =>
      obtain ⟨-, hparts⟩ := (hasDistinctKeys_iff a).mp ha
      apply (hasDistinctKeys_iff b).mpr
      constructor
      · intro properties hproperties
        have hown : b.own = properties := by
          rw [← b.getD_properties?, hproperties]
          rfl
        rw [← hown]
        exact h.own_shuffled.keys_perm.nodup_iff.mp (nodup_keys_own ha)
      · intro y hy
        obtain ⟨x, hx, hxy⟩ := h.exists_part hy
        exact ih y hy hxy (hparts x hx)

/-- What equals a value strictly also equals its rearrangements. A value with a NaN equals none. -/
theorem strictlyEqual {a b c : Value} (h : Rearranged a b) (hc : StrictlyEqual a c) :
    StrictlyEqual b c := by
  induction a using Value.induction generalizing b c with
  | step a ih =>
      have hwithin {ps rs qs : List (String × Value)} (hs : Entries.Shuffled Rearranged ps rs)
          (hps : ∀ x ∈ ps.map Prod.snd, x ∈ a.parts)
          (hw : Entries.Within StrictlyEqual ps qs) : Entries.Within StrictlyEqual rs qs := by
        intro entry hentry
        obtain ⟨x, hx, hxy⟩ := hs.exists_left hentry
        obtain ⟨z, hz, hxz⟩ := hw _ hx
        exact ⟨z, hz, ih x (hps x (mem_parts_of_entry hx)) hxy hxz⟩
      rw [strictlyEqual_iff_match] at hc ⊢
      cases h with
      | leaf _ => exact hc
      | array h =>
          cases hc with
          | atom hatom => cases hatom
          | array k =>
              -- The induction is on the first array, so its items are kept in the relation.
              have hitems : List.Forall₂ (fun x y => x ∈ _ ∧ Rearranged x y) _ _ :=
                forall₂_imp_of_mem h fun x hx y hxy => ⟨hx, hxy⟩
              exact .array (forall₂_trans hitems.flip k fun y _ x z hxy hxz =>
                ih x hxy.1 hxy.2 hxz)
      | object hp hk hv =>
          have hs := shuffled hp hk hv
          cases hc with
          | atom hatom => cases hatom
          | object hl hw =>
              have hback := hwithin hs (fun _ hx => hx) hw
              exact .object (hs.length_eq.symm.trans hl) hback
      | inst hp hk hv =>
          have hs := shuffled hp hk hv
          cases hc with
          | atom hatom => cases hatom
          | inst hl hw =>
              have hback := hwithin hs (fun _ hx => hx) hw
              exact .inst (hs.length_eq.symm.trans hl) hback

end Rearranged

/-! ## Rearranged values are similar -/

/-- Rearranged values that list no key twice. -/
def Reordered (a b : Value) : Prop :=
  Rearranged a b ∧ a.hasDistinctKeys = true

namespace Reordered

theorem symm {a b : Value} (h : Reordered a b) : Reordered b a :=
  ⟨h.1.symm, h.1.hasDistinctKeys h.2⟩

theorem items {as : List Value} {b : Value} (h : Reordered (array as) b) :
    ∃ bs, b = array bs ∧ List.Forall₂ Reordered as bs := by
  obtain ⟨h, hd⟩ := h
  have hparts := ((hasDistinctKeys_iff _).mp hd).2
  cases h with
  | leaf h => exact ⟨as, rfl, List.forall₂_same.mpr fun x hx => ⟨.refl x, hparts x hx⟩⟩
  | @array _ bs h =>
      exact ⟨bs, rfl, forall₂_imp_of_mem h fun x hx y hxy => ⟨hxy, hparts x hx⟩⟩

theorem sameProperties {a b : Value} (h : Reordered a b) : SameProperties Reordered a b := by
  obtain ⟨h, hd⟩ := h
  obtain ⟨-, hparts⟩ := (hasDistinctKeys_iff a).mp hd
  have hn := nodup_keys_own hd
  have hs := h.own_shuffled
  refine ⟨hs.length_eq, hn, fun entry hentry => ?_⟩
  obtain ⟨y, hy, hxy⟩ := hs.within hn entry hentry
  exact ⟨y, hy, hxy, hparts _ (mem_parts_of_own hentry)⟩

end Reordered

theorem reordered_isSimilarity : IsSimilarity Reordered where
  symm := Reordered.symm
  kind_eq h := by cases h.1 <;> rfl
  typeName_eq h := by cases h.1 <;> rfl
  isMissing_eq h := h.1.isMissing_eq
  text_eq h := h.1.text_eq
  strictEq_eq h c := Bool.eq_iff_iff.mpr ⟨h.1.strictlyEqual, h.1.symm.strictlyEqual⟩
  isInstanceOf_eq h cls := by cases h.1 <;> rfl
  items := Reordered.items
  lookup h := h.sameProperties.lookup
  own h := h.sameProperties.own

end Value

/-- The order of own properties, at any depth, does not decide what checkers without rules of the
host accept, and unless all properties are gone through, not how they fail either. -/
theorem keyOrder_irrelevant {v w : Value} (hv : v.hasDistinctKeys = true) (h : v.Rearranged w)
    {c : Checker} (hc : c.isBuiltIn = true) (hn : c.every Rule.isNominal = true) (site : Site) :
    ((c.run (some v) site).verdict = .accept ↔ (c.run (some w) site).verdict = .accept) ∧
      (c.every (!·.isObjectOf) = true → c.run (some v) site = c.run (some w) site) := by
  have hR := Value.reordered_isSimilarity
  have hvw : Value.Reordered v w := ⟨h, hv⟩
  constructor
  · exact hR.accepts_iff hc hn hvw site
  · intro ho
    exact hR.checker_run_eq c hc hn ho (.some hvw) site

/-- A place whose first coordinate is not a number. -/
def originFirst : Value :=
  .object [("origin", .object [("x", .number .nan), ("y", .number (.zero false))]),
    ("unit", .string "px")]

def originLast : Value :=
  .object [("unit", .string "px"),
    ("origin", .object [("y", .number (.zero false)), ("x", .number .nan)])]

/-- Rejects both for the unit. -/
def relativePlace : Checker :=
  .shape [("origin", some (.required (.shape [("x", some .number), ("y", some .number)]))),
    ("unit", some (.oneOf [.string "em", .string "ex"]))]

theorem keyOrder_irrelevant_origin :
    originFirst.hasDistinctKeys = true ∧ originFirst.Rearranged originLast ∧
      relativePlace.isBuiltIn = true ∧ relativePlace.every Rule.isNominal = true ∧
      relativePlace.every (!·.isObjectOf) = true ∧
      (relativePlace.run (some originFirst) ⟨"place", "Box", .property⟩).verdict =
        .reject ((Fault.notAllowed "px" "[\"em\",\"ex\"]").failure "unit" "Box" "prop") ∧
      relativePlace.run (some originFirst) ⟨"place", "Box", .property⟩ =
        relativePlace.run (some originLast) ⟨"place", "Box", .property⟩ :=
  have hinner : Value.Rearranged
      (.object [("x", .number .nan), ("y", .number (.zero false))])
      (.object [("y", .number (.zero false)), ("x", .number .nan)]) :=
    .object (.swap _ _ _) rfl (.cons (.refl _) (.cons (.refl _) .nil))
  have h : originFirst.Rearranged originLast :=
    .object (.swap _ _ _) rfl (.cons (.refl _) (.cons hinner .nil))
  ⟨rfl, h, rfl, rfl, rfl, rfl, (keyOrder_irrelevant rfl h rfl rfl _).2 rfl⟩

end AttributeCheck
