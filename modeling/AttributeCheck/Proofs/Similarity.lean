import AttributeCheck.Proofs.Conformance
import AttributeCheck.Proofs.StrictEquality

/-! # Values that built-in checkers cannot tell apart

A similarity relates values that agree in all that a single rule asks of them, and whose contents
are related in turn. Then whole checkers agree on them. Strict equality is a similarity. -/

namespace AttributeCheck

/-! ## Conditions on all rules of a checker -/

mutual

/-- Whether a rule and all rules inside it satisfy a condition. -/
def Rule.every (p : Rule → Bool) : Rule → Bool
  | .arrayOf item => p (.arrayOf item) && item.every p
  | .objectOf property => p (.objectOf property) && property.every p
  | .oneOfType alternatives => p (.oneOfType alternatives) && everyAlternative p alternatives
  | .shape fields => p (.shape fields) && everyField p fields
  | .observed label inner => p (.observed label inner) && inner.every p
  | rule => p rule

def Checker.every (p : Rule → Bool) : Checker → Bool
  | .mk rule _ => rule.every p

def everyAlternative (p : Rule → Bool) : List Checker → Bool
  | [] => true
  | c :: rest => c.every p && everyAlternative p rest

def everyField (p : Rule → Bool) : List (String × Option Checker) → Bool
  | [] => true
  | (_, none) :: rest => everyField p rest
  | (_, some c) :: rest => c.every p && everyField p rest

end

/-- The host does not decide which values belong to the type that the rule names. -/
def Rule.isNominal : Rule → Bool
  | .instanceOf (.custom _ _) => false
  | _ => true

def Rule.isObjectOf : Rule → Bool
  | .objectOf _ => true
  | _ => false

theorem every_of_mem_alternatives {p : Rule → Bool} {alternatives : List Checker}
    (h : everyAlternative p alternatives = true) {c : Checker} (hc : c ∈ alternatives) :
    c.every p = true := by
  induction alternatives with
  | nil => cases hc
  | cons first rest ih =>
      rw [everyAlternative, Bool.and_eq_true] at h
      rcases List.mem_cons.mp hc with rfl | hc
      · exact h.1
      · exact ih h.2 hc

theorem every_of_mem_fields {p : Rule → Bool} {fields : List (String × Option Checker)}
    (h : everyField p fields = true) {name : String} {c : Checker}
    (hc : (name, some c) ∈ fields) : c.every p = true := by
  induction fields with
  | nil => cases hc
  | cons first rest ih =>
      obtain ⟨key, checker?⟩ := first
      cases checker? with
      | none =>
          rw [everyField] at h
          exact ih h (by simpa using hc)
      | some other =>
          rw [everyField, Bool.and_eq_true] at h
          rcases List.mem_cons.mp hc with heq | hc
          · obtain ⟨-, rfl⟩ : name = key ∧ c = other := by simpa using heq
            exact h.1
          · exact ih h.2 hc

/-! ## Similarities -/

/-- A symmetric relation of values that agree in what rules ask of them. -/
structure Value.IsSimilarity (R : Value → Value → Prop) : Prop where
  symm {a b : Value} : R a b → R b a
  kind_eq {a b : Value} : R a b → a.kind = b.kind
  typeName_eq {a b : Value} : R a b → a.typeName = b.typeName
  isMissing_eq {a b : Value} : R a b → a.isMissing = b.isMissing
  text_eq {a b : Value} : R a b → a.text = b.text
  strictEq_eq {a b : Value} : R a b → ∀ c, a.strictEq c = b.strictEq c
  isInstanceOf_eq {a b : Value} : R a b → ∀ cls, a.isInstanceOf cls = b.isInstanceOf cls
  items {as : List Value} {b : Value} : R (.array as) b →
    ∃ bs, b = .array bs ∧ List.Forall₂ R as bs
  lookup {a b : Value} : R a b → ∀ key, Option.Rel R (a.own.lookup key) (b.own.lookup key)
  own {a b : Value} : R a b → ∀ entry ∈ a.own, ∃ other ∈ b.own, R entry.2 other.2

namespace Value.IsSimilarity

variable {R : Value → Value → Prop}

theorem admits_eq (hR : IsSimilarity R) {a b : Value} (h : R a b) {type : Descriptor}
    (ht : (Rule.instanceOf type).isNominal = true) : type.admits a = type.admits b := by
  cases type with
  | instancesOf cls => exact hR.isInstanceOf_eq h cls
  | dates => simp only [Descriptor.admits, hR.typeName_eq h]
  | patterns => simp only [Descriptor.admits, hR.typeName_eq h]
  | functions => simp only [Descriptor.admits, hR.kind_eq h]
  | custom name member => cases ht

theorem isAbsent (hR : IsSimilarity R) {s t : Option Value} (h : Option.Rel R s t)
    (hs : IsAbsent s) : IsAbsent t := by
  cases h with
  | none => exact hs
  | some hab =>
      rw [isAbsent_some_iff] at hs ⊢
      rwa [← hR.isMissing_eq hab]

theorem exists_of_mem_right {as bs : List Value} (h : List.Forall₂ R as bs) {b : Value}
    (hb : b ∈ bs) : ∃ a ∈ as, R a b := by
  induction h with
  | nil => cases hb
  | cons hab _ ih =>
      rcases List.mem_cons.mp hb with rfl | hb
      · exact ⟨_, List.mem_cons_self, hab⟩
      · obtain ⟨a, ha, hR⟩ := ih hb
        exact ⟨a, List.mem_cons_of_mem _ ha, hR⟩

/-! ### Similar values conform to the same checkers -/

mutual

theorem conforms (hR : IsSimilarity R) {c : Checker} {s t : Option Value}
    (hc : c.every Rule.isNominal = true) (hst : Option.Rel R s t) (h : Conforms c s) :
    Conforms c t :=
  match h with
  | .absent h => .absent (hR.isAbsent hst h)
  | .supplied hv h => by
      cases hst with
      | some hab =>
          refine .supplied (fun ha => hv ?_) (hR.meets hc hab h)
          exact hR.isAbsent (.some (hR.symm hab)) ha

theorem meets (hR : IsSimilarity R) {rule : Rule} {a b : Value}
    (hc : rule.every Rule.isNominal = true) (hab : R a b) (h : Meets rule a) : Meets rule b :=
  match h with
  | .kind h => .kind (hR.kind_eq hab ▸ h)
  | .any => .any
  | .arrayOf h => by
      obtain ⟨bs, rfl, hitems⟩ := hR.items hab
      rw [Rule.every, Bool.and_eq_true] at hc
      refine .arrayOf fun y hy => ?_
      obtain ⟨x, hx, hxy⟩ := exists_of_mem_right hitems hy
      exact hR.conforms hc.2 (.some hxy) (h x hx)
  | .objectOf hk h => by
      rw [Rule.every, Bool.and_eq_true] at hc
      refine .objectOf (hR.kind_eq hab ▸ hk) fun entry hentry => ?_
      obtain ⟨other, hother, hxy⟩ := hR.own (hR.symm hab) entry hentry
      exact hR.conforms hc.2 (.some (hR.symm hxy)) (h other hother)
  | .instanceOf h => .instanceOf (hR.admits_eq hab hc ▸ h)
  | .oneOf ha h => .oneOf ha (hR.strictEq_eq hab _ ▸ h)
  | .oneOfType hmem h => by
      rw [Rule.every, Bool.and_eq_true] at hc
      exact .oneOfType hmem (hR.conforms (every_of_mem_alternatives hc.2 hmem) (.some hab) h)
  | .shape hk h => by
      rw [Rule.every, Bool.and_eq_true] at hc
      refine .shape (hR.kind_eq hab ▸ hk) fun name c hmem => ?_
      exact hR.conforms (every_of_mem_fields hc.2 hmem) (hR.lookup hab name) (h name c hmem)

end

/-! ### Without rules on all properties, checks of similar values end alike -/

theorem forEach_numberedFrom {check : String → Value → Outcome} {as bs : List Value}
    (h : List.Forall₂ (fun x y => ∀ name, check name x = check name y) as bs) (start : Nat) :
    Outcome.forEach check (numberedFrom start as) =
      Outcome.forEach check (numberedFrom start bs) := by
  induction h generalizing start with
  | nil => rfl
  | cons hxy _ ih => rw [numberedFrom, numberedFrom, Outcome.forEach, Outcome.forEach, hxy, ih]

theorem run_arrayOf_of_ne {v : Value} (h : ∀ items, v ≠ .array items) (item : Checker)
    (site : Site) : (Rule.arrayOf item).run v site = .fault site (.notArray v.kind) := by
  cases v with
  | array items => exact absurd rfl (h items)
  | _ => rfl

-- The order of properties shows only in the failures of `objectOf`, which is excluded here.
mutual

theorem rule_run_eq (hR : IsSimilarity R) (rule : Rule) (hb : rule.isBuiltIn = true)
    (hn : rule.every Rule.isNominal = true) (ho : rule.every (!·.isObjectOf) = true) {a b : Value}
    (hab : R a b) (site : Site) : rule.run a site = rule.run b site := by
  cases rule with
  | kind expected => rw [Rule.run, Rule.run, hR.kind_eq hab, hR.typeName_eq hab]
  | any => rfl
  | arrayOf item =>
      rw [Rule.every, Bool.and_eq_true] at hn ho
      by_cases ha : ∃ as, a = .array as
      · obtain ⟨as, rfl⟩ := ha
        obtain ⟨bs, rfl, hitems⟩ := hR.items hab
        rw [Rule.run, Rule.run]
        refine forEach_numberedFrom (hitems.imp fun x y hxy name => ?_) 0
        exact hR.checker_run_eq item hb hn.2 ho.2 (.some hxy) (site.within name)
      · have hb : ∀ bs, b ≠ .array bs := by
          rintro bs rfl
          obtain ⟨as, rfl, -⟩ := hR.items (hR.symm hab)
          exact ha ⟨as, rfl⟩
        rw [run_arrayOf_of_ne (not_exists.mp ha), run_arrayOf_of_ne hb, hR.kind_eq hab]
  | objectOf property => cases ho
  | instanceOf type => rw [Rule.run, Rule.run, hR.admits_eq hab hn]
  | oneOf allowed =>
      have hany : allowed.any a.strictEq = allowed.any b.strictEq :=
        congrArg allowed.any (funext (hR.strictEq_eq hab))
      rw [Rule.run, Rule.run, hany, hR.text_eq hab]
  | oneOfType alternatives =>
      rw [Rule.every, Bool.and_eq_true] at hn ho
      rw [Rule.run, Rule.run]
      exact hR.runAlternatives_eq alternatives hb hn.2 ho.2 hab site
  | shape fields =>
      rw [Rule.every, Bool.and_eq_true] at hn ho
      rw [Rule.run, Rule.run, hR.kind_eq hab, hR.runFields_eq fields hb hn.2 ho.2 hab site]
  | custom rule => cases hb
  | observed label inner => cases hb

theorem checker_run_eq (hR : IsSimilarity R) (c : Checker) (hb : c.isBuiltIn = true)
    (hn : c.every Rule.isNominal = true) (ho : c.every (!·.isObjectOf) = true)
    {s t : Option Value} (hst : Option.Rel R s t) (site : Site) : c.run s site = c.run t site := by
  obtain ⟨rule, isRequired⟩ := c
  rcases isAbsent_or_supplied s with hs | ⟨v, rfl, hv⟩
  · rw [Checker.run_of_isAbsent hs, Checker.run_of_isAbsent (hR.isAbsent hst hs)]
  · cases hst with
    | some hab =>
        rw [Checker.run_some hv, Checker.run_some (hR.isMissing_eq hab ▸ hv)]
        exact hR.rule_run_eq rule hb hn ho hab site

theorem runAlternatives_eq (hR : IsSimilarity R) (alternatives : List Checker)
    (hb : areBuiltIn alternatives = true) (hn : everyAlternative Rule.isNominal alternatives = true)
    (ho : everyAlternative (!·.isObjectOf) alternatives = true) {a b : Value} (hab : R a b)
    (site : Site) : runAlternatives alternatives a site = runAlternatives alternatives b site := by
  cases alternatives with
  | nil => rw [runAlternatives, runAlternatives]
  | cons c rest =>
      simp only [areBuiltIn, everyAlternative, Bool.and_eq_true] at hb hn ho
      rw [runAlternatives, runAlternatives, hR.checker_run_eq c hb.1 hn.1 ho.1 (.some hab) site,
        hR.runAlternatives_eq rest hb.2 hn.2 ho.2 hab site]

theorem runFields_eq (hR : IsSimilarity R) (fields : List (String × Option Checker))
    (hb : fieldsAreBuiltIn fields = true) (hn : everyField Rule.isNominal fields = true)
    (ho : everyField (!·.isObjectOf) fields = true) {a b : Value} (hab : R a b) (site : Site) :
    runFields fields a site = runFields fields b site := by
  cases fields with
  | nil => rw [runFields, runFields]
  | cons field rest =>
      obtain ⟨name, checker?⟩ := field
      cases checker? with
      | none =>
          rw [runFields, runFields]
          exact hR.runFields_eq rest hb hn ho hab site
      | some c =>
          simp only [fieldsAreBuiltIn, everyField, Bool.and_eq_true] at hb hn ho
          rw [runFields, runFields, a.property?_eq_lookup, b.property?_eq_lookup,
            hR.checker_run_eq c hb.1 hn.1 ho.1 (hR.lookup hab name) (site.within name),
            hR.runFields_eq rest hb.2 hn.2 ho.2 hab site]

end

/-- Built-in checkers accept one of two similar values if they accept the other. -/
theorem accepts_iff (hR : IsSimilarity R) {c : Checker} (hb : c.isBuiltIn = true)
    (hn : c.every Rule.isNominal = true) {a b : Value} (hab : R a b) (site : Site) :
    (c.run (some a) site).verdict = .accept ↔ (c.run (some b) site).verdict = .accept := by
  rw [(c.run_decides hb _ site).accept_iff, (c.run_decides hb _ site).accept_iff]
  exact ⟨hR.conforms hn (.some hab), hR.conforms hn (.some (hR.symm hab))⟩

end Value.IsSimilarity

/-! ## Strict equality is a similarity -/

namespace Value

theorem render_coerced_of_equal {x y : Binary64} (h : x.equal y = true) :
    NumberStyle.coerced.render x = NumberStyle.coerced.render y := by
  have hzero {z : Binary64} (hz : z.isZero = true) : NumberStyle.coerced.render z = "0" := by
    have hfields := hz
    simp only [Binary64.isZero, Bool.and_eq_true, beq_iff_eq] at hfields
    simp [NumberStyle.render, Binary64.isNaN, Binary64.isInfinite, hfields.1, hz]
    rfl
  simp only [Binary64.equal, Bool.and_eq_true, Bool.or_eq_true, beq_iff_eq] at h
  rcases h.2 with rfl | ⟨hx, hy⟩
  · rfl
  · rw [hzero hx, hzero hy]

theorem itemTexts_eq_map (items : List Value) :
    itemTexts items = items.map fun x => if x.isMissing then "" else x.text := by
  induction items with
  | nil => rfl
  | cons item rest ih => rw [itemTexts, ih, List.map_cons]

theorem map_eq_map_of_forall₂ {α : Type} {f : Value → α} {as bs : List Value}
    (h : List.Forall₂ (fun x y => f x = f y) as bs) : as.map f = bs.map f := by
  rw [← List.forall₂_eq_eq_eq, List.forall₂_map_left_iff, List.forall₂_map_right_iff]
  exact h

theorem StrictlyEqual.isMissing_eq {a b : Value} (h : StrictlyEqual a b) :
    a.isMissing = b.isMissing := by
  cases (strictlyEqual_iff_match a b).mp h <;> rfl

theorem StrictlyEqual.text_eq {a b : Value} (h : StrictlyEqual a b) : a.text = b.text := by
  induction a using induction generalizing b with
  | step a ih =>
      cases (strictlyEqual_iff_match a b).mp h with
      | atom _ => rfl
      | number hxy => exact render_coerced_of_equal hxy
      | array hab =>
          rw [text, text, itemTexts_eq_map, itemTexts_eq_map]
          refine congrArg _ (map_eq_map_of_forall₂ (forall₂_imp_of_mem hab fun x hx y hxy => ?_))
          rw [hxy.isMissing_eq, ih x hx hxy]
      | object _ _ => rfl
      | inst _ _ => rfl

/-- Strict equality of values that list no key twice. -/
def SameContent (a b : Value) : Prop :=
  StrictlyEqual a b ∧ a.hasDistinctKeys = true ∧ b.hasDistinctKeys = true

theorem SameContent.symm {a b : Value} (h : SameContent a b) : SameContent b a :=
  ⟨h.1.symm h.2.1, h.2.2, h.2.1⟩

theorem SameContent.items {as : List Value} {b : Value} (h : SameContent (array as) b) :
    ∃ bs, b = array bs ∧ List.Forall₂ SameContent as bs := by
  obtain ⟨heq, ha, hb⟩ := h
  rw [hasDistinctKeys_iff] at ha hb
  cases (strictlyEqual_iff_match _ _).mp heq with
  | atom h => cases h
  | @array _ bs h =>
      refine ⟨bs, rfl, List.forall₂_iff_zip.mpr ⟨h.length_eq, fun {x y} hxy => ?_⟩⟩
      have hmem := List.of_mem_zip hxy
      exact ⟨List.forall₂_zip h hxy, ha.2 x hmem.1, hb.2 y hmem.2⟩

theorem own_of_isAtom {v : Value} (h : v.isAtom = true) : v.own = [] := by
  cases v with
  | object properties => cases h
  | inst cls properties => cases h
  | _ => rfl

theorem nodup_keys_own {v : Value} (h : v.hasDistinctKeys = true) : (Entries.keys v.own).Nodup := by
  obtain ⟨hkeys, -⟩ := (hasDistinctKeys_iff v).mp h
  cases v with
  | object properties => exact hkeys properties rfl
  | inst cls properties => exact hkeys properties rfl
  | _ => exact List.nodup_nil

/-- Both values own the same properties. -/
structure SameProperties (R : Value → Value → Prop) (a b : Value) : Prop where
  length_eq : a.own.length = b.own.length
  nodup : (Entries.keys a.own).Nodup
  within : Entries.Within R a.own b.own

namespace SameProperties

variable {R : Value → Value → Prop} {a b : Value}

theorem lookup (h : SameProperties R a b) (key : String) :
    Option.Rel R (a.own.lookup key) (b.own.lookup key) := by
  rw [← Entries.get?_eq_lookup, ← Entries.get?_eq_lookup]
  exact h.within.get?_rel h.length_eq h.nodup key

theorem own (h : SameProperties R a b) : ∀ entry ∈ a.own, ∃ other ∈ b.own, R entry.2 other.2 := by
  intro entry hentry
  obtain ⟨other, hget, hR⟩ := h.within entry hentry
  exact ⟨_, Entries.mem_of_get? hget, hR⟩

end SameProperties

theorem SameContent.sameProperties {a b : Value} (h : SameContent a b) :
    SameProperties SameContent a b := by
  obtain ⟨heq, ha, hb⟩ := h
  have hkeys := nodup_keys_own ha
  rw [hasDistinctKeys_iff] at ha hb
  have hwithin {ps qs : List (String × Value)} (h : Entries.Within StrictlyEqual ps qs)
      (hps : ∀ x ∈ ps.map Prod.snd, x.hasDistinctKeys = true)
      (hqs : ∀ x ∈ qs.map Prod.snd, x.hasDistinctKeys = true) :
      Entries.Within SameContent ps qs := by
    intro entry hentry
    obtain ⟨y, hget, hy⟩ := h entry hentry
    exact ⟨y, hget, hy, hps _ (mem_parts_of_entry hentry),
      hqs _ (mem_parts_of_entry (Entries.mem_of_get? hget))⟩
  cases (strictlyEqual_iff_match _ _).mp heq with
  | atom h => exact ⟨rfl, hkeys, by simp [Entries.Within, own_of_isAtom h]⟩
  | number _ => exact ⟨rfl, hkeys, List.forall_mem_nil _⟩
  | array _ => exact ⟨rfl, hkeys, List.forall_mem_nil _⟩
  | object hl h => exact ⟨hl, hkeys, hwithin h ha.2 hb.2⟩
  | inst hl h => exact ⟨hl, hkeys, hwithin h ha.2 hb.2⟩

theorem sameContent_isSimilarity : IsSimilarity SameContent where
  symm := SameContent.symm
  kind_eq h := by cases (strictlyEqual_iff_match _ _).mp h.1 <;> rfl
  typeName_eq h := by cases (strictlyEqual_iff_match _ _).mp h.1 <;> rfl
  isMissing_eq h := h.1.isMissing_eq
  text_eq h := h.1.text_eq
  strictEq_eq h c := Bool.eq_iff_iff.mpr ⟨h.symm.1.trans, h.1.trans⟩
  isInstanceOf_eq h cls := by cases (strictlyEqual_iff_match _ _).mp h.1 <;> rfl
  items := SameContent.items
  lookup h := h.sameProperties.lookup
  own h := h.sameProperties.own

end Value

/-- Strictly equal values look alike to checkers without rules of the host: they are accepted by the
same ones, and unless all properties are gone through, they fail in the same way. -/
theorem strictEq_indistinguishable {a b : Value} (ha : a.hasDistinctKeys = true)
    (hb : b.hasDistinctKeys = true) (h : a.strictEq b = true) :
    a.kind = b.kind ∧ a.typeName = b.typeName ∧ a.text = b.text ∧
      ∀ c : Checker, c.isBuiltIn = true → c.every Rule.isNominal = true → ∀ site,
        ((c.run (some a) site).verdict = .accept ↔ (c.run (some b) site).verdict = .accept) ∧
          (c.every (!·.isObjectOf) = true → c.run (some a) site = c.run (some b) site) := by
  have hR := Value.sameContent_isSimilarity
  have hab : Value.SameContent a b := ⟨h, ha, hb⟩
  refine ⟨hR.kind_eq hab, hR.typeName_eq hab, hR.text_eq hab, fun c hc hn site => ⟨?_, fun ho => ?_⟩⟩
  · exact hR.accepts_iff hc hn hab site
  · exact hR.checker_run_eq c hc hn ho (.some hab) site

/-- A size that the other one differs from in the order of keys and the sign of the zero. -/
def widthFirst : Value :=
  .object [("width", .number (.zero false)), ("unit", .string "px")]

def unitFirst : Value :=
  .object [("unit", .string "px"), ("width", .number (.zero true))]

/-- Rejects both for the unit. -/
def relativeSize : Checker :=
  .shape [("width", some .number), ("unit", some (.oneOf [.string "em", .string "ex"]))]

theorem strictEq_indistinguishable_sizes :
    widthFirst.hasDistinctKeys = true ∧ unitFirst.hasDistinctKeys = true ∧
      widthFirst.strictEq unitFirst = true ∧ relativeSize.isBuiltIn = true ∧
      relativeSize.every Rule.isNominal = true ∧ relativeSize.every (!·.isObjectOf) = true ∧
      widthFirst.text = unitFirst.text ∧
      relativeSize.run (some widthFirst) ⟨"size", "Box", .property⟩ =
        relativeSize.run (some unitFirst) ⟨"size", "Box", .property⟩ :=
  have h := strictEq_indistinguishable (show widthFirst.hasDistinctKeys = true from rfl)
    (show unitFirst.hasDistinctKeys = true from rfl) rfl
  ⟨rfl, rfl, rfl, rfl, rfl, rfl, h.2.2.1, (h.2.2.2 relativeSize rfl rfl _).2 rfl⟩

/-- With a rule on all properties the failures differ: each is that of the first property listed. -/
example : let c : Checker := .objectOf .bool
    ((c.run (some widthFirst) ⟨"size", "Box", .property⟩).verdict,
      (c.run (some unitFirst) ⟨"size", "Box", .property⟩).verdict) =
    (.reject ((Fault.wrongKind .boolean "number").failure "width" "Box" "prop"),
      .reject ((Fault.wrongKind .boolean "string").failure "unit" "Box" "prop")) :=
  rfl

end AttributeCheck
