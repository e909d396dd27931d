import AttributeCheck.Proofs.FirstFault
import AttributeCheck.Proofs.Reporting
import Mathlib.Data.List.Basic

/-! # Messages tell failures apart

A failure is known by its message alone. The message is read back by cutting it at the marks around
names: as long as names hold no such mark, one message stands for one fault of one attribute, but
for two that word the same expectation. -/

namespace AttributeCheck

/-! ## Cutting texts at quotation marks -/

/-- The mark around names in messages. -/
def quoteMark : Char :=
  Char.ofNat 0x60

/-- A text without the mark. -/
def IsPlain (s : String) : Prop :=
  quoteMark ∉ s.toList

instance (s : String) : Decidable (IsPlain s) :=
  inferInstanceAs (Decidable (quoteMark ∉ s.toList))

/-- The parts of a text between its marks. -/
def cut (s : String) : List String :=
  (s.toList.splitOn quoteMark).map String.ofList

theorem cut_of_isPlain {s : String} (h : IsPlain s) : cut s = [s] := by
  simp [cut, List.splitOn_eq_singleton h]

theorem cut_append_mark (s rest : String) : cut (s ++ "`" ++ rest) = cut s ++ cut rest := by
  have hmark : "`".toList = [quoteMark] := rfl
  simp [cut, hmark, List.splitOn_append_cons_self]

theorem cut_intercalate (part : String) (parts : List String) :
    cut ("`".intercalate (part :: parts)) = (part :: parts).flatMap cut := by
  induction parts generalizing part with
  | nil => simp
  | cons next parts ih =>
      rw [String.intercalate_cons_cons, cut_append_mark, ih]
      rfl

theorem cut_injective : Function.Injective cut := by
  intro s t h
  have hparts : s.toList.splitOn quoteMark = t.toList.splitOn quoteMark :=
    (List.map_injective_iff.mpr fun _ _ => String.ofList_injective) h
  have hjoin : [quoteMark].intercalate (s.toList.splitOn quoteMark) = s.toList :=
    List.intercalate_splitOn quoteMark
  apply String.toList_injective
  rw [← hjoin, hparts, List.intercalate_splitOn]

/-! ## The parts of messages -/

namespace Fault

/-- What stands in front of the name in a message. -/
def heading (component location : String) : Fault → String
  | missing => "Required " ++ location ++ " "
  | notChecker => component ++ ": attributes type "
  | _ => "Invalid " ++ location ++ " "

/-- The parts of a message behind the name. -/
def wording (component : String) : Fault → List String
  | missing => [" was not specified in ", component, "."]
  | wrongKind expected actual =>
      [" of type ", actual, " supplied to ", component, ", expected ", expected.text, "."]
  | notArray actual =>
      [" of type ", actual.text, " supplied to ", component, ", expected an array."]
  | notObject actual =>
      [" of type ", actual.text, " supplied to ", component, ", expected an object."]
  | notShape actual =>
      [" of type ", actual.text, " supplied to ", component, ", expected ", "object", "."]
  | notInstance typeName =>
      [" supplied to ", component, ", expected instance of ", typeName, "."]
  | notAllowed value allowed =>
      [" of value ", value, " supplied to ", component, ", expected one of " ++ allowed ++ "."]
  | noAlternative => [" supplied to ", component, "."]
  | notChecker => [" is invalid; it must be a function, usually from PropTypes."]
  | panicked _ => []

theorem message_eq_intercalate {fault : Fault} (h : ∀ text, fault ≠ panicked text)
    (name component location : String) :
    fault.message name component location =
      "`".intercalate (fault.heading component location :: name :: fault.wording component) := by
  have htoString (s : String) : toString s = s := rfl
  apply String.toList_injective
  -- Lean takes a minute for equations of this many interpolated texts, so there are none.
  delta message
  cases fault with
  | panicked text => exact absurd rfl (h text)
  | _ => simp [heading, wording, htoString]

end Fault

/-! ## Plain parts -/

theorem kindText_inj {k l : Kind} : k.text = l.text ↔ k = l := by
  refine ⟨fun h => ?_, congrArg _⟩
  cases k <;> cases l <;> first | rfl | simp [Kind.text] at h

theorem locationText_inj {l m : Location} : l.text = m.text ↔ l = m := by
  refine ⟨fun h => ?_, congrArg _⟩
  cases l <;> cases m <;> first | rfl | simp [Location.text] at h

/-- The names of a site hold no mark. -/
structure Site.IsPlain (site : Site) : Prop where
  name : AttributeCheck.IsPlain site.name
  component : AttributeCheck.IsPlain site.component

theorem isPlain_kindText (k : Kind) : IsPlain k.text := by
  cases k <;> decide

theorem isPlain_typeName (v : Value) : IsPlain v.typeName := by
  cases v with
  | date t => exact (by decide : IsPlain "date")
  | pattern source => exact (by decide : IsPlain "regexp")
  | _ => exact isPlain_kindText _

theorem isPlain_append {s t : String} : IsPlain (s ++ t) ↔ IsPlain s ∧ IsPlain t := by
  simp [IsPlain, not_or]

theorem flatMap_cut {parts : List String} (h : ∀ part ∈ parts, IsPlain part) :
    parts.flatMap cut = parts := by
  induction parts with
  | nil => rfl
  | cons part parts ih =>
      obtain ⟨hpart, hparts⟩ := List.forall_mem_cons.mp h
      rw [List.flatMap_cons, cut_of_isPlain hpart, ih hparts]
      rfl

namespace Fault

/-- The fault of a check or a declaration whose message has no other free text than the name of an
instance type. An actual type is that of a value. -/
def IsTyped : Fault → Prop
  | wrongKind _ actual => ∃ v : Value, v.typeName = actual
  | notAllowed _ _ => False
  | panicked _ => False
  | _ => True

/-- The wording cut at all marks. Only the name of an instance type can have some in it. -/
def cutWording (component : String) : Fault → List String
  | notInstance typeName =>
      " supplied to " :: component :: ", expected instance of " :: (cut typeName ++ ["."])
  | fault => fault.wording component

theorem flatMap_cut_wording {fault : Fault} (h : fault.IsTyped) {component : String}
    (hc : IsPlain component) :
    (fault.wording component).flatMap cut = fault.cutWording component := by
  cases fault with
  | notInstance typeName =>
      have hplain : ∀ part ∈ [" supplied to ", component, ", expected instance of "],
          IsPlain part := by simp +decide [hc]
      have hpoint : cut "." = ["."] := cut_of_isPlain (by decide)
      have hsplit : (notInstance typeName).wording component =
          [" supplied to ", component, ", expected instance of "] ++ [typeName, "."] := rfl
      rw [hsplit, List.flatMap_append, flatMap_cut hplain]
      simp [cutWording, hpoint]
  | wrongKind expected actual =>
      obtain ⟨v, rfl⟩ := h
      apply flatMap_cut
      simp +decide [wording, hc, isPlain_kindText, isPlain_typeName]
  | notAllowed value allowed => exact h.elim
  | panicked text => exact h.elim
  | _ =>
      apply flatMap_cut
      simp +decide [wording, hc, isPlain_kindText]

theorem isPlain_heading (fault : Fault) {component : String}
    (hc : fault = notChecker → IsPlain component) (location : Location) :
    IsPlain (fault.heading component location.text) := by
  cases fault with
  | notChecker => exact isPlain_append.mpr ⟨hc rfl, by decide⟩
  | _ => cases location <;> simp +decide [heading, Location.text]

/-- A message begins with its heading and the name, also where there are marks in what follows. -/
theorem cut_message {fault : Fault} (h : ∀ text, fault ≠ panicked text) {site : Site}
    (hn : IsPlain site.name) (hc : fault = notChecker → IsPlain site.component) :
    cut (site.failure fault).message =
      fault.heading site.component site.location.text :: site.name ::
        (fault.wording site.component).flatMap cut := by
  have hmessage := message_eq_intercalate h site.name site.component site.location.text
  rw [Site.failure, failure, hmessage, cut_intercalate, List.flatMap_cons, List.flatMap_cons,
    cut_of_isPlain (fault.isPlain_heading hc site.location), cut_of_isPlain hn]
  rfl

theorem cut_message_of_isTyped {fault : Fault} (h : fault.IsTyped) {site : Site}
    (hs : site.IsPlain) :
    cut (site.failure fault).message =
      fault.heading site.component site.location.text :: site.name ::
        fault.cutWording site.component := by
  have hp : ∀ text, fault ≠ panicked text := by
    rintro text rfl
    exact h
  rw [cut_message hp hs.name fun _ => hs.component, flatMap_cut_wording h hs.component]

theorem exists_cut_notAllowed {site : Site} (hn : IsPlain site.name) (value allowed : String) :
    ∃ rest, cut (site.failure (notAllowed value allowed)).message =
      ("Invalid " ++ site.location.text ++ " ") :: site.name :: " of value " :: rest := by
  have hp : ∀ text, notAllowed value allowed ≠ panicked text := nofun
  have hcut := cut_message hp hn nofun
  have hvalue : cut " of value " = [" of value "] := cut_of_isPlain (by decide)
  rw [wording, List.flatMap_cons, hvalue] at hcut
  exact ⟨_, hcut⟩

/-! ## Reading headings and wordings back -/

theorem invalid_inj {l m : Location}
    (h : "Invalid " ++ l.text ++ " " = "Invalid " ++ m.text ++ " ") : l = m := by
  simpa [String.append_assoc, locationText_inj] using h

theorem heading_inj {fault : Fault} (h : fault ≠ notChecker) {component other : String}
    {l m : Location} (heq : fault.heading component l.text = fault.heading other m.text) :
    l = m := by
  cases fault with
  | notChecker => exact absurd rfl h
  | missing => simpa [heading, String.append_assoc, locationText_inj] using heq
  | _ => exact invalid_inj heq

/-- Both faults ask for an object in place of a value of some kind, one as a kind of value and the
other as a value with declared fields. -/
inductive BothAskForObject : Fault → Fault → Prop where
  | mk (actual : Kind) : BothAskForObject (wrongKind .object actual.text) (notShape actual)

theorem bothAskForObject_of_cutWording {expected actual : Kind} {typeName component other : String}
    (h : (wrongKind expected typeName).cutWording component = (notShape actual).cutWording other) :
    component = other ∧ BothAskForObject (wrongKind expected typeName) (notShape actual) := by
  have hobject : Kind.object.text = "object" := rfl
  simp only [cutWording, wording, List.cons.injEq, true_and, and_true, ← hobject,
    kindText_inj] at h
  obtain ⟨rfl, rfl, rfl⟩ := h
  exact ⟨rfl, .mk actual⟩

/-- Both ask in the place where a value is invalid. -/
theorem BothAskForObject.location_eq {f g : Fault} (h : BothAskForObject f g ∨ BothAskForObject g f)
    {component other : String} {l m : Location}
    (heq : f.heading component l.text = g.heading other m.text) : l = m := by
  rcases h with h | h <;> cases h <;> exact invalid_inj heq

/-- Each wording begins with a phrase of its own or goes on with one; two of them agree. -/
theorem cutWording_inj {f g : Fault} (hf : f.IsTyped) (hg : g.IsTyped) {component other : String}
    (h : f.cutWording component = g.cutWording other) :
    f = g ∧ (f ≠ notChecker → component = other) ∨
      component = other ∧ (BothAskForObject f g ∨ BothAskForObject g f) := by
  cases f <;> cases g
  case wrongKind.notShape =>
    obtain ⟨rfl, hobject⟩ := bothAskForObject_of_cutWording h
    exact .inr ⟨rfl, .inl hobject⟩
  case notShape.wrongKind =>
    obtain ⟨rfl, hobject⟩ := bothAskForObject_of_cutWording h.symm
    exact .inr ⟨rfl, .inr hobject⟩
  all_goals simp_all [cutWording, wording, IsTyped, kindText_inj, cut_injective.eq_iff]

theorem not_value_of_isTyped {fault : Fault} (h : fault.IsTyped) (component : String)
    (rest : List String) : fault.cutWording component ≠ " of value " :: rest := by
  cases fault with
  | notAllowed value allowed => exact h.elim
  | _ => simp [cutWording, wording]

end Fault

/-! ## One message, one failure -/

/-- Two faults are found with the same arguments. The location is none of them where a declaration
holds no checker. -/
structure SameReport (s : Site) (f : Fault) (t : Site) (g : Fault) : Prop where
  fault_eq : f = g
  name_eq : s.name = t.name
  component_eq : s.component = t.component
  location_eq : f ≠ .notChecker → s.location = t.location

theorem SameReport.failure_eq {s t : Site} {f g : Fault} (h : SameReport s f t g) :
    s.failure f = t.failure g := by
  obtain ⟨name, component, location⟩ := s
  obtain ⟨name', component', location'⟩ := t
  obtain ⟨rfl, rfl, rfl, hlocation⟩ := h
  by_cases hf : f = .notChecker
  · subst hf
    rfl
  · obtain rfl : location = location' := hlocation hf
    rfl

theorem Fault.BothAskForObject.message_eq {f g : Fault} (h : BothAskForObject f g) (site : Site) :
    (site.failure f).message = (site.failure g).message := by
  cases h with
  | mk actual =>
      rw [Site.failure, Site.failure, failure, failure, message_eq_intercalate (by simp),
        message_eq_intercalate (by simp)]
      rfl

/-- The same report, or two that ask for an object in the same place. -/
def AreMerged (s : Site) (f : Fault) (t : Site) (g : Fault) : Prop :=
  SameReport s f t g ∨ s = t ∧ (f.BothAskForObject g ∨ g.BothAskForObject f)

theorem message_eq_iff {s t : Site} (hs : s.IsPlain) (ht : t.IsPlain) {f g : Fault}
    (hf : f.IsTyped) (hg : g.IsTyped) :
    (s.failure f).message = (t.failure g).message ↔ AreMerged s f t g := by
  constructor
  · intro h
    have hcut := congrArg cut h
    rw [Fault.cut_message_of_isTyped hf hs, Fault.cut_message_of_isTyped hg ht] at hcut
    simp only [List.cons.injEq] at hcut
    obtain ⟨hheading, hname, hwording⟩ := hcut
    rcases Fault.cutWording_inj hf hg hwording with ⟨rfl, hcomponent⟩ | ⟨hcomponent, hobject⟩
    · by_cases hchecker : f = .notChecker
      · subst hchecker
        have hcomponent : s.component = t.component := by simpa [Fault.heading] using hheading
        exact .inl ⟨rfl, hname, hcomponent, fun hne => absurd rfl hne⟩
      · have hlocation := Fault.heading_inj hchecker hheading
        exact .inl ⟨rfl, hname, hcomponent hchecker, fun _ => hlocation⟩
    · have hlocation := Fault.BothAskForObject.location_eq hobject hheading
      obtain ⟨name, component, location⟩ := s
      obtain rfl : name = t.name := hname
      obtain rfl : component = t.component := hcomponent
      obtain rfl : location = t.location := hlocation
      exact .inr ⟨rfl, hobject⟩
  · rintro (h | ⟨rfl, h | h⟩)
    · rw [h.failure_eq]
    · exact h.message_eq s
    · exact (h.message_eq s).symm

/-- A value is quoted where messages of other faults go on with a type or a component. -/
theorem message_notAllowed_ne {s t : Site} (hs : IsPlain s.name) (ht : t.IsPlain) {g : Fault}
    (hg : g.IsTyped) (value allowed : String) :
    (s.failure (.notAllowed value allowed)).message ≠ (t.failure g).message := by
  intro h
  obtain ⟨rest, hrest⟩ := Fault.exists_cut_notAllowed hs value allowed
  rw [h, Fault.cut_message_of_isTyped hg ht] at hrest
  simp only [List.cons.injEq] at hrest
  exact Fault.not_value_of_isTyped hg t.component rest hrest.2.2

theorem message_notAllowed_inj {s t : Site} (hs : IsPlain s.name) (ht : IsPlain t.name)
    {value allowed value' allowed' : String}
    (h : (s.failure (.notAllowed value allowed)).message =
      (t.failure (.notAllowed value' allowed')).message) :
    s.name = t.name ∧ s.location = t.location := by
  obtain ⟨rest, hrest⟩ := Fault.exists_cut_notAllowed hs value allowed
  obtain ⟨rest', hrest'⟩ := Fault.exists_cut_notAllowed ht value' allowed'
  rw [h, hrest'] at hrest
  simp only [List.cons.injEq] at hrest
  exact ⟨hrest.2.1.symm, (Fault.invalid_inj hrest.1).symm⟩

/-! ## Faults of checks and declarations -/

theorem Rule.Fails.isTyped_or_notAllowed {rule : Rule} {v : Value} {fault : Fault}
    (h : rule.Fails v fault) :
    fault.IsTyped ∨ ∃ value allowed, fault = .notAllowed value allowed := by
  cases h with
  | kind h => exact .inl ⟨v, rfl⟩
  | oneOf h => exact .inr ⟨_, _, rfl⟩
  | _ => exact .inl trivial

theorem Position.Fails.isTyped_or_notAllowed {p : Position} {fault : Fault} (h : p.Fails fault) :
    fault.IsTyped ∨ ∃ value allowed, fault = .notAllowed value allowed := by
  cases h with
  | missing h => exact .inl trivial
  | rule hv h => exact h.isTyped_or_notAllowed

/-- No rule of the host takes part. -/
def Declaration.isBuiltIn : Declaration → Bool
  | .checker c => c.isBuiltIn
  | .invalid _ => true

theorem Declaration.fault_of_evaluate {declaration : Declaration}
    (hd : declaration.isBuiltIn = true) {name component : String} {bag : Entries String Value}
    {location : Location} {failure : Failure}
    (h : (declaration.evaluate name bag component location).failure = some failure) :
    ∃ site fault, failure = Site.failure site fault ∧
      (fault.IsTyped ∨ ∃ value allowed, fault = .notAllowed value allowed) := by
  cases declaration with
  | invalid v =>
      cases h
      exact ⟨⟨name, component, location⟩, .notChecker, rfl, .inl trivial⟩
  | checker c =>
      have hp : (c.check bag name (some component) location).verdict.Pinpoints _ _ :=
        c.run_pinpoints hd (Entries.get? bag name) []
          ⟨name, displayName (some component), location⟩
      rw [evaluate] at h
      generalize c.check bag name (some component) location = outcome at h hp
      obtain ⟨verdict, calls⟩ := outcome
      cases verdict with
      | accept => cases h
      | reject rejection =>
          obtain ⟨before, p, fault, hfirst, hfailure⟩ := hp
          cases h
          exact ⟨_, fault, hfailure, hfirst.fails.isTyped_or_notAllowed⟩
      | panic text => exact hp.elim

/-! ## The cache -/

/-- The cache after some failures were reported one by one. -/
def Channel.cacheAfter (channel : Channel) (cache : Cache) (failures : List Failure) : Cache :=
  failures.foldl (fun cache failure => (channel.report cache failure).1) cache

theorem Channel.contains_cacheAfter (channel : Channel) (cache : Cache) (failures : List Failure)
    (message : String) :
    (channel.cacheAfter cache failures).contains message = true ↔
      cache.contains message = true ∨ ∃ failure ∈ failures, failure.message = message := by
  induction failures generalizing cache with
  | nil => simp [cacheAfter]
  | cons failure failures ih =>
      rw [cacheAfter, List.foldl_cons, ← cacheAfter, ih, fst_report, Cache.contains_mark]
      simp only [Bool.or_eq_true, beq_iff_eq, List.exists_mem_cons_iff]
      tauto

/-- One message stands for one failure, but that the wording of asking for an object is one for
kinds of values and for declared fields. Faults of an enumeration quote values and are told from all
others; among them names and locations are. So a failure is held back as already reported only after
the same one, and every failure of a declaration without rules of the host is of these faults. -/
theorem message_determines_failure :
    (∀ s t : Site, s.IsPlain → t.IsPlain → ∀ f g : Fault, f.IsTyped → g.IsTyped →
      ((s.failure f).message = (t.failure g).message ↔ AreMerged s f t g) ∧
      (SameReport s f t g → s.failure f = t.failure g)) ∧
    (∀ s t : Site, IsPlain s.name → t.IsPlain → ∀ value allowed g, Fault.IsTyped g →
      (s.failure (.notAllowed value allowed)).message ≠ (t.failure g).message) ∧
    (∀ s t : Site, IsPlain s.name → IsPlain t.name → ∀ value allowed value' allowed',
      (s.failure (.notAllowed value allowed)).message =
        (t.failure (.notAllowed value' allowed')).message →
      s.name = t.name ∧ s.location = t.location) ∧
    (∀ (channel : Channel) (reported : List (Site × Fault)),
      (∀ r ∈ reported, r.1.IsPlain ∧ r.2.IsTyped) →
      ∀ (t : Site) (g : Fault), t.IsPlain → g.IsTyped →
        ((channel.cacheAfter .empty (reported.map fun (s, f) => s.failure f)).contains
            (t.failure g).message = true ↔
          ∃ r ∈ reported, AreMerged r.1 r.2 t g)) ∧
    (∀ (declaration : Declaration) (name component : String) (bag : Entries String Value)
      (location : Location) (failure : Failure), declaration.isBuiltIn = true →
      (declaration.evaluate name bag component location).failure = some failure →
      ∃ site fault, failure = Site.failure site fault ∧
        (fault.IsTyped ∨ ∃ value allowed, fault = .notAllowed value allowed)) := by
  refine ⟨?_, ?_, ?_, ?_, ?_⟩
  · intro s t hs ht f g hf hg
    exact ⟨message_eq_iff hs ht hf hg, SameReport.failure_eq⟩
  · intro s t hs ht value allowed g hg
    exact message_notAllowed_ne hs ht hg value allowed
  · intro s t hs ht value allowed value' allowed' h
    exact message_notAllowed_inj hs ht h
  · intro channel reported hreported t g ht hg
    have hempty : Cache.empty.contains (t.failure g).message = false := rfl
    rw [channel.contains_cacheAfter, hempty]
    simp only [Bool.false_eq_true, false_or, List.mem_map, exists_exists_and_eq_and]
    refine exists_congr fun r => and_congr_right fun hr => ?_
    obtain ⟨hplain, htyped⟩ := hreported r hr
    exact message_eq_iff hplain ht htyped hg
  · intro declaration name component bag location failure hd h
    exact declaration.fault_of_evaluate hd h

/-- A mark in the name of a type does not hide that an icon is missing or an alternative, and the
value of an enumeration may hold the text of another message. -/
theorem message_determines_failure_icon :
    let icon : Site := ⟨"icon", "Badge", .property⟩
    let glyph : Fault := .notInstance "Icon` or `Glyph"
    let quoted : Fault := .notAllowed "` supplied to `Badge" "[null]"
    (icon.IsPlain ∧ glyph.IsTyped) ∧
      (icon.failure glyph).message ≠ (icon.failure .noAlternative).message ∧
      (icon.failure quoted).message ≠ (icon.failure .noAlternative).message ∧
      (icon.name = "icon" ∧ icon.location = .property) ∧
      (Channel.cacheAfter (.legacy .log) .empty [icon.failure glyph]).contains
        (icon.failure .missing).message = false ∧
      ∃ site fault, icon.failure .notChecker = Site.failure site fault ∧
        (fault.IsTyped ∨ ∃ value allowed, fault = .notAllowed value allowed) := by
  intro icon glyph quoted
  obtain ⟨htyped, hquoted, hvalues, hcache, hevaluate⟩ := message_determines_failure
  have hicon : icon.IsPlain := ⟨by decide, by decide⟩
  have hglyph : glyph.IsTyped := trivial
  have hother (g : Fault) (hg : glyph ≠ g) : ¬ AreMerged icon glyph icon g := by
    rintro (h | ⟨-, h⟩)
    · exact hg h.fault_eq
    · rcases h with h | h <;> generalize hf : glyph = f at h <;> cases h <;> simp [glyph] at hf
  refine ⟨⟨hicon, hglyph⟩, ?_, ?_, ?_, ?_, ?_⟩
  · intro h
    have hiff := (htyped icon icon hicon hicon glyph .noAlternative hglyph trivial).1
    exact hother _ (by simp [glyph]) (hiff.mp h)
  · exact hquoted icon icon hicon.name hicon _ _ .noAlternative trivial
  · exact hvalues icon icon hicon.name hicon.name "a" "[null]" "a" "[null]" rfl
  · have hiff := hcache (.legacy .log) [(icon, glyph)] (by simp [hicon, hglyph]) icon .missing
      hicon trivial
    rw [Bool.eq_false_iff]
    intro h
    obtain ⟨r, hr, hmerged⟩ := hiff.mp h
    obtain rfl := List.mem_singleton.mp hr
    exact hother _ (by simp [glyph]) hmerged
  · exact hevaluate (.invalid .null) "icon" "Badge" [] .property _ rfl rfl

end AttributeCheck
