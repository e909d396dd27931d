import AttributeCheck.Proofs.Reporting
import AttributeCheck.Proofs.Supply
import Mathlib.Data.List.Forall2

/-! # A bag is seen through its declared entries only

Two bags look alike to declarations when under each declared name both hold one value, or neither
holds a value that counts as supplied. What else they hold, and in which order, shows nowhere: not
in the calls of host rules, the lines, the log and the caches, and not in the answer with the first
failure. Neither does it show in which of three ways a component has no name. -/

namespace AttributeCheck

/-! ## What looks alike -/

/-- Two things that may be supplied are one value, or both count as not supplied. -/
def SameSupply (supplied other : Option Value) : Prop :=
  supplied = other ∨ IsAbsent supplied ∧ IsAbsent other

/-- Under each of the names two bags supply the same. -/
def AgreeOn (names : List String) (bag other : Entries String Value) : Prop :=
  ∀ name ∈ names, SameSupply (Entries.get? bag name) (Entries.get? other name)

/-- No name, an empty one, and the one that stands for it. -/
inductive IsAnonymous : Option String → Prop where
  | absent : IsAnonymous none
  | empty : IsAnonymous (some "")
  | placeholder : IsAnonymous (some "<<anonymous>>")

/-- Two components have one name, or none in one way or another. -/
def SameComponent (component other : Option String) : Prop :=
  component = other ∨ IsAnonymous component ∧ IsAnonymous other

theorem AgreeOn.head {name : String} {names : List String} {bag other : Entries String Value}
    (h : AgreeOn (name :: names) bag other) :
    SameSupply (Entries.get? bag name) (Entries.get? other name) :=
  h name List.mem_cons_self

theorem AgreeOn.tail {name : String} {names : List String} {bag other : Entries String Value}
    (h : AgreeOn (name :: names) bag other) : AgreeOn names bag other := by
  intro later hlater
  exact h later (List.mem_cons_of_mem name hlater)

theorem IsAnonymous.displayName_eq {component : Option String} (h : IsAnonymous component) :
    displayName component = anonymousName := by
  cases h <;> rfl

theorem SameComponent.displayName_eq {component other : Option String}
    (h : SameComponent component other) : displayName component = displayName other := by
  rcases h with rfl | ⟨hc, ho⟩
  · rfl
  · rw [hc.displayName_eq, ho.displayName_eq]

/-! ## Single checks -/

theorem Checker.run_of_sameSupply {supplied other : Option Value} (h : SameSupply supplied other)
    (c : Checker) (site : Site) : c.run supplied site = c.run other site := by
  obtain ⟨rule, isRequired⟩ := c
  rcases h with rfl | ⟨hs, ho⟩
  · rfl
  · rw [run_of_isAbsent hs, run_of_isAbsent ho]

theorem Declaration.evaluate_of_sameSupply {name : String} {bag other : Entries String Value}
    (h : SameSupply (Entries.get? bag name) (Entries.get? other name)) (declaration : Declaration)
    (component : String) (location : Location) :
    declaration.evaluate name bag component location =
      declaration.evaluate name other component location := by
  cases declaration with
  | invalid v => rfl
  | checker c =>
      have hcheck : c.check bag name (some component) location =
          c.check other name (some component) location := c.run_of_sameSupply h _
      simp only [evaluate, hcheck]

/-! ## All declarations -/

theorem reportAll_of_agreeOn (channel : Channel) {bag other : Entries String Value}
    (component : String) (location : Location) (cache : Cache)
    {entries : Entries String Declaration} (h : AgreeOn (Entries.keys entries) bag other) :
    channel.reportAll bag component location cache entries =
      channel.reportAll other component location cache entries := by
  induction entries generalizing cache with
  | nil => rfl
  | cons entry rest ih =>
      obtain ⟨name, declaration⟩ := entry
      have hentry := declaration.evaluate_of_sameSupply h.head component location
      simp only [Channel.reportAll, hentry, ih _ h.tail]

theorem firstFailure_of_agreeOn {bag other : Entries String Value} (component : String)
    (location : Location) {entries : Entries String Declaration}
    (h : AgreeOn (Entries.keys entries) bag other) :
    firstFailure bag component location entries =
      firstFailure other component location entries := by
  induction entries with
  | nil => rfl
  | cons entry rest ih =>
      obtain ⟨name, declaration⟩ := entry
      have hentry := declaration.evaluate_of_sameSupply h.head component location
      simp only [firstFailure, hentry, ih h.tail]

/-! ## Calls and runs -/

/-- Calls with the same declarations, for bags and components that look alike. -/
inductive CheckCall.Alike : CheckCall → CheckCall → Prop where
  | report {declared : Declarations} {bag other : Entries String Value}
      {component namesake : Option String} (location : Location)
      (hb : AgreeOn declared.names bag other) (hc : SameComponent component namesake) :
      Alike (.report declared bag component location) (.report declared other namesake location)
  | answer {declared : Declarations} {bag other : Entries String Value}
      {component namesake : Option String} (hb : AgreeOn declared.names bag other)
      (hc : SameComponent component namesake) :
      Alike (.answer declared bag component) (.answer declared other namesake)

theorem ask_of_alike (s : Session) (v : Validator) {call other : CheckCall}
    (h : call.Alike other) : s.ask v call.request = s.ask v other.request := by
  cases h with
  | report location hb hc =>
      simp only [CheckCall.request, Session.ask, Validator.answer, Validator.validate,
        hc.displayName_eq, reportAll_of_agreeOn v.channel _ location _ hb]
  | answer hb hc =>
      simp only [CheckCall.request, Session.ask, Validator.answer, Declarations.firstFailure,
        hc.displayName_eq, firstFailure_of_agreeOn _ .property hb]

/-- Calls for bags that agree on the declared names, and for one component or for two without a
name, leave the same session behind and get the same reply. So do runs of such calls. -/
theorem undeclared_entries_unseen :
    (∀ (s : Session) (v : Validator) (declared : Declarations) (bag other : Entries String Value)
      (component namesake : Option String) (location : Location),
      AgreeOn declared.names bag other → SameComponent component namesake →
      s.ask v (.validate declared bag component location) =
          s.ask v (.validate declared other namesake location) ∧
        s.ask v (.firstFailure declared bag component) =
          s.ask v (.firstFailure declared other namesake)) ∧
      ∀ (s : Session) (calls others : List (Validator × CheckCall)),
        List.Forall₂ (fun call other => call.1 = other.1 ∧ call.2.Alike other.2) calls others →
        s.callAll calls = s.callAll others := by
  constructor
  · intro s v declared bag other component namesake location hb hc
    exact ⟨ask_of_alike s v (.report location hb hc), ask_of_alike s v (.answer hb hc)⟩
  · intro s calls others h
    induction h generalizing s with
    | nil => rfl
    | @cons call other calls others hcall _ ih =>
        obtain ⟨v, call⟩ := call
        obtain ⟨w, other⟩ := other
        obtain ⟨rfl, halike⟩ := hcall
        simp only [Session.callAll, ask_of_alike s v halike, ih]

/-- Declarations of a required title, a size, an icon whose rule panics and a mistake. -/
def iconDeclarations : Declarations :=
  ⟨[("title", .checker (.required .string)), ("size", .checker .number),
    ("icon", .checker (.custom fun _ _ => .panic none)), ("label", .invalid .null)]⟩

def bigIcon : Entries String Value :=
  [("size", .string "big"), ("title", .null), ("icon", .bool true)]

/-- The title is missing in another way, and there are other entries in another order. -/
def notedIcon : Entries String Value :=
  [("note", .number .nan), ("icon", .bool true), ("label", .undefined), ("size", .string "big")]

theorem undeclared_entries_unseen_icon :
    AgreeOn iconDeclarations.names bigIcon notedIcon ∧ SameComponent none (some "") ∧
      ((Session.start []).ask .standard (.firstFailure iconDeclarations bigIcon none)).2.answer =
        .verdict (some (Fault.missing.failure "title" "<<anonymous>>" "prop")) ∧
      (Session.start []).ask .standard (.validate iconDeclarations bigIcon none .context) =
        (Session.start []).ask .standard
          (.validate iconDeclarations notedIcon (some "") .context) ∧
      (Session.start []).ask .standard (.firstFailure iconDeclarations bigIcon none) =
        (Session.start []).ask .standard (.firstFailure iconDeclarations notedIcon (some "")) := by
  have hb : AgreeOn iconDeclarations.names bigIcon notedIcon := by
    simp [AgreeOn, iconDeclarations, Declarations.names, Entries.keys, SameSupply, bigIcon,
      notedIcon, Entries.get?, IsAbsent.none, IsAbsent.undefined, IsAbsent.null]
  have hc : SameComponent none (some "") := .inr ⟨.absent, .empty⟩
  exact ⟨hb, hc, rfl, undeclared_entries_unseen.1 _ _ _ _ _ _ _ .context hb hc⟩

end AttributeCheck
