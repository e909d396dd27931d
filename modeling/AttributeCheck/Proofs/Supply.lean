import AttributeCheck.Checker.Run

/-! # What a checker is supplied with

What counts as supplied, what a value owns, and how a component without a name is called, each said
without the functions that checking goes through. -/

namespace AttributeCheck

/-! ## Supplied and absent values -/

/-- Null and undefined count as not supplied, like no value at all. -/
inductive IsAbsent : Option Value → Prop where
  | none : IsAbsent none
  | undefined : IsAbsent (some .undefined)
  | null : IsAbsent (some .null)

theorem isAbsent_some_iff (v : Value) : IsAbsent (some v) ↔ v.isMissing = true := by
  constructor
  · intro h
    cases h <;> rfl
  · intro h
    cases v with
    | undefined => exact .undefined
    | null => exact .null
    | _ => cases h

theorem not_isAbsent_some_iff (v : Value) : ¬ IsAbsent (some v) ↔ v.isMissing = false := by
  rw [isAbsent_some_iff, Bool.not_eq_true]

theorem Value.isMissing_eq_false_iff (v : Value) :
    v.isMissing = false ↔ v ≠ .undefined ∧ v ≠ .null := by
  cases v <;> simp [Value.isMissing]

theorem isAbsent_or_supplied (supplied : Option Value) :
    IsAbsent supplied ∨ ∃ v, supplied = some v ∧ v.isMissing = false := by
  cases supplied with
  | none => exact .inl .none
  | some v =>
      by_cases h : IsAbsent (some v)
      · exact .inl h
      · exact .inr ⟨v, rfl, (not_isAbsent_some_iff v).mp h⟩

theorem Checker.run_of_isAbsent {supplied : Option Value} (h : IsAbsent supplied) (rule : Rule)
    (isRequired : Bool) (site : Site) :
    (mk rule isRequired).run supplied site =
      if isRequired then .fault site .missing else .accept := by
  cases h <;> rw [Checker.run] <;> rfl

theorem Checker.run_some {v : Value} (h : v.isMissing = false) (rule : Rule) (isRequired : Bool)
    (site : Site) : (mk rule isRequired).run (some v) site = rule.run v site := by
  rw [Checker.run, Option.filter_some_pos (by simpa using h)]

/-! ## Own properties -/

/-- What a value owns, in order of insertion. Only objects and instances own anything. -/
def Value.own : Value → List (String × Value)
  | object properties => properties
  | inst _ properties => properties
  | _ => []

theorem Value.getD_properties? (v : Value) : v.properties?.getD [] = v.own := by
  cases v <;> rfl

theorem Value.property?_eq_lookup (v : Value) (name : String) :
    v.property? name = v.own.lookup name := by
  cases v with
  | object properties => exact Entries.get?_eq_lookup properties name
  | inst cls properties => exact Entries.get?_eq_lookup properties name
  | _ => rfl

/-! ## Components -/

/-- How a component is called in messages: by its name, if it has one that is not empty. -/
def shownComponent : Option String → String
  | none => "<<anonymous>>"
  | some "" => "<<anonymous>>"
  | some name => name

theorem displayName_eq_shownComponent (component : Option String) :
    displayName component = shownComponent component := by
  cases component with
  | none => rfl
  | some name =>
      by_cases h : name = ""
      · subst h
        rfl
      · simp [displayName, shownComponent, h]

end AttributeCheck
