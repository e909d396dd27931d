import AttributeCheck.Checker.Outcome
import AttributeCheck.Value.Coercion
import AttributeCheck.Value.Equality
import AttributeCheck.Value.Json

/-! # Checking values -/

namespace AttributeCheck

/-- The items under their decimal positions. -/
def numberedFrom (start : Nat) : List Value → List (String × Value)
  | [] => []
  | item :: rest => (toString start, item) :: numberedFrom (start + 1) rest

theorem numberedFrom_eq_map (start : Nat) (items : List Value) :
    numberedFrom start items =
      (items.zipIdx start).map fun (x, index) => (toString index, x) := by
  induction items generalizing start with
  | nil => rfl
  | cons item rest ih => simp [numberedFrom, List.zipIdx_cons, ih]

mutual

/-- Checks a value as it is, null and undefined included. -/
def Rule.run : Rule → Value → Site → Outcome
  | .kind expected, v, site =>
      if v.kind = expected then .accept else .fault site (.wrongKind expected v.typeName)
  | .any, _, _ => .accept
  | .arrayOf item, v, site =>
      match v with
      | .array items =>
          .forEach (fun name x => item.run (some x) (site.within name)) (numberedFrom 0 items)
      | _ => .fault site (.notArray v.kind)
  | .objectOf property, v, site =>
      if v.kind = .object then
        .forEach (fun name x => property.run (some x) (site.within name)) (v.properties?.getD [])
      else .fault site (.notObject v.kind)
  | .instanceOf type, v, site =>
      if type.admits v then .accept else .fault site (.notInstance type.displayName)
  | .oneOf allowed, v, site =>
      if allowed.any v.strictEq then .accept
      else .fault site (.notAllowed v.text (Value.array allowed).jsonText)
  | .oneOfType alternatives, v, site => runAlternatives alternatives v site
  | .shape fields, v, site =>
      if v.kind = .object then runFields fields v site else .fault site (.notShape v.kind)
  | .custom rule, v, site =>
      let verdict := rule v site
      ⟨verdict, [⟨none, site, v, verdict⟩]⟩
  | .observed label inner, v, site =>
      let outcome := inner.run (some v) site
      outcome.after [⟨some label, site, v, outcome.verdict⟩]

/-- Checks a value, or its absence. -/
def Checker.run : Checker → Option Value → Site → Outcome
  | .mk rule isRequired, supplied, site =>
      match supplied.filter (!·.isMissing) with
      | some v => rule.run v site
      | none => if isRequired then .fault site .missing else .accept

def runAlternatives : List Checker → Value → Site → Outcome
  | [], _, site => .fault site .noAlternative
  | alternative :: rest, v, site =>
      (alternative.run (some v) site).orElse fun _ => runAlternatives rest v site

def runFields : List (String × Option Checker) → Value → Site → Outcome
  | [], _, _ => .accept
  | (_, none) :: rest, v, site => runFields rest v site
  | (name, some field) :: rest, v, site =>
      (field.run (v.property? name) (site.within name)).andThen fun _ => runFields rest v site

end

/-- Checks the attribute `name` of a bag. -/
def Checker.check (c : Checker) (bag : Entries String Value) (name : String)
    (component : Option String) (location : Location) : Outcome :=
  c.run (Entries.get? bag name) ⟨name, displayName component, location⟩

end AttributeCheck
