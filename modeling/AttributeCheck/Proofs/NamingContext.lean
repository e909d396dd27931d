import AttributeCheck.Proofs.FirstFault
import Mathlib.Data.List.Forall2

/-! # The naming context never influences the verdict

Which position of a value fails first is a matter of the checker and the value. So in two naming
contexts a value is accepted in both, or rejected in both for the same fault at the same position.
The component shows in one parameter only, and the name of the root in failures of the root only. -/

namespace AttributeCheck

/-! ## The first failing position is unique -/

theorem Rule.Fails.fault_eq {rule : Rule} {v : Value} {fault other : Fault}
    (h : rule.Fails v fault) (ho : rule.Fails v other) : fault = other := by
  cases h <;> cases ho <;> rfl

theorem Position.Fails.fault_eq {p : Position} {fault other : Fault} (h : p.Fails fault)
    (ho : p.Fails other) : fault = other := by
  cases h with
  | missing ha =>
      cases ho with
      | missing _ => rfl
      | rule hv _ => exact absurd ha hv
  | rule hv h =>
      cases ho with
      | missing ha => exact absurd ha hv
      | rule _ ho => exact h.fault_eq ho

/-- Positions in order cannot go on with one that fails. -/
theorem not_prefix_of_isSound {sound before : List Position} {p : Position} {fault : Fault}
    (h : ∀ q ∈ sound, q.IsSound) (hp : p.Fails fault) : ¬ before ++ [p] <+: sound := by
  intro hprefix
  have hmem : p ∈ sound := hprefix.subset (by simp)
  exact h p hmem fault hp

/-- The root has no say in which position is the first to fail. -/
theorem FirstFault.unique {s t : Site} {positions before front : List Position} {p q : Position}
    {fault other : Fault} (h : FirstFault s positions before p fault)
    (ho : FirstFault t positions front q other) : p = q ∧ fault = other := by
  have hsame : before ++ [p] = front ++ [q] := by
    rcases List.prefix_or_prefix_of_prefix h.split ho.split with hle | hle
    · rcases List.prefix_concat_iff.mp hle with heq | hinside
      · exact heq
      · exact absurd hinside (not_prefix_of_isSound ho.sound h.fails)
    · rcases List.prefix_concat_iff.mp hle with heq | hinside
      · exact heq.symm
      · exact absurd hinside (not_prefix_of_isSound h.sound ho.fails)
  obtain ⟨-, hlast⟩ := List.append_inj' hsame rfl
  obtain rfl : p = q := by simpa using hlast
  exact ⟨rfl, h.fails.fault_eq ho.fails⟩

/-! ## Failures of one fault in two contexts -/

/-- The same parameters in the same order, but for what they say of the component. -/
def AgreeButComponent : List (String × String) → List (String × String) → Prop :=
  List.Forall₂ fun param other =>
    param.1 = other.1 ∧ (param.1 ≠ "component" → param.2 = other.2)

theorem AgreeButComponent.keys_eq {params others : List (String × String)}
    (h : AgreeButComponent params others) : params.map Prod.fst = others.map Prod.fst := by
  induction h with
  | nil => rfl
  | cons hparam _ ih => simp [hparam.1, ih]

theorem Fault.params_agree (fault : Fault) (component other : String) :
    AgreeButComponent (fault.params component) (fault.params other) := by
  cases fault <;> simp [AgreeButComponent, Fault.params]

/-- How the failures of a value at two sites compare, when the position that fails first is the
given one. -/
structure SameFault (s t : Site) (p : Position) (failure other : Failure) : Prop where
  code_eq : failure.code = other.code
  params_agree : AgreeButComponent failure.params other.params
  keys_eq : failure.params.map Prod.fst = other.params.map Prod.fst
  field_eq_of_name_eq : s.name = t.name → failure.field = other.field
  /-- The position is an item, a property or a field. -/
  field_eq_of_inner : p.path ≠ [] → failure.field = other.field

theorem getLastD_eq {path : List String} (h : path ≠ []) (name other : String) :
    path.getLastD name = path.getLastD other := by
  simp [List.getLastD_eq_getLast?, List.getLast?_eq_some_getLast h]

theorem Fault.sameFault (fault : Fault) (s t : Site) (p : Position) :
    SameFault s t p ((s.follow p.path).failure fault) ((t.follow p.path).failure fault) where
  code_eq := rfl
  params_agree := fault.params_agree s.component t.component
  keys_eq := (fault.params_agree s.component t.component).keys_eq
  field_eq_of_name_eq h := by simp [Site.failure, Site.follow, Fault.failure, h]
  field_eq_of_inner h := congrArg some (getLastD_eq h s.name t.name)

/-- A checker without rules of the host accepts at both of two sites or rejects at both. In the
latter case the same position is the first to fail, and with the same fault. -/
theorem naming_context_irrelevant (c : Checker) (hc : c.isBuiltIn = true) (supplied : Option Value)
    (s t : Site) :
    ((c.run supplied s).verdict = .accept ∧ (c.run supplied t).verdict = .accept) ∨
      ∃ failure other before front p fault,
        (c.run supplied s).verdict = .reject failure ∧
        (c.run supplied t).verdict = .reject other ∧
        FirstFault s (c.positions [] supplied) before p fault ∧
        FirstFault t (c.positions [] supplied) front p fault ∧
        failure = (s.follow p.path).failure fault ∧ other = (t.follow p.path).failure fault ∧
        SameFault s t p failure other := by
  have hs := c.run_decides hc supplied s
  have ht := c.run_decides hc supplied t
  by_cases hconforms : Conforms c supplied
  · exact .inl ⟨hs.accept_iff.mpr hconforms, ht.accept_iff.mpr hconforms⟩
  · obtain ⟨failure, hfailure⟩ := hs.exists_reject hconforms
    obtain ⟨other, hother⟩ := ht.exists_reject hconforms
    have hsat := c.run_pinpoints hc supplied [] s
    have htat := c.run_pinpoints hc supplied [] t
    rw [show s.follow [] = s from rfl, hfailure] at hsat
    rw [show t.follow [] = t from rfl, hother] at htat
    obtain ⟨before, p, fault, hfirst, rfl⟩ := hsat
    obtain ⟨front, q, fault', hfirst', rfl⟩ := htat
    obtain ⟨rfl, rfl⟩ := hfirst.unique hfirst'
    exact .inr ⟨_, _, before, front, p, fault, hfailure, hother, hfirst, hfirst', rfl, rfl,
      fault.sameFault s t p⟩

/-- The label of the second row is missing, at sites that have nothing in common. -/
theorem naming_context_irrelevant_rows :
    labelledRows.isBuiltIn = true ∧
      (labelledRows.run (some (.array [.object [("label", .string "a")], .object []]))
        ⟨"rows", "Table", .property⟩).verdict =
          .reject (Fault.missing.failure "label" "Table" "prop") ∧
      (labelledRows.run (some (.array [.object [("label", .string "a")], .object []]))
        ⟨"lines", "", .childContext⟩).verdict =
          .reject (Fault.missing.failure "label" "" "child context") ∧
      ∃ p, SameFault ⟨"rows", "Table", .property⟩ ⟨"lines", "", .childContext⟩ p
        (Fault.missing.failure "label" "Table" "prop")
        (Fault.missing.failure "label" "" "child context") := by
  refine ⟨rfl, rfl, rfl, ?_⟩
  rcases naming_context_irrelevant labelledRows rfl
      (some (.array [.object [("label", .string "a")], .object []]))
      ⟨"rows", "Table", .property⟩ ⟨"lines", "", .childContext⟩ with
    ⟨haccept, -⟩ | ⟨failure, other, _, _, p, _, hfailure, hother, _, _, _, _, hsame⟩
  · cases haccept
  · obtain rfl := Verdict.reject.inj hfailure
    obtain rfl := Verdict.reject.inj hother
    exact ⟨p, hsame⟩

end AttributeCheck
