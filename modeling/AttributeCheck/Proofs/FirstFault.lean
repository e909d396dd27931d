import AttributeCheck.Proofs.Conformance

/-! # A rejection pinpoints the first position that fails

The positions of a value are listed as a checker visits them: a container before its contents, and
those in order. A rejection tells the first one which fails by itself. -/

namespace AttributeCheck

/-! ## Positions -/

/-- A place in a checked value: the steps that lead there, the checker for it, and what is supplied.
-/
structure Position where
  path : List String
  checker : Checker
  supplied : Option Value

/-- The naming context at the end of a path: its last step is the name, and at the root that of the
root. -/
def Site.follow (root : Site) (path : List String) : Site :=
  ⟨path.getLastD root.name, root.component, root.location⟩

mutual

/-- The positions from one reached by a path, in the order of visits. -/
def Checker.positions : Checker → List String → Option Value → List Position
  | .mk rule isRequired, path, supplied =>
      ⟨path, .mk rule isRequired, supplied⟩ ::
        match supplied with
        | none => []
        | some .undefined => []
        | some .null => []
        | some v => rule.innerPositions path v

/-- The positions inside a value. The alternatives of a union are not entered. -/
def Rule.innerPositions : Rule → List String → Value → List Position
  | .arrayOf item, path, .array items =>
      items.zipIdx.flatMap fun (x, index) => item.positions (path ++ [toString index]) (some x)
  | .objectOf property, path, v =>
      v.own.flatMap fun (key, x) => property.positions (path ++ [key]) (some x)
  | .shape fields, path, v => if v.kind = .object then fieldPositions fields path v else []
  | _, _, _ => []

def fieldPositions : List (String × Option Checker) → List String → Value → List Position
  | [], _, _ => []
  | (_, none) :: rest, path, v => fieldPositions rest path v
  | (name, some field) :: rest, path, v =>
      field.positions (path ++ [name]) (v.own.lookup name) ++ fieldPositions rest path v

end

/-! ## Positions that fail by themselves -/

/-- A value fails a rule, whatever its contents. -/
inductive Rule.Fails : Rule → Value → Fault → Prop where
  | kind {expected : Kind} {v : Value} (h : v.kind ≠ expected) :
      Fails (.kind expected) v (.wrongKind expected v.typeName)
  | arrayOf {item : Checker} {v : Value} (h : v.kind ≠ .array) :
      Fails (.arrayOf item) v (.notArray v.kind)
  | objectOf {property : Checker} {v : Value} (h : v.kind ≠ .object) :
      Fails (.objectOf property) v (.notObject v.kind)
  | instanceOf {type : Descriptor} {v : Value} (h : type.admits v = false) :
      Fails (.instanceOf type) v (.notInstance type.displayName)
  | oneOf {allowed : List Value} {v : Value} (h : ∀ a ∈ allowed, v.strictEq a = false) :
      Fails (.oneOf allowed) v (.notAllowed v.text (Value.array allowed).jsonText)
  | oneOfType {alternatives : List Checker} {v : Value}
      (h : ∀ c ∈ alternatives, ¬ Conforms c (some v)) :
      Fails (.oneOfType alternatives) v .noAlternative
  | shape {fields : List (String × Option Checker)} {v : Value} (h : v.kind ≠ .object) :
      Fails (.shape fields) v (.notShape v.kind)

inductive Position.Fails : Position → Fault → Prop where
  | missing {path : List String} {rule : Rule} {supplied : Option Value} (h : IsAbsent supplied) :
      Fails ⟨path, .mk rule true, supplied⟩ .missing
  | rule {path : List String} {rule : Rule} {isRequired : Bool} {v : Value} {fault : Fault}
      (hv : ¬ IsAbsent (some v)) (h : rule.Fails v fault) :
      Fails ⟨path, .mk rule isRequired, some v⟩ fault

/-- A position that does not fail by itself. -/
def Position.IsSound (p : Position) : Prop :=
  ∀ fault, ¬ p.Fails fault

/-- The positions at and inside a position. -/
def Position.positions (p : Position) : List Position :=
  p.checker.positions p.path p.supplied

/-- The checker at a position accepts what it finds there, contents included. -/
def Position.IsAccepted (p : Position) (root : Site) : Prop :=
  (p.checker.run p.supplied (root.follow p.path)).verdict = .accept

theorem Position.isSound_some {rule : Rule} {v : Value} (hv : v.isMissing = false)
    (hs : ∀ fault, ¬ rule.Fails v fault) (path : List String) (isRequired : Bool) :
    IsSound ⟨path, .mk rule isRequired, some v⟩ := by
  intro fault hf
  cases hf with
  | missing h => exact absurd h ((not_isAbsent_some_iff v).mpr hv)
  | rule _ h => exact hs fault h

theorem Position.isSound_of_isAbsent {supplied : Option Value} (h : IsAbsent supplied)
    (path : List String) (rule : Rule) : IsSound ⟨path, .mk rule false, supplied⟩ := by
  intro fault hf
  cases hf with
  | rule hv _ => exact absurd h hv

/-! ## The list of positions -/

theorem Checker.positions_of_isAbsent {supplied : Option Value} (h : IsAbsent supplied)
    (rule : Rule) (isRequired : Bool) (path : List String) :
    (mk rule isRequired).positions path supplied = [⟨path, .mk rule isRequired, supplied⟩] := by
  cases h <;> rw [positions]

theorem Checker.positions_some {v : Value} (hv : v.isMissing = false) (rule : Rule)
    (isRequired : Bool) (path : List String) :
    (mk rule isRequired).positions path (some v) =
      ⟨path, .mk rule isRequired, some v⟩ :: rule.innerPositions path v := by
  obtain ⟨hundefined, hnull⟩ := v.isMissing_eq_false_iff.mp hv
  rw [positions]
  · exact hundefined
  · exact hnull

theorem flatMap_numberedFrom {α : Type} (f : String × Value → List α) (start : Nat)
    (items : List Value) :
    (numberedFrom start items).flatMap f =
      (items.zipIdx start).flatMap fun (x, index) => f (toString index, x) := by
  induction items generalizing start with
  | nil => rfl
  | cons item rest ih => simp [numberedFrom, List.zipIdx_cons, ih]

theorem Site.within_follow (root : Site) (path : List String) (name : String) :
    (root.follow path).within name = root.follow (path ++ [name]) := by
  simp [follow, within]

/-! ## Verdicts that pinpoint the first failing position -/

/-- The first of some positions that fails by itself. What is completed before it, that is every
earlier position that does not enclose it, is accepted. -/
structure FirstFault (root : Site) (positions before : List Position) (p : Position)
    (fault : Fault) : Prop where
  split : before ++ [p] <+: positions
  sound : ∀ q ∈ before, q.IsSound
  fails : p.Fails fault
  completed : ∀ q ∈ before, p ∈ q.positions ∨ q.IsAccepted root

/-- An acceptance means that all positions are in order, a rejection is the failure of the first one
that is not, and there are no panics. -/
def Verdict.Pinpoints (root : Site) (positions : List Position) : Verdict → Prop
  | .accept => ∀ p ∈ positions, p.IsSound ∧ p.IsAccepted root
  | .reject failure => ∃ before p fault,
      FirstFault root positions before p fault ∧ failure = (root.follow p.path).failure fault
  | .panic _ => False

namespace Verdict.Pinpoints

variable {root : Site}

theorem self {p : Position} {fault : Fault} (h : p.Fails fault) (rest : List Position) :
    (Outcome.fault (root.follow p.path) fault).verdict.Pinpoints root (p :: rest) :=
  ⟨[], p, fault, ⟨⟨rest, rfl⟩, by simp, h, by simp⟩, rfl⟩

/-- A container that does not fail by itself ends as the checks of its contents. -/
theorem enclose {verdict : Verdict} {p : Position} {rest : List Position} (hp : p.IsSound)
    (hpositions : p.positions = p :: rest)
    (hv : (p.checker.run p.supplied (root.follow p.path)).verdict = verdict)
    (h : verdict.Pinpoints root rest) : verdict.Pinpoints root (p :: rest) := by
  cases verdict with
  | accept => exact List.forall_mem_cons.mpr ⟨⟨hp, hv⟩, h⟩
  | reject failure =>
      obtain ⟨before, q, fault, ⟨hsplit, hsound, hfails, hdone⟩, hfailure⟩ := h
      have hq : q ∈ p.positions := by
        rw [hpositions]
        exact List.mem_cons_of_mem p (hsplit.subset (by simp))
      refine ⟨p :: before, q, fault, ⟨?_, ?_, hfails, ?_⟩, hfailure⟩
      · exact List.cons_prefix_cons.mpr ⟨rfl, hsplit⟩
      · exact List.forall_mem_cons.mpr ⟨hp, hsound⟩
      · exact List.forall_mem_cons.mpr ⟨.inl hq, hdone⟩
  | panic text => exact h

theorem append {verdict : Verdict} {front rest : List Position}
    (hf : ∀ p ∈ front, p.IsSound ∧ p.IsAccepted root) (h : verdict.Pinpoints root rest) :
    verdict.Pinpoints root (front ++ rest) := by
  cases verdict with
  | accept => exact List.forall_mem_append.mpr ⟨hf, h⟩
  | reject failure =>
      obtain ⟨before, p, fault, ⟨hsplit, hsound, hfails, hdone⟩, hfailure⟩ := h
      refine ⟨front ++ before, p, fault, ⟨?_, ?_, hfails, ?_⟩, hfailure⟩
      · rw [List.append_assoc]
        exact (List.prefix_append_right_inj front).mpr hsplit
      · exact List.forall_mem_append.mpr ⟨fun q hq => (hf q hq).1, hsound⟩
      · exact List.forall_mem_append.mpr ⟨fun q hq => .inr (hf q hq).2, hdone⟩
  | panic text => exact h

theorem andThen {o : Outcome} {next : Unit → Outcome} {ps qs : List Position}
    (ho : o.verdict.Pinpoints root ps) (hn : (next ()).verdict.Pinpoints root qs) :
    (o.andThen next).verdict.Pinpoints root (ps ++ qs) := by
  rw [Outcome.verdict_andThen]
  generalize o.verdict = verdict at ho
  cases verdict with
  | accept => exact hn.append ho
  | reject failure =>
      obtain ⟨before, p, fault, hfirst, hfailure⟩ := ho
      refine ⟨before, p, fault, { hfirst with split := ?_ }, hfailure⟩
      exact hfirst.split.trans (List.prefix_append ps qs)
  | panic text => exact ho

theorem forEach {check : String → Value → Outcome} {inner : String × Value → List Position}
    (entries : List (String × Value))
    (h : ∀ entry ∈ entries, (check entry.1 entry.2).verdict.Pinpoints root (inner entry)) :
    (Outcome.forEach check entries).verdict.Pinpoints root (entries.flatMap inner) := by
  induction entries with
  | nil => simp [Outcome.forEach, Outcome.accept, Pinpoints]
  | cons entry rest ih =>
      obtain ⟨hentry, hrest⟩ := List.forall_mem_cons.mp h
      exact hentry.andThen (ih hrest)

end Verdict.Pinpoints

/-! ## The position that a run stops at -/

theorem runAlternatives_reject (alternatives : List Checker) (v : Value) (site : Site)
    (failure : Failure) (h : (runAlternatives alternatives v site).verdict = .reject failure) :
    failure = site.failure .noAlternative := by
  induction alternatives with
  | nil => simpa [runAlternatives, Outcome.fault, eq_comm] using h
  | cons c rest ih =>
      rw [runAlternatives, Outcome.verdict_orElse] at h
      cases hv : (c.run (some v) site).verdict with
      | accept => simp [hv] at h
      | reject first => exact ih (by simpa [hv] using h)
      | panic text => simp [hv] at h

/-- A rule that fails a value rejects it with the fault, and otherwise ends as the checks inside the
value. -/
inductive Rule.Ends (rule : Rule) (v : Value) (path : List String) (root : Site) : Prop where
  | fails {fault : Fault} (h : rule.Fails v fault)
      (hr : (rule.run v (root.follow path)).verdict = .reject ((root.follow path).failure fault))
  | enters (h : ∀ fault, ¬ rule.Fails v fault)
      (hr : (rule.run v (root.follow path)).verdict.Pinpoints root (rule.innerPositions path v))

/-- A rule without positions inside the value ends with an acceptance when it does not fail it. -/
theorem Rule.Ends.accepts {rule : Rule} {v : Value} {path : List String} {root : Site}
    (h : ∀ fault, ¬ rule.Fails v fault) (hinner : rule.innerPositions path v = [])
    (hr : (rule.run v (root.follow path)).verdict = .accept) : rule.Ends v path root := by
  refine .enters h ?_
  rw [hr, hinner]
  intro p hp
  cases hp

-- The recursion is that of `Checker.run`. The path says how far it is from the root, so that the
-- context of each call is the root's one followed along the path.
mutual

theorem Rule.run_ends (rule : Rule) (h : rule.isBuiltIn = true) (v : Value) (path : List String)
    (root : Site) : rule.Ends v path root := by
  cases rule with
  | kind expected =>
      by_cases hk : v.kind = expected
      · refine .accepts (fun | _, .kind hne => hne hk) rfl ?_
        simp [Rule.run, hk, Outcome.accept]
      · exact .fails (.kind hk) (by simp [Rule.run, hk, Outcome.fault])
  | any =>
      refine .accepts nofun rfl ?_
      rw [Rule.run, Outcome.accept]
  | arrayOf item =>
      cases v with
      | array items =>
          have hitems : ∀ entry ∈ numberedFrom 0 items,
              (item.run (some entry.2) ((root.follow path).within entry.1)).verdict.Pinpoints root
                (item.positions (path ++ [entry.1]) (some entry.2)) := by
            intro entry _
            rw [Site.within_follow]
            exact item.run_pinpoints h (some entry.2) (path ++ [entry.1]) root
          refine .enters (fun | _, .arrayOf hne => hne rfl) ?_
          rw [Rule.run, Rule.innerPositions, ← flatMap_numberedFrom fun entry =>
            item.positions (path ++ [entry.1]) (some entry.2)]
          exact Verdict.Pinpoints.forEach _ hitems
      | _ => exact .fails (.arrayOf (by simp [Value.kind])) rfl
  | objectOf property =>
      by_cases hk : v.kind = .object
      · have hproperties : ∀ entry ∈ v.own,
            (property.run (some entry.2) ((root.follow path).within entry.1)).verdict.Pinpoints root
              (property.positions (path ++ [entry.1]) (some entry.2)) := by
          intro entry _
          rw [Site.within_follow]
          exact property.run_pinpoints h (some entry.2) (path ++ [entry.1]) root
        refine .enters (fun | _, .objectOf hne => hne hk) ?_
        rw [Rule.run, if_pos hk, v.getD_properties?]
        exact Verdict.Pinpoints.forEach _ hproperties
      · exact .fails (.objectOf hk) (by simp [Rule.run, hk, Outcome.fault])
  | instanceOf type =>
      by_cases ha : type.admits v = true
      · refine .accepts (fun | _, .instanceOf hne => by simp [ha] at hne) rfl ?_
        simp [Rule.run, ha, Outcome.accept]
      · refine .fails (.instanceOf (by simpa using ha)) ?_
        simp [Rule.run, ha, Outcome.fault]
  | oneOf allowed =>
      by_cases ha : allowed.any v.strictEq = true
      · obtain ⟨a, hmem, heq⟩ := List.any_eq_true.mp ha
        refine .accepts (fun | _, .oneOf hne => by simp [hne a hmem] at heq) rfl ?_
        simp only [Rule.run, ha, if_true]
        rfl
      · refine .fails (.oneOf (by simpa using ha)) ?_
        simp only [Rule.run, ha]
        rfl
  | oneOfType alternatives =>
      have hd := runAlternatives_decides alternatives h v (root.follow path)
      by_cases ha : ∃ c ∈ alternatives, Conforms c (some v)
      · obtain ⟨c, hc, hconforms⟩ := ha
        refine .accepts (fun | _, .oneOfType hne => hne c hc hconforms) rfl ?_
        rw [Rule.run]
        exact hd.accept_iff.mpr ⟨c, hc, hconforms⟩
      · obtain ⟨failure, hfailure⟩ := hd.exists_reject ha
        refine .fails (.oneOfType fun c hc hconforms => ha ⟨c, hc, hconforms⟩) ?_
        rw [Rule.run, hfailure, runAlternatives_reject alternatives v _ failure hfailure]
  | shape fields =>
      by_cases hk : v.kind = .object
      · refine .enters (fun | _, .shape hne => hne hk) ?_
        rw [Rule.run, Rule.innerPositions, if_pos hk, if_pos hk]
        exact runFields_pinpoints fields h v path root
      · exact .fails (.shape hk) (by simp [Rule.run, hk, Outcome.fault])
  | custom rule => simp [Rule.isBuiltIn] at h
  | observed label inner => simp [Rule.isBuiltIn] at h

theorem Checker.run_pinpoints (c : Checker) (h : c.isBuiltIn = true) (supplied : Option Value)
    (path : List String) (root : Site) :
    (c.run supplied (root.follow path)).verdict.Pinpoints root (c.positions path supplied) := by
  obtain ⟨rule, isRequired⟩ := c
  rcases isAbsent_or_supplied supplied with ha | ⟨v, rfl, hv⟩
  · rw [Checker.run_of_isAbsent ha, Checker.positions_of_isAbsent ha]
    cases isRequired with
    | true => exact Verdict.Pinpoints.self (.missing ha) []
    | false =>
        refine Verdict.Pinpoints.enclose (Position.isSound_of_isAbsent ha path rule)
          (Checker.positions_of_isAbsent ha rule false path) ?_ nofun
        rw [Checker.run_of_isAbsent ha]
  · rw [Checker.run_some hv, Checker.positions_some hv]
    cases rule.run_ends h v path root with
    | fails hf hr =>
        rw [hr]
        exact Verdict.Pinpoints.self (.rule ((not_isAbsent_some_iff v).mpr hv) hf) _
    | enters hs hr =>
        refine Verdict.Pinpoints.enclose (Position.isSound_some hv hs path isRequired)
          (Checker.positions_some hv rule isRequired path) ?_ hr
        rw [Checker.run_some hv]

theorem runFields_pinpoints (fields : List (String × Option Checker))
    (h : fieldsAreBuiltIn fields = true) (v : Value) (path : List String) (root : Site) :
    (runFields fields v (root.follow path)).verdict.Pinpoints root
      (fieldPositions fields path v) := by
  cases fields with
  | nil => simp [runFields, fieldPositions, Outcome.accept, Verdict.Pinpoints]
  | cons field rest =>
      obtain ⟨name, checker?⟩ := field
      cases checker? with
      | none =>
          rw [runFields, fieldPositions]
          exact runFields_pinpoints rest h v path root
      | some c =>
          simp only [fieldsAreBuiltIn, Bool.and_eq_true] at h
          have hfield := c.run_pinpoints h.1 (v.own.lookup name) (path ++ [name]) root
          have hrest := runFields_pinpoints rest h.2 v path root
          rw [runFields, fieldPositions, Site.within_follow, v.property?_eq_lookup]
          exact hfield.andThen hrest

end

/-- The failure of a rejection is that of the first failing position, named by the last step of its
path, and with the component and the location of the root. -/
theorem reject_at_first_fault (c : Checker) (hc : c.isBuiltIn = true) (supplied : Option Value)
    (root : Site) (failure : Failure) (h : (c.run supplied root).verdict = .reject failure) :
    ∃ before p fault,
      FirstFault root (c.positions [] supplied) before p fault ∧
      failure = fault.failure (p.path.getLastD root.name) root.component root.location.text ∧
      failure.field = some (p.path.getLastD root.name) := by
  have hp := c.run_pinpoints hc supplied [] root
  rw [show root.follow [] = root from rfl, h] at hp
  obtain ⟨before, p, fault, hfirst, rfl⟩ := hp
  exact ⟨before, p, fault, hfirst, rfl, rfl⟩

/-- The label of the second row is missing, and the third row is no object. -/
theorem reject_labelledRows :
    (labelledRows.run (some (.array [.object [("label", .string "a")], .object [],
      .number ⟨0⟩])) ⟨"rows", "Table", .property⟩).verdict =
        .reject (Fault.missing.failure "label" "Table" "prop") ∧
      ∃ before p fault,
        FirstFault ⟨"rows", "Table", .property⟩ (labelledRows.positions [] (some (.array
          [.object [("label", .string "a")], .object [], .number ⟨0⟩]))) before p fault ∧
        Fault.missing.failure "label" "Table" "prop" =
          fault.failure (p.path.getLastD "rows") "Table" "prop" ∧
        (Fault.missing.failure "label" "Table" "prop").field = some (p.path.getLastD "rows") :=
  ⟨rfl, reject_at_first_fault labelledRows rfl _ ⟨"rows", "Table", .property⟩ _ rfl⟩

end AttributeCheck
