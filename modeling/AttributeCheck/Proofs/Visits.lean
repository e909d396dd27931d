import AttributeCheck.Proofs.Supply

/-! # How a check visits a value and calls rules of the host

A check of a value is made of checks inside it, one after the other until one of them stops it. From
this follow the order of all calls, what each of them is given, and how a panic ends the check. -/

namespace AttributeCheck

/-! ## Visits and their parts -/

/-- A checker put to what is supplied, or to its absence, in a naming context. -/
structure Visit where
  checker : Checker
  supplied : Option Value
  site : Site

/-- The visits that a rule asks for, in order: to the items of an array under their positions, to
the properties of an object under their keys, to its declared fields under their names. All of them
keep the component and the location. A union and an observed checker ask for visits to the value
itself, which pass its name on. -/
def Rule.parts : Rule → Value → Site → List Visit
  | .arrayOf item, .array items, site =>
      items.zipIdx.map fun (x, index) =>
        ⟨item, some x, ⟨toString index, site.component, site.location⟩⟩
  | .objectOf property, v, site =>
      v.own.map fun (key, x) => ⟨property, some x, ⟨key, site.component, site.location⟩⟩
  | .shape fields, v, site =>
      if v.kind = .object then
        fields.filterMap fun (name, field) =>
          field.map fun c => ⟨c, v.own.lookup name, ⟨name, site.component, site.location⟩⟩
      else []
  | .oneOfType alternatives, v, site => alternatives.map fun c => ⟨c, some v, site⟩
  | .observed _ inner, v, site => [⟨inner, some v, site⟩]
  | _, _, _ => []

def Verdict.isAcceptance : Verdict → Bool
  | .accept => true
  | _ => false

def Verdict.isRejection : Verdict → Bool
  | .reject _ => true
  | _ => false

/-- Whether the next part is visited after one that ended so: for a union after a rejection, for all
others after an acceptance. -/
def Rule.goesOnAfter : Rule → Verdict → Bool
  | .oneOfType _ => Verdict.isRejection
  | _ => Verdict.isAcceptance

/-- The calls that a rule makes before its parts are visited: one of the host is called itself, and
the use of an observed checker is noted. -/
def Rule.ownCalls : Rule → Value → Site → List Call
  | .custom rule, v, site => [⟨none, site, v, rule v site⟩]
  | .observed label inner, v, site => [⟨some label, site, v, (inner.run (some v) site).verdict⟩]
  | _, _, _ => []

/-- The entries up to the first one that fails the test, which is included. -/
def upToStop {α : Type} (goesOn : α → Bool) : List α → List α
  | [] => []
  | x :: rest => if goesOn x then x :: upToStop goesOn rest else [x]

namespace Visit

def outcome (t : Visit) : Outcome :=
  t.checker.run t.supplied t.site

def verdict (t : Visit) : Verdict :=
  t.outcome.verdict

def calls (t : Visit) : List Call :=
  t.outcome.calls

/-- The value visited, which is never undefined or null. -/
def value? (t : Visit) : Option Value :=
  match t.supplied with
  | none => none
  | some .undefined => none
  | some .null => none
  | some v => some v

/-- All parts that the visit can come to. Nothing is visited in place of an absent value. -/
def parts (t : Visit) : List Visit :=
  match t.value? with
  | some v => t.checker.rule.parts v t.site
  | none => []

def goesOnAfter (t part : Visit) : Bool :=
  t.checker.rule.goesOnAfter part.verdict

/-- The parts that are visited. -/
def made (t : Visit) : List Visit :=
  upToStop t.goesOnAfter t.parts

def ownCalls (t : Visit) : List Call :=
  match t.value? with
  | some v => t.checker.rule.ownCalls v t.site
  | none => []

/-- The visits that one is made of: itself, the parts it visits, their parts, and so on. -/
inductive Makes (root : Visit) : Visit → Prop where
  | itself : Makes root root
  | part {t part : Visit} (h : Makes root t) (hp : part ∈ t.made) : Makes root part

/-- A visit comes to all of its parts, or to the first one that stops it and that it ends like. Its
calls are its own ones and then those of the parts it came to, in their order. -/
inductive Proceeds (t : Visit) : Prop where
  | completes (h : ∀ part ∈ t.parts, t.goesOnAfter part = true) (hm : t.made = t.parts)
      (hc : t.calls = t.ownCalls ++ t.parts.flatMap calls)
  | stops {front rest : List Visit} {last : Visit} (hs : t.parts = front ++ last :: rest)
      (h : ∀ part ∈ front, t.goesOnAfter part = true) (hl : t.goesOnAfter last = false)
      (hm : t.made = front ++ [last])
      (hc : t.calls = t.ownCalls ++ (front ++ [last]).flatMap calls)
      (hv : t.verdict = last.verdict)

/-- Only the last one of the calls can be of a host rule that panics. -/
def SilentAfterPanic (calls : List Call) : Prop :=
  calls.Pairwise fun earlier _ => earlier.label = none → ∀ text, earlier.verdict ≠ .panic text

/-- What holds of the calls of host rules in a check. -/
structure Disciplined (root : Visit) : Prop where
  /-- Each call belongs to a visit, whose value and context it is given. -/
  placed : ∀ call ∈ root.calls, ∃ t, root.Makes t ∧ call ∈ t.ownCalls ∧
    t.supplied = some call.value ∧ t.site = call.site
  supplied : ∀ call ∈ root.calls, call.value ≠ .undefined ∧ call.value ≠ .null
  component : ∀ call ∈ root.calls, call.site.component = root.site.component
  location : ∀ call ∈ root.calls, call.site.location = root.site.location
  proceeds : ∀ t, root.Makes t → t.Proceeds
  panics_iff : ∀ text, root.verdict = .panic text ↔
    ∃ call ∈ root.calls, call.label = none ∧ call.verdict = .panic text
  silent_after_panic : SilentAfterPanic root.calls

end Visit

/-! ## Going through parts -/

/-- Visits parts in order while each lets the next one follow; `ending` is the verdict when all of
them do. -/
def runParts (goesOn : Verdict → Bool) (ending : Verdict) : List Visit → Outcome
  | [] => ⟨ending, []⟩
  | part :: rest =>
      if goesOn part.verdict then (runParts goesOn ending rest).after part.calls else part.outcome

theorem upToStop_cases {α : Type} (goesOn : α → Bool) (xs : List α) :
    ((∀ x ∈ xs, goesOn x = true) ∧ upToStop goesOn xs = xs) ∨
      ∃ front last rest, xs = front ++ last :: rest ∧ (∀ x ∈ front, goesOn x = true) ∧
        goesOn last = false ∧ upToStop goesOn xs = front ++ [last] := by
  induction xs with
  | nil => exact .inl ⟨by simp, rfl⟩
  | cons x xs ih =>
      cases hx : goesOn x with
      | false => exact .inr ⟨[], x, xs, rfl, by simp, hx, by simp [upToStop, hx]⟩
      | true =>
          rcases ih with ⟨hall, heq⟩ | ⟨front, last, rest, hs, hfront, hlast, heq⟩
          · exact .inl ⟨List.forall_mem_cons.mpr ⟨hx, hall⟩, by simp [upToStop, hx, heq]⟩
          · refine .inr ⟨x :: front, last, rest, by rw [hs]; rfl, ?_, hlast, ?_⟩
            · exact List.forall_mem_cons.mpr ⟨hx, hfront⟩
            · simp [upToStop, hx, heq]

theorem pairwise_upToStop {α : Type} (goesOn : α → Bool) (xs : List α) :
    (upToStop goesOn xs).Pairwise fun x _ => goesOn x = true := by
  induction xs with
  | nil => exact .nil
  | cons x xs ih =>
      cases hx : goesOn x with
      | false => simp [upToStop, hx]
      | true => simpa [upToStop, hx] using ih

theorem calls_runParts (goesOn : Verdict → Bool) (ending : Verdict) (parts : List Visit) :
    (runParts goesOn ending parts).calls =
      (upToStop (goesOn ·.verdict) parts).flatMap Visit.calls := by
  induction parts with
  | nil => rfl
  | cons part rest ih =>
      cases hp : goesOn part.verdict with
      | false => simp [runParts, upToStop, hp, Visit.calls]
      | true => simp [runParts, upToStop, hp, Outcome.after, ih]

theorem verdict_runParts_of_completes {goesOn : Verdict → Bool} {parts : List Visit}
    (h : ∀ part ∈ parts, goesOn part.verdict = true) (ending : Verdict) :
    (runParts goesOn ending parts).verdict = ending := by
  induction parts with
  | nil => rfl
  | cons part rest ih =>
      obtain ⟨hp, hrest⟩ := List.forall_mem_cons.mp h
      simpa [runParts, hp, Outcome.after] using ih hrest

theorem verdict_runParts_of_stops {goesOn : Verdict → Bool} {front rest : List Visit}
    {last : Visit} (h : ∀ part ∈ front, goesOn part.verdict = true)
    (hl : goesOn last.verdict = false) (ending : Verdict) :
    (runParts goesOn ending (front ++ last :: rest)).verdict = last.verdict := by
  induction front with
  | nil =>
      rw [List.nil_append, runParts, hl]
      rfl
  | cons part front ih =>
      obtain ⟨hp, hfront⟩ := List.forall_mem_cons.mp h
      simpa [runParts, hp, Outcome.after] using ih hfront

/-! ### Rules go through their parts -/

theorem Outcome.andThen_eq (o : Outcome) (next : Unit → Outcome) :
    o.andThen next = if o.verdict.isAcceptance then (next ()).after o.calls else o := by
  obtain ⟨verdict, calls⟩ := o
  cases verdict <;> rfl

theorem Outcome.orElse_eq (o : Outcome) (next : Unit → Outcome) :
    o.orElse next = if o.verdict.isRejection then (next ()).after o.calls else o := by
  obtain ⟨verdict, calls⟩ := o
  cases verdict <;> rfl

theorem Outcome.andThen_accept (o : Outcome) : (o.andThen fun _ => .accept) = o := by
  obtain ⟨verdict, calls⟩ := o
  cases verdict <;> simp [Outcome.andThen, Outcome.after, Outcome.accept]

theorem runParts_single (part : Visit) :
    runParts Verdict.isAcceptance .accept [part] = part.outcome := by
  rw [← part.outcome.andThen_accept, Outcome.andThen_eq]
  rfl

theorem forEach_eq_runParts {check : String → Value → Outcome} (visit : String × Value → Visit)
    (hv : ∀ entry, (visit entry).outcome = check entry.1 entry.2)
    (entries : List (String × Value)) :
    Outcome.forEach check entries =
      runParts Verdict.isAcceptance .accept (entries.map visit) := by
  induction entries with
  | nil => rfl
  | cons entry rest ih =>
      have ho := hv entry
      obtain ⟨name, value⟩ := entry
      rw [Outcome.forEach, ih, List.map_cons, runParts, Visit.verdict, Visit.calls, ho,
        Outcome.andThen_eq]

theorem runFields_eq_runParts (fields : List (String × Option Checker)) (v : Value) (site : Site) :
    runFields fields v site =
      runParts Verdict.isAcceptance .accept (fields.filterMap fun (name, field) =>
        field.map fun c =>
          ⟨c, v.own.lookup name, ⟨name, site.component, site.location⟩⟩) := by
  induction fields with
  | nil => rw [runFields]; rfl
  | cons field rest ih =>
      obtain ⟨name, checker?⟩ := field
      cases checker? with
      | none => simpa [runFields] using ih
      | some c =>
          rw [runFields, ih, Outcome.andThen_eq, v.property?_eq_lookup]
          rfl

theorem runAlternatives_eq_runParts (alternatives : List Checker) (v : Value) (site : Site) :
    runAlternatives alternatives v site =
      runParts Verdict.isRejection (.reject (site.failure .noAlternative))
        (alternatives.map fun c => ⟨c, some v, site⟩) := by
  induction alternatives with
  | nil => rw [runAlternatives]; rfl
  | cons c rest ih =>
      rw [runAlternatives, ih, Outcome.orElse_eq]
      rfl

theorem Value.own_eq_nil {v : Value} (h : v.kind ≠ .object) : v.own = [] := by
  cases v with
  | object properties => exact absurd rfl h
  | inst cls properties => exact absurd rfl h
  | _ => rfl

/-- A rule makes its own calls and then goes through its parts. When all of them let it go on, it
ends with a panic only if it is one of the host that panics. -/
theorem Rule.run_eq_runParts (rule : Rule) (v : Value) (site : Site) :
    ∃ ending, rule.run v site =
        (runParts rule.goesOnAfter ending (rule.parts v site)).after (rule.ownCalls v site) ∧
      ∀ text, ending = .panic text →
        ∃ call ∈ rule.ownCalls v site, call.label = none ∧ call.verdict = .panic text := by
  cases rule with
  | kind expected =>
      rw [Rule.run]
      split
      · exact ⟨.accept, rfl, by simp⟩
      · exact ⟨.reject _, rfl, by simp⟩
  | any => exact ⟨.accept, rfl, by simp⟩
  | arrayOf item =>
      cases v with
      | array items =>
          rw [Rule.run, numberedFrom_eq_map, forEach_eq_runParts
            (fun entry => ⟨item, some entry.2, ⟨entry.1, site.component, site.location⟩⟩)
            fun _ => rfl, List.map_map]
          exact ⟨.accept, rfl, by simp⟩
      | _ => exact ⟨.reject _, rfl, by simp⟩
  | objectOf property =>
      have hparts : (Rule.objectOf property).parts v site = v.own.map fun entry =>
          ⟨property, some entry.2, ⟨entry.1, site.component, site.location⟩⟩ := rfl
      by_cases hk : v.kind = .object
      · rw [Rule.run, if_pos hk, hparts, v.getD_properties?, forEach_eq_runParts
          (fun entry => ⟨property, some entry.2, ⟨entry.1, site.component, site.location⟩⟩)
          fun _ => rfl]
        exact ⟨.accept, rfl, by simp⟩
      · rw [Rule.run, if_neg hk, hparts, Value.own_eq_nil hk]
        exact ⟨.reject _, rfl, by simp⟩
  | instanceOf type =>
      rw [Rule.run]
      split
      · exact ⟨.accept, rfl, by simp⟩
      · exact ⟨.reject _, rfl, by simp⟩
  | oneOf allowed =>
      rw [Rule.run]
      split
      · exact ⟨.accept, rfl, by simp⟩
      · exact ⟨.reject _, rfl, by simp⟩
  | oneOfType alternatives =>
      rw [Rule.run, runAlternatives_eq_runParts]
      exact ⟨.reject _, rfl, by simp⟩
  | shape fields =>
      rw [Rule.run, Rule.parts, runFields_eq_runParts]
      split
      · exact ⟨.accept, rfl, by simp⟩
      · exact ⟨.reject _, rfl, by simp⟩
  | custom rule =>
      exact ⟨rule v site, rfl, fun text h => ⟨_, List.mem_singleton_self _, rfl, h⟩⟩
  | observed label inner =>
      have hinner := runParts_single ⟨inner, some v, site⟩
      exact ⟨.accept, congrArg (Outcome.after _) hinner.symm, by simp⟩

theorem Rule.of_mem_ownCalls {rule : Rule} {v : Value} {site : Site} {call : Call}
    (h : call ∈ rule.ownCalls v site) :
    call.value = v ∧ call.site = site ∧ call.verdict = (rule.run v site).verdict := by
  cases rule with
  | custom rule =>
      obtain rfl := List.mem_singleton.mp h
      exact ⟨rfl, rfl, rfl⟩
  | observed label inner =>
      obtain rfl := List.mem_singleton.mp h
      exact ⟨rfl, rfl, rfl⟩
  | _ => cases h

theorem Rule.goesOnAfter_panic (rule : Rule) (text : Option String) :
    rule.goesOnAfter (.panic text) = false := by
  cases rule <;> rfl

/-- A part keeps the component and the location, and its checker is one inside the rule. -/
theorem Rule.of_mem_parts {rule : Rule} {v : Value} {site : Site} {part : Visit}
    (h : part ∈ rule.parts v site) :
    (part.site.component = site.component ∧ part.site.location = site.location) ∧
      sizeOf part.checker < sizeOf rule := by
  cases rule with
  | arrayOf item =>
      cases v with
      | array items =>
          obtain ⟨entry, -, rfl⟩ := List.mem_map.mp h
          exact ⟨⟨rfl, rfl⟩, by simp⟩
      | _ => cases h
  | objectOf property =>
      obtain ⟨entry, -, rfl⟩ := List.mem_map.mp h
      exact ⟨⟨rfl, rfl⟩, by simp⟩
  | oneOfType alternatives =>
      obtain ⟨c, hc, rfl⟩ := List.mem_map.mp h
      have hsize := List.sizeOf_lt_of_mem hc
      exact ⟨⟨rfl, rfl⟩, by simp only [oneOfType.sizeOf_spec]; omega⟩
  | shape fields =>
      rw [Rule.parts] at h
      split at h
      · obtain ⟨⟨name, field⟩, hmem, hfield⟩ := List.mem_filterMap.mp h
        obtain ⟨c, rfl, rfl⟩ := Option.map_eq_some_iff.mp hfield
        have hsize := List.sizeOf_lt_of_mem hmem
        simp only [Prod.mk.sizeOf_spec, Option.some.sizeOf_spec] at hsize
        exact ⟨⟨rfl, rfl⟩, by simp only [shape.sizeOf_spec]; omega⟩
      · cases h
  | observed label inner =>
      obtain rfl := List.mem_singleton.mp h
      exact ⟨⟨rfl, rfl⟩, by simp only [observed.sizeOf_spec]; omega⟩
  | _ => cases h

theorem Checker.sizeOf_rule (c : Checker) : sizeOf c.rule < sizeOf c := by
  obtain ⟨rule, isRequired⟩ := c
  simp only [Checker.rule, Checker.mk.sizeOf_spec]
  omega

namespace Visit

/-! ## One visit -/

theorem value?_eq_some {t : Visit} {v : Value} (h : t.value? = some v) :
    t.supplied = some v ∧ v ≠ .undefined ∧ v ≠ .null := by
  rw [value?] at h
  split at h
  · cases h
  · cases h
  · cases h
  · rename_i hundefined hnull hs
    obtain rfl := Option.some.inj h
    exact ⟨hs, fun heq => hundefined heq, fun heq => hnull heq⟩

theorem isAbsent_of_value? {t : Visit} (h : t.value? = none) : IsAbsent t.supplied := by
  rw [value?] at h
  split at h
  · rename_i hs
    exact hs ▸ .none
  · rename_i hs
    exact hs ▸ .undefined
  · rename_i hs
    exact hs ▸ .null
  · cases h

theorem outcome_of_value? {t : Visit} {v : Value} (h : t.value? = some v) :
    t.outcome = t.checker.rule.run v t.site := by
  obtain ⟨⟨rule, isRequired⟩, supplied, site⟩ := t
  obtain ⟨rfl, hv⟩ := value?_eq_some h
  exact Checker.run_some (v.isMissing_eq_false_iff.mpr hv) rule isRequired site

theorem outcome_eq_runParts (t : Visit) :
    ∃ ending, t.outcome = (runParts t.checker.rule.goesOnAfter ending t.parts).after t.ownCalls ∧
      ∀ text, ending = .panic text →
        ∃ call ∈ t.ownCalls, call.label = none ∧ call.verdict = .panic text := by
  cases hv : t.value? with
  | some v =>
      have hr := t.checker.rule.run_eq_runParts v t.site
      rw [outcome_of_value? hv]
      simpa only [parts, ownCalls, hv] using hr
  | none =>
      have ha : IsAbsent t.supplied := isAbsent_of_value? hv
      simp only [parts, ownCalls, hv]
      obtain ⟨⟨rule, isRequired⟩, supplied, site⟩ := t
      rw [outcome, Checker.run_of_isAbsent ha]
      cases isRequired with
      | true => exact ⟨.reject _, rfl, by simp⟩
      | false => exact ⟨.accept, rfl, by simp⟩

theorem calls_eq (t : Visit) : t.calls = t.ownCalls ++ t.made.flatMap calls := by
  obtain ⟨ending, h, -⟩ := t.outcome_eq_runParts
  rw [calls, h, Outcome.after, calls_runParts]
  rfl

theorem proceeds (t : Visit) : t.Proceeds := by
  obtain ⟨ending, h, -⟩ := t.outcome_eq_runParts
  have hc := t.calls_eq
  rcases upToStop_cases t.goesOnAfter t.parts with ⟨hall, hm⟩ | ⟨front, last, rest, hs, hf, hl, hm⟩
  · rw [made, hm] at hc
    exact .completes hall hm hc
  · rw [made, hm] at hc
    refine .stops hs hf hl hm hc ?_
    rw [verdict, h, hs]
    exact verdict_runParts_of_stops hf hl ending

theorem of_mem_ownCalls {t : Visit} {call : Call} (h : call ∈ t.ownCalls) :
    t.value? = some call.value ∧ call.site = t.site ∧ call.verdict = t.verdict := by
  cases hv : t.value? with
  | none => simp [ownCalls, hv] at h
  | some v =>
      simp only [ownCalls, hv] at h
      obtain ⟨rfl, hs, hverdict⟩ := Rule.of_mem_ownCalls h
      rw [verdict, outcome_of_value? hv]
      exact ⟨rfl, hs, hverdict⟩

theorem mem_parts_of_mem_made {t part : Visit} (h : part ∈ t.made) : part ∈ t.parts := by
  rcases upToStop_cases t.goesOnAfter t.parts with ⟨-, hm⟩ | ⟨front, last, rest, hs, -, -, hm⟩
  · rwa [made, hm] at h
  · rw [made, hm] at h
    rw [hs]
    simp only [List.mem_append, List.mem_cons, List.not_mem_nil, or_false] at h ⊢
    exact h.imp_right .inl

theorem of_mem_made {t part : Visit} (h : part ∈ t.made) :
    (part.site.component = t.site.component ∧ part.site.location = t.site.location) ∧
      sizeOf part.checker < sizeOf t.checker := by
  have hpart := mem_parts_of_mem_made h
  cases hv : t.value? with
  | none => simp [parts, hv] at hpart
  | some v =>
      simp only [parts, hv] at hpart
      obtain ⟨hsite, hsize⟩ := Rule.of_mem_parts hpart
      exact ⟨hsite, Nat.lt_trans hsize t.checker.sizeOf_rule⟩

/-! ## All visits of a check -/

/-- What a visit gets from the parts it comes to, all visits have. -/
theorem induction {P : Visit → Prop} (step : ∀ t, (∀ part ∈ t.made, P part) → P t) (t : Visit) :
    P t := by
  induction hn : sizeOf t.checker using Nat.strongRecOn generalizing t with
  | ind n ih =>
      refine step t fun part hpart => ih _ ?_ part rfl
      rw [← hn]
      exact (of_mem_made hpart).2

theorem Makes.of_part {t part u : Visit} (hp : part ∈ t.made) (h : part.Makes u) : t.Makes u := by
  induction h with
  | itself => exact .part .itself hp
  | part _ hu ih => exact .part ih hu

theorem Makes.component_eq {root t : Visit} (h : root.Makes t) :
    t.site.component = root.site.component := by
  induction h with
  | itself => rfl
  | part _ hp ih => exact (of_mem_made hp).1.1.trans ih

theorem Makes.location_eq {root t : Visit} (h : root.Makes t) :
    t.site.location = root.site.location := by
  induction h with
  | itself => rfl
  | part _ hp ih => exact (of_mem_made hp).1.2.trans ih

theorem exists_visit_of_mem_calls (root : Visit) :
    ∀ call ∈ root.calls, ∃ t, root.Makes t ∧ call ∈ t.ownCalls := by
  induction root using induction with
  | step root ih =>
      intro call hcall
      rw [calls_eq, List.mem_append, List.mem_flatMap] at hcall
      rcases hcall with hown | ⟨part, hpart, hcall⟩
      · exact ⟨root, .itself, hown⟩
      · obtain ⟨t, ht, hown⟩ := ih part hpart call hcall
        exact ⟨t, ht.of_part hpart, hown⟩

/-! ### Panics -/

theorem goesOnAfter_eq_false {t part : Visit} {text : Option String}
    (h : part.verdict = .panic text) : t.goesOnAfter part = false := by
  rw [goesOnAfter, h, Rule.goesOnAfter_panic]

/-- A part that panics is the last one, and the visit ends like it. -/
theorem verdict_of_part_panics {t part : Visit} {text : Option String} (hp : part ∈ t.made)
    (h : part.verdict = .panic text) : t.verdict = .panic text := by
  have hstop : t.goesOnAfter part = false := goesOnAfter_eq_false h
  cases t.proceeds with
  | completes hall hm _ =>
      rw [hm] at hp
      simp [hall part hp] at hstop
  | stops _ hfront _ hm _ hv =>
      rw [hm, List.mem_append, List.mem_singleton] at hp
      rcases hp with hp | rfl
      · simp [hfront part hp] at hstop
      · rw [hv, h]

/-- A visit panics for one of its own calls or for a part. -/
theorem of_verdict_panics {t : Visit} {text : Option String} (h : t.verdict = .panic text) :
    (∃ call ∈ t.ownCalls, call.label = none ∧ call.verdict = .panic text) ∨
      ∃ part ∈ t.made, part.verdict = .panic text := by
  obtain ⟨ending, ho, hending⟩ := t.outcome_eq_runParts
  cases t.proceeds with
  | completes hall hm _ =>
      have hv : t.verdict = ending := by
        rw [verdict, ho]
        exact verdict_runParts_of_completes hall ending
      exact .inl (hending text (hv ▸ h))
  | @stops front rest last _ _ _ hm _ hv =>
      exact .inr ⟨last, by simp [hm], by rw [← hv, h]⟩

theorem verdict_panics_iff (t : Visit) (text : Option String) :
    t.verdict = .panic text ↔
      ∃ call ∈ t.calls, call.label = none ∧ call.verdict = .panic text := by
  induction t using induction with
  | step t ih =>
      rw [calls_eq]
      constructor
      · intro h
        rcases of_verdict_panics h with ⟨call, hcall, hpanic⟩ | ⟨part, hpart, hpanic⟩
        · exact ⟨call, List.mem_append_left _ hcall, hpanic⟩
        · obtain ⟨call, hcall, hpanic⟩ := (ih part hpart).mp hpanic
          exact ⟨call, List.mem_append_right _ (List.mem_flatMap.mpr ⟨part, hpart, hcall⟩), hpanic⟩
      · rintro ⟨call, hcall, hlabel, hpanic⟩
        rw [List.mem_append, List.mem_flatMap] at hcall
        rcases hcall with hown | ⟨part, hpart, hcall⟩
        · rw [← (of_mem_ownCalls hown).2.2, hpanic]
        · exact verdict_of_part_panics hpart ((ih part hpart).mpr ⟨call, hcall, hlabel, hpanic⟩)

theorem silentAfterPanic_ownCalls (t : Visit) : SilentAfterPanic t.ownCalls := by
  have hrule (v : Value) : SilentAfterPanic (t.checker.rule.ownCalls v t.site) := by
    cases t.checker.rule with
    | custom rule => exact List.pairwise_singleton _ _
    | observed label inner => exact List.pairwise_singleton _ _
    | _ => exact .nil
  cases hv : t.value? with
  | none =>
      rw [ownCalls, hv]
      exact .nil
  | some v => simpa only [ownCalls, hv] using hrule v

/-- A rule of the host has no parts. -/
theorem made_of_host_call {t : Visit} {call : Call} (h : call ∈ t.ownCalls)
    (hl : call.label = none) : t.made = [] := by
  have hrule (v : Value) (hown : call ∈ t.checker.rule.ownCalls v t.site) :
      t.checker.rule.parts v t.site = [] := by
    cases hr : t.checker.rule with
    | custom rule => rfl
    | observed label inner =>
        rw [hr] at hown
        obtain rfl := List.mem_singleton.mp hown
        cases hl
    | _ =>
        rw [hr] at hown
        cases hown
  cases hv : t.value? with
  | none => simp [ownCalls, hv] at h
  | some v =>
      simp only [ownCalls, hv] at h
      simp only [made, parts, hv, hrule v h, upToStop]

theorem silentAfterPanic_calls (t : Visit) : SilentAfterPanic t.calls := by
  induction t using induction with
  | step t ih =>
      rw [calls_eq]
      refine List.pairwise_append.mpr ⟨t.silentAfterPanic_ownCalls, ?_, ?_⟩
      · refine List.pairwise_flatMap.mpr ⟨ih, ?_⟩
        -- A part that is followed by another one does not panic, so none of its calls does.
        refine (pairwise_upToStop t.goesOnAfter t.parts).imp fun {part _} hgoes => ?_
        intro call hcall _ _ hlabel text hpanic
        have hpart : part.verdict = .panic text :=
          (part.verdict_panics_iff text).mpr ⟨call, hcall, hlabel, hpanic⟩
        simp [goesOnAfter_eq_false hpart] at hgoes
      · intro call hown later hlater hl
        simp [made_of_host_call hown hl] at hlater

/-! ## The discipline of calls -/

theorem disciplined (root : Visit) : root.Disciplined where
  placed call hcall := by
    obtain ⟨t, ht, hown⟩ := root.exists_visit_of_mem_calls call hcall
    obtain ⟨hvalue, hsite, -⟩ := of_mem_ownCalls hown
    exact ⟨t, ht, hown, (value?_eq_some hvalue).1, hsite.symm⟩
  supplied call hcall := by
    obtain ⟨t, -, hown⟩ := root.exists_visit_of_mem_calls call hcall
    exact (value?_eq_some (of_mem_ownCalls hown).1).2
  component call hcall := by
    obtain ⟨t, ht, hown⟩ := root.exists_visit_of_mem_calls call hcall
    rw [(of_mem_ownCalls hown).2.1, ht.component_eq]
  location call hcall := by
    obtain ⟨t, ht, hown⟩ := root.exists_visit_of_mem_calls call hcall
    rw [(of_mem_ownCalls hown).2.1, ht.location_eq]
  proceeds t _ := t.proceeds
  panics_iff := root.verdict_panics_iff
  silent_after_panic := root.silentAfterPanic_calls

end Visit

/-- In a check of an attribute, rules of the host are called in order and in their context, nothing
follows what stops a container or a union, and a panic ends the check. -/
theorem check_disciplined (c : Checker) (bag : Entries String Value) (name : String)
    (component : Option String) (location : Location) :
    let root : Visit := ⟨c, bag.lookup name, ⟨name, shownComponent component, location⟩⟩
    c.check bag name component location = root.outcome ∧ root.Disciplined := by
  intro root
  refine ⟨?_, root.disciplined⟩
  rw [Checker.check, Entries.get?_eq_lookup, displayName_eq_shownComponent]
  rfl

/-- The second alternative would accept the value, but the panic of the first one ends the check. -/
example : let rules : Checker := .oneOfType [.custom fun _ _ => .panic none, .any]
    (rules.check [("size", .bool true)] "size" none .property).verdict = .panic none :=
  rfl

end AttributeCheck
