import AttributeCheck.Proofs.FirstFault
import AttributeCheck.Proofs.Loosening
import AttributeCheck.Proofs.Visits

/-! # Unions can be rewritten in place

A union accepts a supplied value if one of its alternatives does, and rejects it without a word on
the alternatives. So their order, their modes, repetitions and unions among them show nowhere. What
does the same in place of a part of a checker does the same for the whole. -/

namespace AttributeCheck

/-! ## Rewriting one union -/

/-- The ways to rewrite a union. Its own mode stays. -/
inductive RewritesUnion : Checker → Checker → Prop where
  | permute {alternatives others : List Checker} {isRequired : Bool}
      (h : alternatives.Perm others) :
      RewritesUnion (.mk (.oneOfType alternatives) isRequired) (.mk (.oneOfType others) isRequired)
  | duplicate {front rest : List Checker} {c : Checker} {isRequired : Bool} :
      RewritesUnion (.mk (.oneOfType (front ++ c :: rest)) isRequired)
        (.mk (.oneOfType (front ++ c :: c :: rest)) isRequired)
  /-- The alternatives of a union among the alternatives, in either mode, take its place. -/
  | splice {front inner rest : List Checker} {mode isRequired : Bool} :
      RewritesUnion (.mk (.oneOfType (front ++ .mk (.oneOfType inner) mode :: rest)) isRequired)
        (.mk (.oneOfType (front ++ inner ++ rest)) isRequired)
  | switch {front rest : List Checker} {rule : Rule} {mode other isRequired : Bool} :
      RewritesUnion (.mk (.oneOfType (front ++ .mk rule mode :: rest)) isRequired)
        (.mk (.oneOfType (front ++ .mk rule other :: rest)) isRequired)

/-- Unions of a checker are rewritten, at any depth and in both directions, one after the other. -/
abbrev RewritesUnions : Checker → Checker → Prop :=
  Relation.EqvGen (Checker.Anywhere RewritesUnion)

/-! ## Checkers without rules of the host make no calls -/

theorem areBuiltIn_eq_all (alternatives : List Checker) :
    areBuiltIn alternatives = alternatives.all Checker.isBuiltIn := by
  induction alternatives with
  | nil => rfl
  | cons c rest ih => simp [areBuiltIn, ih]

theorem fieldsAreBuiltIn_eq_all (fields : List (String × Option Checker)) :
    fieldsAreBuiltIn fields = fields.all fun field => field.2.all Checker.isBuiltIn := by
  induction fields with
  | nil => rfl
  | cons field rest ih =>
      obtain ⟨name, checker?⟩ := field
      cases checker? <;> simp [fieldsAreBuiltIn, ih]

theorem Rule.isBuiltIn_of_mem_parts {rule : Rule} (h : rule.isBuiltIn = true) {v : Value}
    {site : Site} {part : Visit} (hp : part ∈ rule.parts v site) :
    part.checker.isBuiltIn = true := by
  cases rule with
  | arrayOf item =>
      cases v with
      | array items =>
          obtain ⟨entry, -, rfl⟩ := List.mem_map.mp hp
          exact h
      | _ => cases hp
  | objectOf property =>
      obtain ⟨entry, -, rfl⟩ := List.mem_map.mp hp
      exact h
  | oneOfType alternatives =>
      obtain ⟨c, hc, rfl⟩ := List.mem_map.mp hp
      exact (areBuiltIn_iff alternatives).mp h c hc
  | shape fields =>
      rw [Rule.parts] at hp
      split at hp
      · obtain ⟨⟨name, field⟩, hmem, hfield⟩ := List.mem_filterMap.mp hp
        obtain ⟨c, rfl, rfl⟩ := Option.map_eq_some_iff.mp hfield
        exact (fieldsAreBuiltIn_iff fields).mp h name c hmem
      · cases hp
  | observed label inner => cases h
  | _ => cases hp

theorem Visit.calls_of_isBuiltIn (t : Visit) (h : t.checker.isBuiltIn = true) : t.calls = [] := by
  induction t using Visit.induction with
  | step t ih =>
      obtain ⟨⟨rule, isRequired⟩, supplied, site⟩ := t
      have hmade : ∀ part ∈ Visit.made ⟨.mk rule isRequired, supplied, site⟩, part.calls = [] := by
        intro part hpart
        apply ih part hpart
        have hmem := Visit.mem_parts_of_mem_made hpart
        cases hv : Visit.value? ⟨.mk rule isRequired, supplied, site⟩ with
        | none => simp [Visit.parts, hv] at hmem
        | some v =>
            simp only [Visit.parts, hv] at hmem
            exact Rule.isBuiltIn_of_mem_parts h hmem
      have hown (v : Value) : rule.ownCalls v site = [] := by
        cases rule <;> first | rfl | cases h
      rw [Visit.calls_eq, List.flatMap_eq_nil_iff.mpr hmade, Visit.ownCalls]
      split <;> simp [Checker.rule, hown]

theorem Checker.calls_run {c : Checker} (h : c.isBuiltIn = true) (supplied : Option Value)
    (site : Site) : (c.run supplied site).calls = [] :=
  Visit.calls_of_isBuiltIn ⟨c, supplied, site⟩ h

/-! ## Replacing parts that do the same -/

/-- One checker can stand for the other: if one has no rules of the host, neither has the other, and
then both do the same, with whatever they are supplied. -/
structure Checker.Interchangeable (c d : Checker) : Prop where
  isBuiltIn_eq : c.isBuiltIn = d.isBuiltIn
  run_eq : c.isBuiltIn = true → ∀ supplied site, c.run supplied site = d.run supplied site

theorem Checker.run_congr {rule other : Rule}
    (h : ∀ v, v.isMissing = false → ∀ site, rule.run v site = other.run v site) (isRequired : Bool)
    (supplied : Option Value) (site : Site) :
    (mk rule isRequired).run supplied site = (mk other isRequired).run supplied site := by
  rcases isAbsent_or_supplied supplied with ha | ⟨v, rfl, hv⟩
  · rw [run_of_isAbsent ha, run_of_isAbsent ha]
  · rw [run_some hv, run_some hv]
    exact h v hv site

theorem run_arrayOf_congr {c d : Checker}
    (h : ∀ supplied site, c.run supplied site = d.run supplied site) (v : Value) (site : Site) :
    (Rule.arrayOf c).run v site = (Rule.arrayOf d).run v site := by
  cases v <;> simp only [Rule.run, h]

theorem runAlternatives_congr {c d : Checker} {v : Value} {site : Site}
    (h : c.run (some v) site = d.run (some v) site) (front rest : List Checker) :
    runAlternatives (front ++ c :: rest) v site = runAlternatives (front ++ d :: rest) v site := by
  induction front with
  | nil => simp only [List.nil_append, runAlternatives, h]
  | cons first front ih => simp only [List.cons_append, runAlternatives, ih]

theorem runFields_congr {c d : Checker} {v : Value} {site : Site} {name : String}
    (h : c.run (v.property? name) (site.within name) = d.run (v.property? name) (site.within name))
    (front rest : List (String × Option Checker)) :
    runFields (front ++ (name, some c) :: rest) v site =
      runFields (front ++ (name, some d) :: rest) v site := by
  induction front with
  | nil => simp only [List.nil_append, runFields, h]
  | cons field front ih =>
      obtain ⟨first, checker?⟩ := field
      cases checker? <;> simp only [List.cons_append, runFields, ih]

namespace Checker.Interchangeable

variable {c d e : Checker}

theorem refl (c : Checker) : Interchangeable c c :=
  ⟨rfl, fun _ _ _ => rfl⟩

theorem symm (h : Interchangeable c d) : Interchangeable d c where
  isBuiltIn_eq := h.isBuiltIn_eq.symm
  run_eq hd supplied site := (h.run_eq (h.isBuiltIn_eq.trans hd) supplied site).symm

theorem trans (h : Interchangeable c d) (k : Interchangeable d e) : Interchangeable c e where
  isBuiltIn_eq := h.isBuiltIn_eq.trans k.isBuiltIn_eq
  run_eq hc supplied site := by
    have hd : d.isBuiltIn = true := h.isBuiltIn_eq ▸ hc
    rw [h.run_eq hc, k.run_eq hd]

/-- A part can be replaced at any depth. -/
theorem anywhere {S : Checker → Checker → Prop} (hS : ∀ {c d}, S c d → Interchangeable c d)
    (h : Anywhere S c d) : Interchangeable c d := by
  induction h with
  | here h => exact hS h
  | item _ ih =>
      refine ⟨ih.isBuiltIn_eq, fun hc => ?_⟩
      apply run_congr
      intro v _ site
      exact run_arrayOf_congr (ih.run_eq hc) v site
  | property _ ih =>
      refine ⟨ih.isBuiltIn_eq, fun hc => ?_⟩
      apply run_congr
      intro v _ site
      simp only [Rule.run, ih.run_eq hc]
  | @alternative c d front rest isRequired _ ih =>
      constructor
      · simp [isBuiltIn, Rule.isBuiltIn, areBuiltIn_eq_all, ih.isBuiltIn_eq]
      · intro hall
        have hc : c.isBuiltIn = true := (areBuiltIn_iff _).mp hall c (by simp)
        apply run_congr
        intro v _ site
        rw [Rule.run, Rule.run]
        exact runAlternatives_congr (ih.run_eq hc (some v) site) front rest
  | @field c d front rest name isRequired _ ih =>
      constructor
      · simp [isBuiltIn, Rule.isBuiltIn, fieldsAreBuiltIn_eq_all, ih.isBuiltIn_eq]
      · intro hall
        have hc : c.isBuiltIn = true := (fieldsAreBuiltIn_iff _).mp hall name c (by simp)
        apply run_congr
        intro v _ site
        rw [Rule.run, Rule.run, runFields_congr (ih.run_eq hc _ _) front rest]

end Checker.Interchangeable

/-! ## The alternatives of a union -/

/-- Alternatives that leave a supplied value the same choice. -/
structure SameChoice (alternatives others : List Checker) : Prop where
  areBuiltIn_eq : areBuiltIn alternatives = areBuiltIn others
  conforms_iff : ∀ v, v.isMissing = false →
    ((∃ c ∈ alternatives, Conforms c (some v)) ↔ ∃ c ∈ others, Conforms c (some v))

theorem exists_conforms_append (v : Value) (front rest : List Checker) :
    (∃ c ∈ front ++ rest, Conforms c (some v)) ↔
      (∃ c ∈ front, Conforms c (some v)) ∨ ∃ c ∈ rest, Conforms c (some v) := by
  simp only [List.mem_append, or_and_right, exists_or]

section

variable {alternatives : List Checker} {v : Value}

theorem calls_runAlternatives (hb : areBuiltIn alternatives = true) (hv : v.isMissing = false)
    (site : Site) : (runAlternatives alternatives v site).calls = [] := by
  have hcalls := Checker.calls_run (c := .oneOfType alternatives) hb (some v) site
  rwa [Checker.oneOfType, Checker.ofRule, Checker.run_some hv, Rule.run] at hcalls

theorem runAlternatives_of_conforms (hb : areBuiltIn alternatives = true)
    (hv : v.isMissing = false) (h : ∃ c ∈ alternatives, Conforms c (some v)) (site : Site) :
    runAlternatives alternatives v site = .accept := by
  have hcalls := calls_runAlternatives hb hv site
  have hverdict := (runAlternatives_decides alternatives hb v site).accept_iff.mpr h
  cases ho : runAlternatives alternatives v site
  simp_all [Outcome.accept]

theorem runAlternatives_of_not_conforms (hb : areBuiltIn alternatives = true)
    (hv : v.isMissing = false) (h : ¬ ∃ c ∈ alternatives, Conforms c (some v)) (site : Site) :
    runAlternatives alternatives v site = .fault site .noAlternative := by
  have hcalls := calls_runAlternatives hb hv site
  obtain ⟨failure, hverdict⟩ :=
    (runAlternatives_decides alternatives hb v site).exists_reject h
  have hfailure := runAlternatives_reject alternatives v site failure hverdict
  cases ho : runAlternatives alternatives v site
  simp_all [Outcome.fault]

end

namespace SameChoice

theorem interchangeable {alternatives others : List Checker} (h : SameChoice alternatives others)
    (isRequired : Bool) :
    Checker.Interchangeable (.mk (.oneOfType alternatives) isRequired)
      (.mk (.oneOfType others) isRequired) := by
  refine ⟨h.areBuiltIn_eq, fun hb => ?_⟩
  have hbuiltIn : areBuiltIn others = true := h.areBuiltIn_eq ▸ hb
  apply Checker.run_congr
  intro v hv site
  rw [Rule.run, Rule.run]
  by_cases hc : ∃ c ∈ alternatives, Conforms c (some v)
  · have ho := (h.conforms_iff v hv).mp hc
    rw [runAlternatives_of_conforms hb hv hc, runAlternatives_of_conforms hbuiltIn hv ho]
  · have ho := mt (h.conforms_iff v hv).mpr hc
    rw [runAlternatives_of_not_conforms hb hv hc, runAlternatives_of_not_conforms hbuiltIn hv ho]

theorem of_perm {alternatives others : List Checker} (h : alternatives.Perm others) :
    SameChoice alternatives others where
  areBuiltIn_eq := by
    rw [areBuiltIn_eq_all, areBuiltIn_eq_all]
    exact h.all_eq
  conforms_iff v _ := by simp only [h.mem_iff]

/-- Parts of two lists of alternatives that leave the same choice stand among others. -/
theorem within {inner others : List Checker} (h : SameChoice inner others)
    (front rest : List Checker) :
    SameChoice (front ++ (inner ++ rest)) (front ++ (others ++ rest)) where
  areBuiltIn_eq := by
    have hinner := h.areBuiltIn_eq
    simp only [areBuiltIn_eq_all] at hinner ⊢
    simp only [List.all_append, hinner]
  conforms_iff v hv := by
    simp only [exists_conforms_append, h.conforms_iff v hv]

theorem twice (c : Checker) : SameChoice [c] [c, c] where
  areBuiltIn_eq := by simp [areBuiltIn]
  conforms_iff v _ := by simp

theorem spliced (inner : List Checker) (mode : Bool) :
    SameChoice [.mk (.oneOfType inner) mode] inner where
  areBuiltIn_eq := by simp [areBuiltIn, Checker.isBuiltIn, Rule.isBuiltIn]
  conforms_iff v hv := by simp [conforms_some_iff hv, meets_oneOfType_iff]

theorem switched (rule : Rule) (mode other : Bool) :
    SameChoice [.mk rule mode] [.mk rule other] where
  areBuiltIn_eq := rfl
  conforms_iff v hv := by simp [conforms_some_iff hv]

end SameChoice

theorem RewritesUnion.interchangeable {c d : Checker} (h : RewritesUnion c d) :
    c.Interchangeable d := by
  cases h with
  | permute h => exact (SameChoice.of_perm h).interchangeable _
  | @duplicate front rest c => exact ((SameChoice.twice c).within front rest).interchangeable _
  | @splice front inner rest mode =>
      have h := ((SameChoice.spliced inner mode).within front rest).interchangeable
      simpa using h _
  | @switch front rest rule mode other =>
      exact ((SameChoice.switched rule mode other).within front rest).interchangeable _

theorem RewritesUnions.interchangeable {c d : Checker} (h : RewritesUnions c d) :
    c.Interchangeable d := by
  induction h with
  | rel c d hstep => exact .anywhere RewritesUnion.interchangeable hstep
  | refl c => exact .refl c
  | symm c d _ ih => exact ih.symm
  | trans c d e _ _ ih ih' => exact ih.trans ih'

/-- Rewriting the unions of a checker without rules of the host, wherever they are, changes nothing
in any check of an attribute. -/
theorem check_of_rewritesUnions {c d : Checker} (hc : c.isBuiltIn = true) (h : RewritesUnions c d)
    (bag : Entries String Value) (name : String) (component : Option String)
    (location : Location) :
    d.isBuiltIn = true ∧
      c.check bag name component location = d.check bag name component location := by
  have hcd := h.interchangeable
  exact ⟨hcd.isBuiltIn_eq ▸ hc, hcd.run_eq hc _ _⟩

/-- Rows with a size. -/
def sizeRows (size : Checker) : Checker :=
  .arrayOf (.mk (.shape [("size", some size)]) true)

/-- The union inside is spliced, a number need not be required, and then the order changes and a
flag is listed twice. In the second row the size is none of them. -/
theorem check_of_rewritesUnions_sizes :
    let nested := sizeRows (.oneOfType [.required .number, .required (.oneOfType [.string, .bool])])
    let flat := sizeRows (.oneOfType [.bool, .bool, .number, .string])
    let bag : Entries String Value :=
      [("rows", .array [.object [("size", .null)], .object [("size", .array [])]])]
    nested.isBuiltIn = true ∧ RewritesUnions nested flat ∧
      (nested.check bag "rows" none .context).verdict =
        .reject (Fault.noAlternative.failure "size" anonymousName "context") ∧
      nested.check bag "rows" none .context = flat.check bag "rows" none .context := by
  intro nested flat bag
  have inRows {c d : Checker} (h : RewritesUnion c d) :
      RewritesUnions (sizeRows c) (sizeRows d) :=
    .rel _ _ (.item (@Checker.Anywhere.field _ c d [] [] "size" true (.here h)))
  have hspliced : RewritesUnions nested
      (sizeRows (.oneOfType [.required .number, .string, .bool])) :=
    inRows (@RewritesUnion.splice [.required .number] [.string, .bool] [] true false)
  have hswitched : RewritesUnions (sizeRows (.oneOfType [.required .number, .string, .bool]))
      (sizeRows (.oneOfType [.number, .string, .bool])) :=
    inRows (@RewritesUnion.switch [] [.string, .bool] (.kind .number) true false false)
  have hpermuted : RewritesUnions (sizeRows (.oneOfType [.number, .string, .bool]))
      (sizeRows (.oneOfType [.bool, .number, .string])) :=
    inRows (.permute (@List.perm_append_comm Checker [.number, .string] [.bool]))
  have hdoubled : RewritesUnions (sizeRows (.oneOfType [.bool, .number, .string])) flat :=
    inRows (@RewritesUnion.duplicate [] [.number, .string] .bool false)
  have h : RewritesUnions nested flat :=
    .trans _ _ _ hspliced (.trans _ _ _ hswitched (.trans _ _ _ hpermuted hdoubled))
  exact ⟨rfl, h, rfl, (check_of_rewritesUnions rfl h bag "rows" none .context).2⟩

/-- Where a union is put to a null that no wrapper has taken, the mode of an alternative shows. -/
example (site : Site) :
    (Rule.oneOfType [.number]).run .null site = .accept ∧
      (Rule.oneOfType [.required .number]).run .null site = .fault site .noAlternative :=
  ⟨rfl, rfl⟩

end AttributeCheck
