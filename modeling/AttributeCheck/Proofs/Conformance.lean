import AttributeCheck.Proofs.Supply

/-! # Checkers decide conformance

`Conforms` says which values a checker asks for, without an order of checks, early exits or
messages. A checker without rules of the host accepts exactly those values, rejects all others, and
never panics. -/

namespace AttributeCheck

/-! ## Checkers without rules of the host -/

mutual

def Rule.isBuiltIn : Rule → Bool
  | .kind _ => true
  | .any => true
  | .arrayOf item => item.isBuiltIn
  | .objectOf property => property.isBuiltIn
  | .instanceOf _ => true
  | .oneOf _ => true
  | .oneOfType alternatives => areBuiltIn alternatives
  | .shape fields => fieldsAreBuiltIn fields
  | .custom _ => false
  | .observed _ _ => false

def Checker.isBuiltIn : Checker → Bool
  | .mk rule _ => rule.isBuiltIn

def areBuiltIn : List Checker → Bool
  | [] => true
  | c :: rest => c.isBuiltIn && areBuiltIn rest

def fieldsAreBuiltIn : List (String × Option Checker) → Bool
  | [] => true
  | (_, none) :: rest => fieldsAreBuiltIn rest
  | (_, some c) :: rest => c.isBuiltIn && fieldsAreBuiltIn rest

end

/-! ## Conformance -/

mutual

/-- What is supplied, or its absence, is as a checker asks. -/
inductive Conforms : Checker → Option Value → Prop where
  | absent {rule : Rule} {supplied : Option Value} (h : IsAbsent supplied) :
      Conforms (.mk rule false) supplied
  | supplied {rule : Rule} {isRequired : Bool} {v : Value} (hv : ¬ IsAbsent (some v))
      (h : Meets rule v) : Conforms (.mk rule isRequired) (some v)

/-- A value that is neither null nor undefined is as a rule asks. -/
inductive Meets : Rule → Value → Prop where
  | kind {expected : Kind} {v : Value} (h : v.kind = expected) : Meets (.kind expected) v
  | any {v : Value} : Meets .any v
  | arrayOf {item : Checker} {items : List Value} (h : ∀ x ∈ items, Conforms item (some x)) :
      Meets (.arrayOf item) (.array items)
  /-- Dates and patterns are objects without properties. -/
  | objectOf {property : Checker} {v : Value} (hk : v.kind = .object)
      (h : ∀ entry ∈ v.own, Conforms property (some entry.2)) : Meets (.objectOf property) v
  | instanceOf {type : Descriptor} {v : Value} (h : type.admits v = true) :
      Meets (.instanceOf type) v
  | oneOf {allowed : List Value} {a v : Value} (ha : a ∈ allowed) (h : v.strictEq a = true) :
      Meets (.oneOf allowed) v
  | oneOfType {alternatives : List Checker} {c : Checker} {v : Value} (hc : c ∈ alternatives)
      (h : Conforms c (some v)) : Meets (.oneOfType alternatives) v
  | shape {fields : List (String × Option Checker)} {v : Value} (hk : v.kind = .object)
      (h : ∀ name c, (name, some c) ∈ fields → Conforms c (v.own.lookup name)) :
      Meets (.shape fields) v

end

theorem conforms_iff_of_isAbsent {supplied : Option Value} (h : IsAbsent supplied) (rule : Rule)
    (isRequired : Bool) : Conforms (.mk rule isRequired) supplied ↔ isRequired = false := by
  constructor
  · intro hc
    cases hc with
    | absent => rfl
    | supplied hv => exact absurd h hv
  · rintro rfl
    exact .absent h

theorem conforms_some_iff {v : Value} (hv : v.isMissing = false) (rule : Rule)
    (isRequired : Bool) : Conforms (.mk rule isRequired) (some v) ↔ Meets rule v := by
  constructor
  · intro hc
    cases hc with
    | absent h => exact absurd h ((not_isAbsent_some_iff v).mpr hv)
    | supplied _ h => exact h
  · exact .supplied ((not_isAbsent_some_iff v).mpr hv)

theorem meets_arrayOf_iff (item : Checker) (items : List Value) :
    Meets (.arrayOf item) (.array items) ↔ ∀ x ∈ items, Conforms item (some x) :=
  ⟨fun | .arrayOf h => h, .arrayOf⟩

theorem not_meets_arrayOf {v : Value} (h : ∀ items, v ≠ .array items) (item : Checker) :
    ¬ Meets (.arrayOf item) v
  | .arrayOf _ => h _ rfl

theorem meets_objectOf_iff {v : Value} (hk : v.kind = .object) (property : Checker) :
    Meets (.objectOf property) v ↔ ∀ entry ∈ v.own, Conforms property (some entry.2) :=
  ⟨fun | .objectOf _ h => h, .objectOf hk⟩

theorem not_meets_objectOf {v : Value} (hk : v.kind ≠ .object) (property : Checker) :
    ¬ Meets (.objectOf property) v
  | .objectOf h _ => hk h

theorem meets_oneOf_iff (allowed : List Value) (v : Value) :
    Meets (.oneOf allowed) v ↔ allowed.any v.strictEq = true := by
  rw [List.any_eq_true]
  exact ⟨fun | .oneOf ha h => ⟨_, ha, h⟩, fun ⟨_, ha, h⟩ => .oneOf ha h⟩

theorem meets_oneOfType_iff (alternatives : List Checker) (v : Value) :
    Meets (.oneOfType alternatives) v ↔ ∃ c ∈ alternatives, Conforms c (some v) :=
  ⟨fun | .oneOfType hc h => ⟨_, hc, h⟩, fun ⟨_, hc, h⟩ => .oneOfType hc h⟩

theorem meets_shape_iff {v : Value} (hk : v.kind = .object)
    (fields : List (String × Option Checker)) :
    Meets (.shape fields) v ↔
      ∀ name c, (name, some c) ∈ fields → Conforms c (v.own.lookup name) :=
  ⟨fun | .shape _ h => h, .shape hk⟩

theorem not_meets_shape {v : Value} (hk : v.kind ≠ .object)
    (fields : List (String × Option Checker)) : ¬ Meets (.shape fields) v
  | .shape h _ => hk h

/-! ## Verdicts that decide a condition -/

/-- An acceptance where the condition holds, a rejection where it fails, and never a panic. -/
def Verdict.Decides : Verdict → Prop → Prop
  | .accept, P => P
  | .reject _, P => ¬ P
  | .panic _, _ => False

namespace Verdict.Decides

theorem congr {verdict : Verdict} {P Q : Prop} (h : verdict.Decides P) (hPQ : P ↔ Q) :
    verdict.Decides Q := by
  rwa [← propext hPQ]

theorem accept_iff {verdict : Verdict} {P : Prop} (h : verdict.Decides P) :
    verdict = .accept ↔ P := by
  cases verdict with
  | accept => simpa [Decides] using h
  | reject failure => simpa [Decides] using h
  | panic text => exact h.elim

theorem exists_reject {verdict : Verdict} {P : Prop} (h : verdict.Decides P) (hP : ¬ P) :
    ∃ failure, verdict = .reject failure := by
  cases verdict with
  | accept => exact (hP h).elim
  | reject failure => exact ⟨failure, rfl⟩
  | panic text => exact h.elim

/-- A check that consists of one test. -/
theorem ite {P : Prop} [Decidable P] (site : Site) (fault : Fault) :
    (if P then Outcome.accept else .fault site fault).verdict.Decides P := by
  by_cases h : P
  · rw [if_pos h]
    exact h
  · rw [if_neg h]
    exact h

theorem andThen {o : Outcome} {next : Unit → Outcome} {P Q : Prop} (ho : o.verdict.Decides P)
    (hn : (next ()).verdict.Decides Q) : (o.andThen next).verdict.Decides (P ∧ Q) := by
  rw [Outcome.verdict_andThen]
  generalize o.verdict = verdict at ho
  cases verdict with
  | accept => exact hn.congr (and_iff_right ho).symm
  | reject failure => exact fun h => ho h.1
  | panic text => exact ho

theorem orElse {o : Outcome} {next : Unit → Outcome} {P Q : Prop} (ho : o.verdict.Decides P)
    (hn : (next ()).verdict.Decides Q) : (o.orElse next).verdict.Decides (P ∨ Q) := by
  rw [Outcome.verdict_orElse]
  generalize o.verdict = verdict at ho
  cases verdict with
  | accept => exact .inl ho
  | reject failure => exact hn.congr (or_iff_right ho).symm
  | panic text => exact ho

theorem forEach {check : String → Value → Outcome} {P : String × Value → Prop}
    (entries : List (String × Value))
    (h : ∀ entry ∈ entries, (check entry.1 entry.2).verdict.Decides (P entry)) :
    (Outcome.forEach check entries).verdict.Decides (∀ entry ∈ entries, P entry) := by
  induction entries with
  | nil => simp [Outcome.forEach, Outcome.accept, Decides]
  | cons entry rest ih =>
      obtain ⟨hentry, hrest⟩ := List.forall_mem_cons.mp h
      exact (hentry.andThen (ih hrest)).congr List.forall_mem_cons.symm

end Verdict.Decides

/-! ## Soundness and completeness -/

theorem forall_mem_numberedFrom {P : Value → Prop} (start : Nat) (items : List Value) :
    (∀ entry ∈ numberedFrom start items, P entry.2) ↔ ∀ x ∈ items, P x := by
  induction items generalizing start with
  | nil => simp [numberedFrom]
  | cons item rest ih => simp [numberedFrom, -Prod.forall, ih]

-- The recursion is that of `Checker.run`; the site is arbitrary, since each container changes it.
mutual

theorem Rule.run_decides (rule : Rule) (h : rule.isBuiltIn = true) (v : Value) (site : Site) :
    (rule.run v site).verdict.Decides (Meets rule v) := by
  cases rule with
  | kind expected =>
      rw [Rule.run]
      exact (Verdict.Decides.ite site _).congr ⟨.kind, fun | .kind h => h⟩
  | any =>
      rw [Rule.run]
      exact Meets.any
  | arrayOf item =>
      cases v with
      | array items =>
          have hitems : ∀ entry ∈ numberedFrom 0 items,
              (item.run (some entry.2) (site.within entry.1)).verdict.Decides
                (Conforms item (some entry.2)) := by
            intro entry _
            exact item.run_decides h (some entry.2) (site.within entry.1)
          rw [Rule.run]
          refine (Verdict.Decides.forEach _ hitems).congr ?_
          exact (forall_mem_numberedFrom 0 items).trans (meets_arrayOf_iff item items).symm
      | _ => exact not_meets_arrayOf (by simp) item
  | objectOf property =>
      rw [Rule.run]
      by_cases hk : v.kind = .object
      · have hproperties : ∀ entry ∈ v.own,
            (property.run (some entry.2) (site.within entry.1)).verdict.Decides
              (Conforms property (some entry.2)) := by
          intro entry _
          exact property.run_decides h (some entry.2) (site.within entry.1)
        rw [if_pos hk, v.getD_properties?]
        exact (Verdict.Decides.forEach _ hproperties).congr (meets_objectOf_iff hk property).symm
      · rw [if_neg hk]
        exact not_meets_objectOf hk property
  | instanceOf type =>
      rw [Rule.run]
      exact (Verdict.Decides.ite site _).congr ⟨.instanceOf, fun | .instanceOf h => h⟩
  | oneOf allowed =>
      rw [Rule.run]
      exact (Verdict.Decides.ite site _).congr (meets_oneOf_iff allowed v).symm
  | oneOfType alternatives =>
      have hd := runAlternatives_decides alternatives h v site
      rw [Rule.run]
      exact hd.congr (meets_oneOfType_iff alternatives v).symm
  | shape fields =>
      rw [Rule.run]
      by_cases hk : v.kind = .object
      · have hd := runFields_decides fields h v site
        rw [if_pos hk]
        exact hd.congr (meets_shape_iff hk fields).symm
      · rw [if_neg hk]
        exact not_meets_shape hk fields
  | custom rule => simp [Rule.isBuiltIn] at h
  | observed label inner => simp [Rule.isBuiltIn] at h

theorem Checker.run_decides (c : Checker) (h : c.isBuiltIn = true) (supplied : Option Value)
    (site : Site) : (c.run supplied site).verdict.Decides (Conforms c supplied) := by
  obtain ⟨rule, isRequired⟩ := c
  rcases isAbsent_or_supplied supplied with ha | ⟨v, rfl, hv⟩
  · rw [Checker.run_of_isAbsent ha]
    cases isRequired with
    | true => exact fun hc => by simpa using (conforms_iff_of_isAbsent ha rule true).mp hc
    | false => exact .absent ha
  · have hd := rule.run_decides h v site
    rw [Checker.run_some hv]
    exact hd.congr (conforms_some_iff hv rule isRequired).symm

theorem runAlternatives_decides (alternatives : List Checker) (h : areBuiltIn alternatives = true)
    (v : Value) (site : Site) :
    (runAlternatives alternatives v site).verdict.Decides
      (∃ c ∈ alternatives, Conforms c (some v)) := by
  cases alternatives with
  | nil => simp [runAlternatives, Outcome.fault, Verdict.Decides]
  | cons c rest =>
      simp only [areBuiltIn, Bool.and_eq_true] at h
      have hc := c.run_decides h.1 (some v) site
      have hrest := runAlternatives_decides rest h.2 v site
      rw [runAlternatives]
      refine (hc.orElse hrest).congr ?_
      simp

theorem runFields_decides (fields : List (String × Option Checker))
    (h : fieldsAreBuiltIn fields = true) (v : Value) (site : Site) :
    (runFields fields v site).verdict.Decides
      (∀ name c, (name, some c) ∈ fields → Conforms c (v.own.lookup name)) := by
  cases fields with
  | nil => simp [runFields, Outcome.accept, Verdict.Decides]
  | cons field rest =>
      obtain ⟨name, checker?⟩ := field
      cases checker? with
      | none =>
          have hrest := runFields_decides rest h v site
          rw [runFields]
          refine hrest.congr ?_
          simp
      | some c =>
          simp only [fieldsAreBuiltIn, Bool.and_eq_true] at h
          have hc := c.run_decides h.1 (v.own.lookup name) (site.within name)
          have hrest := runFields_decides rest h.2 v site
          rw [runFields, v.property?_eq_lookup]
          refine (hc.andThen hrest).congr ?_
          simp [or_imp, forall_and]

end

/-- A checker without rules of the host accepts exactly what conforms and rejects all else, in every
naming context. -/
theorem run_accepts_iff_conforms (c : Checker) (h : c.isBuiltIn = true) (supplied : Option Value)
    (site : Site) :
    ((c.run supplied site).verdict = .accept ↔ Conforms c supplied) ∧
      ((∃ failure, (c.run supplied site).verdict = .reject failure) ↔ ¬ Conforms c supplied) := by
  have hd := c.run_decides h supplied site
  refine ⟨hd.accept_iff, ?_, hd.exists_reject⟩
  rintro ⟨failure, hf⟩ hc
  rw [hd.accept_iff.mpr hc] at hf
  cases hf

/-- Rows with a label, and perhaps a size that is a number or one of two words. -/
def labelledRows : Checker :=
  .arrayOf (.required (.shape [("label", some (.required .string)),
    ("size", some (.oneOfType [.number, .oneOf [.string "small", .string "large"]])),
    ("note", none)]))

theorem conforms_labelledRows :
    labelledRows.isBuiltIn = true ∧
      Conforms labelledRows (some (.array [.object [("size", .string "large"),
        ("label", .string "a"), ("note", .bool true)], .object [("label", .string "b")]])) ∧
      Conforms labelledRows (some (.array [.object [("label", .string "a"), ("size", .null)],
        .inst (.root 0 (some "Row")) [("size", .undefined), ("label", .string "b")]])) ∧
      ¬ Conforms labelledRows (some (.array [.object [("label", .string "a")], .null])) ∧
      ¬ Conforms labelledRows (some (.array [.object [("label", .undefined)]])) ∧
      ¬ Conforms labelledRows (some (.array [.inst (.root 0 (some "Row"))
        [("label", .string "a"), ("size", .bool true)]])) ∧
      ¬ Conforms (.objectOf (.required .string)) (some (.inst (.root 0 (some "Row"))
        [("label", .string "a"), ("note", .null)])) :=
  ⟨rfl, (run_accepts_iff_conforms labelledRows rfl _ ⟨"rows", "Table", .property⟩).1.mp rfl,
    (run_accepts_iff_conforms labelledRows rfl _ ⟨"rows", "Table", .property⟩).1.mp rfl,
    (run_accepts_iff_conforms labelledRows rfl _ ⟨"rows", "Table", .property⟩).2.mp ⟨_, rfl⟩,
    (run_accepts_iff_conforms labelledRows rfl _ ⟨"rows", "Table", .property⟩).2.mp ⟨_, rfl⟩,
    (run_accepts_iff_conforms labelledRows rfl _ ⟨"rows", "Table", .property⟩).2.mp ⟨_, rfl⟩,
    (run_accepts_iff_conforms (.objectOf (.required .string)) rfl _
      ⟨"row", "Table", .property⟩).2.mp ⟨_, rfl⟩⟩

end AttributeCheck
