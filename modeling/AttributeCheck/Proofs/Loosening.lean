import AttributeCheck.Proofs.Conformance
import Mathlib.Logic.Relation

/-! # Loosening a checker anywhere keeps what it accepts

A node of a checker can be loosened in a few ways. Conformance survives one such step at the root,
therefore at any depth, and so any number of steps. -/

namespace AttributeCheck

/-! ## Replacing nodes -/

theorem areBuiltIn_iff (alternatives : List Checker) :
    areBuiltIn alternatives = true ↔ ∀ c ∈ alternatives, c.isBuiltIn = true := by
  induction alternatives with
  | nil => simp [areBuiltIn]
  | cons c rest ih => simp [areBuiltIn, ih]

theorem fieldsAreBuiltIn_iff (fields : List (String × Option Checker)) :
    fieldsAreBuiltIn fields = true ↔ ∀ name c, (name, some c) ∈ fields → c.isBuiltIn = true := by
  induction fields with
  | nil => simp [fieldsAreBuiltIn]
  | cons field rest ih =>
      obtain ⟨name, checker?⟩ := field
      cases checker? with
      | none => simp [fieldsAreBuiltIn, ih]
      | some c => simp [fieldsAreBuiltIn, ih, or_imp, forall_and]

/-- One node of a checker, at any depth, is replaced as the relation says. -/
inductive Checker.Anywhere (S : Checker → Checker → Prop) : Checker → Checker → Prop where
  | here {c d : Checker} (h : S c d) : Anywhere S c d
  | item {c d : Checker} {isRequired : Bool} (h : Anywhere S c d) :
      Anywhere S (.mk (.arrayOf c) isRequired) (.mk (.arrayOf d) isRequired)
  | property {c d : Checker} {isRequired : Bool} (h : Anywhere S c d) :
      Anywhere S (.mk (.objectOf c) isRequired) (.mk (.objectOf d) isRequired)
  | alternative {c d : Checker} {front rest : List Checker} {isRequired : Bool}
      (h : Anywhere S c d) :
      Anywhere S (.mk (.oneOfType (front ++ c :: rest)) isRequired)
        (.mk (.oneOfType (front ++ d :: rest)) isRequired)
  | field {c d : Checker} {front rest : List (String × Option Checker)} {name : String}
      {isRequired : Bool} (h : Anywhere S c d) :
      Anywhere S (.mk (.shape (front ++ (name, some c) :: rest)) isRequired)
        (.mk (.shape (front ++ (name, some d) :: rest)) isRequired)

namespace Checker.Anywhere

variable {S : Checker → Checker → Prop} {c d : Checker}

theorem isBuiltIn (h : Anywhere S c d)
    (hS : ∀ {c d}, S c d → c.isBuiltIn = true → d.isBuiltIn = true) (hc : c.isBuiltIn = true) :
    d.isBuiltIn = true := by
  induction h with
  | here h => exact hS h hc
  | item _ ih => exact ih hc
  | property _ ih => exact ih hc
  | @alternative c d front rest isRequired _ ih =>
      have hall : ∀ x ∈ front ++ c :: rest, x.isBuiltIn = true := (areBuiltIn_iff _).mp hc
      apply (areBuiltIn_iff _).mpr
      simp only [List.forall_mem_append, List.forall_mem_cons] at hall ⊢
      exact ⟨hall.1, ih hall.2.1, hall.2.2⟩
  | @field c d front rest name isRequired _ ih =>
      have hall : ∀ n x, (n, some x) ∈ front ++ (name, some c) :: rest → x.isBuiltIn = true :=
        (fieldsAreBuiltIn_iff _).mp hc
      apply (fieldsAreBuiltIn_iff _).mpr
      intro n x hx
      simp only [List.mem_append, List.mem_cons, Prod.mk.injEq, Option.some.injEq] at hall hx
      rcases hx with hx | ⟨rfl, rfl⟩ | hx
      · exact hall n x (.inl hx)
      · exact ih (hall n c (.inr (.inl ⟨rfl, rfl⟩)))
      · exact hall n x (.inr (.inr hx))

end Checker.Anywhere

/-! ## Conformance under replacements -/

theorem Conforms.imp {rule other : Rule} (h : ∀ v, Meets rule v → Meets other v)
    {isRequired : Bool} {supplied : Option Value} (hc : Conforms (.mk rule isRequired) supplied) :
    Conforms (.mk other isRequired) supplied := by
  cases hc with
  | absent ha => exact .absent ha
  | supplied hv hm => exact .supplied hv (h _ hm)

theorem conforms_any (supplied : Option Value) : Conforms .any supplied := by
  rcases isAbsent_or_supplied supplied with ha | ⟨v, rfl, hv⟩
  · exact .absent ha
  · exact .supplied ((not_isAbsent_some_iff v).mpr hv) .any

/-- If what conforms still conforms after the replacement of a root, it does after that of any
node. -/
theorem Checker.Anywhere.conforms {S : Checker → Checker → Prop} {c d : Checker}
    (h : Anywhere S c d)
    (hS : ∀ {c d}, S c d → ∀ supplied, Conforms c supplied → Conforms d supplied)
    (supplied : Option Value) : Conforms c supplied → Conforms d supplied := by
  induction h generalizing supplied with
  | here h => exact hS h supplied
  | item _ ih =>
      apply Conforms.imp
      intro v hm
      cases hm with
      | arrayOf hitems => exact .arrayOf fun x hx => ih (some x) (hitems x hx)
  | property _ ih =>
      apply Conforms.imp
      intro v hm
      cases hm with
      | objectOf hk hproperties =>
          exact .objectOf hk fun entry hentry => ih (some entry.2) (hproperties entry hentry)
  | @alternative c d front rest isRequired _ ih =>
      apply Conforms.imp
      intro v hm
      obtain ⟨x, hx, hconforms⟩ := (meets_oneOfType_iff _ v).mp hm
      rcases List.mem_append.mp hx with hx | hx
      · exact .oneOfType (List.mem_append_left _ hx) hconforms
      rcases List.mem_cons.mp hx with rfl | hx
      · exact .oneOfType (c := d) (by simp) (ih (some v) hconforms)
      · exact .oneOfType (List.mem_append_right _ (List.mem_cons_of_mem d hx)) hconforms
  | @field c d front rest name isRequired _ ih =>
      apply Conforms.imp
      intro v hm
      cases hm with
      | shape hk hfields =>
          refine .shape hk fun n x hx => ?_
          rcases List.mem_append.mp hx with hx | hx
          · exact hfields n x (List.mem_append_left _ hx)
          rcases List.mem_cons.mp hx with heq | hx
          · obtain ⟨rfl, hsome⟩ := Prod.mk.inj heq
            obtain rfl := Option.some.inj hsome
            exact ih _ (hfields n c (by simp))
          · exact hfields n x (List.mem_append_right _ (List.mem_cons_of_mem _ hx))

/-! ## Steps that loosen a node -/

/-- The ways to loosen a node. The wider union is again without rules of the host. -/
inductive Loosens : Checker → Checker → Prop where
  | optional {rule : Rule} : Loosens (.mk rule true) (.mk rule false)
  | alternatives {narrow wide : List Checker} {isRequired : Bool} (h : narrow.Sublist wide)
      (hb : areBuiltIn wide = true) :
      Loosens (.mk (.oneOfType narrow) isRequired) (.mk (.oneOfType wide) isRequired)
  | allowed {narrow wide : List Value} {isRequired : Bool} (h : narrow.Sublist wide) :
      Loosens (.mk (.oneOf narrow) isRequired) (.mk (.oneOf wide) isRequired)
  | removeFields {fields fewer : List (String × Option Checker)} {isRequired : Bool}
      (h : fewer.Sublist fields) :
      Loosens (.mk (.shape fields) isRequired) (.mk (.shape fewer) isRequired)
  | skipField {front rest : List (String × Option Checker)} {name : String}
      {field : Option Checker} {isRequired : Bool} :
      Loosens (.mk (.shape (front ++ (name, field) :: rest)) isRequired)
        (.mk (.shape (front ++ (name, none) :: rest)) isRequired)
  | anything {c : Checker} : Loosens c .any
  | anyItems {item : Checker} {isRequired : Bool} :
      Loosens (.mk (.arrayOf item) isRequired) (.mk (.kind .array) isRequired)
  | anyProperties {property : Checker} {isRequired : Bool} :
      Loosens (.mk (.objectOf property) isRequired) (.mk (.kind .object) isRequired)
  | anyFields {fields : List (String × Option Checker)} {isRequired : Bool} :
      Loosens (.mk (.shape fields) isRequired) (.mk (.kind .object) isRequired)
  | superclass {cls ancestor : Class} {isRequired : Bool} (h : cls.isSubclassOf ancestor = true) :
      Loosens (.mk (.instanceOf (.instancesOf cls)) isRequired)
        (.mk (.instanceOf (.instancesOf ancestor)) isRequired)

theorem Value.isInstanceOf_of_isSubclassOf {v : Value} {cls ancestor : Class}
    (hv : v.isInstanceOf cls = true) (h : cls.isSubclassOf ancestor = true) :
    v.isInstanceOf ancestor = true := by
  cases v with
  | inst own properties => exact Class.isSubclassOf_trans hv h
  | _ => cases hv

theorem Loosens.isBuiltIn {c d : Checker} (h : Loosens c d) (hc : c.isBuiltIn = true) :
    d.isBuiltIn = true := by
  cases h with
  | optional => exact hc
  | alternatives _ hb => exact hb
  | removeFields h =>
      apply (fieldsAreBuiltIn_iff _).mpr
      intro name c hmem
      exact (fieldsAreBuiltIn_iff _).mp hc name c (h.subset hmem)
  | @skipField front rest skipped field isRequired =>
      apply (fieldsAreBuiltIn_iff _).mpr
      intro name c hmem
      apply (fieldsAreBuiltIn_iff _).mp hc name c
      simp only [List.mem_append, List.mem_cons, Prod.mk.injEq, reduceCtorEq, and_false,
        false_or] at hmem ⊢
      exact hmem.imp_right .inr
  | _ => rfl

theorem Loosens.conforms {c d : Checker} (h : Loosens c d) (supplied : Option Value) :
    Conforms c supplied → Conforms d supplied := by
  cases h with
  | optional =>
      intro hc
      cases hc with
      | supplied hv hm => exact .supplied hv hm
  | alternatives h _ =>
      apply Conforms.imp
      intro v hm
      obtain ⟨c, hc, hconforms⟩ := (meets_oneOfType_iff _ v).mp hm
      exact .oneOfType (h.subset hc) hconforms
  | allowed h =>
      apply Conforms.imp
      intro v hm
      cases hm with
      | oneOf ha heq => exact .oneOf (h.subset ha) heq
  | removeFields h =>
      apply Conforms.imp
      intro v hm
      cases hm with
      | shape hk hfields => exact .shape hk fun name c hmem => hfields name c (h.subset hmem)
  | skipField =>
      apply Conforms.imp
      intro v hm
      cases hm with
      | shape hk hfields =>
          refine .shape hk fun name c hmem => hfields name c ?_
          simp only [List.mem_append, List.mem_cons, Prod.mk.injEq, reduceCtorEq, and_false,
            false_or] at hmem ⊢
          exact hmem.imp_right .inr
  | anything => exact fun _ => conforms_any supplied
  | anyItems =>
      apply Conforms.imp
      intro v hm
      cases hm with
      | arrayOf _ => exact .kind rfl
  | anyProperties =>
      apply Conforms.imp
      intro v hm
      cases hm with
      | objectOf hk _ => exact .kind hk
  | anyFields =>
      apply Conforms.imp
      intro v hm
      cases hm with
      | shape hk _ => exact .kind hk
  | superclass h =>
      apply Conforms.imp
      intro v hm
      cases hm with
      | instanceOf ha => exact .instanceOf (Value.isInstanceOf_of_isSubclassOf ha h)

/-! ## Any number of steps -/

/-- Steps that loosen some node, one after the other. -/
abbrev LoosensTo : Checker → Checker → Prop :=
  Relation.ReflTransGen (Checker.Anywhere Loosens)

theorem LoosensTo.isBuiltIn {c d : Checker} (h : LoosensTo c d) (hc : c.isBuiltIn = true) :
    d.isBuiltIn = true := by
  induction h with
  | refl => exact hc
  | tail _ hstep ih => exact hstep.isBuiltIn Loosens.isBuiltIn ih

theorem LoosensTo.conforms {c d : Checker} (h : LoosensTo c d) {supplied : Option Value}
    (hc : Conforms c supplied) : Conforms d supplied := by
  induction h with
  | refl => exact hc
  | tail _ hstep ih => exact hstep.conforms Loosens.conforms supplied ih

/-- What a checker without rules of the host accepts, a loosened one accepts too. -/
theorem accepts_of_loosensTo {c d : Checker} (hc : c.isBuiltIn = true) (h : LoosensTo c d)
    (supplied : Option Value) (site : Site) (ha : (c.run supplied site).verdict = .accept) :
    (d.run supplied site).verdict = .accept := by
  have hconforms : Conforms c supplied := (c.run_decides hc supplied site).accept_iff.mp ha
  have hd : d.isBuiltIn = true := h.isBuiltIn hc
  exact (d.run_decides hd supplied site).accept_iff.mpr (h.conforms hconforms)

/-- Rows with a label and perhaps a numeric size. -/
def sizedRows : Checker :=
  .arrayOf (.mk (.shape [("label", some (.required .string)),
    ("size", some (.oneOfType [.number]))]) true)

/-- The label may be missing, and the size may be a word. -/
def loosePart : Checker :=
  .mk (.shape [("label", some .string), ("size", some (.oneOfType [.string, .number]))]) true

theorem accepts_of_loosensTo_sizedRows :
    sizedRows.isBuiltIn = true ∧ LoosensTo sizedRows (.arrayOf loosePart) ∧
      (sizedRows.run (some (.array [.object [("size", .number .nan), ("label", .string "a")]]))
        ⟨"rows", "Table", .property⟩).verdict = .accept ∧
      ((Checker.arrayOf loosePart).run (some (.array [.object [("size", .number .nan),
        ("label", .string "a")]])) ⟨"rows", "Table", .property⟩).verdict = .accept := by
  have hlabel : Checker.Anywhere Loosens (.required .string) .string := .here .optional
  have hsize : Checker.Anywhere Loosens (.oneOfType [.number]) (.oneOfType [.string, .number]) :=
    .here (.alternatives (List.sublist_cons_self _ _) rfl)
  have h : LoosensTo sizedRows (.arrayOf loosePart) :=
    .head (.item (@Checker.Anywhere.field Loosens _ _ [] _ "label" true hlabel))
      (.single (.item (@Checker.Anywhere.field Loosens _ _ [("label", some .string)] [] "size" true
        hsize)))
  exact ⟨rfl, h, rfl, accepts_of_loosensTo rfl h _ _ rfl⟩

end AttributeCheck
