/-! # Nominal classes -/

namespace AttributeCheck

/-- A class with its line of ancestors. The identity is what its creation gave it: classes of one
name differ when they were created apart. -/
inductive Class where
  | root (identity : Nat) (name : Option String)
  | derived (identity : Nat) (name : String) (parent : Class)
deriving DecidableEq

namespace Class

def identity : Class → Nat
  | root identity _ => identity
  | derived identity _ _ => identity

def name : Class → Option String
  | root _ name => name
  | derived _ name _ => some name

def parent : Class → Option Class
  | root _ _ => none
  | derived _ _ parent => some parent

/-- Whether a class is the given one or inherits from it. -/
def isSubclassOf (c ancestor : Class) : Bool :=
  c == ancestor ||
    match c with
    | root _ _ => false
    | derived _ _ parent => parent.isSubclassOf ancestor

/-- The class itself, its parent, and so on up to the root. -/
def lineage (c : Class) : List Class :=
  c ::
    match c with
    | root _ _ => []
    | derived _ _ parent => parent.lineage

theorem isSubclassOf_iff_mem_lineage (c ancestor : Class) :
    c.isSubclassOf ancestor = true ↔ ancestor ∈ c.lineage := by
  induction c with
  | root identity name =>
      rw [isSubclassOf, lineage, Bool.or_false, beq_iff_eq, List.mem_singleton, eq_comm]
  | derived identity name parent ih =>
      rw [isSubclassOf, lineage, Bool.or_eq_true, beq_iff_eq, List.mem_cons, eq_comm]
      exact or_congr Iff.rfl ih

theorem isSubclassOf_trans {c d e : Class} (hcd : c.isSubclassOf d = true)
    (hde : d.isSubclassOf e = true) : c.isSubclassOf e = true := by
  induction c with
  | root identity name =>
      rw [isSubclassOf, Bool.or_false, beq_iff_eq] at hcd
      rw [hcd]
      exact hde
  | derived identity name parent ih =>
      rw [isSubclassOf, Bool.or_eq_true, beq_iff_eq] at hcd
      rcases hcd with heq | hparent
      · rw [heq]
        exact hde
      · rw [isSubclassOf, ih hparent, Bool.or_true]

/-- The classes made so far, in order. A new one gets their number as its identity. -/
structure Registry where
  created : List Class

namespace Registry

def empty : Registry := ⟨[]⟩

def fresh (r : Registry) : Nat :=
  r.created.length

def add (r : Registry) (c : Class) : Class × Registry :=
  (c, ⟨r.created ++ [c]⟩)

/-- A new class without a parent. -/
def declare (r : Registry) (name : Option String) : Class × Registry :=
  r.add (root r.fresh name)

/-- A new subclass. -/
def derive (r : Registry) (name : String) (parent : Class) : Class × Registry :=
  r.add (derived r.fresh name parent)

end Registry

end Class

end AttributeCheck
