import AttributeCheck.Checker.Run
import AttributeCheck.Warning.Effect

/-! # Declared attributes -/

namespace AttributeCheck

/-- What an attribute is declared with. A value in place of a checker is a mistake, reported
whenever the attribute is checked. -/
inductive Declaration where
  | checker (c : Checker)
  | invalid (v : Value)

/-- Declarations by attribute name, in order. -/
structure Declarations where
  entries : Entries String Declaration

namespace Declarations

def empty : Declarations := ⟨[]⟩

/-- Declares an attribute. A repeated name gets the later declaration in its first place. -/
def declare (d : Declarations) (name : String) (declaration : Declaration) : Declarations :=
  ⟨Entries.insert d.entries name declaration⟩

/-- Declares an attribute with a checker. -/
def withChecker (d : Declarations) (name : String) (c : Checker) : Declarations :=
  d.declare name (.checker c)

def ofPairs (pairs : List (String × Declaration)) : Declarations :=
  ⟨Entries.ofPairs pairs⟩

/-- Declares several attributes one after the other. -/
def declareAll (d : Declarations) (pairs : List (String × Declaration)) : Declarations :=
  ⟨Entries.insertAll d.entries pairs⟩

def get? (d : Declarations) (name : String) : Option Declaration :=
  Entries.get? d.entries name

def names (d : Declarations) : List String :=
  Entries.keys d.entries

def size (d : Declarations) : Nat :=
  d.entries.length

def isEmpty (d : Declarations) : Bool :=
  d.entries.isEmpty

end Declarations

/-- What checking one declared attribute gives: its failure, if it has one, and what was observed.
-/
structure Evaluation where
  failure : Option Failure
  events : List Event
  calls : List Call

/-- The text of a panic that has none of its own. -/
def panicText (text : Option String) : String :=
  text.getD "checker panicked"

/-- Checks a declared attribute. A panic is caught and counts as a failure of the attribute. -/
def Declaration.evaluate (declaration : Declaration) (name : String) (bag : Entries String Value)
    (component : String) (location : Location) : Evaluation :=
  let failWith (fault : Fault) := some (fault.failure name component location.text)
  match declaration with
  | .invalid _ => ⟨failWith .notChecker, [], []⟩
  | .checker c =>
      let outcome := c.check bag name (some component) location
      match outcome.verdict with
      | .accept => ⟨none, [], outcome.calls⟩
      | .reject failure => ⟨some failure, [], outcome.calls⟩
      | .panic text =>
          ⟨failWith (.panicked (panicText text)), [.panicked name component (panicText text)],
            outcome.calls⟩

end AttributeCheck
