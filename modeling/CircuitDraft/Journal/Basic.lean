import CircuitDraft.CircuitId
import CircuitDraft.Scope

namespace CircuitDraft

/-- How a variable came to be declared. -/
inductive Origin
  | secretInput
  | publicInput
  | circuitInput
  | internal
deriving DecidableEq

namespace Origin

def text : Origin → String
  | secretInput => "Secret"
  | publicInput => "Public"
  | circuitInput => "SubCircuitInput"
  | internal => "Internal"

/-- The part that a variable of this origin plays in its scope. -/
def role : Origin → Role
  | secretInput => .input
  | publicInput => .input
  | circuitInput => .input
  | internal => .internal

end Origin

/-- The record of one declaration. -/
structure Journal.Entry where
  var : Variable
  origin : Origin
  label : String
  scope : CircuitId
deriving DecidableEq

/-- All declarations, in the order they were made. -/
structure Journal where
  entries : Array Journal.Entry := #[]
deriving DecidableEq

namespace Journal

def size (journal : Journal) : Nat :=
  journal.entries.size

def toList (journal : Journal) : List Entry :=
  journal.entries.toList

def push (journal : Journal) (entry : Entry) : Journal :=
  ⟨journal.entries.push entry⟩

@[simp]
theorem toList_push (journal : Journal) (entry : Entry) :
    (journal.push entry).toList = journal.toList ++ [entry] := by
  simp [push, toList]

@[simp]
theorem size_push (journal : Journal) (entry : Entry) :
    (journal.push entry).size = journal.size + 1 := by
  simp [push, size]

end Journal

end CircuitDraft
