import CircuitDraft.Variable

namespace CircuitDraft

/-- The variables that were declared public, in the order of their declaration. -/
structure PublicInputs where
  vars : Array Variable := #[]
deriving DecidableEq

namespace PublicInputs

def count (inputs : PublicInputs) : Nat :=
  inputs.vars.size

def push (inputs : PublicInputs) (var : Variable) : PublicInputs :=
  ⟨inputs.vars.push var⟩

@[simp]
theorem count_push (inputs : PublicInputs) (var : Variable) :
    (inputs.push var).count = inputs.count + 1 := by
  simp [push, count]

end PublicInputs

end CircuitDraft
