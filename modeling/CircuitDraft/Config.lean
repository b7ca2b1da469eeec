namespace CircuitDraft

/-- The settings of a draft. The two numbers say how much is expected, not how much is allowed. -/
structure Config where
  expectedVars : Nat := 0
  expectedCircuits : Nat := 0
  allowsUnconstrained : Bool := false
deriving DecidableEq

namespace Config

def expectVars (config : Config) (expectedVars : Nat) : Config :=
  { config with expectedVars }

def expectCircuits (config : Config) (expectedCircuits : Nat) : Config :=
  { config with expectedCircuits }

/-- Allow inputs that no constraint mentions. -/
def allowUnconstrained (config : Config) : Config :=
  { config with allowsUnconstrained := true }

end Config

end CircuitDraft
