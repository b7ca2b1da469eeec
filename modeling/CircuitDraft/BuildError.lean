import CircuitDraft.Variable
import CircuitDraft.CircuitId

namespace CircuitDraft

/-- Why a step of drafting a circuit is refused. -/
inductive BuildError
  | unsupportedField (requested supported : Nat)
  | identityTaken (id : CircuitId)
  | unknownCircuit (id : CircuitId)
  | identityReserved (id : CircuitId)
  | identitiesExhausted
  | foreignVariable (var : Variable) (id : CircuitId)
  | variablesExhausted
  | identityMismatch (own registered : CircuitId)
deriving DecidableEq

/-- The wording of each refusal. -/
def BuildError.message : BuildError → String
  | unsupportedField requested supported =>
      "Unsupported field: requested modulus " ++ Nat.repr requested ++ ", only " ++
        Nat.repr supported ++ " is supported"
  | identityTaken id => "Sub-circuit identity " ++ id.text ++ " is already registered"
  | unknownCircuit id => "Sub-circuit " ++ id.text ++ " not found"
  | identityReserved id =>
      "Sub-circuit identity " ++ id.text ++ " is reserved for fresh sub-circuits"
  | identitiesExhausted => "Fresh sub-circuit identities exhausted"
  | foreignVariable var id =>
      "Variable " ++ var.text ++ " is not allocated in sub-circuit " ++ id.text
  | variablesExhausted => "Variable identifiers exhausted"
  | identityMismatch own registered =>
      "assertion `left == right` failed: " ++
        "sub-circuit scope must carry the identity it is registered under\n" ++
        "  left: " ++ own.longText ++ "\n right: " ++ registered.longText

end CircuitDraft
