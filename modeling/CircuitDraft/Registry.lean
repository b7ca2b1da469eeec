import CircuitDraft.Arena
import CircuitDraft.Outcome
import CircuitDraft.Scope

namespace CircuitDraft

/-- The scopes of all sub-circuits, found by identity and kept in the order of their registration.
The root scope is always the first. -/
structure Registry where
  scopes : Arena CircuitId Scope := Arena.push {} .root (.empty .root)
  nextReserved : Option CircuitId := some .firstReserved
  size_pos : 0 < scopes.size := by simp

namespace Registry

/-- The registry in which the root scope alone is registered, with nothing declared in it. -/
def new : Registry :=
  {}

def size (registry : Registry) : Nat :=
  registry.scopes.size

/-- The registered scopes in order of registration. -/
def toList (registry : Registry) : List Scope :=
  registry.scopes.entries.toList

def ids (registry : Registry) : List CircuitId :=
  registry.toList.map Scope.id

def contains (registry : Registry) (id : CircuitId) : Bool :=
  registry.scopes.contains id

def find? (registry : Registry) (id : CircuitId) : Option Scope :=
  registry.scopes.find? id

/-- The root scope, which needs no search. -/
def root (registry : Registry) : Scope :=
  registry.scopes.first registry.size_pos

/-- Put a scope in the place of the one that is registered under `id`. -/
def set (registry : Registry) (id : CircuitId) (scope : Scope) : Registry :=
  { registry with
    scopes := registry.scopes.modify id fun _ => scope
    size_pos := by simpa using registry.size_pos }

def setRoot (registry : Registry) (scope : Scope) : Registry :=
  { registry with
    scopes := registry.scopes.modifyFirst fun _ => scope
    size_pos := by simpa using registry.size_pos }

/-- Add a scope under an identity that is not taken. The scope has to carry that identity. -/
def insert (registry : Registry) (id : CircuitId) (scope : Scope) : Outcome Registry Unit :=
  if scope.id ≠ id then
    .failure (.identityMismatch scope.id id) registry
  else if registry.contains id then
    (Outcome.failure (.identityTaken id) registry).raise [.rejectedDuplicate id]
  else
    let after : Registry :=
      { registry with
        scopes := registry.scopes.push id scope
        size_pos := by simp }
    (Outcome.success () after).raise [.registered id after.size]

/-- Add a scope under an identity that the caller chose. -/
def register (registry : Registry) (id : CircuitId) (scope : Scope) : Outcome Registry Unit :=
  if id.isReserved then
    (Outcome.failure (.identityReserved id) registry).raise [.rejectedReserved id]
  else
    registry.insert id scope

def registerNext (registry : Registry) : Outcome Registry CircuitId :=
  match registry.nextReserved with
  | none => .failure .identitiesExhausted registry
  | some id =>
      (registry.insert id (.empty id)).andThen fun _ after =>
        .success id { after with nextReserved := id.succ? }

/-- Mint a variable for the scope registered under `id`. -/
def declare (registry : Registry) (id : CircuitId) (role : Role) (counter : Counter) :
    Except BuildError (Variable × Counter × Registry) :=
  match registry.find? id with
  | none => .error (.unknownCircuit id)
  | some scope =>
      (scope.declare role counter).map fun (var, counter, scope) =>
        (var, counter, registry.set id scope)

def declareRoot (registry : Registry) (role : Role) (counter : Counter) :
    Except BuildError (Variable × Counter × Registry) :=
  (registry.root.declare role counter).map fun (var, counter, scope) =>
    (var, counter, registry.setRoot scope)

def addOutput (registry : Registry) (id : CircuitId) (var : Variable) :
    Except BuildError Registry :=
  match registry.find? id with
  | none => .error (.unknownCircuit id)
  | some scope => (scope.addOutput var).map (registry.set id)

end Registry

end CircuitDraft
