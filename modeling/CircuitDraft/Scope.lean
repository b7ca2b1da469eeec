import CircuitDraft.Counter

namespace CircuitDraft

/-- What a variable of a scope is for. -/
inductive Role
  | input
  | internal
deriving DecidableEq

/-- The variables of one sub-circuit, in the order they were minted, and those marked as outputs. -/
structure Scope where
  id : CircuitId
  one : Variable := .one
  inputCount : Nat := 0
  vars : Array Variable := #[]
  outputs : Array Variable := #[]
deriving DecidableEq

namespace Scope

/-- The scope of a sub-circuit in which nothing has been declared. -/
def empty (id : CircuitId) : Scope :=
  { id }

/-- Enter a variable that was minted for this scope. -/
def record (scope : Scope) (role : Role) (var : Variable) : Scope :=
  { scope with
    inputCount := if role = .input then scope.inputCount + 1 else scope.inputCount
    vars := scope.vars.push var }

def declare (scope : Scope) (role : Role) (counter : Counter) :
    Except BuildError (Variable × Counter × Scope) :=
  match counter.mint with
  | .ok (var, counter) => .ok (var, counter, scope.record role var)
  | .error e => .error e

/-- Find a variable among the `count` entries from position `start` on, which are in ascending
order, by halving their number until one is left. -/
def search (vars : Array Variable) (var : Variable) (start count : Nat)
    (within : start + count ≤ vars.size) : Bool :=
  if h : 1 < count then
    if vars[start + count / 2] ≤ var then
      search vars var (start + count / 2) (count - count / 2) (by omega)
    else
      search vars var start (count - count / 2) (by omega)
  else
    vars[start]? == some var
termination_by count

/-- Whether a variable belongs to the scope. -/
def contains (scope : Scope) (var : Variable) : Bool :=
  search scope.vars var 0 scope.vars.size (by omega)

/-- Mark a variable of the scope as an output. A variable can be marked more than once. -/
def addOutput (scope : Scope) (var : Variable) : Except BuildError Scope :=
  if scope.contains var then
    .ok { scope with outputs := scope.outputs.push var }
  else
    .error (.foreignVariable var scope.id)

@[simp]
theorem id_record (scope : Scope) (role : Role) (var : Variable) :
    (scope.record role var).id = scope.id :=
  rfl

@[simp]
theorem vars_record (scope : Scope) (role : Role) (var : Variable) :
    (scope.record role var).vars = scope.vars.push var :=
  rfl

@[simp]
theorem outputs_record (scope : Scope) (role : Role) (var : Variable) :
    (scope.record role var).outputs = scope.outputs :=
  rfl

end Scope

end CircuitDraft
