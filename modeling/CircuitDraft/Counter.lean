import CircuitDraft.BuildError

namespace CircuitDraft

/-- Hands out variables in ascending order, the first one right after the constant-one wire.
`next` is empty once the last number has been used. -/
structure Counter where
  next : Option Variable := Variable.one.succ?
deriving DecidableEq

namespace Counter

/-- Continue as if all variables before `v` had been handed out. -/
def resumingAt (v : Variable) : Counter :=
  ⟨some v⟩

/-- How many variables have been handed out. -/
def count (counter : Counter) : Nat :=
  match counter.next with
  | some v => v.number.toNat - 1
  | none => UInt32.size - 1

/-- Hand out the next variable. The numbers never wrap around to the constant-one wire. -/
def mint (counter : Counter) : Except BuildError (Variable × Counter) :=
  match counter.next with
  | some v => .ok (v, ⟨v.succ?⟩)
  | none => .error .variablesExhausted

end Counter

end CircuitDraft
