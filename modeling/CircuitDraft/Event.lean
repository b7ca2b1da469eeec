import CircuitDraft.Journal.Basic

/-!
What a draft tells an observer about the calls made on it. An event is a message, or the opening
of a span that covers a longer operation.
-/

namespace CircuitDraft

inductive Severity
  | trace
  | debug
  | info
  | warn
deriving DecidableEq

def Severity.text : Severity → String
  | trace => "TRACE"
  | debug => "DEBUG"
  | info => "INFO"
  | warn => "WARN"

/-- What happened, with the values an observer is told. -/
inductive Event
  | creating (requested expectedVars : Nat)
  | unsupportedField (requested supported : Nat)
  | rootRegistered (modulus : Nat)
  | declared (entry : Journal.Entry)
  | taggedPublic (var : Variable) (position : Nat)
  | rejectedReserved (id : CircuitId)
  | rejectedDuplicate (id : CircuitId)
  | registered (id : CircuitId) (total : Nat)
  | reused (id : CircuitId)
  | finishing
  | completed (varCount publicCount circuitCount : Nat)
deriving DecidableEq

namespace Event

def severity : Event → Severity
  | creating .. => .info
  | unsupportedField .. => .warn
  | rootRegistered .. => .debug
  | declared .. => .trace
  | taggedPublic .. => .trace
  | rejectedReserved .. => .debug
  | rejectedDuplicate .. => .debug
  | registered .. => .debug
  | reused .. => .debug
  | finishing => .info
  | completed .. => .info

def span? : Event → Option String
  | creating .. => some "new"
  | finishing => some "finish"
  | _ => none

/-- The message of an event that opens no span. -/
def message? : Event → Option String
  | creating .. => none
  | unsupportedField .. => some "unsupported field"
  | rootRegistered .. => some "root scope registered"
  | declared .. => some "allocated variable"
  | taggedPublic .. => some "tagged public"
  | rejectedReserved .. => some "rejected reserved sub-circuit identity"
  | rejectedDuplicate .. => some "rejected duplicate sub-circuit registration"
  | registered .. => some "registered sub-circuit"
  | reused .. => some "reusing sub-circuit"
  | finishing => none
  | completed .. => some "circuit description complete"

/-- The names and values that an event carries. -/
def fields : Event → List (String × String)
  | creating requested expectedVars =>
      [("requested", Nat.repr requested), ("capacity", Nat.repr expectedVars)]
  | unsupportedField requested supported =>
      [("requested", Nat.repr requested), ("supported", Nat.repr supported)]
  | rootRegistered modulus => [("modulus", Nat.repr modulus)]
  | declared entry =>
      [("var", entry.var.text), ("scope", entry.scope.text), ("kind", entry.origin.text),
        ("label", entry.label)]
  | taggedPublic var position => [("var", var.text), ("pos", Nat.repr position)]
  | rejectedReserved id => [("id", id.text)]
  | rejectedDuplicate id => [("id", id.text)]
  | registered id total => [("id", id.text), ("total", Nat.repr total)]
  | reused id => [("id", id.text)]
  | finishing => []
  | completed varCount publicCount circuitCount =>
      [("variables", Nat.repr varCount), ("public", Nat.repr publicCount),
        ("sub_circuits", Nat.repr circuitCount)]

end Event

end CircuitDraft
