import CircuitDraft.Arena
import CircuitDraft.LinearExpr.Basic

namespace CircuitDraft

variable {F : Type} [Add F]

/-- Terms gathered by variable, each variable at the place of its first term. -/
abbrev Gathered (F : Type) :=
  Arena Variable (Term F)

/-- Add a term to the one that is there for its variable, or at the end if there is none. -/
def Gathered.insert (gathered : Gathered F) (t : Term F) : Gathered F :=
  if gathered.contains t.var then
    gathered.modify t.var fun u => { u with coef := u.coef + t.coef }
  else
    gathered.push t.var t

namespace LinearExpr

def gather (e : LinearExpr F) : Gathered F :=
  e.terms.foldl Gathered.insert {}

variable [Zero F] [DecidableEq F]

/-- One term for each variable whose coefficients do not cancel, in order of first occurrence.
The constant-one wire counts as a variable like any other. -/
def simplify (e : LinearExpr F) : LinearExpr F :=
  ⟨e.gather.entries.toList.filter fun t => t.coef ≠ 0⟩

end LinearExpr

end CircuitDraft
