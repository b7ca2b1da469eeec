namespace CircuitDraft

/-- The identity of a sub-circuit. The lower half of the range is for keys that callers choose, the
upper half is reserved for identities that are handed out one after the other. -/
structure CircuitId where
  key : UInt64
deriving DecidableEq

namespace CircuitId

theorem eq_of_toNat_eq {a b : CircuitId} (h : a.key.toNat = b.key.toNat) : a = b :=
  congrArg CircuitId.mk (UInt64.toNat_inj.mp h)

/-- The circuit as a whole. -/
def root : CircuitId :=
  ⟨0⟩

/-- The first identity that is handed out rather than chosen. -/
def firstReserved : CircuitId :=
  ⟨0x8000000000000000⟩

def isReserved (id : CircuitId) : Bool :=
  firstReserved.key ≤ id.key

theorem isReserved_iff {id : CircuitId} :
    id.isReserved = true ↔ firstReserved.key.toNat ≤ id.key.toNat := by
  simp [isReserved, UInt64.le_iff_toNat_le]

theorem isReserved_root : root.isReserved = false := by
  decide

/-- The next identity, if the numbers reach that far. -/
def succ? (id : CircuitId) : Option CircuitId :=
  if id.key.toNat + 1 < UInt64.size then some ⟨id.key + 1⟩ else none

theorem succ?_eq_some_iff {a b : CircuitId} :
    a.succ? = some b ↔ b.key.toNat = a.key.toNat + 1 := by
  obtain ⟨m⟩ := a
  obtain ⟨n⟩ := b
  have hn : n.toNat < UInt64.size := n.toNat_lt_size
  simp only [succ?]
  split
  · next h =>
    have hm : (m + 1).toNat = m.toNat + 1 := by
      rw [UInt64.toNat_add]
      exact Nat.mod_eq_of_lt h
    simp only [Option.some.injEq, mk.injEq, ← UInt64.toNat_inj, hm]
    exact eq_comm
  · next h =>
    simp only [reduceCtorEq, false_iff]
    omega

theorem succ?_eq_none_iff {a : CircuitId} :
    a.succ? = none ↔ a.key.toNat + 1 = UInt64.size := by
  have ha : a.key.toNat < UInt64.size := a.key.toNat_lt_size
  simp only [succ?]
  split <;> simp <;> omega

/-- How messages name an identity: `sc7` for a chosen key, `sc#2` for the third reserved one. -/
def text (id : CircuitId) : String :=
  if id.isReserved then
    "sc#" ++ Nat.repr (id.key - firstReserved.key).toNat
  else
    "sc" ++ Nat.repr id.key.toNat

/-- The form that names the kind of value as well: `SubCircuitId(7)`. -/
def longText (id : CircuitId) : String :=
  "SubCircuitId(" ++ Nat.repr id.key.toNat ++ ")"

instance : Ord CircuitId where
  compare a b := compare a.key b.key

instance : Std.TransOrd CircuitId :=
  inferInstanceAs (Std.TransCmp (compareOn CircuitId.key))

instance : Std.LawfulEqOrd CircuitId where
  eq_of_compare {a b} h := by
    obtain ⟨m⟩ := a
    obtain ⟨n⟩ := b
    exact congrArg CircuitId.mk (Std.compare_eq_iff_eq.mp (show compare m n = .eq from h))

instance : LE CircuitId where
  le a b := a.key ≤ b.key

instance : DecidableLE CircuitId :=
  fun a b => inferInstanceAs (Decidable (a.key ≤ b.key))

end CircuitId

end CircuitDraft
