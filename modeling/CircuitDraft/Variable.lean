namespace CircuitDraft

/-- A wire of the circuit, known by its number. -/
structure Variable where
  number : UInt32
deriving DecidableEq

namespace Variable

/-- The wire that carries the constant one. -/
def one : Variable :=
  ⟨0⟩

theorem eq_of_toNat_eq {v w : Variable} (h : v.number.toNat = w.number.toNat) : v = w :=
  congrArg Variable.mk (UInt32.toNat_inj.mp h)

/-- The variable numbered one higher, if the numbers reach that far. -/
def succ? (v : Variable) : Option Variable :=
  if v.number.toNat + 1 < UInt32.size then some ⟨v.number + 1⟩ else none

theorem succ?_eq_some_iff {v w : Variable} :
    v.succ? = some w ↔ w.number.toNat = v.number.toNat + 1 := by
  obtain ⟨m⟩ := v
  obtain ⟨n⟩ := w
  have hn : n.toNat < UInt32.size := n.toNat_lt_size
  simp only [succ?]
  split
  · next h =>
    have hm : (m + 1).toNat = m.toNat + 1 := by
      rw [UInt32.toNat_add]
      exact Nat.mod_eq_of_lt h
    simp only [Option.some.injEq, mk.injEq, ← UInt32.toNat_inj, hm]
    exact eq_comm
  · next h =>
    simp only [reduceCtorEq, false_iff]
    omega

theorem succ?_eq_none_iff {v : Variable} :
    v.succ? = none ↔ v.number.toNat + 1 = UInt32.size := by
  have hv : v.number.toNat < UInt32.size := v.number.toNat_lt_size
  simp only [succ?]
  split <;> simp <;> omega

/-- How messages name a variable: `v3`. -/
def text (v : Variable) : String :=
  "v" ++ Nat.repr v.number.toNat

/-- The form that lists of variables are printed with: `Variable(3)`. -/
def longText (v : Variable) : String :=
  "Variable(" ++ Nat.repr v.number.toNat ++ ")"

instance : Ord Variable where
  compare v w := compare v.number w.number

instance : Std.TransOrd Variable :=
  inferInstanceAs (Std.TransCmp (compareOn Variable.number))

instance : Std.LawfulEqOrd Variable where
  eq_of_compare {v w} h := by
    obtain ⟨m⟩ := v
    obtain ⟨n⟩ := w
    exact congrArg Variable.mk (Std.compare_eq_iff_eq.mp (show compare m n = .eq from h))

instance : LE Variable where
  le v w := v.number ≤ w.number

instance : LT Variable where
  lt v w := v.number < w.number

instance : DecidableLE Variable :=
  fun v w => inferInstanceAs (Decidable (v.number ≤ w.number))

instance : DecidableLT Variable :=
  fun v w => inferInstanceAs (Decidable (v.number < w.number))

theorem le_iff {v w : Variable} : v ≤ w ↔ v.number.toNat ≤ w.number.toNat :=
  UInt32.le_iff_toNat_le

theorem lt_iff {v w : Variable} : v < w ↔ v.number.toNat < w.number.toNat :=
  UInt32.lt_iff_toNat_lt

end Variable

end CircuitDraft
