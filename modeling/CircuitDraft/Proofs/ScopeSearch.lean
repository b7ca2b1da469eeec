import CircuitDraft.Scope
import Mathlib.Data.List.Basic

namespace CircuitDraft

namespace Scope

variable {vars : Array Variable} {var : Variable}

theorem le_of_ascending (hascending : vars.toList.Pairwise (· ≤ ·)) {i j : Nat} (hij : i < j)
    (hj : j < vars.size) : vars[i] ≤ vars[j] := by
  have hle := List.pairwise_iff_getElem.mp hascending i j (Nat.lt_trans hij hj) hj hij
  rwa [Array.getElem_toList, Array.getElem_toList] at hle

theorem mem_of_search {start count : Nat} {within : start + count ≤ vars.size}
    (h : search vars var start count within = true) : var ∈ vars := by
  fun_induction search vars var start count within with
  | case1 start count within hcount hle ih => exact ih h
  | case2 start count within hcount hle ih => exact ih h
  | case3 start count within hcount => exact Array.mem_of_getElem? (eq_of_beq h)

theorem search_of_getElem (hascending : vars.toList.Pairwise (· ≤ ·)) {start count : Nat}
    {within : start + count ≤ vars.size} {i : Nat} (hi : i < vars.size) (hvar : vars[i] = var)
    (hstart : start ≤ i) (hend : i < start + count) :
    search vars var start count within = true := by
  fun_induction search vars var start count within generalizing i with
  | case1 start count within hcount hle ih =>
      rcases Nat.lt_or_ge i (start + count / 2) with hlt | hge
      · -- The place `i` is given up, but then the middle entry is the variable as well.
        have hge' : var ≤ vars[start + count / 2] := by
          rw [← hvar]
          exact le_of_ascending hascending hlt _
        have hmiddle : vars[start + count / 2] = var :=
          Variable.eq_of_toNat_eq
            (Nat.le_antisymm (Variable.le_iff.mp hle) (Variable.le_iff.mp hge'))
        exact ih _ hmiddle (Nat.le_refl _) (by omega)
      · exact ih hi hvar hge (by omega)
  | case2 start count within hcount hlt ih =>
      have hbefore : i < start + count / 2 := by
        apply Nat.lt_of_not_le
        intro hge
        rcases Nat.eq_or_lt_of_le hge with rfl | hgt
        · exact hlt (Variable.le_iff.mpr (Nat.le_of_eq (by rw [hvar])))
        · rw [← hvar] at hlt
          exact hlt (le_of_ascending hascending hgt hi)
      exact ih hi hvar hstart (by omega)
  | case3 start count within hcount =>
      obtain rfl : i = start := by omega
      simp [hi, hvar]

/-- In an ascending list, not necessarily strictly so, the search finds what is there. -/
theorem contains_iff_mem {scope : Scope} (hascending : scope.vars.toList.Pairwise (· ≤ ·)) :
    scope.contains var = true ↔ var ∈ scope.vars := by
  constructor
  · exact mem_of_search
  · intro hmem
    obtain ⟨i, hi, hvar⟩ := Array.mem_iff_getElem.mp hmem
    exact search_of_getElem hascending hi hvar (Nat.zero_le i) (by omega)

end Scope

end CircuitDraft
