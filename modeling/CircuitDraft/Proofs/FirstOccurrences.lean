import Mathlib.Data.List.Basic
import Mathlib.Data.List.Induction

/-!
The distinct members of a list, in order of first occurrence.
-/

namespace CircuitDraft

variable {α : Type} [DecidableEq α]

theorem eraseDups_concat_of_mem {xs : List α} {x : α} (hx : x ∈ xs) :
    (xs ++ [x]).eraseDups = xs.eraseDups := by
  simp [List.eraseDups_append, List.removeAll, hx]

theorem eraseDups_concat_of_notMem {xs : List α} {x : α} (hx : x ∉ xs) :
    (xs ++ [x]).eraseDups = xs.eraseDups ++ [x] := by
  simp [List.eraseDups_append, List.removeAll, List.eraseDups_cons, hx]

/-- Of what is appended, only members that were not there before count. -/
theorem eraseDups_append_eq (xs ys : List α) :
    (xs ++ ys).eraseDups = xs.eraseDups ++ (ys.filter fun y => y ∉ xs).eraseDups := by
  rw [List.eraseDups_append, List.removeAll]
  simp only [List.elem_eq_contains, List.contains_eq_mem, decide_not]

theorem eraseDups_of_nodup {xs : List α} (hnodup : xs.Nodup) : xs.eraseDups = xs := by
  induction xs with
  | nil => rfl
  | cons x rest ih =>
      obtain ⟨hhead, hrest⟩ := List.nodup_cons.mp hnodup
      have hfilter : (rest.filter fun y => !y == x) = rest := by
        rw [List.filter_eq_self]
        rintro y hy
        have hne : y ≠ x := by
          rintro rfl
          exact hhead hy
        simpa using hne
      rw [List.eraseDups_cons, hfilter, ih hrest]

theorem eraseDups_eraseDups (xs : List α) : xs.eraseDups.eraseDups = xs.eraseDups := by
  induction xs using List.reverseRecOn with
  | nil => rfl
  | append_singleton xs x ih =>
      by_cases hx : x ∈ xs
      · rw [eraseDups_concat_of_mem hx, ih]
      · have hlate : x ∉ xs.eraseDups := mt List.mem_eraseDups.mp hx
        rw [eraseDups_concat_of_notMem hx, eraseDups_concat_of_notMem hlate, ih]

theorem pairwise_idxOf_eraseDups (xs : List α) :
    xs.eraseDups.Pairwise fun x y => xs.idxOf x < xs.idxOf y := by
  induction xs using List.reverseRecOn with
  | nil => exact .nil
  | append_singleton xs x ih =>
      have hkept : xs.eraseDups.Pairwise fun y z => (xs ++ [x]).idxOf y < (xs ++ [x]).idxOf z := by
        apply ih.imp_of_mem
        intro y z hy hz hlt
        rwa [List.idxOf_append_of_mem (List.mem_eraseDups.mp hy),
          List.idxOf_append_of_mem (List.mem_eraseDups.mp hz)]
      by_cases hx : x ∈ xs
      · rwa [eraseDups_concat_of_mem hx]
      · rw [eraseDups_concat_of_notMem hx, List.pairwise_append]
        refine ⟨hkept, List.pairwise_singleton _ _, ?_⟩
        intro y hy z hz
        obtain rfl := List.mem_singleton.mp hz
        have hold : y ∈ xs := List.mem_eraseDups.mp hy
        rw [List.idxOf_append_of_mem hold, List.idxOf_append_of_notMem hx]
        exact Nat.lt_of_lt_of_le (List.idxOf_lt_length_of_mem hold) (Nat.le_add_right _ _)

theorem nodup_eraseDups (xs : List α) : xs.eraseDups.Nodup := by
  apply (pairwise_idxOf_eraseDups xs).imp
  rintro x y hlt rfl
  exact Nat.lt_irrefl _ hlt

theorem filter_eraseDups (p : α → Bool) (xs : List α) :
    xs.eraseDups.filter p = (xs.filter p).eraseDups := by
  induction xs using List.reverseRecOn with
  | nil => rfl
  | append_singleton xs x ih =>
      rw [List.filter_append, List.filter_singleton]
      by_cases hx : x ∈ xs
      · rw [eraseDups_concat_of_mem hx, ih]
        cases hp : p x with
        | false => rw [Bool.cond_false, List.append_nil]
        | true =>
            have hkept : x ∈ xs.filter p := List.mem_filter.mpr ⟨hx, hp⟩
            rw [Bool.cond_true, eraseDups_concat_of_mem hkept]
      · rw [eraseDups_concat_of_notMem hx, List.filter_append, List.filter_singleton, ih]
        cases hp : p x with
        | false => rw [Bool.cond_false, List.append_nil, List.append_nil]
        | true =>
            have hlate : x ∉ xs.filter p := fun h => hx (List.mem_filter.mp h).1
            rw [Bool.cond_true, eraseDups_concat_of_notMem hlate]

theorem filter_eraseDups_append (p : α → Bool) (xs ys : List α) :
    (xs ++ ys).eraseDups.filter p =
      xs.eraseDups.filter p ++ ((ys.filter fun y => y ∉ xs).filter p).eraseDups := by
  rw [eraseDups_append_eq, List.filter_append, filter_eraseDups p (ys.filter _)]

end CircuitDraft
