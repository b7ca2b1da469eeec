import CircuitDraft.Arena
import Mathlib.Data.List.Nodup

namespace CircuitDraft.Arena

variable {κ α : Type} [Ord κ]

/-- The index leads from each key to the one position whose value carries that key. -/
def Indexed (arena : Arena κ α) (keyOf : α → κ) : Prop :=
  ∀ key slot, arena.slots[key]? = some slot ↔ arena.entries[slot]?.map keyOf = some key

/-- Putting a computed value in the place of the one it is computed from is a change of that value
in its place. -/
theorem modify_const_of_find? (arena : Arena κ α) (key : κ) (f : α → α) {a : α}
    (h : arena.find? key = some a) :
    arena.modify key (fun _ => f a) = arena.modify key f := by
  obtain ⟨slot, hslot, ha⟩ := Option.bind_eq_some_iff.mp h
  have hentries : arena.entries.modify slot (fun _ => f a) = arena.entries.modify slot f := by
    apply Array.ext_getElem?
    intro i
    rw [Array.getElem?_modify, Array.getElem?_modify]
    split
    · next hi =>
      subst hi
      simp [ha]
    · rfl
  simp only [modify, hslot, hentries]

theorem slots_modify (arena : Arena κ α) (key : κ) (f : α → α) :
    (arena.modify key f).slots = arena.slots := by
  rw [modify]
  split <;> rfl

theorem modify_of_none {arena : Arena κ α} {key : κ} (hslot : arena.slots[key]? = none)
    (f : α → α) : arena.modify key f = arena := by
  simp only [modify, hslot]

/-- Two changes of values, which may be the same value, can be made in either order. -/
theorem modify_comm (arena : Arena κ α) (key key' : κ) {f g : α → α}
    (hcomm : ∀ a, f (g a) = g (f a)) :
    (arena.modify key f).modify key' g = (arena.modify key' g).modify key f := by
  cases hslot : arena.slots[key]? with
  | none => rw [modify_of_none hslot f, modify_of_none (by rwa [slots_modify]) f]
  | some slot =>
      cases hslot' : arena.slots[key']? with
      | none => rw [modify_of_none hslot' g, modify_of_none (by rwa [slots_modify]) g]
      | some slot' =>
          have hentries : (arena.entries.modify slot f).modify slot' g =
              (arena.entries.modify slot' g).modify slot f := by
            apply Array.ext_getElem?
            intro i
            have hcomp : f ∘ g = g ∘ f := funext hcomm
            simp only [Array.getElem?_modify]
            split <;> split <;> simp [hcomp]
          simp only [modify, hslot, hslot', hentries]

theorem indexed_empty [Std.TransOrd κ] (keyOf : α → κ) : ({} : Arena κ α).Indexed keyOf := by
  intro key slot
  simp

namespace Indexed

variable {arena : Arena κ α} {keyOf : α → κ}

theorem slots_getElem? (h : arena.Indexed keyOf) {slot : Nat} {a : α}
    (ha : arena.entries[slot]? = some a) : arena.slots[keyOf a]? = some slot := by
  rw [h, ha]
  rfl

theorem nodup_keys (h : arena.Indexed keyOf) : (arena.entries.toList.map keyOf).Nodup := by
  rw [List.Nodup, List.pairwise_map, List.pairwise_iff_getElem]
  intro i j hi hj hij hkey
  have hslot := h.slots_getElem? (getElem?_pos arena.entries i hi)
  have hslot' := h.slots_getElem? (getElem?_pos arena.entries j hj)
  rw [Array.getElem_toList, Array.getElem_toList] at hkey
  rw [hkey, hslot'] at hslot
  exact Nat.ne_of_lt hij (Option.some.inj hslot).symm

theorem find?_eq_some_iff (h : arena.Indexed keyOf) {key : κ} {a : α} :
    arena.find? key = some a ↔ a ∈ arena.entries.toList ∧ keyOf a = key := by
  rw [find?, Option.bind_eq_some_iff]
  constructor
  · rintro ⟨slot, hslot, ha⟩
    rw [h, ha] at hslot
    exact ⟨Array.mem_toList_iff.mpr (Array.mem_of_getElem? ha), Option.some.inj hslot⟩
  · rintro ⟨hmem, rfl⟩
    obtain ⟨slot, ha⟩ := Array.getElem?_of_mem (Array.mem_toList_iff.mp hmem)
    exact ⟨slot, h.slots_getElem? ha, ha⟩

/-- Finding a key by the index is finding it by a search through all values. -/
theorem find?_eq_find? [DecidableEq κ] (h : arena.Indexed keyOf) (key : κ) :
    arena.find? key = arena.entries.toList.find? fun a => keyOf a = key := by
  cases hfound : arena.entries.toList.find? fun a => keyOf a = key with
  | none =>
      rw [Option.eq_none_iff_forall_ne_some]
      intro a ha
      obtain ⟨hmem, hkey⟩ := h.find?_eq_some_iff.mp ha
      exact List.find?_eq_none.mp hfound a hmem (decide_eq_true hkey)
  | some a =>
      have hkey := List.find?_some hfound
      exact h.find?_eq_some_iff.mpr
        ⟨List.mem_of_find?_eq_some hfound, of_decide_eq_true hkey⟩

theorem contains_iff [Std.TransOrd κ] (h : arena.Indexed keyOf) {key : κ} :
    arena.contains key = true ↔ key ∈ arena.entries.toList.map keyOf := by
  rw [contains, Std.TreeMap.contains_eq_isSome_getElem?, Option.isSome_iff_exists,
    List.mem_iff_getElem?]
  simp only [h key, List.getElem?_map, Array.getElem?_toList]

theorem find?_eq_none_iff [Std.TransOrd κ] (h : arena.Indexed keyOf) {key : κ} :
    arena.find? key = none ↔ arena.contains key = false := by
  rw [← Bool.not_eq_true, h.contains_iff, Option.eq_none_iff_forall_ne_some, List.mem_map,
    not_exists]
  exact forall_congr' fun a => not_congr h.find?_eq_some_iff

theorem find?_first (h : arena.Indexed keyOf) (size_pos : 0 < arena.size) :
    arena.find? (keyOf (arena.first size_pos)) = some (arena.first size_pos) :=
  h.find?_eq_some_iff.mpr ⟨Array.getElem_mem_toList size_pos, rfl⟩

theorem modifyFirst_eq (h : arena.Indexed keyOf) (size_pos : 0 < arena.size) {key : κ}
    (hkey : keyOf (arena.first size_pos) = key) (f : α → α) :
    arena.modifyFirst f = arena.modify key f := by
  have hfirst : arena.entries[0]? = some (arena.first size_pos) :=
    getElem?_pos arena.entries 0 size_pos
  simp only [modifyFirst, modify, ← hkey, h.slots_getElem? hfirst]

theorem push [Std.TransOrd κ] [Std.LawfulEqOrd κ] (h : arena.Indexed keyOf) (a : α)
    (hfree : arena.contains (keyOf a) = false) : (arena.push (keyOf a) a).Indexed keyOf := by
  have hout : arena.entries[arena.entries.size]? = none :=
    Array.getElem?_eq_none (Nat.le_refl _)
  have hnew : ∀ slot, arena.slots[keyOf a]? ≠ some slot := by
    intro slot hslot
    rw [contains, Std.TreeMap.contains_eq_isSome_getElem?, hslot] at hfree
    cases hfree
  intro key slot
  simp only [Arena.push, Std.TreeMap.getElem?_insert, Array.getElem?_push]
  by_cases hlast : slot = arena.entries.size
  · rw [if_pos hlast]
    subst hlast
    split
    · next hcompare =>
      simp [Std.compare_eq_iff_eq.mp hcompare]
    · next hcompare =>
      rw [h, hout]
      simpa using fun heq => hcompare (Std.compare_eq_iff_eq.mpr heq)
  · rw [if_neg hlast]
    split
    · next hcompare =>
      rw [← Std.compare_eq_iff_eq.mp hcompare, ← h]
      exact iff_of_false (fun heq => hlast (Option.some.inj heq).symm) (hnew slot)
    · exact h key slot

theorem toList_modify [DecidableEq κ] (h : arena.Indexed keyOf) (key : κ) (f : α → α) :
    (arena.modify key f).entries.toList =
      arena.entries.toList.map fun a => if keyOf a = key then f a else a := by
  apply List.ext_getElem?
  intro i
  rw [List.getElem?_map, Array.getElem?_toList, Array.getElem?_toList]
  cases ha : arena.entries[i]? with
  | none =>
      simp only [modify]
      split <;> simp [Array.getElem?_modify, ha]
  | some a =>
      have hkey : arena.slots[key]? = some i ↔ keyOf a = key := by
        rw [h, ha]
        simp
      simp only [modify]
      split
      · next slot hslot =>
        rw [hslot, Option.some.injEq] at hkey
        simp only [Array.getElem?_modify, ha, hkey, Option.map_some]
        split <;> rfl
      · next hslot =>
        rw [hslot] at hkey
        have hne : keyOf a ≠ key := by
          intro heq
          cases hkey.mpr heq
        simp [ha, hne]

theorem modify [DecidableEq κ] (h : arena.Indexed keyOf) (key : κ) (f : α → α)
    (hf : ∀ a, keyOf a = key → keyOf (f a) = key) : (arena.modify key f).Indexed keyOf := by
  have hkeys : (keyOf ∘ fun a => if keyOf a = key then f a else a) = keyOf := by
    funext a
    simp only [Function.comp_apply]
    split
    · next hkey => rw [hf a hkey, hkey]
    · rfl
  intro key' slot
  rw [slots_modify, h, ← Array.getElem?_toList, ← Array.getElem?_toList, h.toList_modify,
    List.getElem?_map, Option.map_map, hkeys]

/-- A change is the same before and after a value is added under another key. -/
theorem modify_push [Std.TransOrd κ] [Std.LawfulEqOrd κ] (h : arena.Indexed keyOf)
    {key added : κ} (hne : added ≠ key) (f : α → α) (a : α) :
    (arena.push added a).modify key f = (arena.modify key f).push added a := by
  have hslots : (arena.push added a).slots[key]? = arena.slots[key]? := by
    rw [Arena.push, Std.TreeMap.getElem?_insert, if_neg]
    exact fun hcompare => hne (Std.compare_eq_iff_eq.mp hcompare)
  cases hslot : arena.slots[key]? with
  | none => rw [modify_of_none hslot, modify_of_none (hslots.trans hslot)]
  | some slot =>
      have hlt : slot < arena.entries.size := by
        have hkey := (h key slot).mp hslot
        by_contra hge
        rw [Array.getElem?_eq_none (Nat.le_of_not_lt hge)] at hkey
        cases hkey
      have hentries : (arena.entries.push a).modify slot f =
          (arena.entries.modify slot f).push a := by
        apply Array.ext_getElem?
        intro i
        rw [Array.getElem?_modify, Array.getElem?_push, Array.getElem?_push, Array.size_modify,
          Array.getElem?_modify]
        split
        · next hi => simp [← hi, Nat.ne_of_lt hlt]
        · rfl
      simp only [Arena.modify, hslots, hslot]
      simp only [Arena.push, hentries, Array.size_modify]

end Indexed

end CircuitDraft.Arena
