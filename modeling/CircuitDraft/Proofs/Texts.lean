import Mathlib.Logic.Function.Basic
import CircuitDraft.Event

/-!
The texts that name variables, identities and origins are different for different ones, and so is
what an observer is shown of an event.
-/

namespace CircuitDraft

/-- A number can be read back from its digits. -/
theorem ofDigitChars_repr (n : Nat) : Nat.ofDigitChars 10 (Nat.repr n).toList 0 = n := by
  rw [Nat.toList_repr, Nat.ofDigitChars_ten_toDigits]

theorem repr_injective : Function.Injective Nat.repr := by
  intro m n h
  rw [← ofDigitChars_repr m, h, ofDigitChars_repr]

theorem Variable.text_inj {v w : Variable} : v.text = w.text ↔ v = w := by
  rw [text, text, String.append_right_inj, repr_injective.eq_iff]
  constructor
  · exact eq_of_toNat_eq
  · rintro rfl
    rfl

theorem Origin.text_inj {a b : Origin} : a.text = b.text ↔ a = b := by
  cases a <;> cases b <;> decide

namespace CircuitId

variable {a b : CircuitId}

theorem text_of_key (hkey : a.isReserved = false) : a.text = "sc" ++ Nat.repr a.key.toNat := by
  rw [text, hkey, if_neg Bool.false_ne_true]

theorem text_of_reserved (hreserved : a.isReserved = true) :
    a.text = "sc" ++ ("#" ++ Nat.repr (a.key.toNat - firstReserved.key.toNat)) := by
  have hle : firstReserved.key ≤ a.key := UInt64.le_iff_toNat_le.mpr (isReserved_iff.mp hreserved)
  rw [text, if_pos hreserved, UInt64.toNat_sub_of_le _ _ hle, ← String.append_assoc]
  rfl

/-- The sign that marks a reserved identity is no digit. -/
theorem repr_ne_append_repr (m n : Nat) : Nat.repr m ≠ "#" ++ Nat.repr n := by
  intro h
  have hmem : '#' ∈ (Nat.repr m).toList := by
    rw [h, String.toList_append]
    exact List.mem_append_left _ List.mem_cons_self
  rw [Nat.toList_repr] at hmem
  exact absurd (Nat.isDigit_of_mem_toDigits (by decide) (by decide) hmem) (by decide)

theorem text_ne_of_reserved (hkey : a.isReserved = false) (hreserved : b.isReserved = true) :
    a.text ≠ b.text := by
  rw [text_of_key hkey, text_of_reserved hreserved, Ne, String.append_right_inj]
  exact repr_ne_append_repr _ _

theorem text_injective : Function.Injective text := by
  intro a b h
  cases ha : a.isReserved with
  | false =>
      cases hb : b.isReserved with
      | false =>
          rw [text_of_key ha, text_of_key hb, String.append_right_inj, repr_injective.eq_iff] at h
          exact eq_of_toNat_eq h
      | true => exact absurd h (text_ne_of_reserved ha hb)
  | true =>
      cases hb : b.isReserved with
      | false => exact absurd h.symm (text_ne_of_reserved hb ha)
      | true =>
          rw [text_of_reserved ha, text_of_reserved hb, String.append_right_inj,
            String.append_right_inj, repr_injective.eq_iff] at h
          have hle := isReserved_iff.mp ha
          have hle' := isReserved_iff.mp hb
          exact eq_of_toNat_eq (by omega)

theorem text_inj : a.text = b.text ↔ a = b :=
  text_injective.eq_iff

end CircuitId

namespace Event

/-- What an observer is shown of an event: its message and the texts of its values. -/
def seen (event : Event) : Option String × List (String × String) :=
  (event.message?, event.fields)

theorem seen_injective : Function.Injective seen := by
  rintro (_ | _ | _ | ⟨_, _, _, _⟩ | _ | _ | _ | _ | _ | _ | _) e' h
  all_goals
    rcases e' with (_ | _ | _ | ⟨_, _, _, _⟩ | _ | _ | _ | _ | _ | _ | _)
    all_goals
      simp_all [seen, message?, fields, Variable.text_inj, Origin.text_inj, CircuitId.text_inj,
        repr_injective.eq_iff]

end Event

end CircuitDraft
