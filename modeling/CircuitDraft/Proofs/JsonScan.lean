import CircuitDraft.Json.Token
import Mathlib.Data.List.Basic
import Mathlib.Data.List.TakeWhile

/-!
Text that is put together from punctuation, numbers and names, without blanks, is taken apart into
the tokens that it was put together from.
-/

namespace CircuitDraft.Json.Token

theorem head?_toDigits_ne_zero {n : Nat} (hpos : 0 < n) : (Nat.toDigits 10 n).head? ≠ some '0' := by
  induction n using Nat.strongRecOn with
  | ind n ih =>
      rcases Nat.lt_or_ge n 10 with hlt | hge
      · rw [Nat.toDigits_of_lt_base hlt]
        have hdigit : ∀ d < 10, 0 < d → [Nat.digitChar d].head? ≠ some '0' := by decide
        exact hdigit n hlt hpos
      · rw [Nat.toDigits_of_base_le (by decide) hge, List.head?_append_of_ne_nil _ Nat.toDigits_ne_nil]
        exact ih (n / 10) (by omega) (by omega)

theorem isDigit_of_mem {n : Nat} {c : Char} (hc : c ∈ Nat.toDigits 10 n) : c.isDigit = true :=
  Nat.isDigit_of_mem_toDigits (by decide) (by decide) hc

theorem afterDigits?_toDigits (n : Nat) : afterDigits? (Nat.toDigits 10 n) = some [] := by
  have htake : (Nat.toDigits 10 n).takeWhile Char.isDigit = Nat.toDigits 10 n :=
    List.takeWhile_eq_self_iff.mpr fun _ => isDigit_of_mem
  have hdrop : (Nat.toDigits 10 n).dropWhile Char.isDigit = [] :=
    List.dropWhile_eq_nil_iff.mpr fun _ => isDigit_of_mem
  rw [afterDigits?, htake, hdrop, if_neg]
  rw [List.isEmpty_iff]
  exact Nat.toDigits_ne_nil

theorem afterInteger?_toDigits (n : Nat) : afterInteger? (Nat.toDigits 10 n) = some [] := by
  rcases Nat.eq_zero_or_pos n with rfl | hpos
  · rfl
  · have hdigits := afterDigits?_toDigits n
    have hzero := head?_toDigits_ne_zero hpos
    have hsign : (Nat.toDigits 10 n).head? ≠ some '-' := by
      intro hhead
      exact absurd (isDigit_of_mem (List.mem_of_mem_head? hhead)) (by decide)
    -- The first digit is neither a sign nor a zero, which are read in other ways.
    generalize Nat.toDigits 10 n = digits at hdigits hzero hsign ⊢
    unfold afterInteger?
    split
    · exact absurd rfl hsign
    · exact absurd rfl hsign
    · exact absurd rfl hzero
    · exact hdigits

theorem ofWord?_toDigits (n : Nat) : ofWord? (Nat.toDigits 10 n) = some (.natural n) := by
  have hletter : ∀ (c : Char) (cs : List Char), c.isDigit = false → Nat.toDigits 10 n ≠ c :: cs := by
    intro c cs hc heq
    have hmem : c ∈ Nat.toDigits 10 n := heq ▸ List.mem_cons_self
    rw [isDigit_of_mem hmem] at hc
    cases hc
  have hnumber : isNumber (Nat.toDigits 10 n) = true := by
    rw [isNumber, afterInteger?_toDigits]
    rfl
  have hall : (Nat.toDigits 10 n).all Char.isDigit = true :=
    List.all_eq_true.mpr fun _ => isDigit_of_mem
  rw [ofWord?, if_neg (hletter _ _ (by decide)), if_neg (hletter _ _ (by decide)),
    if_neg (hletter _ _ (by decide)), if_pos hnumber, if_pos hall, Nat.ofDigitChars_ten_toDigits]

theorem isWordChar_of_isDigit {c : Char} (hc : c.isDigit = true) : isWordChar c = true := by
  simp [isWordChar, Char.isAlphanum, hc]

theorem isBlank_of_isDigit {c : Char} (hc : c.isDigit = true) : isBlank c = false := by
  rw [← Bool.not_eq_true]
  intro hblank
  simp only [isBlank, Bool.or_eq_true, beq_iff_eq] at hblank
  rcases hblank with ((rfl | rfl) | rfl) | rfl <;> exact absurd hc (by decide)

/-- A number ends where the next character is no part of it. -/
theorem scan_toDigits (n : Nat) {rest : List Char}
    (hrest : ∀ c ∈ rest.head?, isWordChar c = false) :
    scan (Nat.toDigits 10 n ++ rest) = (scan rest).map (.natural n :: ·) := by
  have hword := ofWord?_toDigits n
  have hdigit : ∀ c ∈ Nat.toDigits 10 n, c.isDigit = true := fun _ => isDigit_of_mem
  have htake : rest.takeWhile isWordChar = [] := by
    cases rest with
    | nil => rfl
    | cons c cs => exact List.takeWhile_cons_of_neg (Bool.eq_false_iff.mp (hrest c rfl))
  have hdrop : rest.dropWhile isWordChar = rest := by
    cases rest with
    | nil => rfl
    | cons c cs => exact List.dropWhile_cons_of_neg (Bool.eq_false_iff.mp (hrest c rfl))
  cases hdigits : Nat.toDigits 10 n with
  | nil => exact absurd hdigits Nat.toDigits_ne_nil
  | cons d ds =>
      rw [hdigits] at hword hdigit
      have hd : d.isDigit = true := hdigit d List.mem_cons_self
      have hds : ∀ c ∈ ds, isWordChar c = true := fun c hc =>
        isWordChar_of_isDigit (hdigit c (List.mem_cons_of_mem d hc))
      have hquote : d ≠ '"' := by
        rintro rfl
        exact absurd hd (by decide)
      rw [List.cons_append, scan, isBlank_of_isDigit hd, if_neg Bool.false_ne_true, if_neg hquote,
        if_pos (isWordChar_of_isDigit hd), List.takeWhile_append_of_pos hds, htake, List.append_nil,
        List.dropWhile_append_of_pos hds, hdrop, hword]

theorem scan_cons_of_punctuation {c : Char} {t : Token} (ht : ofPunctuation? c = some t)
    (rest : List Char) : scan (c :: rest) = (scan rest).map (t :: ·) := by
  unfold ofPunctuation? at ht
  split at ht <;> cases ht
  all_goals
    rw [scan]
    rfl

/-- A character that stands for itself in a string. -/
def IsPlain (c : Char) : Prop :=
  0x20 ≤ c.toNat ∧ c ≠ '"' ∧ c ≠ '\\'

instance (c : Char) : Decidable (IsPlain c) :=
  inferInstanceAs (Decidable (_ ∧ _ ∧ _))

theorem scanText_append {name : List Char} (hplain : ∀ c ∈ name, IsPlain c) (rest : List Char) :
    scanText (name ++ '"' :: rest) = some (name.map .char, rest) := by
  induction name with
  | nil => rfl
  | cons c cs ih =>
      obtain ⟨⟨hprints, hquote, hbackslash⟩, hcs⟩ := List.forall_mem_cons.mp hplain
      have hplain : ¬(c.toNat < 0x20 ∨ c = '\\') :=
        not_or.mpr ⟨Nat.not_lt.mpr hprints, hbackslash⟩
      rw [List.cons_append, scanText.eq_def]
      split
      · next heq => cases heq
      · next heq => exact absurd (List.cons.inj heq).1 hquote
      · next heq => exact absurd (List.cons.inj heq).1 hbackslash
      · next heq => exact absurd (List.cons.inj heq).1 hbackslash
      · next heq =>
        obtain ⟨rfl, rfl⟩ := List.cons.inj heq
        rw [if_neg hplain, ih hcs]
        rfl

theorem scan_name {name : List Char} (hplain : ∀ c ∈ name, IsPlain c) (rest : List Char) :
    scan ('"' :: (name ++ '"' :: rest)) = (scan rest).map (.text (name.map .char) :: ·) := by
  have hblank : isBlank '"' = false := by decide
  rw [scan, hblank, if_neg Bool.false_ne_true, if_pos rfl]
  split
  · next heq =>
    rw [scanText_append hplain] at heq
    cases heq
  · next heq =>
    rw [scanText_append hplain] at heq
    cases heq
    rfl

end CircuitDraft.Json.Token
