import Mathlib.Algebra.Ring.Nat
import CircuitDraft.BuildError
import CircuitDraft.Proofs.Texts

/-!
A refusal can be told from its message: taken apart at its blanks, a message gives back the words it
was put together from, and no two refusals have the same words.
-/

namespace CircuitDraft

theorem blank_notMem_toDigits (n : Nat) : ' ' ∉ Nat.toDigits 10 n := by
  intro hmem
  exact absurd (Nat.isDigit_of_mem_toDigits (by decide) (by decide) hmem) (by decide)

theorem Variable.blank_notMem_text (v : Variable) : ' ' ∉ v.text.toList := by
  simp [text, blank_notMem_toDigits]

namespace CircuitId

variable {id : CircuitId}

theorem blank_notMem_text (id : CircuitId) : ' ' ∉ id.text.toList := by
  rw [text]
  split <;> simp [blank_notMem_toDigits]

theorem blank_notMem_longText (id : CircuitId) : ' ' ∉ id.longText.toList := by
  simp [longText, blank_notMem_toDigits]

theorem longText_inj {a b : CircuitId} : a.longText = b.longText ↔ a = b := by
  rw [longText, longText, String.append_left_inj, String.append_right_inj, repr_injective.eq_iff]
  constructor
  · exact eq_of_toNat_eq
  · rintro rfl
    rfl

theorem toNat_firstReserved : firstReserved.key.toNat = 2 ^ 63 :=
  rfl

theorem isReserved_iff_le_toNat : id.isReserved = true ↔ 2 ^ 63 ≤ id.key.toNat :=
  isReserved_iff

/-- What follows the letters that all identities begin with decides the family. -/
theorem text_eq_append_iff {rest : String} :
    id.text = "sc" ++ rest ↔
      id.key.toNat < 2 ^ 63 ∧ Nat.repr id.key.toNat = rest ∨
        2 ^ 63 ≤ id.key.toNat ∧ "#" ++ Nat.repr (id.key.toNat - 2 ^ 63) = rest := by
  cases hid : id.isReserved with
  | false =>
      have hlt : ¬ 2 ^ 63 ≤ id.key.toNat := mt isReserved_iff_le_toNat.mpr (Bool.eq_false_iff.mp hid)
      rw [text_of_key hid, String.append_right_inj]
      simp only [hlt, Nat.lt_of_not_le hlt, true_and, false_and, or_false]
  | true =>
      have hle := isReserved_iff_le_toNat.mp hid
      rw [text_of_reserved hid, String.append_right_inj, toNat_firstReserved]
      simp only [hle, Nat.not_lt.mpr hle, true_and, false_and, false_or]

theorem text_eq_key_iff {n : Nat} :
    id.text = "sc" ++ Nat.repr n ↔ n < 2 ^ 63 ∧ id.key.toNat = n := by
  have hsign : "#" ++ Nat.repr (id.key.toNat - 2 ^ 63) ≠ Nat.repr n :=
    (repr_ne_append_repr _ _).symm
  rw [text_eq_append_iff, repr_injective.eq_iff]
  simp only [hsign, and_false, or_false]
  omega

theorem text_eq_reserved_iff {n : Nat} :
    id.text = "sc#" ++ Nat.repr n ↔ id.key.toNat = 2 ^ 63 + n := by
  have hletters : "sc#" ++ Nat.repr n = "sc" ++ ("#" ++ Nat.repr n) := by
    rw [← String.append_assoc]
    rfl
  rw [hletters, text_eq_append_iff, String.append_right_inj, repr_injective.eq_iff]
  simp only [repr_ne_append_repr, and_false, false_or]
  omega

/-- The distance to the first reserved identity, which is taken modulo the number of all identities,
is exact for those that are reserved and for no others. -/
theorem toNat_sub_firstReserved_iff :
    2 ^ 63 + (id.key - firstReserved.key).toNat = id.key.toNat ↔ id.isReserved = true := by
  have hlt := id.key.toNat_lt
  rw [isReserved_iff_le_toNat, UInt64.toNat_sub, toNat_firstReserved]
  omega

/-- The text of an identity names its family and its number there, which no other identity has. The
number of a reserved one is found without going below zero. -/
structure NamedByFamily (id : CircuitId) : Prop where
  text_eq_key_iff : ∀ n, id.text = "sc" ++ Nat.repr n ↔ n < 2 ^ 63 ∧ id.key.toNat = n
  text_eq_reserved_iff : ∀ n, id.text = "sc#" ++ Nat.repr n ↔ id.key.toNat = 2 ^ 63 + n
  text_ne : ∀ other : CircuitId, other.isReserved ≠ id.isReserved → other.text ≠ id.text
  text_eq_iff : ∀ other : CircuitId, other.text = id.text ↔ other = id
  toNat_sub_iff :
    2 ^ 63 + (id.key - firstReserved.key).toNat = id.key.toNat ↔ id.isReserved = true

theorem namedByFamily (id : CircuitId) : id.NamedByFamily where
  text_eq_key_iff _ := text_eq_key_iff
  text_eq_reserved_iff _ := text_eq_reserved_iff
  text_ne _ hfamily htext := hfamily (congrArg isReserved (text_inj.mp htext))
  text_eq_iff _ := text_inj
  toNat_sub_iff := toNat_sub_firstReserved_iff

end CircuitId

namespace BuildError

/-- The words of a message, which is these with one blank between any two. -/
def words : BuildError → List String
  | unsupportedField requested supported =>
      ["Unsupported", "field:", "requested", "modulus", Nat.repr requested ++ ",", "only",
        Nat.repr supported, "is", "supported"]
  | identityTaken id => ["Sub-circuit", "identity", id.text, "is", "already", "registered"]
  | unknownCircuit id => ["Sub-circuit", id.text, "not", "found"]
  | identityReserved id =>
      ["Sub-circuit", "identity", id.text, "is", "reserved", "for", "fresh", "sub-circuits"]
  | identitiesExhausted => ["Fresh", "sub-circuit", "identities", "exhausted"]
  | foreignVariable var id =>
      ["Variable", var.text, "is", "not", "allocated", "in", "sub-circuit", id.text]
  | variablesExhausted => ["Variable", "identifiers", "exhausted"]
  | identityMismatch own registered =>
      ["assertion", "`left", "==", "right`", "failed:", "sub-circuit", "scope", "must", "carry",
        "the", "identity", "it", "is", "registered", "under\n", "", "left:",
        own.longText ++ "\n", "right:", registered.longText]

theorem words_ne_nil (e : BuildError) : e.words ≠ [] := by
  cases e <;> exact List.cons_ne_nil _ _

theorem blank_notMem_words (e : BuildError) : ∀ word ∈ e.words, ' ' ∉ word.toList := by
  cases e <;> simp [words, blank_notMem_toDigits, Variable.blank_notMem_text,
    CircuitId.blank_notMem_text, CircuitId.blank_notMem_longText]

theorem message_eq_intercalate (e : BuildError) : e.message = " ".intercalate e.words := by
  -- Unfolded for all causes at once, as an equation for the longest text takes too long to derive.
  unfold message
  cases e <;> simp [words, String.append_assoc, ← String.toList_inj]

/-- The words are read back from the message. -/
theorem split_message (e : BuildError) : (e.message.split ' ').toList.map (·.copy) = e.words := by
  rw [message_eq_intercalate]
  exact (String.toList_split_intercalate e.blank_notMem_words).trans (if_neg e.words_ne_nil)

theorem words_injective : Function.Injective words := by
  intro e e' h
  cases e <;> cases e' <;>
    simp_all [words, repr_injective.eq_iff, Variable.text_inj, CircuitId.text_inj,
      CircuitId.longText_inj]

theorem message_inj {e e' : BuildError} : e.message = e'.message ↔ e = e' := by
  constructor
  · intro h
    apply words_injective
    rw [← split_message e, ← split_message e', h]
  · rintro rfl
    rfl

/-- A refusal and all that it is about can be told from its message, and an identity from its text. -/
theorem identifiedByMessage :
    (∀ e e' : BuildError, e.message = e'.message ↔ e = e') ∧ ∀ id : CircuitId, id.NamedByFamily :=
  ⟨fun _ _ => message_inj, CircuitId.namedByFamily⟩

-- Where the two families of identities are next to each other, their texts are not.
example : (identityTaken ⟨0x7fffffffffffffff⟩).message =
      "Sub-circuit identity sc9223372036854775807 is already registered" ∧
    (identityTaken .firstReserved).message =
      "Sub-circuit identity sc#0 is already registered" := by
  decide +kernel

end BuildError

end CircuitDraft
