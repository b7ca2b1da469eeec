import CircuitDraft.PrimeField

/-!
How elements of a field are stored: as their product with a fixed radix, in a word of 32 bits. That
is wide enough for two of the fields. A word need not be reduced modulo the modulus, so an element
can have several.
-/

namespace CircuitDraft.PrimeField

/-- The factor between an element and its words: `2 ^ 32`. -/
def radix : Nat :=
  UInt32.size

/-- Whether each element of a field has a word of its own. -/
def FitsWord (K : PrimeField) : Prop :=
  K.modulus ≤ UInt32.size

instance (K : PrimeField) : Decidable K.FitsWord :=
  inferInstanceAs (Decidable (K.modulus ≤ UInt32.size))

theorem fitsWord_iff {K : PrimeField} : K.FitsWord ↔ K = babyBear ∨ K = koalaBear := by
  cases K <;> decide

/-- The square of the modulus less one is one modulo the modulus, and a multiple of the radix. -/
def inverseRadix (K : PrimeField) : Nat :=
  (K.modulus - 1) * (K.modulus - 1) / radix

theorem radix_mul_inverseRadix (K : PrimeField) : radix * K.inverseRadix % K.modulus = 1 := by
  cases K <;> rfl

/-- A word that stores an element of the field, reduced or not, provided that the field fits. -/
structure Word (K : PrimeField) where
  val : UInt32
deriving DecidableEq

variable {K : PrimeField}

theorem mul_mod_mul_inverse {m n : Nat} (hinverse : m * n % K.modulus = 1) (k : Nat) :
    k * m % K.modulus * n % K.modulus = k % K.modulus := by
  rw [Nat.mod_mul_mod, Nat.mul_assoc, Nat.mul_mod, hinverse, Nat.mul_one, Nat.mod_mod]

def Word.toElement (w : K.Word) : K.Element :=
  .ofNat (w.val.toNat * K.inverseRadix)

/-- The reduced word of an element of a field that fits. -/
def Element.toWord (a : K.Element) : K.Word :=
  ⟨.ofNat (a.val * radix % K.modulus)⟩

theorem Element.val_toWord (hfits : K.FitsWord) (a : K.Element) :
    a.toWord.val.toNat = a.val * radix % K.modulus :=
  UInt32.toNat_ofNat_of_lt' (Nat.lt_of_lt_of_le (Nat.mod_lt _ K.modulus_pos) hfits)

theorem Element.toElement_toWord (hfits : K.FitsWord) (a : K.Element) : a.toWord.toElement = a := by
  apply Element.ext
  rw [Word.toElement, val_ofNat, val_toWord hfits, mul_mod_mul_inverse K.radix_mul_inverseRadix,
    Nat.mod_eq_of_lt a.val_lt]

end CircuitDraft.PrimeField
