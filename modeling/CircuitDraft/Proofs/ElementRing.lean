import Mathlib.Data.ZMod.Basic
import CircuitDraft.PrimeField

/-!
The elements of a field are the residues modulo its modulus, and so obey the laws of a commutative
ring.
-/

namespace CircuitDraft.PrimeField.Element

variable {K : PrimeField}

def toZMod (a : K.Element) : ZMod K.modulus :=
  a.val

theorem toZMod_injective : Function.Injective (toZMod : K.Element → ZMod K.modulus) := by
  intro a b h
  have hmod := (ZMod.natCast_eq_natCast_iff' a.val b.val K.modulus).mp h
  rw [Nat.mod_eq_of_lt a.val_lt, Nat.mod_eq_of_lt b.val_lt] at hmod
  exact ext hmod

theorem toZMod_ofNat (n : Nat) : (ofNat n : K.Element).toZMod = n :=
  ZMod.natCast_mod n K.modulus

theorem toZMod_ofInt (n : Int) : (ofInt n : K.Element).toZMod = n := by
  have hpos : (0 : Int) < K.modulus := Int.natCast_pos.mpr K.modulus_pos
  have hnonneg : 0 ≤ n % K.modulus := Int.emod_nonneg n (Int.ne_of_gt hpos)
  rw [ofInt, toZMod_ofNat, ← Int.cast_natCast, Int.toNat_of_nonneg hnonneg, ZMod.intCast_mod]

theorem toZMod_zero : (0 : K.Element).toZMod = 0 := by
  rw [toZMod, val_zero, Nat.cast_zero]

theorem toZMod_one : (1 : K.Element).toZMod = 1 := by
  rw [toZMod, val_one, Nat.cast_one]

theorem toZMod_add (a b : K.Element) : (a + b).toZMod = a.toZMod + b.toZMod :=
  (toZMod_ofNat _).trans (Nat.cast_add _ _)

theorem toZMod_mul (a b : K.Element) : (a * b).toZMod = a.toZMod * b.toZMod :=
  (toZMod_ofNat _).trans (Nat.cast_mul _ _)

/-- The complement of a representative stands for the negative of its residue. -/
theorem natCast_modulus_sub (a : K.Element) :
    ((K.modulus - a.val : Nat) : ZMod K.modulus) = -a.toZMod := by
  rw [Nat.cast_sub (Nat.le_of_lt a.val_lt), ZMod.natCast_self, zero_sub, toZMod]

theorem toZMod_neg (a : K.Element) : (-a).toZMod = -a.toZMod :=
  (toZMod_ofNat _).trans (natCast_modulus_sub a)

theorem toZMod_sub (a b : K.Element) : (a - b).toZMod = a.toZMod - b.toZMod := by
  refine (toZMod_ofNat _).trans ?_
  rw [Nat.cast_add, natCast_modulus_sub, sub_eq_add_neg]
  rfl

instance : NatCast K.Element :=
  ⟨ofNat⟩

instance : IntCast K.Element :=
  ⟨ofInt⟩

instance : SMul ℕ K.Element :=
  ⟨fun n a => ofNat (n * a.val)⟩

instance : SMul ℤ K.Element :=
  ⟨fun n a => ofInt (n * a.val)⟩

instance : Pow K.Element ℕ :=
  ⟨fun a n => ofNat (a.val ^ n)⟩

theorem toZMod_nsmul (n : ℕ) (a : K.Element) : (n • a).toZMod = n • a.toZMod := by
  refine (toZMod_ofNat _).trans ?_
  rw [Nat.cast_mul, nsmul_eq_mul, toZMod]

theorem toZMod_zsmul (n : ℤ) (a : K.Element) : (n • a).toZMod = n • a.toZMod := by
  refine (toZMod_ofInt _).trans ?_
  rw [Int.cast_mul, Int.cast_natCast, zsmul_eq_mul, toZMod]

theorem toZMod_npow (a : K.Element) (n : ℕ) : (a ^ n).toZMod = a.toZMod ^ n :=
  (toZMod_ofNat _).trans (Nat.cast_pow _ _)

instance : CommRing K.Element :=
  toZMod_injective.commRing toZMod toZMod_zero toZMod_one toZMod_add toZMod_mul toZMod_neg
    toZMod_sub toZMod_nsmul toZMod_zsmul toZMod_npow toZMod_ofNat toZMod_ofInt

end CircuitDraft.PrimeField.Element
