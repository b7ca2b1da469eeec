import Mathlib.Data.List.Prime
import Mathlib.NumberTheory.LucasPrimality
import Mathlib.Tactic.NormNum.Prime
import Mathlib.Tactic.ReduceModChar
import CircuitDraft.Proofs.ElementRing

/-!
The moduli are primes, so a product of elements is zero only if one of them is.
-/

namespace CircuitDraft.PrimeField

/-- A number is prime if the powers of some residue run through all residues but zero. The list
holds at least the prime factors of the number less one. -/
theorem prime_of_generator {p : ℕ} (g : ZMod p) (factors : List ℕ) (n : ℕ)
    (hprime : ∀ q ∈ factors, q.Prime) (hdvd : p - 1 ∣ factors.prod ^ n) (hone : g ^ (p - 1) = 1)
    (hne : ∀ q ∈ factors, g ^ ((p - 1) / q) ≠ 1) : p.Prime := by
  refine lucas_primality p g hone fun q hq hfactor => hne q ?_
  have hprod : q ∣ factors.prod := hq.dvd_of_dvd_pow (hfactor.trans hdvd)
  exact mem_list_primes_of_dvd_prod hq.prime (fun r hr => (hprime r hr).prime) hprod

theorem modulus_prime (K : PrimeField) : K.modulus.Prime := by
  cases K with
  | babyBear =>
      refine prime_of_generator (p := 2013265921) 31 [2, 3, 5] 27 (by norm_num) (by norm_num)
        (by reduce_mod_char) ?_
      norm_num only [List.forall_mem_cons, List.forall_mem_nil]
      reduce_mod_char
      decide
  | koalaBear =>
      refine prime_of_generator (p := 2130706433) 3 [2, 127] 24 (by norm_num) (by norm_num)
        (by reduce_mod_char) ?_
      norm_num only [List.forall_mem_cons, List.forall_mem_nil]
      reduce_mod_char
      decide
  | goldilocks =>
      refine prime_of_generator (p := 18446744069414584321) 7 [2, 3, 5, 17, 257, 65537] 32
        (by norm_num) (by norm_num) (by reduce_mod_char) ?_
      norm_num only [List.forall_mem_cons, List.forall_mem_nil]
      reduce_mod_char
      decide

namespace Element

variable {K : PrimeField}

instance : NoZeroDivisors K.Element :=
  have : Fact K.modulus.Prime := ⟨K.modulus_prime⟩
  toZMod_injective.noZeroDivisors toZMod toZMod_zero toZMod_mul

instance : Nontrivial K.Element :=
  ⟨0, 1, fun h => Nat.zero_ne_one (by rw [← val_zero (K := K), h, val_one])⟩

end Element

end CircuitDraft.PrimeField
