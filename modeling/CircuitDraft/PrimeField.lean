namespace CircuitDraft

/-- The prime fields a circuit can be drafted over. -/
inductive PrimeField
  | babyBear
  | koalaBear
  | goldilocks
deriving DecidableEq

namespace PrimeField

/-- The primes are `2 ^ 31 - 2 ^ 27 + 1`, `2 ^ 31 - 2 ^ 24 + 1` and `2 ^ 64 - 2 ^ 32 + 1`. -/
def modulus : PrimeField → Nat
  | babyBear => 2013265921
  | koalaBear => 2130706433
  | goldilocks => 18446744069414584321

theorem modulus_pos (K : PrimeField) : 0 < K.modulus := by
  cases K <;> decide

def bits (K : PrimeField) : Nat :=
  Nat.log2 K.modulus + 1

/-- A circuit over `K` is for the modulus of `K` and for no other. -/
def accepts (K : PrimeField) (modulus : Nat) : Bool :=
  modulus == K.modulus

/-- An element of the field, given by its representative below the modulus. -/
structure Element (K : PrimeField) where
  val : Nat
  val_lt : val < K.modulus
deriving DecidableEq

namespace Element

variable {K : PrimeField}

def ofNat (n : Nat) : K.Element :=
  ⟨n % K.modulus, Nat.mod_lt n K.modulus_pos⟩

def ofInt (n : Int) : K.Element :=
  ofNat (n % K.modulus).toNat

instance : Zero K.Element where
  zero := ofNat 0

instance : One K.Element where
  one := ofNat 1

instance : Add K.Element where
  add a b := ofNat (a.val + b.val)

instance : Mul K.Element where
  mul a b := ofNat (a.val * b.val)

instance : Neg K.Element where
  neg a := ofNat (K.modulus - a.val)

instance : Sub K.Element where
  sub a b := ofNat (a.val + (K.modulus - b.val))

@[ext]
theorem ext {a b : K.Element} (h : a.val = b.val) : a = b := by
  obtain ⟨m, hm⟩ := a
  obtain ⟨n, hn⟩ := b
  cases h
  rfl

@[simp]
theorem val_ofNat (n : Nat) : (ofNat n : K.Element).val = n % K.modulus :=
  rfl

@[simp]
theorem ofNat_val (a : K.Element) : ofNat a.val = a :=
  ext (Nat.mod_eq_of_lt a.val_lt)

theorem val_zero : (0 : K.Element).val = 0 :=
  Nat.zero_mod K.modulus

theorem val_one : (1 : K.Element).val = 1 := by
  cases K <;> rfl

theorem val_add (a b : K.Element) : (a + b).val = (a.val + b.val) % K.modulus :=
  rfl

theorem val_mul (a b : K.Element) : (a * b).val = a.val * b.val % K.modulus :=
  rfl

theorem val_neg (a : K.Element) : (-a).val = (K.modulus - a.val) % K.modulus :=
  rfl

theorem val_sub (a b : K.Element) :
    (a - b).val = (a.val + (K.modulus - b.val)) % K.modulus :=
  rfl

end Element

end PrimeField

end CircuitDraft
