/-!
# Magnitudes of a binary floating-point format

The nonnegative finite values of a binary format, exactly: a value is `mant · 2 ^ exp` in the one form
that the format allows for it.

* `Format`, `Magnitude` — a format and its values, with the normal form in the type.
* `floorLog2` — the binary order of magnitude of a quotient.
* `roundHalfEven` — the nearest integer to a quotient, a half going to the even one
  (`roundHalfEven_mul`: an exact quotient stays).
* `round?` — the nearest value of the format to a quotient, none if that is too large (`round?_num_den`: a value of
  the format is nearest to itself).
* `ofDecimal?` — the nearest value to `digits · 10 ^ exponent`.
-/

namespace VectorQuery

/-- A binary format: how many binary digits a value has, and where its last digit may stand. -/
structure Format where
  digits : Nat
  minExp : Int
  maxExp : Int
deriving DecidableEq

namespace Format

/-- The format of 64-bit floating-point numbers. -/
def double : Format := ⟨53, -1074, 971⟩

/-- The format of 32-bit floating-point numbers. -/
def single : Format := ⟨24, -149, 104⟩

/-- The normal form of a value: all digits are used, unless the last one stands as low as it may. -/
def Canonical (f : Format) (mant : Nat) (exp : Int) : Prop :=
  mant < Nat.pow 2 f.digits ∧ f.minExp ≤ exp ∧ exp ≤ f.maxExp ∧
    (Nat.pow 2 (f.digits - 1) ≤ mant ∨ exp = f.minExp)

instance (f : Format) (mant : Nat) (exp : Int) : Decidable (f.Canonical mant exp) := by
  unfold Canonical; infer_instance

end Format

/-- A nonnegative finite value `mant · 2 ^ exp` of a format. -/
structure Magnitude (f : Format) where
  mant : Nat
  exp : Int
  canonical : f.Canonical mant exp
deriving DecidableEq

namespace Magnitude

variable {f : Format}

/-- The numerator of the value. -/
def num (x : Magnitude f) : Nat := x.mant * Nat.pow 2 x.exp.toNat

/-- The denominator of the value, a power of two. -/
def den (x : Magnitude f) : Nat := Nat.pow 2 (-x.exp).toNat

theorem den_pos (x : Magnitude f) : 0 < x.den := Nat.pow_pos (by decide)

/-! ### Rounding -/

/-- The largest `e` with `2 ^ e ≤ num / den`, for positive `num` and `den`. -/
def floorLog2 (num den : Nat) : Int :=
  let e : Int := num.log2 - den.log2
  if den * Nat.pow 2 e.toNat ≤ num * Nat.pow 2 (-e).toNat then e else e - 1

/-- The nearest integer to `num / den`; a half goes to the even neighbour. -/
def roundHalfEven (num den : Nat) : Nat :=
  let low := num / den
  let rest := num % den
  if 2 * rest < den then low else if den < 2 * rest then low + 1 else low + low % 2

theorem roundHalfEven_mul (n : Nat) {den : Nat} (h : 0 < den) : roundHalfEven (n * den) den = n := by
  simp [roundHalfEven, h]

/-- The value `mant · 2 ^ exp`, if it is in normal form. -/
def ofNormal? (f : Format) (mant : Nat) (exp : Int) : Option (Magnitude f) :=
  if h : f.Canonical mant exp then some ⟨mant, exp, h⟩ else none

/-- The nearest value to `num / den`, with halves going to even digits; none if it is too large.

The last digit stands as low as the number of digits allows; rounding up to the next power of two
moves it one place. -/
def round? (f : Format) (num den : Nat) : Option (Magnitude f) :=
  let exp := if num = 0 then f.minExp else max (floorLog2 num den - (f.digits - 1 : Nat)) f.minExp
  let mant := roundHalfEven (num * Nat.pow 2 (-exp).toNat) (den * Nat.pow 2 exp.toNat)
  if mant < Nat.pow 2 f.digits then ofNormal? f mant exp else ofNormal? f (Nat.pow 2 (f.digits - 1)) (exp + 1)

/-! ### Rounding of exact values -/

theorem log2_mul_two_pow {m : Nat} (h : m ≠ 0) (a : Nat) : (m * Nat.pow 2 a).log2 = m.log2 + a := by
  rw [Nat.pow_eq]
  rw [Nat.log2_eq_iff (Nat.mul_ne_zero h (Nat.ne_of_gt (Nat.two_pow_pos a)))]
  constructor
  · rw [Nat.pow_add]
    exact Nat.mul_le_mul_right _ (Nat.log2_self_le h)
  · rw [show m.log2 + a + 1 = m.log2 + 1 + a by omega, Nat.pow_add]
    exact Nat.mul_lt_mul_of_pos_right Nat.lt_log2_self (Nat.pow_pos (by decide))

theorem floorLog2_dyadic {m : Nat} (h : m ≠ 0) (e : Int) :
    floorLog2 (m * Nat.pow 2 e.toNat) (Nat.pow 2 (-e).toNat) = m.log2 + e := by
  have hlog : ((m * Nat.pow 2 e.toNat).log2 : Int) - ((Nat.pow 2 (-e).toNat).log2 : Nat) = m.log2 + e := by
    rw [log2_mul_two_pow h, Nat.pow_eq, Nat.log2_two_pow]
    omega
  have hle : Nat.pow 2 (-e).toNat * Nat.pow 2 ((m.log2 : Int) + e).toNat ≤
      m * Nat.pow 2 e.toNat * Nat.pow 2 (-((m.log2 : Int) + e)).toNat := by
    simp only [Nat.pow_eq]
    rw [Nat.mul_assoc, ← Nat.pow_add, ← Nat.pow_add]
    rw [show (-e).toNat + ((m.log2 : Int) + e).toNat = m.log2 + (e.toNat + (-((m.log2 : Int) + e)).toNat) by omega,
      Nat.pow_add]
    exact Nat.mul_le_mul_right _ (Nat.log2_self_le h)
  simp only [floorLog2, hlog, hle, if_true]

/-- The last digit of a nonzero value stands where its order of magnitude puts it. -/
theorem exp_eq (x : Magnitude f) (h : x.mant ≠ 0) :
    max ((x.mant.log2 : Int) + x.exp - (f.digits - 1 : Nat)) f.minExp = x.exp := by
  obtain ⟨hlt, hmin, -, hnormal⟩ := x.canonical
  rcases hnormal with hfull | hlow
  · have hlow' : f.digits - 1 ≤ x.mant.log2 := (Nat.le_log2 h).2 hfull
    have hup : x.mant.log2 < f.digits := (Nat.log2_lt h).2 hlt
    omega
  · have hup : x.mant.log2 < f.digits := (Nat.log2_lt h).2 hlt
    omega

/-- A value of the format is its own nearest value. -/
theorem round?_num_den (x : Magnitude f) : round? f x.num x.den = some x := by
  have hmant : roundHalfEven (x.num * Nat.pow 2 (-x.exp).toNat) (x.den * Nat.pow 2 x.exp.toNat) = x.mant := by
    have : x.num * Nat.pow 2 (-x.exp).toNat = x.mant * (x.den * Nat.pow 2 x.exp.toNat) := by
      simp only [num, den, Nat.mul_assoc, Nat.mul_comm]
    rw [this]
    exact roundHalfEven_mul _ (Nat.mul_pos x.den_pos (Nat.pow_pos (by decide)))
  have hexp : (if x.num = 0 then f.minExp else max (floorLog2 x.num x.den - (f.digits - 1 : Nat)) f.minExp) = x.exp := by
    by_cases h : x.mant = 0
    · have hnum : x.num = 0 := by simp [num, h]
      rw [if_pos hnum]
      rcases x.canonical.2.2.2 with hfull | hlow
      · have : 0 < Nat.pow 2 (f.digits - 1) := Nat.pow_pos (by decide)
        omega
      · exact hlow.symm
    · have hnum : x.num ≠ 0 := Nat.mul_ne_zero h (Nat.ne_of_gt (Nat.two_pow_pos _))
      rw [if_neg hnum, num, den, floorLog2_dyadic h]
      exact x.exp_eq h
  simp only [round?, hexp, hmant, x.canonical.1, if_true, ofNormal?, x.canonical, dif_pos]

/-! ### Decimal values -/

/-- The numerator of `digits · 10 ^ exponent`. -/
def decimalNum (digits : Nat) (exponent : Int) : Nat := digits * Nat.pow 10 exponent.toNat

/-- The denominator of `digits · 10 ^ exponent`. -/
def decimalDen (exponent : Int) : Nat := Nat.pow 10 (-exponent).toNat

/-- The nearest value to `digits · 10 ^ exponent`.

The powers of ten stay small: from `10 ^ 311` on the value is too large for a 64-bit format, and below
`10 ^ -330` it is nearest to zero, so neither is computed. -/
def ofDecimal? (f : Format) (digits : Nat) (exponent : Int) : Option (Magnitude f) :=
  if digits = 0 then round? f 0 1
  else if 310 < exponent then none
  else if exponent + (digits.log2 / 3 + 1 : Nat) < -330 then round? f 0 1
  else round? f (decimalNum digits exponent) (decimalDen exponent)

end Magnitude

end VectorQuery
