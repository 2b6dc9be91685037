import Mathlib
import VectorQuery.Proofs.Binary64.Decimal

/-!
# Overflow

A quotient has no nearest value in a format from half a unit above the largest value on.  At the
boundary itself the half goes to the even neighbour, which the format does not have.

* `roundHalfEven_lt_iff`, `le_roundHalfEven` — the nearest integer against a bound;
* `lastPlace`, `lastPlace_cases` — where the last digit of the nearest value stands;
* `Format.overflow` — the boundary, and `overflow_double` for the 64-bit format;
* `round?_eq_none_iff` — **a quotient overflows iff it reaches the boundary**;
* `ofDecimal?_eq_none_iff` — the same for decimals.
-/

namespace VectorQuery

/-- Half a unit above the largest value of a format. -/
def Format.overflow (f : Format) : ℚ := ((2 : ℚ) ^ f.digits - 1 / 2) * (2 : ℚ) ^ f.maxExp

namespace Magnitude

variable {f : Format} {num den : ℕ}

/-! ### The nearest integer -/

/-- The nearest integer is below an even bound iff the quotient is more than a half below it. -/
theorem roundHalfEven_lt_iff {bound : ℕ} (hbound : 2 ∣ bound) (num : ℕ) {den : ℕ} (hden : 0 < den) :
    roundHalfEven num den < bound ↔ (num : ℚ) / den + 1 / 2 < bound := by
  have hcast : (num : ℚ) / den + 1 / 2 < bound ↔ 2 * num + den < 2 * (bound * den) := by
    have hpos : (0 : ℚ) < den := by exact_mod_cast hden
    rw [div_add_div _ _ hpos.ne' two_ne_zero, div_lt_iff₀ (by positivity), ← Nat.cast_lt (α := ℚ)]
    push_cast
    constructor <;> intro h <;> linarith
  rw [hcast, roundHalfEven]
  obtain ⟨half, rfl⟩ := hbound
  have hsplit := Nat.div_add_mod num den
  have hrest := Nat.mod_lt num hden
  generalize num / den = low at hsplit ⊢
  generalize num % den = rest at hsplit hrest ⊢
  subst hsplit
  rcases lt_trichotomy (low + 1) (2 * half) with hlow | hlow | hlow
  · have hmul : (low + 2) * den ≤ 2 * half * den := Nat.mul_le_mul_right den hlow
    have hparity : low % 2 ≤ 1 := by omega
    refine iff_of_true ?_ (by nlinarith)
    split_ifs <;> omega
  · have hmul : (low + 1) * den = 2 * half * den := by rw [hlow]
    have hodd : low % 2 = 1 := by omega
    split_ifs with hless hmore
    · exact iff_of_true (by omega) (by nlinarith)
    · exact iff_of_false (by omega) (by nlinarith)
    · exact iff_of_false (by omega) (by nlinarith)
  · have hmul : 2 * half * den ≤ low * den := Nat.mul_le_mul_right den (by omega)
    refine iff_of_false ?_ (by nlinarith)
    split_ifs <;> omega

/-- A lower bound of the quotient is one of the nearest integer. -/
theorem le_roundHalfEven {bound : ℕ} (hden : 0 < den) (h : (bound : ℚ) ≤ (num : ℚ) / den) :
    bound ≤ roundHalfEven num den := by
  rw [le_div_iff₀ (by exact_mod_cast hden)] at h
  have hlow : bound ≤ num / den := (Nat.le_div_iff_mul_le hden).2 (by exact_mod_cast h)
  rw [roundHalfEven]
  split_ifs <;> omega

/-! ### The last digit -/

/-- Where the last digit of the nearest value stands. -/
def lastPlace (f : Format) (num den : ℕ) : ℤ :=
  if num = 0 then f.minExp else max (floorLog2 num den - (f.digits - 1 : ℕ)) f.minExp

/-- The digits of the nearest value, up to its last one. -/
def significand (num den : ℕ) (place : ℤ) : ℕ :=
  roundHalfEven (num * Nat.pow 2 (-place).toNat) (den * Nat.pow 2 place.toNat)

theorem round?_eq (f : Format) (num den : ℕ) :
    round? f num den
      = if significand num den (lastPlace f num den) < Nat.pow 2 f.digits then
          ofNormal? f (significand num den (lastPlace f num den)) (lastPlace f num den)
        else ofNormal? f (Nat.pow 2 (f.digits - 1)) (lastPlace f num den + 1) := rfl

/-- The last digit stands as low as it may, or the number of digits is used up. -/
theorem lastPlace_cases (hdigits : 0 < f.digits) (num : ℕ) {den : ℕ} (hden : 0 < den) :
    f.minExp ≤ lastPlace f num den
    ∧ (num : ℚ) / den < (2 : ℚ) ^ (f.digits + lastPlace f num den)
    ∧ (lastPlace f num den = f.minExp
      ∨ (2 : ℚ) ^ ((f.digits - 1 : ℕ) + lastPlace f num den) ≤ (num : ℚ) / den) := by
  rw [lastPlace]
  split
  next hzero =>
    refine ⟨le_refl _, ?_, Or.inl rfl⟩
    rw [hzero, Nat.cast_zero, zero_div]
    positivity
  next hnum =>
    have hpos : (0 : ℚ) < (num : ℚ) / den :=
      div_pos (by exact_mod_cast Nat.pos_of_ne_zero hnum) (by exact_mod_cast hden)
    rw [floorLog2_eq_log (Nat.pos_of_ne_zero hnum) hden]
    have hlow : (2 : ℚ) ^ Int.log 2 ((num : ℚ) / den) ≤ (num : ℚ) / den :=
      Int.zpow_log_le_self (by norm_num) hpos
    have hhigh : (num : ℚ) / den < (2 : ℚ) ^ (Int.log 2 ((num : ℚ) / den) + 1) :=
      Int.lt_zpow_succ_log_self (by norm_num) _
    generalize Int.log 2 ((num : ℚ) / den) = place at hlow hhigh
    refine ⟨le_max_right _ _, ?_, ?_⟩
    · exact hhigh.trans_le (zpow_le_zpow_right₀ (by norm_num) (by omega))
    · rcases le_total (place - (f.digits - 1 : ℕ)) f.minExp with hmin | hmin
      · exact Or.inl (max_eq_right hmin)
      · rw [max_eq_left hmin, add_sub_cancel]
        exact Or.inr hlow

/-- What is rounded is the quotient at its last place. -/
theorem scaled_div (num den : ℕ) (place : ℤ) :
    ((num * Nat.pow 2 (-place).toNat : ℕ) : ℚ) / (den * Nat.pow 2 place.toNat : ℕ)
      = (num : ℚ) / den / (2 : ℚ) ^ place := by
  have htwo := zpow_eq_div 2 (by decide) place
  rw [Nat.cast_ofNat] at htwo
  rw [htwo, Nat.cast_mul, Nat.cast_mul, div_div_div_eq]

theorem ofNormal?_eq_none_iff {mant : ℕ} {exp : ℤ} :
    ofNormal? f mant exp = none ↔ ¬ f.Canonical mant exp := by
  rw [ofNormal?]
  split <;> simp_all

/-- A quotient overflows iff its last digit would stand too high, be it for rounding up. -/
theorem round?_eq_none_iff_lastPlace (hdigits : 0 < f.digits) (hden : 0 < den) :
    round? f num den = none
      ↔ f.maxExp < lastPlace f num den
        ∨ lastPlace f num den = f.maxExp
          ∧ Nat.pow 2 f.digits ≤ significand num den (lastPlace f num den) := by
  obtain ⟨hmin, -, hfull⟩ := lastPlace_cases hdigits num hden
  rw [round?_eq]
  generalize lastPlace f num den = place at hmin hfull ⊢
  split
  next hfits =>
    have hnormal : Nat.pow 2 (f.digits - 1) ≤ significand num den place ∨ place = f.minExp := by
      rcases hfull with hplace | hlow
      · exact Or.inr hplace
      · refine Or.inl (le_roundHalfEven (Nat.mul_pos hden (Nat.pow_pos (by decide))) ?_)
        rw [scaled_div, le_div_iff₀ (by positivity), Nat.pow_eq, Nat.cast_pow, Nat.cast_ofNat,
          ← zpow_natCast, ← zpow_add₀ (by norm_num)]
        exact hlow
    rw [ofNormal?_eq_none_iff, Format.Canonical]
    simp only [hfits, hmin, hnormal, true_and, and_true, not_le.2 hfits, and_false, or_false, not_le]
  next hfits =>
    have hpow : Nat.pow 2 (f.digits - 1) < Nat.pow 2 f.digits :=
      Nat.pow_lt_pow_right (by decide) (by omega)
    rw [ofNormal?_eq_none_iff, Format.Canonical]
    simp only [hpow, le_refl, true_or, true_and, and_true, not_lt.1 hfits]
    omega

/-! ### The boundary -/

/-- At the highest place, the boundary is where the nearest value gets one digit too many. -/
theorem overflow_le_iff_significand (hdigits : 0 < f.digits) (num : ℕ) {den : ℕ} (hden : 0 < den) :
    f.overflow ≤ (num : ℚ) / den ↔ Nat.pow 2 f.digits ≤ significand num den f.maxExp := by
  have hunit : (0 : ℚ) < (2 : ℚ) ^ f.maxExp := by positivity
  have hscaled : 0 < den * Nat.pow 2 f.maxExp.toNat := Nat.mul_pos hden (Nat.pow_pos (by decide))
  have hround := roundHalfEven_lt_iff (dvd_pow_self 2 hdigits.ne')
    (num * Nat.pow 2 (-f.maxExp).toNat) hscaled
  rw [scaled_div, Nat.cast_pow, Nat.cast_ofNat] at hround
  rw [Format.overflow, ← le_div_iff₀ hunit, sub_le_iff_le_add, significand, Nat.pow_eq, ← not_lt,
    ← not_lt, ← hround]

/-- **A quotient overflows iff it reaches the boundary.** -/
theorem round?_eq_none_iff (hdigits : 0 < f.digits) (hrange : f.minExp ≤ f.maxExp) (hden : 0 < den) :
    round? f num den = none ↔ f.overflow ≤ (num : ℚ) / den := by
  obtain ⟨hmin, hhigh, hfull⟩ := lastPlace_cases hdigits num hden
  have hunit : (0 : ℚ) < (2 : ℚ) ^ f.maxExp := by positivity
  have hdouble : (2 : ℚ) ^ f.digits = 2 * (2 : ℚ) ^ (f.digits - 1) := by
    rw [← pow_succ', Nat.sub_add_cancel hdigits]
  have hone : (1 : ℚ) ≤ (2 : ℚ) ^ (f.digits - 1) := one_le_pow₀ (by norm_num)
  rw [round?_eq_none_iff_lastPlace hdigits hden]
  rcases lt_trichotomy (lastPlace f num den) f.maxExp with hplace | hplace | hplace
  · -- the quotient has room for one more digit
    refine iff_of_false (by omega) (not_le.2 (hhigh.trans_le ?_))
    calc (2 : ℚ) ^ (f.digits + lastPlace f num den)
        ≤ (2 : ℚ) ^ ((f.digits - 1 : ℕ) + f.maxExp) := zpow_le_zpow_right₀ (by norm_num) (by omega)
      _ = (2 : ℚ) ^ (f.digits - 1) * (2 : ℚ) ^ f.maxExp := by
        rw [zpow_add₀ (by norm_num), zpow_natCast]
      _ ≤ f.overflow := mul_le_mul_of_nonneg_right (by linarith) hunit.le
  · -- it overflows only if it is rounded up
    rw [hplace, overflow_le_iff_significand hdigits num hden]
    simp
  · -- the digits are used up above the highest place
    refine iff_of_true (Or.inl hplace) ?_
    have hlow := hfull.resolve_left (by omega)
    calc f.overflow
        ≤ (2 : ℚ) ^ f.digits * (2 : ℚ) ^ f.maxExp := mul_le_mul_of_nonneg_right (by linarith) hunit.le
      _ = (2 : ℚ) ^ ((f.digits : ℤ) + f.maxExp) := by rw [zpow_add₀ (by norm_num), zpow_natCast]
      _ ≤ (2 : ℚ) ^ ((f.digits - 1 : ℕ) + lastPlace f num den) :=
        zpow_le_zpow_right₀ (by norm_num) (by omega)
      _ ≤ (num : ℚ) / den := hlow

/-- A decimal overflows iff its value reaches the boundary. -/
theorem ofDecimal?_eq_none_iff {digits : ℕ} {place : ℤ} :
    ofDecimal? .double digits place = none
      ↔ Format.double.overflow ≤ (digits : ℚ) * (10 : ℚ) ^ place := by
  rw [ofDecimal?_eq_round?, round?_eq_none_iff (by decide) (by decide) (decimalDen_pos place),
    decimalNum_div_den]

/-- The boundary of the 64-bit format lies halfway between its largest value and `2 ^ 1024`. -/
theorem overflow_double : Format.double.overflow = 2 ^ 1024 - 2 ^ 970 := by
  have hunit : (2 : ℚ) ^ (971 : ℤ) = 2 * 2 ^ 970 := (zpow_natCast 2 971).trans (pow_succ' 2 970)
  have htop : (2 : ℚ) ^ 1024 = 2 ^ 54 * 2 ^ 970 := by rw [← pow_add]
  show ((2 : ℚ) ^ 53 - 1 / 2) * (2 : ℚ) ^ (971 : ℤ) = _
  rw [hunit, htop]
  generalize (2 : ℚ) ^ 970 = unit
  ring

end Magnitude

end VectorQuery
