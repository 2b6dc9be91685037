import Mathlib
import VectorQuery.Binary64.Magnitude

/-!
# Rounding depends on the quotient alone

`round?` works on a numerator and a denominator.  This file shows that only the rational number they
stand for matters, so that every later fact about rounding can be stated over `ℚ`:

* `zpow_eq_div` — a power with an integer exponent as a quotient of two natural powers;
* `floorLog2_eq_log` — the binary order of magnitude that the rounding computes is `Int.log 2` of
  the quotient;
* `round?_congr` — **equal quotients round alike**;
* `Magnitude.value`, `round?_value` — a quotient that is a value of the format rounds to that value.
-/

namespace VectorQuery.Magnitude

variable {f : Format}

/-! ### Powers with an integer exponent -/

/-- A power with an integer exponent is the quotient of the two natural powers, one of which is `1`. -/
theorem zpow_eq_div (b : ℕ) (hb : 0 < b) (e : ℤ) :
    (b : ℚ) ^ e = ((Nat.pow b e.toNat : ℕ) : ℚ) / (Nat.pow b (-e).toNat : ℕ) := by
  simp only [Nat.pow_eq, Nat.cast_pow]
  rcases le_total 0 e with he | he
  · obtain ⟨k, rfl⟩ := Int.eq_ofNat_of_zero_le he
    have hneg : (-(k : ℤ)).toNat = 0 := by omega
    rw [hneg, Int.toNat_natCast, pow_zero, div_one, zpow_natCast]
  · obtain ⟨k, hk⟩ := Int.eq_ofNat_of_zero_le (Int.neg_nonneg.2 he)
    have htop : e.toNat = 0 := by omega
    have hpos : (b : ℚ) ≠ 0 := by exact_mod_cast hb.ne'
    rw [htop, hk, Int.toNat_natCast, pow_zero, show e = -(k : ℤ) by omega, zpow_neg, zpow_natCast,
      one_div]

theorem natPow_cast_pos (b : ℕ) (hb : 0 < b) (k : ℕ) : (0 : ℚ) < (Nat.pow b k : ℕ) := by
  exact_mod_cast Nat.pow_pos hb

/-! ### The order of magnitude -/

theorem log_eq_of_bounds {q : ℚ} {e : ℤ} (hlow : (2 : ℚ) ^ e ≤ q) (hhigh : q < (2 : ℚ) ^ (e + 1)) :
    Int.log 2 q = e := by
  have hq : 0 < q := lt_of_lt_of_le (zpow_pos (by norm_num) e) hlow
  have h1 : e ≤ Int.log 2 q := (Int.zpow_le_iff_le_log (by norm_num) hq).1 (by exact_mod_cast hlow)
  have h2 : Int.log 2 q < e + 1 := (Int.lt_zpow_iff_log_lt (by norm_num) hq).1 (by exact_mod_cast hhigh)
  omega

/-- The test inside `floorLog2` compares the quotient with a power of two. -/
theorem scaled_le_iff {num den : ℕ} (hden : 0 < den) (e : ℤ) :
    den * Nat.pow 2 e.toNat ≤ num * Nat.pow 2 (-e).toNat ↔ (2 : ℚ) ^ e ≤ (num : ℚ) / den := by
  have htwo := zpow_eq_div 2 (by decide) e
  rw [Nat.cast_ofNat] at htwo
  rw [htwo, div_le_div_iff₀ (natPow_cast_pos 2 (by decide) _) (by exact_mod_cast hden)]
  rw [← Nat.cast_mul, ← Nat.cast_mul, Nat.cast_le, Nat.mul_comm den]

/-- A positive natural number lies between two neighbouring powers of two. -/
theorem zpow_log2_bounds {n : ℕ} (hn : 0 < n) :
    (2 : ℚ) ^ (n.log2 : ℤ) ≤ n ∧ (n : ℚ) < (2 : ℚ) ^ ((n.log2 : ℤ) + 1) := by
  have hlow : 2 ^ n.log2 ≤ n := Nat.log2_self_le hn.ne'
  have hhigh : n < 2 ^ (n.log2 + 1) := Nat.lt_log2_self
  refine ⟨?_, ?_⟩
  · rw [zpow_natCast]; exact_mod_cast hlow
  · rw [show (n.log2 : ℤ) + 1 = ((n.log2 + 1 : ℕ) : ℤ) by push_cast; ring, zpow_natCast]
    exact_mod_cast hhigh

/-- The computed order of magnitude is the integer logarithm of the quotient. -/
theorem floorLog2_eq_log {num den : ℕ} (hnum : 0 < num) (hden : 0 < den) :
    floorLog2 num den = Int.log 2 ((num : ℚ) / den) := by
  obtain ⟨hn1, hn2⟩ := zpow_log2_bounds hnum
  obtain ⟨hd1, hd2⟩ := zpow_log2_bounds hden
  have hdpos : (0 : ℚ) < den := by exact_mod_cast hden
  have two_ne : (2 : ℚ) ≠ 0 := by norm_num
  set e : ℤ := (num.log2 : ℤ) - den.log2 with he
  -- the quotient lies between the powers next to `e` on either side
  have hupper : (num : ℚ) / den < (2 : ℚ) ^ (e + 1) := by
    rw [div_lt_iff₀ hdpos]
    calc (num : ℚ) < (2 : ℚ) ^ ((num.log2 : ℤ) + 1) := hn2
      _ = (2 : ℚ) ^ (e + 1) * (2 : ℚ) ^ (den.log2 : ℤ) := by
        rw [← zpow_add₀ two_ne]; congr 1; omega
      _ ≤ (2 : ℚ) ^ (e + 1) * den := by gcongr
  have hlower : (2 : ℚ) ^ (e - 1) ≤ (num : ℚ) / den := by
    rw [le_div_iff₀ hdpos]
    calc (2 : ℚ) ^ (e - 1) * den ≤ (2 : ℚ) ^ (e - 1) * (2 : ℚ) ^ ((den.log2 : ℤ) + 1) := by gcongr
      _ = (2 : ℚ) ^ (num.log2 : ℤ) := by rw [← zpow_add₀ two_ne]; congr 1; omega
      _ ≤ num := hn1
  simp only [floorLog2, ← he, scaled_le_iff hden e]
  split
  · rename_i hle
    exact (log_eq_of_bounds hle hupper).symm
  · rename_i hlt
    exact (log_eq_of_bounds hlower (by rw [sub_add_cancel]; exact not_le.1 hlt)).symm

/-! ### Equal quotients round alike -/

theorem roundHalfEven_scale (num den : ℕ) {c : ℕ} (hc : 0 < c) :
    roundHalfEven (num * c) (den * c) = roundHalfEven num den := by
  have hlt : 2 * (num % den * c) < den * c ↔ 2 * (num % den) < den := by
    rw [← Nat.mul_assoc]; exact Nat.mul_lt_mul_right hc
  have hgt : den * c < 2 * (num % den * c) ↔ den < 2 * (num % den) := by
    rw [← Nat.mul_assoc]; exact Nat.mul_lt_mul_right hc
  simp only [roundHalfEven, Nat.mul_div_mul_right _ _ hc, Nat.mul_mod_mul_right, hlt, hgt]

/-- A common factor of numerator and denominator does not matter. -/
theorem round?_scale (f : Format) (num den : ℕ) (hden : 0 < den) {c : ℕ} (hc : 0 < c) :
    round? f (num * c) (den * c) = round? f num den := by
  have hzero : num * c = 0 ↔ num = 0 := by simp [hc.ne']
  have hexp : (if num * c = 0 then f.minExp
      else max (floorLog2 (num * c) (den * c) - (f.digits - 1 : Nat)) f.minExp)
      = (if num = 0 then f.minExp else max (floorLog2 num den - (f.digits - 1 : Nat)) f.minExp) := by
    by_cases hn : num = 0
    · rw [if_pos hn, if_pos (hzero.2 hn)]
    · have hnum : 0 < num := Nat.pos_of_ne_zero hn
      rw [if_neg hn, if_neg (fun h => hn (hzero.1 h)), floorLog2_eq_log hnum hden,
        floorLog2_eq_log (Nat.mul_pos hnum hc) (Nat.mul_pos hden hc)]
      congr 3
      push_cast
      have hcq : (c : ℚ) ≠ 0 := by exact_mod_cast hc.ne'
      exact mul_div_mul_right _ _ hcq
  have hswap : ∀ n p : ℕ, n * c * p = n * p * c := fun n p => Nat.mul_right_comm n c p
  simp only [round?, hexp, hswap, roundHalfEven_scale _ _ hc]

/-- **Equal quotients round alike.** -/
theorem round?_congr (f : Format) {n₁ d₁ n₂ d₂ : ℕ} (h₁ : 0 < d₁) (h₂ : 0 < d₂)
    (h : (n₁ : ℚ) / d₁ = (n₂ : ℚ) / d₂) : round? f n₁ d₁ = round? f n₂ d₂ := by
  have hcross : n₁ * d₂ = n₂ * d₁ := by
    rw [div_eq_div_iff (by exact_mod_cast h₁.ne') (by exact_mod_cast h₂.ne')] at h
    exact_mod_cast h
  rw [← round?_scale f n₁ d₁ h₁ h₂, ← round?_scale f n₂ d₂ h₂ h₁, hcross, Nat.mul_comm d₁ d₂]

/-! ### The value of a magnitude -/

/-- The rational number that a magnitude is. -/
def value (x : Magnitude f) : ℚ := x.mant * (2 : ℚ) ^ x.exp

theorem num_div_den (x : Magnitude f) : (x.num : ℚ) / x.den = x.value := by
  have htwo := zpow_eq_div 2 (by decide) x.exp
  rw [Nat.cast_ofNat] at htwo
  rw [value, htwo, num, den, Nat.cast_mul, mul_div_assoc]

/-- **A quotient that is a value of the format rounds to that value.** -/
theorem round?_value (x : Magnitude f) {n d : ℕ} (hd : 0 < d) (h : (n : ℚ) / d = x.value) :
    round? f n d = some x := by
  rw [round?_congr f hd x.den_pos (h.trans x.num_div_den.symm)]
  exact round?_num_den x

end VectorQuery.Magnitude
