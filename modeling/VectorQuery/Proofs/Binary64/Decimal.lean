import Mathlib
import VectorQuery.Binary64.Shortest
import VectorQuery.Proofs.Binary64.Quotient

/-!
# Decimals read back

Reading a decimal rounds the rational number `digits · 10 ^ exponent`, and nothing else about the
decimal matters. Three shortcuts stand in the way of saying so and are justified here: a zero, an
exponent so large that the value overflows, and one so small that the value vanishes.

* `round?_eq_none`, `round?_of_lt_half` — what rounds to nothing, and what rounds to zero, in any
  format;
* `ofDecimal?_eq_round?` — the shortcuts of `ofDecimal?` give what rounding gives;
* `ofDecimal?_congr`, `ofDecimal?_value` — **only the value of a decimal matters**, and the value of
  a magnitude is read as that magnitude;
* `reads_shortest` — **the shortest decimal of a magnitude reads back**, also where no grid has a
  hit.
-/

namespace VectorQuery

namespace Magnitude

variable {f : Format}

/-! ### Rounding at the two ends of the range -/

/-- A quotient whose last digit would stand above the format's range has no nearest value. -/
theorem round?_eq_none (f : Format) {num den : ℕ} (hnum : 0 < num) (hden : 0 < den)
    (h : f.maxExp < Int.log 2 ((num : ℚ) / den) - (f.digits - 1 : ℕ)) : round? f num den = none := by
  have hexp : f.maxExp < max (floorLog2 num den - (f.digits - 1 : ℕ)) f.minExp := by
    rw [floorLog2_eq_log hnum hden]
    omega
  have hnormal : ∀ mant exp, f.maxExp < exp → ofNormal? f mant exp = none := by
    intro mant exp hlarge
    exact dif_neg fun hcanonical => by have := hcanonical.2.2.1; omega
  simp only [round?, if_neg hnum.ne']
  split
  · exact hnormal _ _ hexp
  · exact hnormal _ _ (by omega)

theorem roundHalfEven_eq_zero {num den : ℕ} (h : 2 * num < den) : roundHalfEven num den = 0 := by
  have hlt : num < den := by omega
  simp only [roundHalfEven, Nat.div_eq_of_lt hlt, Nat.mod_eq_of_lt hlt, if_pos h]

theorem roundHalfEven_zero (den : ℕ) : roundHalfEven 0 den = 0 := by simp [roundHalfEven]

/-- A quotient below half of the least positive value rounds as zero does. -/
theorem round?_of_lt_half (f : Format) {num den : ℕ} (hden : 0 < den)
    (h : 2 * ((num : ℚ) / den) < (2 : ℚ) ^ f.minExp) : round? f num den = round? f 0 1 := by
  rcases Nat.eq_zero_or_pos num with rfl | hnum
  · exact round?_congr f hden Nat.one_pos (by simp)
  have hq : (0 : ℚ) < (num : ℚ) / den := div_pos (by exact_mod_cast hnum) (by exact_mod_cast hden)
  have hlog : Int.log 2 ((num : ℚ) / den) < f.minExp := by
    refine (Int.lt_zpow_iff_log_lt (by norm_num) hq).1 ?_
    rw [Nat.cast_ofNat]
    linarith
  have hexp : (if num = 0 then f.minExp
      else max (floorLog2 num den - (f.digits - 1 : ℕ)) f.minExp) = f.minExp := by
    rw [if_neg hnum.ne', floorLog2_eq_log hnum hden]
    omega
  have hmant :
      roundHalfEven (num * Nat.pow 2 (-f.minExp).toNat) (den * Nat.pow 2 f.minExp.toNat) = 0 := by
    apply roundHalfEven_eq_zero
    have hscaled := (@scaled_le_iff (2 * num) den hden f.minExp).not
    rw [not_le, not_le, Nat.mul_assoc] at hscaled
    apply hscaled.2
    push_cast
    rw [mul_div_assoc]
    exact h
  simp only [round?, hexp, hmant, Nat.zero_mul, roundHalfEven_zero, if_true]

/-! ### The shortcuts of reading a decimal -/

theorem decimalNum_div_den (digits : ℕ) (exponent : ℤ) :
    (decimalNum digits exponent : ℚ) / decimalDen exponent = digits * (10 : ℚ) ^ exponent := by
  have hten := zpow_eq_div 10 (by decide) exponent
  rw [Nat.cast_ofNat] at hten
  rw [hten, decimalNum, decimalDen, Nat.cast_mul, mul_div_assoc]

theorem decimalDen_pos (exponent : ℤ) : 0 < decimalDen exponent := Nat.pow_pos (by decide)

theorem decimalNum_pos {digits : ℕ} (h : digits ≠ 0) (exponent : ℤ) :
    0 < decimalNum digits exponent :=
  Nat.mul_pos (Nat.pos_of_ne_zero h) (Nat.pow_pos (by decide))

theorem two_zpow_le_ten_zpow : (2 : ℚ) ^ (1033 : ℤ) ≤ (10 : ℚ) ^ (311 : ℤ) := by
  have h : ((2 ^ 1033 : ℕ) : ℚ) ≤ ((10 ^ 311 : ℕ) : ℚ) := Nat.cast_le.2 (by decide +kernel)
  rw [Nat.cast_pow, Nat.cast_pow, ← zpow_natCast, ← zpow_natCast] at h
  exact h

theorem ten_zpow_lt_two_zpow : 2 * (10 : ℚ) ^ (-331 : ℤ) < (2 : ℚ) ^ (-1074 : ℤ) := by
  have h : ((2 * 2 ^ 1074 : ℕ) : ℚ) < ((10 ^ 331 : ℕ) : ℚ) := Nat.cast_lt.2 (by decide +kernel)
  rw [Nat.cast_mul, Nat.cast_pow, Nat.cast_pow, ← zpow_natCast, ← zpow_natCast] at h
  rw [zpow_neg, zpow_neg, ← div_eq_mul_inv, ← one_div,
    div_lt_div_iff₀ (by positivity) (by positivity), one_mul]
  exact h

/-- From `10 ^ 311` on, a decimal is too large for the 64-bit format. -/
theorem round?_decimal_large {digits : ℕ} {exponent : ℤ} (hdigits : digits ≠ 0)
    (h : 310 < exponent) :
    round? .double (decimalNum digits exponent) (decimalDen exponent) = none := by
  have hq : (2 : ℚ) ^ (1033 : ℤ) ≤ (decimalNum digits exponent : ℚ) / decimalDen exponent := by
    rw [decimalNum_div_den]
    have hone : (1 : ℚ) ≤ digits := by exact_mod_cast Nat.pos_of_ne_zero hdigits
    calc (2 : ℚ) ^ (1033 : ℤ) ≤ (10 : ℚ) ^ (311 : ℤ) := two_zpow_le_ten_zpow
      _ ≤ (10 : ℚ) ^ exponent := zpow_le_zpow_right₀ (by norm_num) (by omega)
      _ ≤ digits * (10 : ℚ) ^ exponent := le_mul_of_one_le_left (by positivity) hone
  have hpos : (0 : ℚ) < (decimalNum digits exponent : ℚ) / decimalDen exponent :=
    lt_of_lt_of_le (by positivity) hq
  have hlog : 1033 ≤ Int.log 2 ((decimalNum digits exponent : ℚ) / decimalDen exponent) :=
    (Int.zpow_le_iff_le_log (by norm_num) hpos).1 (by exact_mod_cast hq)
  refine round?_eq_none .double (decimalNum_pos hdigits exponent) (decimalDen_pos exponent) ?_
  simp only [Format.double]
  omega

/-- A natural number is below the power of ten that its binary length suggests. -/
theorem lt_ten_pow_log2 (n : ℕ) : n < 10 ^ (n.log2 / 3 + 1) := by
  calc n < 2 ^ (n.log2 + 1) := Nat.lt_log2_self
    _ ≤ 2 ^ (3 * (n.log2 / 3 + 1)) := Nat.pow_le_pow_right (by decide) (by omega)
    _ = 8 ^ (n.log2 / 3 + 1) := by rw [Nat.pow_mul]
    _ ≤ 10 ^ (n.log2 / 3 + 1) := Nat.pow_le_pow_left (by decide) _

/-- Below `10 ^ -330`, a decimal vanishes in the 64-bit format. -/
theorem round?_decimal_small {digits : ℕ} {exponent : ℤ}
    (h : exponent + (digits.log2 / 3 + 1 : ℕ) < -330) :
    round? .double (decimalNum digits exponent) (decimalDen exponent) = round? .double 0 1 := by
  refine round?_of_lt_half .double (decimalDen_pos exponent) ?_
  rw [decimalNum_div_den]
  have hdigits : (digits : ℚ) ≤ (10 : ℚ) ^ ((digits.log2 / 3 + 1 : ℕ) : ℤ) := by
    rw [zpow_natCast]
    exact_mod_cast (lt_ten_pow_log2 digits).le
  have hsmall : (digits : ℚ) * (10 : ℚ) ^ exponent ≤ (10 : ℚ) ^ (-331 : ℤ) := by
    calc (digits : ℚ) * (10 : ℚ) ^ exponent
        ≤ (10 : ℚ) ^ ((digits.log2 / 3 + 1 : ℕ) : ℤ) * (10 : ℚ) ^ exponent := by gcongr
      _ = (10 : ℚ) ^ (((digits.log2 / 3 + 1 : ℕ) : ℤ) + exponent) :=
          (zpow_add₀ (by norm_num) _ _).symm
      _ ≤ (10 : ℚ) ^ (-331 : ℤ) := zpow_le_zpow_right₀ (by norm_num) (by omega)
  calc 2 * ((digits : ℚ) * (10 : ℚ) ^ exponent) ≤ 2 * (10 : ℚ) ^ (-331 : ℤ) := by gcongr
    _ < (2 : ℚ) ^ (-1074 : ℤ) := ten_zpow_lt_two_zpow

/-- The shortcuts of `ofDecimal?` give what rounding gives. -/
theorem ofDecimal?_eq_round? (digits : ℕ) (exponent : ℤ) :
    ofDecimal? .double digits exponent
      = round? .double (decimalNum digits exponent) (decimalDen exponent) := by
  rw [ofDecimal?]
  split
  · rename_i hzero
    refine round?_congr .double Nat.one_pos (decimalDen_pos exponent) ?_
    rw [decimalNum_div_den, hzero]
    simp
  · rename_i hdigits
    split
    · rename_i hlarge
      exact (round?_decimal_large hdigits hlarge).symm
    · split
      · rename_i hsmall
        exact (round?_decimal_small hsmall).symm
      · rfl

/-- **Only the value of a decimal matters.** -/
theorem ofDecimal?_congr {d₁ d₂ : ℕ} {e₁ e₂ : ℤ}
    (h : (d₁ : ℚ) * (10 : ℚ) ^ e₁ = (d₂ : ℚ) * (10 : ℚ) ^ e₂) :
    ofDecimal? .double d₁ e₁ = ofDecimal? .double d₂ e₂ := by
  rw [ofDecimal?_eq_round?, ofDecimal?_eq_round?]
  refine round?_congr .double (decimalDen_pos e₁) (decimalDen_pos e₂) ?_
  rw [decimalNum_div_den, decimalNum_div_den, h]

/-- The value of a magnitude is read as that magnitude. -/
theorem ofDecimal?_value {x : Magnitude .double} {digits : ℕ} {exponent : ℤ}
    (h : (digits : ℚ) * (10 : ℚ) ^ exponent = x.value) :
    ofDecimal? .double digits exponent = some x := by
  rw [ofDecimal?_eq_round?]
  exact round?_value x (decimalDen_pos exponent) (by rw [decimalNum_div_den, h])

theorem value_of_mant_eq_zero {x : Magnitude f} (h : x.mant = 0) : x.value = 0 := by
  rw [value, h, Nat.cast_zero, zero_mul]

/-- A zero rounds to a magnitude without digits. -/
theorem mant_of_round?_zero {x : Magnitude f} (h : round? f 0 1 = some x) : x.mant = 0 := by
  simp only [round?, Nat.zero_mul, if_true, roundHalfEven_zero] at h
  have hpos : 0 < Nat.pow 2 f.digits := Nat.pow_pos (by decide)
  rw [if_pos hpos, ofNormal?] at h
  split at h
  · cases h; rfl
  · cases h

end Magnitude

namespace Decimal

open Magnitude

/-! ### The shortest decimal -/

/-- The rational number that a decimal is. -/
def value (d : Decimal) : ℚ := d.digits * (10 : ℚ) ^ d.exponent

theorem reads_congr (x : Magnitude .double) {d₁ d₂ : Decimal} (h : d₁.value = d₂.value) :
    reads x d₁ = reads x d₂ := by
  rw [reads, reads, ofDecimal?_congr h]

theorem reads_of_value {x : Magnitude .double} {d : Decimal} (h : d.value = x.value) :
    reads x d = true := by
  rw [reads, ofDecimal?_value h, beq_self_eq_true]

theorem exact_value (x : Magnitude .double) : (exact x).value = x.value := by
  rw [exact]
  split
  · rename_i hexp
    obtain ⟨k, hk⟩ := Int.eq_ofNat_of_zero_le hexp
    simp only [value, Magnitude.value, Magnitude.num, hk, Nat.pow_eq, Int.toNat_natCast,
      zpow_zero, mul_one, zpow_natCast]
    push_cast
    ring
  · rename_i hexp
    obtain ⟨k, hk⟩ := Int.eq_ofNat_of_zero_le (show 0 ≤ -x.exp by omega)
    have hexp : x.exp = -(k : ℤ) := by omega
    -- `m · 5 ^ k / 10 ^ k = m / 2 ^ k`
    simp only [value, Magnitude.value, hexp, neg_neg, Int.toNat_natCast, Nat.pow_eq, zpow_neg,
      zpow_natCast]
    push_cast
    rw [show (10 : ℚ) ^ k = 5 ^ k * 2 ^ k by rw [← mul_pow]; norm_num]
    field_simp

theorem trimPower_value (n : ℕ) (d : Decimal) : (trimPower n d).value = d.value := by
  rw [trimPower]
  split
  · rename_i hdigits
    simp only [value, hdigits, Nat.pow_eq]
    rw [zpow_add₀ (by norm_num), zpow_natCast]
    push_cast
    ring
  · rfl

/-- **The shortest decimal of a magnitude reads back.** -/
theorem reads_shortest (tie : Tie) (x : Magnitude .double) : reads x (shortest tie x) = true := by
  rw [shortest]
  split
  · rename_i hmant
    exact reads_of_value (by rw [value_of_mant_eq_zero hmant, value, Nat.cast_zero, zero_mul])
  · simp only
    cases hhit : (List.range 17).findSome? fun n =>
        (onGrid? tie x (leadingPlace x.num x.den - (n + 1 : Nat))).map (trimPower (n + 1)) with
    | none => exact reads_of_value (exact_value x)
    | some d =>
      obtain ⟨n, -, hn⟩ := List.exists_of_findSome?_eq_some hhit
      obtain ⟨d', hgrid, rfl⟩ := Option.map_eq_some_iff.1 hn
      rw [Option.getD_some, reads_congr x (trimPower_value (n + 1) d')]
      exact onGrid?_reads hgrid

/-- Only a zero is written without digits, and then as the plain `0`. -/
theorem shortest_eq_zero {tie : Tie} {x : Magnitude .double} (h : (shortest tie x).digits = 0) :
    shortest tie x = ⟨0, 0⟩ := by
  have hreads := reads_shortest tie x
  rw [reads, h, ofDecimal?, if_pos rfl, beq_iff_eq] at hreads
  rw [shortest, if_pos (mant_of_round?_zero hreads)]

end Decimal

end VectorQuery
