import Mathlib
import VectorQuery.Binary64.Layout
import VectorQuery.Proofs.Binary64.Shortest
import VectorQuery.Proofs.Text.Numeral

/-!
# The three forms of a float

Floats of the query grammar are laid out from their shortest decimal in one of two ways.  What comes
out has three forms: a number with a fraction is written with all its places, a whole number below
`10 ^ 16` by its exact numeral and a zero after the point, and a whole number from `10 ^ 16` on with
an exponent.

* `Layout.place_lt_iff`, `wireFloat_decimal_eq` — the layout is chosen by the value of the decimal;
* `Layout.positional_of_fraction`, `Layout.positional_of_whole` — a decimal with all its places;
* `Form`, `form_wireFloat` — **a finite float has the form that its value calls for**.
-/

namespace VectorQuery

open Text

namespace Layout

variable {d : Decimal}

/-! ### The choice of a layout -/

/-- The leading place of a decimal, against a power of ten. -/
theorem place_lt_iff (hd : d.digits ≠ 0) (k : ℤ) :
    ((Nat.toDigits 10 d.digits).length : ℤ) + d.exponent - 1 < k ↔ d.value < (10 : ℚ) ^ k := by
  obtain ⟨l, hl, hlow, hhigh⟩ := Decimal.exists_length_toDigits (Nat.pos_of_ne_zero hd)
  have hunit : (0 : ℚ) < (10 : ℚ) ^ d.exponent := by positivity
  have hscale : ∀ j : ℕ, ((10 ^ j : ℕ) : ℚ) * (10 : ℚ) ^ d.exponent = (10 : ℚ) ^ ((j : ℤ) + d.exponent) := by
    intro j
    rw [zpow_add₀ (by norm_num), zpow_natCast, Nat.cast_pow, Nat.cast_ofNat]
  have hbelow : (10 : ℚ) ^ ((l : ℤ) + d.exponent) ≤ d.value := by
    rw [← hscale, Decimal.value]
    exact mul_le_mul_of_nonneg_right (by exact_mod_cast hlow) hunit.le
  have habove : d.value < (10 : ℚ) ^ (((l + 1 : ℕ) : ℤ) + d.exponent) := by
    rw [← hscale, Decimal.value]
    exact mul_lt_mul_of_pos_right (by exact_mod_cast hhigh) hunit
  rw [hl]
  constructor
  · intro hlt
    exact habove.trans_le (zpow_le_zpow_right₀ (by norm_num) (by omega))
  · intro hlt
    have := (zpow_lt_zpow_iff_right₀ (by norm_num : (1 : ℚ) < 10)).1 (hbelow.trans_lt hlt)
    push_cast
    omega

/-- Floats of the query grammar have all their places below `10 ^ 16`, and else an exponent. -/
theorem wireFloat_decimal_eq (d : Decimal) :
    wireFloat.decimal d
      = if d.value < (10 : ℚ) ^ 16 then positional true d else scientific false d := by
  by_cases hd : d.digits = 0
  · have hvalue : d.value = 0 := by rw [Decimal.value, hd, Nat.cast_zero, zero_mul]
    rw [if_pos (by rw [hvalue]; norm_num)]
    simp [decimal, hd, wireFloat]
  · have hplace := place_lt_iff hd 16
    rw [zpow_ofNat] at hplace
    simp only [decimal, wireFloat, hd, false_or, Option.all_none, Option.all_some, Bool.true_and,
      decide_eq_true_eq, hplace]

/-- Plain floats have all their places. -/
theorem plainFloat_decimal_eq (d : Decimal) : plainFloat.decimal d = positional false d := by
  simp [decimal, plainFloat]

/-! ### All places -/

/-- With digits after the point, it does not matter how whole numbers are written. -/
theorem positional_of_fraction (h : d.exponent < 0) : positional true d = positional false d := by
  have hlength : 0 < (Nat.toDigits 10 d.digits).length := Nat.length_toDigits_pos
  have hne : Nat.toDigits 10 d.digits ≠ [] := Nat.toDigits_ne_nil
  by_cases hpoint : ((Nat.toDigits 10 d.digits).length : ℤ) + d.exponent ≤ 0
  · simp [positional, hpoint, hne]
  · have hdrop : (Nat.toDigits 10 d.digits).drop
        (((Nat.toDigits 10 d.digits).length : ℤ) + d.exponent).toNat ≠ [] := by
      rw [Ne, List.drop_eq_nil_iff]
      omega
    simp [positional, hpoint, hdrop]

/-- A whole number has its exact numeral before the point. -/
theorem positional_of_whole {n : ℕ} (hzero : d.digits = 0 → d.exponent = 0) (h : 0 ≤ d.exponent)
    (hvalue : d.value = n) : positional true d = Numeral.ofNat n ++ ".0" := by
  obtain ⟨k, hk⟩ := Int.eq_ofNat_of_zero_le h
  have hlength : 0 < (Nat.toDigits 10 d.digits).length := Nat.length_toDigits_pos
  have hn : d.digits * 10 ^ k = n := by
    rw [Decimal.value, hk, zpow_natCast] at hvalue
    exact_mod_cast hvalue
  have hnumeral : Nat.toDigits 10 d.digits ++ List.replicate k '0' = Nat.toDigits 10 n := by
    rcases Nat.eq_zero_or_pos d.digits with hd | hd
    · obtain rfl : k = 0 := by have := hzero hd; omega
      rw [List.replicate_zero, List.append_nil, ← hn, pow_zero, mul_one]
    · rw [toDigits_append hd fun c => isDigit_of_mem_zeros, Nat.ofDigitChars_replicate_zero, ← hn,
        mul_comm]
  have hpoint : ¬ ((Nat.toDigits 10 d.digits).length : ℤ) + k ≤ 0 := by omega
  have htake : (Nat.toDigits 10 d.digits).take
      (((Nat.toDigits 10 d.digits).length : ℤ) + k).toNat = Nat.toDigits 10 d.digits :=
    List.take_of_length_le (by omega)
  have hdrop : (Nat.toDigits 10 d.digits).drop
      (((Nat.toDigits 10 d.digits).length : ℤ) + k).toNat = [] :=
    List.drop_eq_nil_of_le (by omega)
  simp only [positional, hk, if_neg hpoint, htake, hdrop, Int.toNat_natCast, hnumeral]
  simp [Numeral.ofNat, String.ofList_append]

end Layout

/-! ### Forms -/

/-- The sign of a number as it is written. -/
def signText (negative : Bool) : String := if negative then "-" else ""

/-- The form of a finite number: all its places if it has a fraction; the exact numeral and a zero
after the point if it is a whole number below `10 ^ 16`; the shortest digits and an exponent if it is
one from there on. -/
inductive Form (negative : Bool) (size : Magnitude .double) : String → Prop
  | fraction (h : ∀ n : ℕ, size.value ≠ n) :
      Form negative size (plainFloat.write (.finite negative size))
  | whole {n : ℕ} (h : size.value = n) (hn : n < 10 ^ 16) :
      Form negative size (signText negative ++ (Numeral.ofNat n ++ ".0"))
  | large {n : ℕ} (h : size.value = n) (hn : 10 ^ 16 ≤ n) :
      Form negative size (signText negative
        ++ Layout.scientific false (Decimal.shortest .up size))

/-- **A finite float has the form that its value calls for.** -/
theorem form_wireFloat (negative : Bool) (size : Magnitude .double) :
    Form negative size (wireFloat.write (.finite negative size)) := by
  have hwrite : wireFloat.write (.finite negative size)
      = signText negative ++ wireFloat.decimal (Decimal.shortest .up size) := rfl
  have hlt := Decimal.shortest_lt_iff .up size
  rw [hwrite, Layout.wireFloat_decimal_eq]
  by_cases hwhole : ∃ n : ℕ, size.value = n
  · obtain ⟨n, hn⟩ := hwhole
    rcases Nat.lt_or_ge n (10 ^ 16) with hsmall | hlarge
    · obtain ⟨hvalue, hexponent⟩ := Decimal.shortest_of_whole .up hn hsmall
      have hzero : (Decimal.shortest .up size).digits = 0 → (Decimal.shortest .up size).exponent = 0 :=
        fun h => by rw [Decimal.shortest_eq_zero h]
      rw [if_pos (hlt.2 (by rw [hn]; exact_mod_cast hsmall)),
        Layout.positional_of_whole hzero hexponent hvalue]
      exact .whole hn hsmall
    · rw [if_neg (mt hlt.1 (not_lt.2 (by rw [hn]; exact_mod_cast hlarge)))]
      exact .large hn hlarge
  · have hfraction : ∀ n : ℕ, size.value ≠ n := not_exists.1 hwhole
    have hsmall : size.value < (10 : ℚ) ^ 16 :=
      (Decimal.value_lt_of_fraction hfraction).trans (by norm_num)
    rw [if_pos (hlt.2 hsmall), Layout.positional_of_fraction (Decimal.shortest_exponent_neg .up hfraction),
      ← Layout.plainFloat_decimal_eq]
    exact .fraction hfraction

end VectorQuery
