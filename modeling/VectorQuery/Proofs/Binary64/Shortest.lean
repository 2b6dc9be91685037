import Mathlib
import VectorQuery.Proofs.Binary64.Decimal

/-!
# How far the shortest decimal is from its magnitude

A grid of decimals has one neighbour of a magnitude on either side, and the shortest decimal is such a
neighbour.  So it has the same leading place, up to a power of ten that it is rounded up to, and it
is the magnitude itself where that is a whole number below `10 ^ 16`: a coarser grid has even numbers
only, and those are values of the format up to `2 ^ 54`.

* `Magnitude.exists_value`, `value_eq_of_reads` — integers of 53 binary digits before zeros are values
  of the format, so they are read as themselves;
* `leadingPlace_bounds`, `onGrid?_neighbour` — the leading place, and the neighbours on a grid;
* `shortest_cases`, `shortest_bounds` — where the shortest decimal comes from, and its bounds;
* `shortest_of_whole` — **a whole number below `10 ^ 16` is its own shortest decimal**;
* `shortest_lt_iff`, `shortest_exponent_neg` — the shortest decimal is below `10 ^ 16` iff the
  magnitude is, and has a fraction if it has.
-/

namespace VectorQuery

/-! ### Integers of the format -/

/-- An integer of at most 53 binary digits, with zeros after them, is a value of the format. -/
theorem Magnitude.exists_value {m : ℕ} (hm : m < 2 ^ 53) {e : ℕ} (he : e ≤ 971) :
    ∃ x : Magnitude .double, x.value = m * (2 : ℚ) ^ e := by
  rcases Nat.eq_zero_or_pos m with rfl | hpos
  · exact ⟨⟨0, -1074, by decide⟩, by simp [Magnitude.value]⟩
  · have hlog : m.log2 < 53 := (Nat.log2_lt hpos.ne').2 hm
    obtain ⟨shift, hshift⟩ : ∃ shift, m.log2 + shift = 52 := ⟨52 - m.log2, by omega⟩
    have hlow : 2 ^ 52 ≤ m * 2 ^ shift := by
      rw [← hshift, pow_add]
      exact Nat.mul_le_mul_right _ (Nat.log2_self_le hpos.ne')
    have hhigh : m * 2 ^ shift < 2 ^ 53 := by
      rw [show 53 = m.log2 + 1 + shift by omega, pow_add]
      exact Nat.mul_lt_mul_of_pos_right Nat.lt_log2_self (Nat.two_pow_pos shift)
    have hcanonical : Format.double.Canonical (m * 2 ^ shift) ((e : ℤ) - shift) := by
      refine ⟨hhigh, ?_, ?_, Or.inl hlow⟩
      · show (-1074 : ℤ) ≤ (e : ℤ) - shift
        omega
      · show (e : ℤ) - shift ≤ 971
        omega
    refine ⟨⟨_, _, hcanonical⟩, ?_⟩
    simp only [Magnitude.value]
    rw [zpow_sub₀ (by norm_num), zpow_natCast, zpow_natCast]
    push_cast
    field_simp

namespace Decimal

open Magnitude

variable {x y : Magnitude .double} {d : Decimal} {tie : Tie}

theorem eq_of_reads (hx : reads x d = true) (hy : reads y d = true) : x = y := by
  rw [reads, beq_iff_eq] at hx hy
  exact Option.some.inj (hx.symm.trans hy)

/-- An integer that is a value of the format is read as itself. -/
theorem value_eq_of_reads {m : ℕ} (hm : m < 2 ^ 53) {e : ℕ} (he : e ≤ 971)
    (hvalue : d.value = m * (2 : ℚ) ^ e) (hreads : reads x d = true) : d.value = x.value := by
  obtain ⟨y, hy⟩ := exists_value hm he
  rw [hvalue, ← hy, eq_of_reads hreads (reads_of_value (hvalue.trans hy.symm))]

/-! ### Leading places -/

/-- A positive integer lies between the powers of ten next to the length of its numeral. -/
theorem exists_length_toDigits {n : ℕ} (hn : 0 < n) :
    ∃ k, (Nat.toDigits 10 n).length = k + 1 ∧ 10 ^ k ≤ n ∧ n < 10 ^ (k + 1) := by
  obtain ⟨k, hk⟩ : ∃ k, (Nat.toDigits 10 n).length = k + 1 :=
    ⟨_, (Nat.sub_add_cancel Nat.length_toDigits_pos).symm⟩
  refine ⟨k, hk, ?_, (Nat.length_toDigits_le_iff (by decide) (Nat.succ_pos k)).1 hk.le⟩
  rcases Nat.eq_zero_or_pos k with rfl | hpos
  · exact hn
  · refine not_lt.1 fun hlt => ?_
    have := (Nat.length_toDigits_le_iff (by decide) hpos).2 hlt
    omega

/-- A positive quotient lies between the powers of ten next to its leading place. -/
theorem leadingPlace_bounds {num den : ℕ} (hnum : 0 < num) (hden : 0 < den) :
    (10 : ℚ) ^ (leadingPlace num den - 1) ≤ (num : ℚ) / den
    ∧ (num : ℚ) / den < (10 : ℚ) ^ leadingPlace num den := by
  have hdenq : (0 : ℚ) < den := by exact_mod_cast hden
  rw [leadingPlace]
  split
  next hle =>
    obtain ⟨k, hk, hlow, hhigh⟩ := exists_length_toDigits (Nat.div_pos hle hden)
    rw [hk, Nat.cast_succ, add_sub_cancel_right, ← Nat.cast_succ, zpow_natCast, zpow_natCast,
      le_div_iff₀ hdenq, div_lt_iff₀ hdenq]
    exact ⟨by exact_mod_cast (Nat.le_div_iff_mul_le hden).1 hlow,
      by exact_mod_cast (Nat.div_lt_iff_lt_mul hden).1 hhigh⟩
  next hlt =>
    -- the numeral of the inverse, less a little so that it is no power of ten
    obtain ⟨k, hk, hlow, hhigh⟩ :=
      exists_length_toDigits (Nat.div_pos (show num ≤ den - 1 by omega) hnum)
    have hlow := (Nat.le_div_iff_mul_le hnum).1 hlow
    have hhigh := (Nat.div_lt_iff_lt_mul hnum).1 hhigh
    have hbelow : 10 ^ k * num < den := by omega
    have habove : den ≤ 10 ^ (k + 1) * num := by omega
    rw [hk, show (1 : ℤ) - (k + 1 : ℕ) - 1 = -((k + 1 : ℕ) : ℤ) by push_cast; ring,
      show (1 : ℤ) - (k + 1 : ℕ) = -(k : ℤ) by push_cast; ring, zpow_neg, zpow_neg, zpow_natCast,
      zpow_natCast, le_div_iff₀ hdenq, div_lt_iff₀ hdenq, inv_mul_le_iff₀ (by positivity),
      lt_inv_mul_iff₀ (by positivity)]
    exact ⟨by exact_mod_cast habove, by exact_mod_cast hbelow⟩

theorem value_bounds (hx : x.mant ≠ 0) :
    (10 : ℚ) ^ (leadingPlace x.num x.den - 1) ≤ x.value
    ∧ x.value < (10 : ℚ) ^ leadingPlace x.num x.den := by
  rw [← num_div_den]
  exact leadingPlace_bounds (Nat.mul_pos (Nat.pos_of_ne_zero hx) (Nat.two_pow_pos _)) x.den_pos

/-! ### Neighbours on a grid -/

/-- A hit on a grid is one of the two neighbours of the magnitude. -/
theorem onGrid?_neighbour {place : ℤ} (h : onGrid? tie x place = some d) :
    d.exponent = place ∧ ∃ low : ℕ, (d.digits = low ∨ d.digits = low + 1)
      ∧ low * (10 : ℚ) ^ place ≤ x.value ∧ x.value < (low + 1) * (10 : ℚ) ^ place := by
  set num := x.num * Nat.pow 10 (-place).toNat with hnum
  set den := x.den * Nat.pow 10 place.toNat with hden
  have hpos : 0 < den := Nat.mul_pos x.den_pos (Nat.pow_pos (by decide))
  have hscaled : (num : ℚ) / den = x.value / (10 : ℚ) ^ place := by
    have hten := zpow_eq_div 10 (by decide) place
    rw [Nat.cast_ofNat] at hten
    rw [hten, ← num_div_den, hnum, hden, Nat.cast_mul, Nat.cast_mul, div_div_div_eq]
  have hmem : d = ⟨num / den, place⟩ ∨ d = ⟨num / den + 1, place⟩ := by
    have hmem := List.mem_of_find?_eq_some h
    split at hmem
    · exact (List.mem_pair.1 hmem).symm
    · exact List.mem_pair.1 hmem
  have hunit : (0 : ℚ) < (10 : ℚ) ^ place := by positivity
  have hlow : ((num / den : ℕ) : ℚ) ≤ x.value / (10 : ℚ) ^ place := by
    rw [← hscaled]
    exact Nat.cast_div_le
  have hhigh : x.value / (10 : ℚ) ^ place < (num / den : ℕ) + 1 := by
    rw [← hscaled, div_lt_iff₀ (by exact_mod_cast hpos)]
    exact_mod_cast (Nat.div_lt_iff_lt_mul hpos).1 (Nat.lt_succ_self (num / den))
  refine ⟨by rcases hmem with rfl | rfl <;> rfl, num / den, ?_, (le_div_iff₀ hunit).1 hlow,
    (div_lt_iff₀ hunit).1 hhigh⟩
  rcases hmem with rfl | rfl
  · exact Or.inl rfl
  · exact Or.inr rfl

/-- The shortest decimal is a hit on the first grid that has one, or the magnitude with all its digits. -/
theorem shortest_cases (tie : Tie) (hx : x.mant ≠ 0) :
    (shortest tie x = exact x
      ∧ ∀ n < 17, onGrid? tie x (leadingPlace x.num x.den - (n + 1 : ℕ)) = none)
    ∨ ∃ n d, shortest tie x = trimPower (n + 1) d
      ∧ onGrid? tie x (leadingPlace x.num x.den - (n + 1 : ℕ)) = some d
      ∧ ∀ m < n, onGrid? tie x (leadingPlace x.num x.den - (m + 1 : ℕ)) = none := by
  rw [shortest, if_neg hx]
  simp only
  cases hhit : (List.range 17).findSome? fun n =>
      (onGrid? tie x (leadingPlace x.num x.den - (n + 1 : ℕ))).map (trimPower (n + 1)) with
  | none =>
    rw [List.findSome?_eq_none_iff] at hhit
    exact Or.inl ⟨rfl, fun n hn => Option.map_eq_none_iff.1 (hhit n (List.mem_range.2 hn))⟩
  | some hit =>
    obtain ⟨before, n, after, hsplit, hn, hbefore⟩ := List.findSome?_eq_some_iff.1 hhit
    obtain ⟨d, hd, rfl⟩ := Option.map_eq_some_iff.1 hn
    refine Or.inr ⟨n, d, rfl, hd, fun m hm => Option.map_eq_none_iff.1 (hbefore m ?_)⟩
    -- the grids before the hit are those of fewer digits
    have hlength : before.length < 17 := by
      have := congrArg List.length hsplit
      simp at this
      omega
    have hplace : before.length = n := by
      have := congrArg (·[before.length]?) hsplit
      simpa [hlength] using this
    have htake : before = (List.range 17).take before.length := by
      rw [hsplit, List.take_left]
    rw [htake, hplace, List.take_range, List.mem_range]
    omega

theorem trimPower_exponent_le (n : ℕ) (d : Decimal) : d.exponent ≤ (trimPower n d).exponent := by
  rw [trimPower]
  split
  · show d.exponent ≤ d.exponent + n
    omega
  · exact le_rfl

/-- A hit on the grid of some number of digits has the leading place of the magnitude, or is the power of
ten above it, and is at most twice the magnitude. -/
theorem onGrid?_bounds (hx : x.mant ≠ 0) {n : ℕ}
    (h : onGrid? tie x (leadingPlace x.num x.den - (n + 1 : ℕ)) = some d) :
    (10 : ℚ) ^ (leadingPlace x.num x.den - 1) ≤ d.value
    ∧ d.value ≤ (10 : ℚ) ^ leadingPlace x.num x.den ∧ d.value ≤ 2 * x.value := by
  obtain ⟨hbelow, habove⟩ := value_bounds hx
  obtain ⟨hexponent, low, hdigits, hlow, hhigh⟩ := onGrid?_neighbour h
  generalize leadingPlace x.num x.den = top at *
  have hunit : (0 : ℚ) < (10 : ℚ) ^ (top - (n + 1 : ℕ)) := by positivity
  have hscale : ∀ k : ℕ, (10 : ℚ) ^ k * (10 : ℚ) ^ (top - (n + 1 : ℕ))
      = (10 : ℚ) ^ (top - (n + 1 : ℕ) + k) := by
    intro k
    rw [zpow_add₀ (by norm_num), zpow_natCast, mul_comm]
  -- `10 ^ n ≤ low < 10 ^ (n + 1)`
  have hleast : (10 : ℚ) ^ n * (10 : ℚ) ^ (top - (n + 1 : ℕ)) = (10 : ℚ) ^ (top - 1) := by
    rw [hscale]
    congr 1
    push_cast
    ring
  have hmost : (10 : ℚ) ^ (n + 1) * (10 : ℚ) ^ (top - (n + 1 : ℕ)) = (10 : ℚ) ^ top := by
    rw [hscale]
    congr 1
    ring
  have hlower : 10 ^ n ≤ low := by
    have := lt_of_mul_lt_mul_right ((hleast.trans_le hbelow).trans_lt hhigh) hunit.le
    exact Nat.lt_succ_iff.1 (by exact_mod_cast this)
  have hupper : low + 1 ≤ 10 ^ (n + 1) := by
    have := lt_of_mul_lt_mul_right ((hlow.trans_lt habove).trans_eq hmost.symm) hunit.le
    exact Nat.succ_le_iff.2 (by exact_mod_cast this)
  have hone : 1 ≤ low := (Nat.one_le_pow _ _ (by decide)).trans hlower
  have hdigits : low ≤ d.digits ∧ d.digits ≤ low + 1 := by omega
  have hvalue : d.value = d.digits * (10 : ℚ) ^ (top - (n + 1 : ℕ)) := by rw [value, hexponent]
  rw [hvalue]
  refine ⟨?_, ?_, ?_⟩
  · rw [← hleast]
    exact mul_le_mul_of_nonneg_right (by exact_mod_cast hlower.trans hdigits.1) hunit.le
  · rw [← hmost]
    exact mul_le_mul_of_nonneg_right (by exact_mod_cast hdigits.2.trans hupper) hunit.le
  · calc (d.digits : ℚ) * (10 : ℚ) ^ (top - (n + 1 : ℕ))
        ≤ (2 * low : ℕ) * (10 : ℚ) ^ (top - (n + 1 : ℕ)) :=
          mul_le_mul_of_nonneg_right (by exact_mod_cast (by omega : d.digits ≤ 2 * low)) hunit.le
      _ = 2 * (low * (10 : ℚ) ^ (top - (n + 1 : ℕ))) := by push_cast; ring
      _ ≤ 2 * x.value := by linarith

/-- The same bounds for the shortest decimal. -/
theorem shortest_bounds (tie : Tie) (hx : x.mant ≠ 0) :
    (10 : ℚ) ^ (leadingPlace x.num x.den - 1) ≤ (shortest tie x).value
    ∧ (shortest tie x).value ≤ (10 : ℚ) ^ leadingPlace x.num x.den
    ∧ (shortest tie x).value ≤ 2 * x.value := by
  rcases shortest_cases tie hx with ⟨hexact, -⟩ | ⟨n, d, hshortest, hd, -⟩
  · obtain ⟨hbelow, habove⟩ := value_bounds hx
    rw [hexact, exact_value]
    have hpos : (0 : ℚ) ≤ x.value := le_trans (by positivity) hbelow
    exact ⟨hbelow, habove.le, by linarith⟩
  · rw [hshortest, trimPower_value]
    exact onGrid?_bounds hx hd

/-! ### Whole numbers -/

/-- On the grid of the integers, a whole number is its own neighbour. -/
theorem onGrid?_of_whole (tie : Tie) {n : ℕ} (h : x.value = n) : onGrid? tie x 0 = some ⟨n, 0⟩ := by
  have hnum : x.num = n * x.den := by
    rw [← num_div_den, div_eq_iff (by exact_mod_cast x.den_pos.ne')] at h
    exact_mod_cast h
  have hreads : reads x ⟨n, 0⟩ = true := reads_of_value (by rw [value, h, zpow_zero, mul_one])
  have hden : x.den ≠ 0 := x.den_pos.ne'
  have hplace : Nat.pow 10 (Int.toNat 0) = 1 := rfl
  have hupper : prefersUpper tie n 0 x.den = false := by
    simp [prefersUpper, hden.symm]
  simp only [onGrid?, neg_zero, hplace, Nat.mul_one, hnum, Nat.mul_div_cancel _ x.den_pos,
    Nat.mul_mod_left, Nat.mul_zero, hupper]
  simp [hreads]

/-- An even integer up to `10 ^ 16` that reads back is the magnitude itself. -/
theorem value_of_even {n : ℕ} (hn : 2 * n ≤ 10 ^ 16) (hvalue : d.value = (2 * n : ℕ))
    (hreads : reads x d = true) : d.value = x.value := by
  refine value_eq_of_reads (m := n) (e := 1) (by omega) (by decide) ?_ hreads
  rw [hvalue]
  push_cast
  ring

/-- A hit on a grid of tens or more, up to `10 ^ 16`, is the magnitude itself. -/
theorem value_of_onGrid? {j : ℕ} (h : onGrid? tie x (j + 1 : ℕ) = some d)
    (hd : d.value ≤ (10 : ℚ) ^ 16) : d.value = x.value := by
  have hvalue : d.value = (2 * (d.digits * (5 * 10 ^ j)) : ℕ) := by
    rw [value, (onGrid?_neighbour h).1, zpow_natCast, pow_succ]
    push_cast
    ring
  refine value_of_even (n := d.digits * (5 * 10 ^ j)) ?_ hvalue (onGrid?_reads h)
  rw [hvalue] at hd
  exact_mod_cast hd

/-- A whole number below `10 ^ 16` has from one to sixteen digits. -/
theorem leadingPlace_of_whole (hx : x.mant ≠ 0) {n : ℕ} (h : x.value = n) (hn : n < 10 ^ 16) :
    ∃ k < 16, leadingPlace x.num x.den = (k + 1 : ℕ) := by
  obtain ⟨hbelow, habove⟩ := value_bounds hx
  generalize leadingPlace x.num x.den = top at *
  rw [h] at hbelow habove
  have hpos : 1 ≤ n := by
    refine Nat.one_le_iff_ne_zero.2 fun hzero => ?_
    rw [hzero, Nat.cast_zero] at hbelow
    exact absurd hbelow (not_le.2 (by positivity))
  have htop : 0 < top := by
    have hlt : (10 : ℚ) ^ (0 : ℤ) < (10 : ℚ) ^ top :=
      lt_of_le_of_lt (by rw [zpow_zero]; exact_mod_cast hpos) habove
    exact (zpow_lt_zpow_iff_right₀ (by norm_num)).1 hlt
  have htop16 : top - 1 < 16 := by
    have hlt : (10 : ℚ) ^ (top - 1) < (10 : ℚ) ^ (16 : ℤ) :=
      lt_of_le_of_lt hbelow (by exact_mod_cast hn)
    exact (zpow_lt_zpow_iff_right₀ (by norm_num)).1 hlt
  exact ⟨(top - 1).toNat, by omega, by omega⟩

/-- **A whole number below `10 ^ 16` is its own shortest decimal**, with no digits after the point.  The
grid of the integers has a hit, the number itself; on any grid before it a hit is an even integer. -/
theorem shortest_of_whole (tie : Tie) {n : ℕ} (h : x.value = n) (hn : n < 10 ^ 16) :
    (shortest tie x).value = n ∧ 0 ≤ (shortest tie x).exponent := by
  by_cases hx : x.mant = 0
  · rw [shortest, if_pos hx, ← h, value_of_mant_eq_zero hx]
    exact ⟨by simp [value], le_rfl⟩
  obtain ⟨k, hk, htop⟩ := leadingPlace_of_whole hx h hn
  have hbounds := fun m d => @onGrid?_bounds x d tie hx m
  have hcases := shortest_cases tie hx
  rw [htop] at hbounds hcases
  have hwhole : onGrid? tie x (((k + 1 : ℕ) : ℤ) - (k + 1 : ℕ)) = some ⟨n, 0⟩ := by
    rw [sub_self]
    exact onGrid?_of_whole tie h
  rcases hcases with ⟨-, hnone⟩ | ⟨m, d, hshortest, hd, hnone⟩
  · exact absurd (hnone k (by omega)) (by rw [hwhole]; exact Option.some_ne_none _)
  · have hm : m ≤ k := by
      refine not_lt.1 fun hlt => ?_
      exact absurd (hnone k hlt) (by rw [hwhole]; exact Option.some_ne_none _)
    have hexponent := (onGrid?_neighbour hd).1
    have htrim := trimPower_exponent_le (m + 1) d
    refine ⟨?_, by rw [hshortest]; omega⟩
    rw [hshortest, trimPower_value]
    rcases Nat.eq_or_lt_of_le hm with rfl | hlt
    · rw [hwhole] at hd
      cases hd
      simp [value]
    · obtain ⟨j, rfl⟩ : ∃ j, k = m + 1 + j := ⟨k - (m + 1), by omega⟩
      have hplace : (((m + 1 + j + 1 : ℕ) : ℤ) - (m + 1 : ℕ)) = (j + 1 : ℕ) := by push_cast; ring
      have hd16 : d.value ≤ (10 : ℚ) ^ 16 := by
        refine (hbounds m d hd).2.1.trans ?_
        rw [zpow_natCast]
        exact pow_le_pow_right₀ (by norm_num) (by omega)
      rw [hplace] at hd
      rw [value_of_onGrid? hd hd16, h]

/-! ### Large numbers and fractions -/

/-- The shortest decimal stays on its side of `10 ^ 16`. -/
theorem shortest_lt_iff (tie : Tie) (x : Magnitude .double) :
    (shortest tie x).value < (10 : ℚ) ^ 16 ↔ x.value < (10 : ℚ) ^ 16 := by
  by_cases hx : x.mant = 0
  · rw [value_of_mant_eq_zero hx, shortest, if_pos hx]
    simp [value]
  obtain ⟨hbelow, habove⟩ := value_bounds hx
  obtain ⟨hlow, hhigh, -⟩ := shortest_bounds tie hx
  have hreads := reads_shortest tie x
  generalize leadingPlace x.num x.den = top at *
  rw [← zpow_natCast, Nat.cast_ofNat]
  rcases le_or_gt top 16 with htop | htop
  · have hpower : (10 : ℚ) ^ top ≤ (10 : ℚ) ^ (16 : ℤ) := zpow_le_zpow_right₀ (by norm_num) htop
    refine iff_of_true (lt_of_le_of_ne (hhigh.trans hpower) fun heq => ?_) (habove.trans_le hpower)
    -- `10 ^ 16` is a value of the format, and not this one
    have hvalue : (shortest tie x).value = (2 * (5 * 10 ^ 15) : ℕ) := by rw [heq]; norm_num
    have := value_of_even (n := 5 * 10 ^ 15) (by norm_num) hvalue hreads
    rw [← this, heq] at habove
    exact absurd habove (not_lt.2 hpower)
  · have hpower : (10 : ℚ) ^ (16 : ℤ) ≤ (10 : ℚ) ^ (top - 1) :=
      zpow_le_zpow_right₀ (by norm_num) (by omega)
    exact iff_of_false (not_lt.2 (hpower.trans hlow)) (not_lt.2 (hpower.trans hbelow))

/-- A magnitude with a fraction has fewer than fifty-three binary digits before the point. -/
theorem value_lt_of_fraction (h : ∀ n : ℕ, x.value ≠ n) : x.value < (2 : ℚ) ^ 52 := by
  have hexp : x.exp < 0 := by
    refine not_le.1 fun hle => ?_
    obtain ⟨k, hk⟩ := Int.eq_ofNat_of_zero_le hle
    refine h (x.mant * 2 ^ k) ?_
    rw [Magnitude.value, hk]
    push_cast
    rw [zpow_natCast]
  have hmant : (x.mant : ℚ) < 2 ^ 53 := by exact_mod_cast x.canonical.1
  calc x.value = x.mant * (2 : ℚ) ^ x.exp := rfl
    _ ≤ x.mant * (2 : ℚ) ^ (-1 : ℤ) :=
      mul_le_mul_of_nonneg_left (zpow_le_zpow_right₀ (by norm_num) (by omega)) (Nat.cast_nonneg _)
    _ < 2 ^ 53 * (2 : ℚ) ^ (-1 : ℤ) := by gcongr
    _ = (2 : ℚ) ^ 52 := by norm_num

/-- The shortest decimal of a magnitude with a fraction has digits after the point. -/
theorem shortest_exponent_neg (tie : Tie) (h : ∀ n : ℕ, x.value ≠ n) :
    (shortest tie x).exponent < 0 := by
  refine not_le.1 fun hle => ?_
  obtain ⟨k, hk⟩ := Int.eq_ofNat_of_zero_le hle
  have hvalue : (shortest tie x).value = ((shortest tie x).digits * 10 ^ k : ℕ) := by
    rw [value, hk]
    push_cast
    rw [zpow_natCast]
  have hx : x.mant ≠ 0 := fun hmant => h 0 (by rw [value_of_mant_eq_zero hmant, Nat.cast_zero])
  have hsmall : (shortest tie x).digits * 10 ^ k < 2 ^ 53 := by
    have hdouble := (shortest_bounds tie hx).2.2
    have hfraction := value_lt_of_fraction h
    rw [hvalue] at hdouble
    have hlt : (((shortest tie x).digits * 10 ^ k : ℕ) : ℚ) < 2 ^ 53 := by linarith
    exact_mod_cast hlt
  have hsame := value_eq_of_reads hsmall (Nat.zero_le _) (by rw [hvalue, pow_zero, mul_one])
    (reads_shortest tie x)
  exact h _ (hsame.symm.trans hvalue)

end Decimal

end VectorQuery
