import Mathlib
import VectorQuery.Condition.Operand

/-!
# The range of points in time

The calendar covers less than 300 000 years on either side of its epoch, so the milliseconds of a
point in time are a 64-bit integer, however the point is written.

* `Date.epochMillis_mem`, `Instant.epochMillis_mem` — the milliseconds of dates and instants are
  within the range of 64-bit integers;
* `Operand.exists_millis` — **so are those of every operand that is read as a point in time**.
-/

namespace VectorQuery

/-! ### Dates and instants -/

theorem Calendar.daysInMonth_le (year : ℤ) (month : ℕ) : daysInMonth year month ≤ 31 := by
  unfold daysInMonth
  repeat' split
  all_goals omega

theorem Calendar.daysOfMonths_le (year : ℤ) (months : ℕ) : daysOfMonths year months ≤ 31 * months := by
  induction months with
  | zero => exact Nat.le_refl 0
  | succ months ih =>
    have hmonth := daysInMonth_le year (months + 1)
    rw [daysOfMonths]
    omega

/-- The milliseconds that a 64-bit integer holds. -/
def Calendar.millisRange : Set ℤ := Set.Icc Int64.minValue.toInt Int64.maxValue.toInt

open Calendar

theorem Date.epochMillis_mem (date : Date) : date.epochMillis ∈ millisRange := by
  obtain ⟨⟨hfirst, hlast⟩, ⟨-, hmonth⟩, -, hday⟩ := date.valid
  have hmonths := daysOfMonths_le date.year (date.month - 1)
  have hdays := daysInMonth_le date.year date.month
  have hmin : Int64.minValue.toInt = -9223372036854775808 := rfl
  have hmax : Int64.maxValue.toInt = 9223372036854775807 := rfl
  have hepoch : epochDay = 719162 := rfl
  rw [firstYear] at hfirst
  rw [lastYear] at hlast
  rw [millisRange, Set.mem_Icc, hmin, hmax, Date.epochMillis, dayNumber, hepoch, daysBeforeMonth,
    daysBeforeYear]
  omega

theorem Instant.epochMillis_mem (instant : Instant) : instant.epochMillis ∈ millisRange := by
  obtain ⟨hfirst, hlast⟩ := instant.covered
  have hnanos : instant.nanos < 2000000000 := by
    have hbounded := instant.bounded
    omega
  have hmin : Int64.minValue.toInt = -9223372036854775808 := rfl
  have hmax : Int64.maxValue.toInt = 9223372036854775807 := rfl
  rw [firstSecond] at hfirst
  rw [lastSecond] at hlast
  rw [millisRange, Set.mem_Icc, hmin, hmax, Instant.epochMillis]
  omega

/-! ### Operands -/

/-- The milliseconds of a text are those of an instant or of a date. -/
theorem Calendar.epochMillis?_mem {text : String} {millis : ℤ} (h : epochMillis? text = some millis) :
    millis ∈ millisRange := by
  rw [epochMillis?] at h
  split at h
  · cases h
    exact Instant.epochMillis_mem _
  · obtain ⟨date, -, rfl⟩ := Option.map_eq_some_iff.1 h
    exact date.epochMillis_mem

/-- **The milliseconds of an operand are a 64-bit integer.** -/
theorem Operand.exists_millis {value : Operand} {millis : ℤ} (h : value.epochMillis = .ok millis) :
    ∃ word : Int64, word.toInt = millis := by
  have hword : ∀ {n : ℤ}, n ∈ millisRange → ∃ word : Int64, word.toInt = n := fun hn =>
    ⟨Int64.ofInt _, Int64.toInt_ofInt_of_le hn.1 (Int.lt_add_one_of_le hn.2)⟩
  rw [Operand.epochMillis.eq_def] at h
  split at h
  · cases h
    exact hword (Instant.epochMillis_mem _)
  · cases h
    exact hword (Date.epochMillis_mem _)
  · rename_i word
    cases h
    exact ⟨word, rfl⟩
  · split at h
    · rename_i hmillis
      cases h
      exact hword (epochMillis?_mem hmillis)
    · cases h
  · cases h

end VectorQuery
