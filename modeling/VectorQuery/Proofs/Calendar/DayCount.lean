import Mathlib
import VectorQuery.Proofs.Calendar.Range

/-!
# Days are counted one by one

The number of a date is computed from its year, its month and its day.  The calendar says only which
date comes after which: the next day of the month, or else the first of the next month, or else the
first of the next year.  Counting along it gives the same number.

* `Date.Next` — the date after another;
* `Date.DaysAfter`, `Date.DaysFrom` — dates that so many days lie between;
* `Date.Before`, `Date.dayNumber_lt_iff` — a later date has a larger number;
* `Date.dayNumber_next`, `Date.exists_next` — the next date has the next number, and there is a next
  one up to the last date of all;
* `Date.daysFrom_epoch_iff` — **the number of a date is its count of days from 1970-01-01**;
* `Date.midnight` — the start of a date as an instant.
-/

namespace VectorQuery

open Calendar

/-! ### Months and years -/

namespace Calendar

theorem daysInMonth_pos (year : ℤ) (month : ℕ) : 0 < daysInMonth year month := by
  unfold daysInMonth
  repeat' split
  all_goals omega

theorem daysOfMonths_mono (year : ℤ) {months more : ℕ} (h : months ≤ more) :
    daysOfMonths year months ≤ daysOfMonths year more := by
  induction h with
  | refl => exact Nat.le_refl _
  | step _ ih => exact Nat.le_add_right_of_le ih

theorem daysBeforeYear_mono {year later : ℤ} (h : year ≤ later) :
    daysBeforeYear year ≤ daysBeforeYear later := by
  simp only [daysBeforeYear]
  omega

theorem daysBeforeYear_next (year : ℤ) :
    daysBeforeYear (year + 1) = daysBeforeYear year + daysOfMonths year 12 := by
  rw [daysBeforeYear_succ, daysOfMonths_twelve]
  split <;> rfl

/-- A year before another is over when the other begins. -/
theorem daysBeforeYear_add_le {year later : ℤ} (h : year < later) :
    daysBeforeYear year + daysOfMonths year 12 ≤ daysBeforeYear later := by
  rw [← daysBeforeYear_next]
  exact daysBeforeYear_mono (Int.add_one_le_of_lt h)

end Calendar

namespace Date

/-! ### The order of dates -/

/-- An earlier date. -/
def Before (date later : Date) : Prop :=
  date.year < later.year
  ∨ date.year = later.year
    ∧ (date.month < later.month ∨ date.month = later.month ∧ date.day < later.day)

theorem before_trichotomy (date other : Date) :
    date.Before other ∨ date = other ∨ other.Before date := by
  obtain ⟨year, month, day, -⟩ := date
  obtain ⟨year', month', day', -⟩ := other
  simp only [Before, mk.injEq]
  omega

/-- The days of the year that are over when a date begins. -/
def dayOfYear (date : Date) : ℕ := daysBeforeMonth date.year date.month + (date.day - 1)

theorem dayNumber_eq (date : Date) :
    date.dayNumber = daysBeforeYear date.year + date.dayOfYear - epochDay := by
  rw [dayNumber, dayOfYear]
  omega

/-- The days before a month and those of the month are days of the year. -/
theorem daysBeforeMonth_add {month : ℕ} (hmonth : 1 ≤ month) (year : ℤ) :
    daysBeforeMonth year month + daysInMonth year month = daysOfMonths year month := by
  obtain ⟨months, rfl⟩ := Nat.exists_eq_add_of_le' hmonth
  rfl

theorem dayOfYear_lt (date : Date) : date.dayOfYear < daysOfMonths date.year date.month := by
  obtain ⟨-, ⟨hmonth, -⟩, hfirst, hlast⟩ := date.valid
  have hadd := daysBeforeMonth_add hmonth date.year
  rw [dayOfYear]
  omega

theorem dayOfYear_lt_year (date : Date) : date.dayOfYear < daysOfMonths date.year 12 :=
  date.dayOfYear_lt.trans_le (daysOfMonths_mono _ date.valid.2.1.2)

theorem dayNumber_lt {date later : Date} (h : date.Before later) :
    date.dayNumber < later.dayNumber := by
  have hyear := date.dayOfYear_lt_year
  have hmonth := date.dayOfYear_lt
  rw [dayNumber_eq, dayNumber_eq]
  rcases h with h | ⟨hsame, h | ⟨hmonths, h⟩⟩
  · have hover := daysBeforeYear_add_le h
    omega
  · have hover : daysOfMonths later.year date.month ≤ daysBeforeMonth later.year later.month :=
      daysOfMonths_mono _ (Nat.le_sub_one_of_lt h)
    have hlater : daysBeforeMonth later.year later.month ≤ later.dayOfYear := Nat.le_add_right _ _
    rw [hsame] at hmonth ⊢
    omega
  · have hfirst := date.valid.2.2.1
    rw [dayOfYear, dayOfYear, hsame, hmonths]
    omega

/-- A later date has a larger number. -/
theorem dayNumber_lt_iff {date later : Date} :
    date.dayNumber < later.dayNumber ↔ date.Before later := by
  refine ⟨fun h => ?_, dayNumber_lt⟩
  rcases before_trichotomy date later with hbefore | rfl | hbefore
  · exact hbefore
  · exact absurd h (lt_irrefl _)
  · exact absurd h (dayNumber_lt hbefore).not_gt

theorem dayNumber_injective : Function.Injective dayNumber := by
  intro date other h
  rcases before_trichotomy date other with hbefore | hsame | hbefore
  · exact absurd h (dayNumber_lt hbefore).ne
  · exact hsame
  · exact absurd h (dayNumber_lt hbefore).ne'

/-! ### From day to day -/

/-- A date and the one after it. -/
inductive Next (date next : Date) : Prop
  | day (hyear : next.year = date.year) (hmonth : next.month = date.month)
      (hday : next.day = date.day + 1) : Next date next
  | month (hlast : date.day = daysInMonth date.year date.month) (hyear : next.year = date.year)
      (hmonth : next.month = date.month + 1) (hday : next.day = 1) : Next date next
  | year (hlast : date.month = 12 ∧ date.day = daysInMonth date.year date.month)
      (hyear : next.year = date.year + 1) (hmonth : next.month = 1) (hday : next.day = 1) :
      Next date next

theorem dayNumber_next {date next : Date} (h : Next date next) :
    next.dayNumber = date.dayNumber + 1 := by
  obtain ⟨-, ⟨hmonth, -⟩, hfirst, -⟩ := date.valid
  have hadd := daysBeforeMonth_add hmonth date.year
  rw [dayNumber_eq, dayNumber_eq, dayOfYear, dayOfYear]
  cases h with
  | day hyear hmonths hday =>
    rw [hyear, hmonths, hday]
    omega
  | month hlast hyear hmonths hday =>
    have hover : daysBeforeMonth date.year (date.month + 1) = daysOfMonths date.year date.month := rfl
    rw [hyear, hmonths, hday, hover]
    omega
  | year hlast hyear hmonths hday =>
    obtain ⟨htwelve, hfull⟩ := hlast
    have hover : daysBeforeMonth (date.year + 1) 1 = 0 := rfl
    rw [htwelve] at hadd hfull
    rw [hyear, hmonths, hday, hover, daysBeforeYear_next, htwelve]
    omega

/-- There is a date after every date but the last. -/
theorem exists_next {date later : Date} (h : date.Before later) : ∃ next, Next date next := by
  obtain ⟨⟨hfirst, hlast⟩, ⟨hone, htwelve⟩, hday, hdays⟩ := date.valid
  obtain ⟨⟨-, hlater⟩, ⟨-, hmonth⟩, -, hlaterDay⟩ := later.valid
  by_cases hmore : date.day < daysInMonth date.year date.month
  · exact ⟨⟨date.year, date.month, date.day + 1, by omega⟩, .day rfl rfl rfl⟩
  have hfull : date.day = daysInMonth date.year date.month := by omega
  by_cases hmonths : date.month < 12
  · have hpos := daysInMonth_pos date.year (date.month + 1)
    exact ⟨⟨date.year, date.month + 1, 1, by omega⟩, .month hfull rfl rfl rfl⟩
  · have hpos := daysInMonth_pos (date.year + 1) 1
    have hyears : date.year < later.year := by
      rcases h with h | ⟨hsame, h | ⟨hsameMonth, h⟩⟩
      · exact h
      · omega
      · rw [hsame, hsameMonth] at hfull
        omega
    exact ⟨⟨date.year + 1, 1, 1, by omega⟩, .year ⟨by omega, hfull⟩ rfl rfl rfl⟩

/-! ### Counting days -/

/-- Dates with so many days between: each day leads to the next date. -/
inductive DaysAfter : Date → ℕ → Date → Prop
  | zero (date : Date) : DaysAfter date 0 date
  | succ {date next later : Date} {days : ℕ} (hnext : Next date next)
      (h : DaysAfter next days later) : DaysAfter date (days + 1) later

theorem daysAfter_iff {date later : Date} {days : ℕ} :
    DaysAfter date days later ↔ later.dayNumber = date.dayNumber + days := by
  constructor
  · intro h
    induction h with
    | zero date => exact (Int.add_zero _).symm
    | succ hnext _ ih =>
      rw [ih, dayNumber_next hnext]
      push_cast
      ring
  · intro h
    induction days generalizing date with
    | zero =>
      rw [Nat.cast_zero, Int.add_zero] at h
      rw [dayNumber_injective h]
      exact .zero date
    | succ days ih =>
      have hlater : date.dayNumber < later.dayNumber := by omega
      obtain ⟨next, hnext⟩ := exists_next (dayNumber_lt_iff.1 hlater)
      refine .succ hnext (ih ?_)
      rw [h, dayNumber_next hnext]
      push_cast
      ring

/-- The count of days from a date to another, which is negative if the other is earlier. -/
inductive DaysFrom (date other : Date) : ℤ → Prop
  | forward {days : ℕ} (h : DaysAfter date days other) : DaysFrom date other days
  | backward {days : ℕ} (h : DaysAfter other days date) : DaysFrom date other (-days)

theorem daysFrom_iff {date other : Date} {days : ℤ} :
    DaysFrom date other days ↔ other.dayNumber = date.dayNumber + days := by
  constructor
  · intro h
    cases h with
    | forward h => exact daysAfter_iff.1 h
    | backward h =>
      have hback := daysAfter_iff.1 h
      omega
  · intro h
    obtain ⟨n, rfl | rfl⟩ := days.eq_nat_or_neg
    · exact .forward (daysAfter_iff.2 h)
    · exact .backward (daysAfter_iff.2 (by omega))

/-- The date that points in time are counted from. -/
def epoch : Date := ⟨1970, 1, 1, by decide⟩

/-- **The number of a date is its count of days from 1970-01-01.** -/
theorem daysFrom_epoch_iff {date : Date} {days : ℤ} :
    DaysFrom epoch date days ↔ days = date.dayNumber := by
  have hepoch : epoch.dayNumber = 0 := by decide
  rw [daysFrom_iff, hepoch, Int.zero_add]
  exact eq_comm

/-! ### Midnights -/

theorem covered (date : Date) :
    Instant.firstSecond ≤ date.dayNumber * 86400
    ∧ date.dayNumber * 86400 ≤ Instant.lastSecond := by
  obtain ⟨⟨hfirst, hlast⟩, -, -⟩ := date.valid
  have hyear := date.dayOfYear_lt_year
  have hlow := daysBeforeYear_mono hfirst
  have hhigh := daysBeforeYear_add_le (Int.lt_add_one_of_le hlast)
  have hstart : daysBeforeYear firstYear = -95746130 := by decide
  have hend : daysBeforeYear (lastYear + 1) = 95745399 := by decide
  have hepoch : epochDay = 719162 := by decide
  rw [dayNumber_eq, Instant.firstSecond, Instant.lastSecond]
  omega

/-- The start of a date, in UTC. -/
def midnight (date : Date) : Instant := ⟨date.dayNumber * 86400, 0, date.covered, by omega⟩

theorem epochMillis_midnight (date : Date) : date.midnight.epochMillis = date.epochMillis := by
  simp only [midnight, Instant.epochMillis, epochMillis]
  omega

end Date

end VectorQuery
