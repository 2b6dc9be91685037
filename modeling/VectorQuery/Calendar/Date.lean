/-!
# Calendar dates

Dates of the proleptic Gregorian calendar and their distance from 1970-01-01.

* `isLeap`, `daysInMonth` — the rules of the calendar.
* `Date` — a day that the calendar has, within the years that instants cover.
* `Date.dayNumber` — the number of days since 1970-01-01.
* `Date.epochMillis` — the milliseconds of its midnight.
-/

namespace VectorQuery

namespace Calendar

/-- Every fourth year is a leap year, but of the full centuries only every fourth. -/
def isLeap (year : Int) : Bool := year % 4 = 0 && (year % 100 ≠ 0 || year % 400 = 0)

/-- The number of days of a month, counted from one. -/
def daysInMonth (year : Int) (month : Nat) : Nat :=
  if month = 2 then if isLeap year then 29 else 28
  else if month = 4 ∨ month = 6 ∨ month = 9 ∨ month = 11 then 30
  else 31

/-- The days of the first months of a year. -/
def daysOfMonths (year : Int) : Nat → Nat
  | 0 => 0
  | months + 1 => daysOfMonths year months + daysInMonth year (months + 1)

/-- The days of a year before a month. -/
def daysBeforeMonth (year : Int) (month : Nat) : Nat := daysOfMonths year (month - 1)

/-- The months of a year add up to its days. -/
theorem daysOfMonths_twelve (year : Int) : daysOfMonths year 12 = if isLeap year then 366 else 365 := by
  cases h : isLeap year <;> simp [daysOfMonths, daysInMonth, h]

/-- The days from the start of year 1 to the start of a year. -/
def daysBeforeYear (year : Int) : Int :=
  let years := year - 1
  365 * years + years / 4 - years / 100 + years / 400

theorem daysBeforeYear_succ (year : Int) :
    daysBeforeYear (year + 1) = daysBeforeYear year + if isLeap year then 366 else 365 := by
  simp only [daysBeforeYear, isLeap, Bool.and_eq_true, Bool.or_eq_true, decide_eq_true_eq]
  split <;> omega

/-- The years that a date can have. -/
def firstYear : Int := -262143

/-- The last year that a date can have. -/
def lastYear : Int := 262142

/-- The days from the start of year 1 to 1970-01-01. -/
def epochDay : Int := daysBeforeYear 1970

end Calendar

open Calendar

/-- A date of the calendar. -/
structure Date where
  year : Int
  month : Nat
  day : Nat
  valid : (firstYear ≤ year ∧ year ≤ lastYear) ∧ (1 ≤ month ∧ month ≤ 12) ∧
    (1 ≤ day ∧ day ≤ daysInMonth year month)
deriving DecidableEq

namespace Date

/-- The date with the given parts, if the calendar has it. -/
def of? (year : Int) (month day : Nat) : Option Date :=
  if h : (firstYear ≤ year ∧ year ≤ lastYear) ∧ (1 ≤ month ∧ month ≤ 12) ∧
      (1 ≤ day ∧ day ≤ daysInMonth year month) then some ⟨year, month, day, h⟩ else none

/-- The number of days since 1970-01-01. -/
def dayNumber (date : Date) : Int :=
  daysBeforeYear date.year + daysBeforeMonth date.year date.month + (date.day - 1 : Nat) - epochDay

/-- The milliseconds from 1970-01-01 to the date's midnight. -/
def epochMillis (date : Date) : Int := date.dayNumber * 86400000

example : (of? 1970 1 1).map dayNumber = some 0 := by decide
example : (of? 2000 2 29).map dayNumber = some 11016 := by decide
example : of? 1900 2 29 = none := by decide

end Date

end VectorQuery
