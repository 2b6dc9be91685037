import VectorQuery.Calendar.Date

/-!
# Instants

Points in time, in seconds since 1970-01-01 with nanoseconds, within the days that the calendar covers.

* `Instant` — a point in time; the last second of a minute may be followed by a leap second.
* `Instant.epochMillis` — its milliseconds, rounded down.
* `Instant.ofEpochMillis?` — the instant of a number of milliseconds, and back
  (`epochMillis_of_ofEpochMillis?`).
-/

namespace VectorQuery

/-- The first second of the first year. -/
def Instant.firstSecond : Int := -8334601228800

/-- The last second of the last year. -/
def Instant.lastSecond : Int := 8210266876799

/-- A point in time. A leap second is the second before it with a billion nanoseconds or more, and only the
last second of a minute has one. -/
structure Instant where
  seconds : Int
  nanos : Nat
  covered : Instant.firstSecond ≤ seconds ∧ seconds ≤ Instant.lastSecond
  bounded : nanos < 1000000000 ∨ nanos < 2000000000 ∧ seconds % 60 = 59
deriving DecidableEq

namespace Instant

example : (Date.of? Calendar.firstYear 1 1).map (·.dayNumber * 86400) = some firstSecond := by decide
example : (Date.of? Calendar.lastYear 12 31).map (·.dayNumber * 86400 + 86399) = some lastSecond := by decide

/-- The instant with the given parts, if there is one. -/
def of? (seconds : Int) (nanos : Nat) : Option Instant :=
  if covered : firstSecond ≤ seconds ∧ seconds ≤ lastSecond then
    if bounded : nanos < 1000000000 ∨ nanos < 2000000000 ∧ seconds % 60 = 59 then
      some ⟨seconds, nanos, covered, bounded⟩
    else none
  else none

/-- The milliseconds since 1970-01-01, rounded down; those of a leap second count on. -/
def epochMillis (instant : Instant) : Int := instant.seconds * 1000 + (instant.nanos / 1000000 : Nat)

/-- The instant of a number of milliseconds, if the calendar covers it. -/
def ofEpochMillis? (millis : Int) : Option Instant :=
  of? (millis / 1000) ((millis % 1000).toNat * 1000000)

theorem epochMillis_of_ofEpochMillis? {millis : Int} {instant : Instant}
    (h : ofEpochMillis? millis = some instant) : instant.epochMillis = millis := by
  simp only [ofEpochMillis?, of?] at h
  split at h
  · split at h
    · cases h
      simp only [epochMillis]
      omega
    · cases h
  · cases h

end Instant

end VectorQuery
