import Mathlib
import VectorQuery.Proofs.Calendar.DayCount
import VectorQuery.Proofs.Text.Numeral

/-!
# Written dates and timestamps are read back

A date is written with four, two and two digits, and a timestamp goes on with a time of day and an
offset from UTC.  The readers cut such texts field by field, each of a fixed width.

* `Calendar.fixed_padded`, `Calendar.upTo_padded` — a field of a fixed width;
* `Date.chars`, `Calendar.date?_chars` — a written date;
* `ClockTime`, `Zone`, `Timestamp` — a time of day, an offset from UTC, and a timestamp;
* `Timestamp.millis` — local time less the offset;
* `Calendar.epochMillis?_date`, `Calendar.epochMillis?_timestamp` — **what the reader finds in either
  text**.
-/

namespace VectorQuery

open Text Numeral Calendar

/-! ### Fields -/

namespace Calendar

theorem fixed_padded {count n : ℕ} (hcount : 0 < count) (hn : n < 10 ^ count) (rest : List Char) :
    fixed count (padded count n ++ rest) = some (n, rest) := by
  have hlength := length_padded hcount hn
  have hle : count ≤ (padded count n ++ rest).length := by
    rw [List.length_append, hlength]
    exact Nat.le_add_right _ _
  rw [fixed, if_pos hle, List.take_left' hlength, List.drop_left' hlength, digits?_padded,
    Option.map_some]

theorem upTo_padded {count n : ℕ} (hcount : 0 < count) (hn : n < 10 ^ count) (rest : List Char) :
    upTo count (padded count n ++ rest) = some (n, rest) := by
  have hlength := length_padded hcount hn
  have hdigits : (padded count n).takeWhile Char.isDigit = padded count n :=
    List.takeWhile_eq_self_iff.2 fun _ => isDigit_of_mem_padded
  rw [upTo, List.take_left' hlength, hdigits, digits?_padded, Option.map_some, List.drop_left' rfl]

/-- A field of two digits. -/
theorem fixed_two {n : ℕ} (hn : n < 100) (rest : List Char) :
    fixed 2 (padded 2 n ++ rest) = some (n, rest) :=
  fixed_padded (by decide) (show n < 10 ^ 2 by omega) rest

theorem upTo_two {n : ℕ} (hn : n < 100) (rest : List Char) :
    upTo 2 (padded 2 n ++ rest) = some (n, rest) :=
  upTo_padded (by decide) (show n < 10 ^ 2 by omega) rest

theorem expect_cons (c : Char) (cs : List Char) : expect c (c :: cs) = some cs := if_pos rfl

end Calendar

/-! ### Dates -/

namespace Date

/-- The text of a date of the years 0 to 9999. -/
def chars (date : Date) : List Char :=
  padded 4 date.year.toNat ++ '-' :: (padded 2 date.month ++ '-' :: padded 2 date.day)

/-- The dates that have such a text. -/
def Writable (date : Date) : Prop := 0 ≤ date.year ∧ date.year ≤ 9999

instance (date : Date) : Decidable date.Writable := inferInstanceAs (Decidable (_ ∧ _))

theorem dayNumber_of_writable {date : Date} (h : date.Writable) :
    -719528 ≤ date.dayNumber ∧ date.dayNumber ≤ 2932896 := by
  obtain ⟨hzero, hyear⟩ := h
  have hdays := date.dayOfYear_lt_year
  have hlow := daysBeforeYear_mono hzero
  have hhigh := daysBeforeYear_add_le (Int.lt_add_one_of_le hyear)
  have hstart : daysBeforeYear 0 = -366 := by decide
  have hend : daysBeforeYear (9999 + 1) = 3652059 := by decide
  have hepoch : epochDay = 719162 := by decide
  rw [dayNumber_eq]
  omega

/-- The parts of such a date fit their fields. -/
theorem fits_of_writable {date : Date} (h : date.Writable) :
    date.year.toNat < 10 ^ 4 ∧ (date.year.toNat : ℤ) = date.year ∧ date.month < 100
    ∧ date.day < 100 := by
  obtain ⟨hzero, hyear⟩ := h
  obtain ⟨-, ⟨-, hmonth⟩, -, hday⟩ := date.valid
  have hdays := daysInMonth_le date.year date.month
  omega

theorem of?_parts (date : Date) : of? date.year date.month date.day = some date :=
  dif_pos date.valid

end Date

namespace Calendar

open Date

variable {date : Date}

theorem fullDate_chars (hdate : date.Writable) (rest : List Char) :
    fullDate (date.chars ++ rest) = some (date, rest) := by
  obtain ⟨hyear, hsame, hmonth, hday⟩ := fits_of_writable hdate
  simp only [fullDate, chars, List.append_assoc, List.cons_append,
    fixed_padded (show 0 < 4 by decide) hyear, fixed_two hmonth, fixed_two hday, expect_cons, hsame,
    of?_parts, Option.bind_eq_bind, Option.bind_some, Option.pure_def]

/-- A number does not begin with a blank or a sign. -/
theorem padded_eq_cons (count n : ℕ) :
    ∃ c cs, padded count n = c :: cs ∧ c.isDigit = true := by
  cases h : padded count n with
  | nil => exact absurd (congrArg digits? h) (by rw [digits?_padded]; exact nofun)
  | cons c cs => exact ⟨c, cs, rfl, isDigit_of_mem_padded (h ▸ List.mem_cons_self)⟩

theorem skipBlanks_padded (count n : ℕ) (rest : List Char) :
    skipBlanks (padded count n ++ rest) = padded count n ++ rest := by
  obtain ⟨c, cs, hcons, hc⟩ := padded_eq_cons count n
  have hblank : isBlank c = false := by
    obtain ⟨d, hd, rfl⟩ := exists_digitChar hc
    interval_cases d <;> decide
  rw [hcons, skipBlanks]
  exact dropWhile_stop (stopsAt_cons.2 hblank)

theorem year_padded {n : ℕ} (hn : n < 10 ^ 4) (rest : List Char) :
    year (padded 4 n ++ rest) = some ((n : ℤ), rest) := by
  have hread := upTo_padded (by decide) hn rest
  obtain ⟨c, cs, hcons, hc⟩ := padded_eq_cons 4 n
  rw [hcons, List.cons_append] at hread ⊢
  rw [year.eq_def]
  split
  · rename_i heq
    cases heq
    exact absurd hc (by decide)
  · rename_i heq
    cases heq
    exact absurd hc (by decide)
  · rw [hread]
    rfl

theorem date?_chars (hdate : date.Writable) : date? date.chars = some date := by
  obtain ⟨hyear, hsame, hmonth, hday⟩ := fits_of_writable hdate
  have hlast := upTo_two hday []
  have hskip := skipBlanks_padded 2 date.day []
  rw [List.append_nil] at hlast hskip
  rw [date?]
  simp only [chars, skipBlanks_padded, hskip, hlast, year_padded hyear, upTo_two hmonth,
    expect_cons, hsame, Option.bind_eq_bind, Option.bind_some]
  exact of?_parts date

end Calendar

/-! ### Timestamps -/

/-- A time of day, to the second. -/
structure ClockTime where
  hour : ℕ
  minute : ℕ
  second : ℕ
  valid : hour ≤ 23 ∧ minute ≤ 59 ∧ second ≤ 59

namespace ClockTime

def chars (time : ClockTime) : List Char :=
  padded 2 time.hour ++ ':' :: (padded 2 time.minute ++ ':' :: padded 2 time.second)

/-- The seconds since midnight. -/
def seconds (time : ClockTime) : ℕ := time.hour * 3600 + time.minute * 60 + time.second

end ClockTime

/-- How local time differs from UTC: not at all, or by hours and minutes ahead of it or behind it. -/
inductive Zone
  | utc
  | ahead (hours minutes : ℕ) (valid : hours ≤ 23 ∧ minutes ≤ 59)
  | behind (hours minutes : ℕ) (valid : hours ≤ 23 ∧ minutes ≤ 59)

namespace Zone

def chars : Zone → List Char
  | utc => ['Z']
  | ahead hours minutes _ => '+' :: (padded 2 hours ++ ':' :: padded 2 minutes)
  | behind hours minutes _ => '-' :: (padded 2 hours ++ ':' :: padded 2 minutes)

/-- The seconds by which local time is ahead of UTC. -/
def seconds : Zone → ℤ
  | utc => 0
  | ahead hours minutes _ => hours * 3600 + minutes * 60
  | behind hours minutes _ => -(hours * 3600 + minutes * 60)

end Zone

/-- A date and a time of day in a zone. -/
structure Timestamp where
  date : Date
  time : ClockTime
  zone : Zone

namespace Timestamp

def chars (stamp : Timestamp) : List Char :=
  stamp.date.chars ++ 'T' :: (stamp.time.chars ++ stamp.zone.chars)

/-- The milliseconds since 1970-01-01, as local time counts them. -/
def localMillis (stamp : Timestamp) : ℤ := stamp.date.epochMillis + stamp.time.seconds * 1000

/-- The milliseconds since 1970-01-01: those of local time less those of the offset. -/
def millis (stamp : Timestamp) : ℤ := stamp.localMillis - stamp.zone.seconds * 1000

end Timestamp

namespace Calendar

theorem offsetSize_padded {hours minutes : ℕ} (h : hours ≤ 23 ∧ minutes ≤ 59) :
    offsetSize (padded 2 hours ++ ':' :: padded 2 minutes)
      = some (hours * 3600 + minutes * 60, []) := by
  have hlast := fixed_two (show minutes < 100 by omega) []
  rw [List.append_nil] at hlast
  rw [offsetSize]
  simp only [fixed_two (show hours < 100 by omega), hlast, expect_cons, Option.bind_eq_bind,
    Option.bind_some]
  rw [guard, if_pos h]
  rfl

theorem offset_chars (zone : Zone) : offset zone.chars = some (zone.seconds, []) := by
  cases zone with
  | utc => rfl
  | ahead hours minutes h =>
    rw [Zone.chars, offset, if_neg (by decide), if_pos rfl, offsetSize_padded h]
    rfl
  | behind hours minutes h =>
    rw [Zone.chars, offset, if_neg (by decide), if_neg (by decide), if_pos (Or.inl rfl),
      offsetSize_padded h]
    rfl

/-- An offset does not begin with a fraction of a second. -/
theorem fraction_chars (zone : Zone) : fraction zone.chars = some (0, zone.chars) := by
  cases zone <;> rfl

theorem fullTime_chars (time : ClockTime) (zone : Zone) :
    fullTime (time.chars ++ zone.chars) = some ((time.seconds, 0), zone.chars) := by
  obtain ⟨hhour, hminute, hsecond⟩ := time.valid
  rw [fullTime]
  simp only [ClockTime.chars, List.append_assoc, List.cons_append,
    fixed_two (show time.hour < 100 by omega), fixed_two (show time.minute < 100 by omega),
    fixed_two (show time.second < 100 by omega), expect_cons, Option.bind_eq_bind, Option.bind_some]
  rw [guard, if_pos ⟨hhour, hminute, by omega⟩]
  simp only [Option.pure_def, Option.bind_some, fraction_chars,
    if_neg (show ¬ time.second = 60 by omega), Nat.min_eq_left hsecond]
  rfl

/-- A time of day in a zone is less than two days away from midnight in UTC. -/
theorem seconds_lt (time : ClockTime) (zone : Zone) :
    time.seconds < 86400 ∧ -86400 < zone.seconds ∧ zone.seconds < 86400 := by
  obtain ⟨hhour, hminute, hsecond⟩ := time.valid
  refine ⟨by rw [ClockTime.seconds]; omega, ?_⟩
  cases zone <;> simp only [Zone.seconds] <;> omega

theorem instant?_chars {date : Date} (hdate : date.Writable) (time : ClockTime) (zone : Zone) :
    ∃ instant, instant? (Timestamp.chars ⟨date, time, zone⟩) = some instant
      ∧ instant.epochMillis = Timestamp.millis ⟨date, time, zone⟩ := by
  obtain ⟨htime, hbehind, hahead⟩ := seconds_lt time zone
  obtain ⟨hlow, hhigh⟩ := Date.dayNumber_of_writable hdate
  have hcovered : Instant.firstSecond ≤ date.dayNumber * 86400 + time.seconds - zone.seconds
      ∧ date.dayNumber * 86400 + time.seconds - zone.seconds ≤ Instant.lastSecond := by
    rw [Instant.firstSecond, Instant.lastSecond]
    omega
  have hbounded : 0 < 1000000000 ∨ 0 < 2000000000
      ∧ (date.dayNumber * 86400 + time.seconds - zone.seconds) % 60 = 59 := Or.inl (by decide)
  refine ⟨⟨_, 0, hcovered, hbounded⟩, ?_, ?_⟩
  · rw [instant?, Timestamp.chars]
    simp only [fullDate_chars hdate, separator, true_or, if_true, fullTime_chars, offset_chars,
      Option.bind_eq_bind, Option.bind_some]
    rw [guard, if_pos List.isEmpty_nil]
    show Instant.of? _ _ = _
    rw [Instant.of?, dif_pos hcovered, dif_pos hbounded]
  · simp only [Instant.epochMillis, Timestamp.millis, Timestamp.localMillis, Date.epochMillis]
    omega

/-! ### Texts -/

/-- **A written timestamp is read as its milliseconds.** -/
theorem epochMillis?_timestamp {stamp : Timestamp} (hdate : stamp.date.Writable) :
    epochMillis? (String.ofList stamp.chars) = some stamp.millis := by
  obtain ⟨instant, hinstant, hmillis⟩ := instant?_chars hdate stamp.time stamp.zone
  rw [epochMillis?, String.toList_ofList, hinstant]
  exact congrArg some hmillis

example :
    let stamp : Timestamp :=
      ⟨⟨2024, 2, 29, by decide⟩, ⟨7, 5, 0, by decide⟩, .behind 3 30 (by decide)⟩
    String.ofList stamp.chars = "2024-02-29T07:05:00-03:30" ∧ stamp.millis = 1709202900000 := by
  decide

/-- **A written date is read as the milliseconds of its midnight**: it is no timestamp, as nothing
follows it. -/
theorem epochMillis?_date {date : Date} (hdate : date.Writable) :
    epochMillis? (String.ofList date.chars) = some date.epochMillis := by
  have hfull := fullDate_chars hdate []
  rw [List.append_nil] at hfull
  have hnone : instant? date.chars = none := by
    rw [instant?, hfull]
    rfl
  rw [epochMillis?, String.toList_ofList, hnone, date?_chars hdate]
  rfl

end Calendar

end VectorQuery
