import VectorQuery.Calendar.Instant
import VectorQuery.Text.Blank
import VectorQuery.Text.Numeral

/-!
# Reading dates and instants

Two forms of text: a timestamp with a date, a time and an offset from UTC, and a bare date.

* `fixed`, `upTo`, `expect` — digits of a fixed or bounded number, and a given character.
* `instant?` — `year-month-day`, a separator, `hour:minute:second`, an optional fraction, and an offset.
* `date?` — `year-month-day` with fewer digits, a signed year, and blanks before each number.
* `epochMillis?` — the milliseconds of either form.
-/

namespace VectorQuery.Calendar

/-! ### Parts -/

/-- A number of exactly `count` digits. -/
def fixed (count : Nat) (cs : List Char) : Option (Nat × List Char) :=
  if count ≤ cs.length then (Numeral.digits? (cs.take count)).map fun n => (n, cs.drop count) else none

/-- A number of at least one and at most `count` digits. -/
def upTo (count : Nat) (cs : List Char) : Option (Nat × List Char) :=
  let digits := (cs.take count).takeWhile Char.isDigit
  (Numeral.digits? digits).map fun n => (n, cs.drop digits.length)

/-- The characters after a given one. -/
def expect (wanted : Char) : List Char → Option (List Char)
  | c :: cs => if c = wanted then some cs else none
  | [] => none

/-! ### Timestamps -/

/-- The characters after the separator of date and time: a `T` of either case or a space. -/
def separator : List Char → Option (List Char)
  | c :: cs => if c = 'T' ∨ c = 't' ∨ c = ' ' then some cs else none
  | [] => none

/-- The nanoseconds of a fraction; digits after the ninth are passed over. Without a point there is none. -/
def fraction : List Char → Option (Nat × List Char)
  | '.' :: cs =>
    let digits := cs.takeWhile Char.isDigit
    let counted := digits.take 9
    (Numeral.digits? counted).map fun n => (n * Nat.pow 10 (9 - counted.length), cs.dropWhile Char.isDigit)
  | cs => some (0, cs)

/-- The seconds of an offset `hours:minutes` of less than a day. -/
def offsetSize (cs : List Char) : Option (Nat × List Char) := do
  let (hours, cs) ← fixed 2 cs
  let cs ← expect ':' cs
  let (minutes, cs) ← fixed 2 cs
  guard (hours ≤ 23 ∧ minutes ≤ 59)
  return (hours * 3600 + minutes * 60, cs)

/-- The seconds by which local time is ahead of UTC: `Z` of either case, or a sign and a size. The minus sign
may also be U+2212. -/
def offset : List Char → Option (Int × List Char)
  | c :: cs =>
    if c = 'Z' ∨ c = 'z' then some (0, cs)
    else if c = '+' then (offsetSize cs).map fun (size, cs) => ((size : Int), cs)
    else if c = '-' ∨ c.toNat = 0x2212 then (offsetSize cs).map fun (size, cs) => (-(size : Int), cs)
    else none
  | [] => none

/-- A date of four, two and two digits. -/
def fullDate (cs : List Char) : Option (Date × List Char) := do
  let (year, cs) ← fixed 4 cs
  let cs ← expect '-' cs
  let (month, cs) ← fixed 2 cs
  let cs ← expect '-' cs
  let (day, cs) ← fixed 2 cs
  let date ← Date.of? year month day
  return (date, cs)

/-- The time of a day as seconds and nanoseconds. Second 60 is a leap second: it is second 59 with a billion
more nanoseconds. -/
def fullTime (cs : List Char) : Option ((Nat × Nat) × List Char) := do
  let (hour, cs) ← fixed 2 cs
  let cs ← expect ':' cs
  let (minute, cs) ← fixed 2 cs
  let cs ← expect ':' cs
  let (second, cs) ← fixed 2 cs
  guard (hour ≤ 23 ∧ minute ≤ 59 ∧ second ≤ 60)
  let (nanos, cs) ← fraction cs
  let leap := if second = 60 then 1000000000 else 0
  return ((hour * 3600 + minute * 60 + min second 59, nanos + leap), cs)

/-- The instant of a timestamp. -/
def instant? (cs : List Char) : Option Instant := do
  let (date, cs) ← fullDate cs
  let cs ← separator cs
  let ((seconds, nanos), cs) ← fullTime cs
  let (ahead, cs) ← offset cs
  guard cs.isEmpty
  Instant.of? (date.dayNumber * 86400 + seconds - ahead) nanos

/-! ### Bare dates -/

/-- The characters after leading blanks. -/
def skipBlanks (cs : List Char) : List Char := cs.dropWhile Text.isBlank

/-- A year: a sign and any number of digits, or one to four digits. -/
def year : List Char → Option (Int × List Char)
  | '-' :: cs => (upTo cs.length cs).map fun (n, cs) => (-(n : Int), cs)
  | '+' :: cs => (upTo cs.length cs).map fun (n, cs) => ((n : Int), cs)
  | cs => (upTo 4 cs).map fun (n, cs) => ((n : Int), cs)

/-- The date of a text that holds nothing else. -/
def date? (cs : List Char) : Option Date := do
  let (year, cs) ← year (skipBlanks cs)
  let cs ← expect '-' cs
  let (month, cs) ← upTo 2 (skipBlanks cs)
  let cs ← expect '-' cs
  let (day, cs) ← upTo 2 (skipBlanks cs)
  guard cs.isEmpty
  Date.of? year month day

/-! ### Either form -/

/-- The milliseconds of the timestamp that a text holds, or of the midnight of its date. -/
def epochMillis? (text : String) : Option Int :=
  match instant? text.toList with
  | some instant => some instant.epochMillis
  | none => (date? text.toList).map Date.epochMillis

end VectorQuery.Calendar
