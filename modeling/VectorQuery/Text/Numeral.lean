/-!
# Numerals

Decimal numerals of natural numbers and integers, written without leading zeros and read with them.

* `ofNat`, `ofInt` — the canonical numeral of a number.
* `digits?` — the value of a nonempty run of ASCII digits (`digits?_toDigits`: it reads canonical numerals).
* `natural?`, `integer?` — the value of a numeral with an optional sign.
* `word64?`, `signed64?` — the same within the range of a 64-bit word.
-/

namespace VectorQuery.Numeral

/-! ### Writing -/

/-- The decimal numeral of a natural number. -/
def ofNat (n : Nat) : String := String.ofList (Nat.toDigits 10 n)

/-- The decimal numeral of an integer, with a minus sign if it is negative. -/
def ofInt (n : Int) : String := if n < 0 then "-" ++ ofNat n.natAbs else ofNat n.natAbs

/-! ### Reading -/

/-- The value of a nonempty run of decimal digits. -/
def digits? (cs : List Char) : Option Nat :=
  if !cs.isEmpty && cs.all Char.isDigit then some (Nat.ofDigitChars 10 cs 0) else none

theorem digits?_toDigits (n : Nat) : digits? (Nat.toDigits 10 n) = some n := by
  have hne : (Nat.toDigits 10 n).isEmpty = false := by
    have := @Nat.length_toDigits_pos 10 n
    cases h : Nat.toDigits 10 n <;> simp_all
  have hall : (Nat.toDigits 10 n).all Char.isDigit = true :=
    List.all_eq_true.2 fun c hc => Nat.isDigit_of_mem_toDigits (by decide) (by decide) hc
  simp [digits?, hne, hall, Nat.ofDigitChars_toDigits]

/-- The value of a run of digits that may follow a plus sign. -/
def natural? : List Char → Option Nat
  | '+' :: cs => digits? cs
  | cs => digits? cs

/-- The value of a run of digits that may follow a sign. -/
def integer? : List Char → Option Int
  | '-' :: cs => (digits? cs).map fun n => -(n : Int)
  | cs => (natural? cs).map fun n => (n : Int)

/-- The unsigned 64-bit number that a text denotes. -/
def word64? (cs : List Char) : Option UInt64 :=
  (natural? cs).bind fun n => if n < UInt64.size then some (UInt64.ofNat n) else none

/-- The signed 64-bit number that an integer is. -/
def toSigned64? (n : Int) : Option Int64 :=
  if Int64.minValue.toInt ≤ n ∧ n ≤ Int64.maxValue.toInt then some (Int64.ofInt n) else none

/-- The signed 64-bit number that a text denotes. -/
def signed64? (cs : List Char) : Option Int64 := (integer? cs).bind toSigned64?

end VectorQuery.Numeral
