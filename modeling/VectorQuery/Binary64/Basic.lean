import VectorQuery.Binary64.Magnitude

/-!
# 64-bit floating-point numbers

The numbers that the grammar and its documents carry: signed magnitudes (zero has two signs), two
infinities, and one value that is no number.

* `Binary64` — the numbers; equality is equality of value, with `0.0` and `-0.0` apart.
* `isFinite` — the numbers that are magnitudes with a sign.
* `ofDecimal` — the nearest number to a decimal, or an infinity.
* `ofSingle` — a 32-bit number as a 64-bit one.
-/

namespace VectorQuery

/-- A 64-bit floating-point number. -/
inductive Binary64
  | nan
  | infinite (negative : Bool)
  | finite (negative : Bool) (size : Magnitude .double)
deriving DecidableEq

namespace Binary64

/-- Whether a number is neither infinite nor undefined. -/
def isFinite : Binary64 → Bool
  | .finite _ _ => true
  | _ => false

/-- A signed magnitude, or the infinity of that sign where the magnitude is too large. -/
def ofMagnitude? (negative : Bool) : Option (Magnitude .double) → Binary64
  | some size => .finite negative size
  | none => .infinite negative

/-- The nearest number to `digits · 10 ^ exponent` with a sign. -/
def ofDecimal (negative : Bool) (digits : Nat) (exponent : Int) : Binary64 :=
  ofMagnitude? negative (Magnitude.ofDecimal? .double digits exponent)

/-- The same number in the wider format. -/
def ofSingle (negative : Bool) (size : Magnitude .single) : Binary64 :=
  ofMagnitude? negative (Magnitude.round? .double size.num size.den)

/-- The number read first as a 32-bit number. -/
def ofDecimalSingle (negative : Bool) (digits : Nat) (exponent : Int) : Binary64 :=
  match Magnitude.ofDecimal? .single digits exponent with
  | some size => ofSingle negative size
  | none => .infinite negative

end Binary64

end VectorQuery
