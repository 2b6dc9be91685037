import VectorQuery.Binary64.Magnitude

/-!
# The shortest decimal of a magnitude

Among the decimals that are nearest to a given magnitude when read, the ones with the fewest digits, and
of those the nearest.

* `Decimal` — a value `digits · 10 ^ exponent`.
* `Tie` — which of two equally near decimals is taken.
* `onGrid?` — the best decimal whose last digit stands at a given place (`onGrid?_reads`: it reads back).
* `exact` — the magnitude itself as a decimal.
* `shortest` — the first hit on the grids of one to seventeen digits.
-/

namespace VectorQuery

/-- A decimal value `digits · 10 ^ exponent`. -/
structure Decimal where
  digits : Nat
  exponent : Int
deriving DecidableEq

/-- The choice between two decimals that are equally near. -/
inductive Tie
  | even
  | up
deriving DecidableEq

namespace Decimal

/-- Whether a decimal is read as the given magnitude. -/
def reads (x : Magnitude .double) (d : Decimal) : Bool :=
  Magnitude.ofDecimal? .double d.digits d.exponent == some x

/-- The least `k` with `num / den < 10 ^ k`, for positive `num` and `den`. -/
def leadingPlace (num den : Nat) : Int :=
  if den ≤ num then (Nat.toDigits 10 (num / den)).length
  else 1 - ((Nat.toDigits 10 ((den - 1) / num)).length : Int)

/-- Whether the upper of two neighbours is taken, given twice the rest above the lower one. -/
def prefersUpper (tie : Tie) (low twiceRest den : Nat) : Bool :=
  if twiceRest = den then
    match tie with
    | .even => low % 2 = 1
    | .up => true
  else den < twiceRest

/-- Of the two multiples of `10 ^ place` next to a magnitude, the nearer one that reads back. -/
def onGrid? (tie : Tie) (x : Magnitude .double) (place : Int) : Option Decimal :=
  let num := x.num * Nat.pow 10 (-place).toNat
  let den := x.den * Nat.pow 10 place.toNat
  let lower : Decimal := ⟨num / den, place⟩
  let upper : Decimal := ⟨num / den + 1, place⟩
  let ordered :=
    if prefersUpper tie (num / den) (2 * (num % den)) den then [upper, lower] else [lower, upper]
  ordered.find? (reads x)

theorem onGrid?_reads {tie : Tie} {x : Magnitude .double} {place : Int} {d : Decimal}
    (h : onGrid? tie x place = some d) : reads x d = true :=
  List.find?_some h

/-- A magnitude as a decimal, with all its digits. -/
def exact (x : Magnitude .double) : Decimal :=
  if 0 ≤ x.exp then ⟨x.num, 0⟩ else ⟨x.mant * Nat.pow 5 (-x.exp).toNat, x.exp⟩

/-- A decimal of the form `10 ^ n · 10 ^ exponent` with the one digit it needs. -/
def trimPower (n : Nat) (d : Decimal) : Decimal :=
  if d.digits = Nat.pow 10 n then ⟨1, d.exponent + n⟩ else d

/-- The shortest decimal of a magnitude, zero being written as `0`.

The grids grow finer from one digit to seventeen, which always suffice, so the first hit has the fewest
digits. A hit ends in a zero only where rounding up reached a power of ten. -/
def shortest (tie : Tie) (x : Magnitude .double) : Decimal :=
  if x.mant = 0 then ⟨0, 0⟩
  else
    let top := leadingPlace x.num x.den
    let hit := (List.range 17).findSome? fun n =>
      (onGrid? tie x (top - (n + 1 : Nat))).map (trimPower (n + 1))
    hit.getD (exact x)

end Decimal

end VectorQuery
