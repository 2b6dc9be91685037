import VectorQuery.Binary64.Basic
import VectorQuery.Binary64.Shortest
import VectorQuery.Text.Numeral

/-!
# Layouts of floating-point text

How the shortest digits of a number are laid out: with all its places written, or with an exponent.

* `Layout` — the choices of a format.
* `positional`, `scientific` — the two ways to lay out a decimal.
* `Layout.write` — the text of a number.
* `wireFloat` — the query grammar's format, in which a float never looks like an integer.
* `documentFloat` — the format of documents.
* `plainFloat` — the format of paging values and messages.
-/

namespace VectorQuery

/-- The choices of a floating-point text format. -/
structure Layout where
  /-- The place of the leading digit from which on all places are written, if there is a lower limit. -/
  plainFrom : Option Int
  /-- The place of the leading digit from which on an exponent is written, if there is an upper limit. -/
  plainBelow : Option Int
  /-- Whether a whole number has a zero after the point. -/
  pointZero : Bool
  /-- Whether a positive exponent has a plus sign. -/
  expPlus : Bool
  /-- The choice between two equally near decimals. -/
  tie : Tie

namespace Layout

/-- The digits of a decimal with all places written out. -/
def positional (pointZero : Bool) (d : Decimal) : String :=
  let digits := Nat.toDigits 10 d.digits
  let point := digits.length + d.exponent
  let whole := if point ≤ 0 then ['0'] else digits.take point.toNat ++ List.replicate d.exponent.toNat '0'
  let fraction := if point ≤ 0 then List.replicate (-point).toNat '0' ++ digits else digits.drop point.toNat
  let tail := if !fraction.isEmpty then '.' :: fraction else if pointZero then ['.', '0'] else []
  String.ofList (whole ++ tail)

/-- The digits of a decimal with a point after the first one, before an exponent. -/
def scientific (expPlus : Bool) (d : Decimal) : String :=
  let digits := Nat.toDigits 10 d.digits
  let exponent := digits.length + d.exponent - 1
  let fraction := if digits.length ≤ 1 then [] else '.' :: digits.drop 1
  let sign := if expPlus && 0 ≤ exponent then "+" else ""
  String.ofList (digits.take 1 ++ fraction) ++ "e" ++ sign ++ Numeral.ofInt exponent

/-- The text of a decimal: positional while the place of its leading digit is within the limits. -/
def decimal (layout : Layout) (d : Decimal) : String :=
  let place := (Nat.toDigits 10 d.digits).length + d.exponent - 1
  let plain := d.digits = 0 ∨
    layout.plainFrom.all (· ≤ place) && layout.plainBelow.all (place < ·)
  if plain then positional layout.pointZero d else scientific layout.expPlus d

/-- The text of a number. -/
def write (layout : Layout) : Binary64 → String
  | .nan => "NaN"
  | .infinite negative => if negative then "-inf" else "inf"
  | .finite negative size =>
    (if negative then "-" else "") ++ layout.decimal (Decimal.shortest layout.tie size)

end Layout

/-- Floats of the query grammar: all places below `10 ^ 16`, always with a point, and else an exponent. -/
def wireFloat : Layout := ⟨none, some 16, true, false, .up⟩

/-- Floats of documents: all places from `10 ^ -5` to below `10 ^ 16`, and else a signed exponent. -/
def documentFloat : Layout := ⟨some (-5), some 16, true, true, .even⟩

/-- Floats of paging values and messages: always all places, and no point in a whole number. -/
def plainFloat : Layout := ⟨none, none, false, false, .up⟩

end VectorQuery
