import VectorQuery.Binary64.Basic
import VectorQuery.Text.Numeral

/-!
# Reading floating-point text

The texts that denote a floating-point number: a signed decimal with an optional point and exponent, or the
name of an infinity or of the undefined value.

* `DecimalParts` — what stands in the text of a decimal.
* `DecimalParts.ofChars?` — the parts of an unsigned decimal.
* `Binary64.ofText?` — the number that a text denotes.
* `Binary64.ofTextSingle?` — the same, rounded to 32 bits on the way.
-/

namespace VectorQuery

/-- The digits before and after the point of a decimal, and its exponent. -/
structure DecimalParts where
  whole : List Char
  fraction : List Char
  exponent : Int

namespace DecimalParts

/-- All digits as one integer. -/
def digits (parts : DecimalParts) : Nat := Nat.ofDigitChars 10 (parts.whole ++ parts.fraction) 0

/-- The place of the last digit. -/
def place (parts : DecimalParts) : Int := parts.exponent - parts.fraction.length

/-- The exponent after the letter `e` of either case; no text is no exponent. -/
def exponent? : List Char → Option Int
  | [] => some 0
  | c :: cs => if c = 'e' ∨ c = 'E' then Numeral.integer? cs else none

/-- The parts of an unsigned decimal, which has a digit before the point or after it. -/
def ofChars? (cs : List Char) : Option DecimalParts := do
  let whole := cs.takeWhile Char.isDigit
  let afterWhole := cs.dropWhile Char.isDigit
  let (fraction, afterFraction) := match afterWhole with
    | '.' :: rest => (rest.takeWhile Char.isDigit, rest.dropWhile Char.isDigit)
    | rest => ([], rest)
  guard (whole ≠ [] ∨ fraction ≠ [])
  let exponent ← exponent? afterFraction
  return ⟨whole, fraction, exponent⟩

end DecimalParts

namespace Binary64

/-- The number that an unsigned text denotes, given how a decimal is rounded. -/
def ofUnsigned? (round : Nat → Int → Binary64) (negative : Bool) (cs : List Char) : Option Binary64 :=
  let name := String.ofList (cs.map Char.toLower)
  if name = "inf" ∨ name = "infinity" then some (.infinite negative)
  else if name = "nan" then some .nan
  else (DecimalParts.ofChars? cs).map fun parts => round parts.digits parts.place

/-- The number that a text denotes, given how a signed decimal is rounded. -/
def ofSigned? (round : Bool → Nat → Int → Binary64) : List Char → Option Binary64
  | '-' :: cs => ofUnsigned? (round true) true cs
  | '+' :: cs => ofUnsigned? (round false) false cs
  | cs => ofUnsigned? (round false) false cs

/-- The number that a text denotes. -/
def ofText? (text : String) : Option Binary64 := ofSigned? ofDecimal text.toList

/-- The number that a text denotes in 32 bits. -/
def ofTextSingle? (text : String) : Option Binary64 := ofSigned? ofDecimalSingle text.toList

end Binary64

end VectorQuery
