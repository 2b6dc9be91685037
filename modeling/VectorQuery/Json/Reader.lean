import VectorQuery.Json.Basic
import VectorQuery.Text.Quoted
import VectorQuery.Binary64.Reader

/-!
# Reading documents

A reader by recursive descent. It works on characters, gives back what it has not read, and goes down as
far as its first argument allows.

* `skipBlanks` — the four characters that may stand between the parts of a document.
* `readWord`, `readText`, `readNumber` — the parts without parts of their own.
* `readItems`, `readFields` — what stands between the brackets of an array or an object.
* `readValue` — a document, at most `depth` containers deep.
* `Json.ofText?` — a whole text as one document of at most 127 levels.
-/

namespace VectorQuery.Json

/-! ### Parts without parts -/

/-- Whether a character may stand between the parts of a document. -/
def isSpace (c : Char) : Bool := c = ' ' || c = '\n' || c = '\t' || c = '\r'

/-- The characters after leading spaces. -/
def skipBlanks (cs : List Char) : List Char := cs.dropWhile isSpace

/-- The characters after a given word. -/
def readWord : List Char → List Char → Option (List Char)
  | [], cs => some cs
  | w :: word, c :: cs => if c = w then readWord word cs else none
  | _ :: _, [] => none

theorem readWord_append (word cs : List Char) : readWord word (word ++ cs) = some cs := by
  induction word with
  | nil => simp [readWord]
  | cons w word ih => simp [readWord, ih]

/-- A quoted string, from after its opening quote. -/
def readText (cs : List Char) : Option (String × List Char) := do
  let (body, rest) ← Quoted.splitClosing cs
  let chars ← Quoted.decode body
  return (String.ofList chars, rest)

/-! ### Numbers -/

/-- The digits after a point; a text without a point has none, a point without digits is refused. -/
def readFraction : List Char → Option (List Char × List Char)
  | '.' :: cs =>
    let digits := cs.takeWhile Char.isDigit
    if digits.isEmpty then none else some (digits, cs.dropWhile Char.isDigit)
  | cs => some ([], cs)

/-- The digits of an exponent after its sign. -/
def readExponentDigits (cs : List Char) : Option (Nat × List Char) :=
  (Numeral.digits? (cs.takeWhile Char.isDigit)).map fun n => (n, cs.dropWhile Char.isDigit)

/-- The exponent after the letter `e`, if the letter is there. -/
def readExponent : List Char → Option (Option Int × List Char)
  | c :: cs =>
    if c = 'e' ∨ c = 'E' then
      match cs with
      | '-' :: ds => (readExponentDigits ds).map fun (n, rest) => (some (-(n : Int)), rest)
      | '+' :: ds => (readExponentDigits ds).map fun (n, rest) => (some (n : Int), rest)
      | ds => (readExponentDigits ds).map fun (n, rest) => (some (n : Int), rest)
    else some (none, c :: cs)
  | [] => some (none, [])

/-- Whether digits may stand before the point: there is one, and a leading zero stands alone. -/
def isWhole : List Char → Bool
  | [] => false
  | ['0'] => true
  | '0' :: _ => false
  | _ => true

/-- The integer of a numeral without point and exponent, if it is within the range of 64-bit integers;
`-0` is no integer. -/
def integer? (negative : Bool) (n : Nat) : Option Int :=
  if negative then if 0 < n ∧ Int64.minValue.toInt ≤ -(n : Int) then some (-(n : Int)) else none
  else if n < UInt64.size then some (n : Int) else none

/-- The float of a decimal; one that is too large is refused. -/
def float? (negative : Bool) (parts : DecimalParts) : Option Json :=
  let value := Binary64.ofDecimal negative parts.digits parts.place
  if value.isFinite then some (.float value) else none

/-- A number after its sign: an integer if it is written as one and within range, else a float. -/
def readUnsigned (negative : Bool) (cs : List Char) : Option (Json × List Char) := do
  let whole := cs.takeWhile Char.isDigit
  guard (isWhole whole)
  let (fraction, afterFraction) ← readFraction (cs.dropWhile Char.isDigit)
  let (exponent, rest) ← readExponent afterFraction
  let parts : DecimalParts := ⟨whole, fraction, exponent.getD 0⟩
  let asInteger := if fraction.isEmpty && exponent.isNone then integer? negative parts.digits else none
  match asInteger with
  | some n => return (.int n, rest)
  | none => return (← float? negative parts, rest)

/-- A number. -/
def readNumber : List Char → Option (Json × List Char)
  | '-' :: cs => readUnsigned true cs
  | cs => readUnsigned false cs

/-- A document without parts: a quoted string, one of three words, or a number. -/
def readScalar : List Char → Option (Json × List Char)
  | '"' :: cs => (readText cs).map fun (value, rest) => (.text value, rest)
  | 't' :: cs => (readWord ['r', 'u', 'e'] cs).map fun rest => (.bool true, rest)
  | 'f' :: cs => (readWord ['a', 'l', 's', 'e'] cs).map fun rest => (.bool false, rest)
  | 'n' :: cs => (readWord ['u', 'l', 'l'] cs).map fun rest => (.null, rest)
  | cs => readNumber cs

/-! ### Containers -/

/-- What follows an item of a list: the closing bracket, or a comma and more items. -/
def readMore {α : Type} (closing : Char) (more : List Char → Option (List α × List Char)) (cs : List Char) :
    Option (List α × List Char) :=
  match skipBlanks cs with
  | c :: rest => if c = closing then some ([], rest) else if c = ',' then more rest else none
  | [] => none

/-- One or more parts up to a closing bracket; each takes at least one unit of fuel. -/
def readParts {α : Type} (closing : Char) (part : List Char → Option (α × List Char)) :
    Nat → List Char → Option (List α × List Char)
  | 0, _ => none
  | fuel + 1, cs => do
    let (first, rest) ← part (skipBlanks cs)
    let (others, rest) ← readMore closing (readParts closing part fuel) rest
    return (first :: others, rest)

/-- No part or more, up to a closing bracket. A part has at least one character, so their number is
bounded by the length of the text. -/
def readList {α : Type} (closing : Char) (part : List Char → Option (α × List Char)) (cs : List Char) :
    Option (List α × List Char) :=
  match skipBlanks cs with
  | c :: rest => if c = closing then some ([], rest) else readParts closing part (c :: rest).length (c :: rest)
  | [] => none

/-- A field: a quoted key, a colon and a value. -/
def readField (value : List Char → Option (Json × List Char)) : List Char → Option ((String × Json) × List Char)
  | '"' :: cs => do
    let (key, rest) ← readText cs
    match skipBlanks rest with
    | ':' :: rest =>
      let (item, rest) ← value (skipBlanks rest)
      return ((key, item), rest)
    | _ => none
  | _ => none

/-- A document from its first character on, at most `depth` containers deep. A key that is repeated keeps
its first place and its last value. -/
def readValue : Nat → List Char → Option (Json × List Char)
  | 0, cs => readScalar cs
  | depth + 1, '[' :: cs => (readList ']' (readValue depth) cs).map fun (items, rest) => (.array items, rest)
  | depth + 1, '\x7b' :: cs =>
    (readList '\x7d' (readField (readValue depth)) cs).map fun (fields, rest) =>
      (.object (Fields.insertAll [] fields), rest)
  | _ + 1, cs => readScalar cs

/-! ### Whole texts -/

/-- How many containers may stand inside each other. -/
def maxDepth : Nat := 127

/-- A whole text as one document of bounded depth. -/
def ofChars? (depth : Nat) (cs : List Char) : Option Json :=
  match readValue depth (skipBlanks cs) with
  | some (document, rest) => if (skipBlanks rest).isEmpty then some document else none
  | none => none

/-- The document that a text denotes. -/
def ofText? (text : String) : Option Json := ofChars? maxDepth text.toList

end VectorQuery.Json
