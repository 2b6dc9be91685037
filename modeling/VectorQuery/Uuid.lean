/-!
# Universally unique identifiers

Identifiers of 128 bits, as thirty-two hexadecimal digits.

* `Uuid` — an identifier by its digits.
* `Uuid.hyphenated` — the lower-case form in groups of 8, 4, 4, 4 and 12 digits.
* `Uuid.ofHyphenated?` — the reader of that form, for digits of either case.
* `Uuid.ofText?` — the reader of all spellings: plain, hyphenated, in braces, and as a URN.
-/

namespace VectorQuery

/-- The value of a hexadecimal digit of either case. -/
def Uuid.digit? (c : Char) : Option (Fin 16) :=
  (List.finRange 16).find? fun d => c = Nat.digitChar d || c = (Nat.digitChar d).toUpper

/-- An identifier by its hexadecimal digits. -/
structure Uuid where
  digits : List (Fin 16)
  length_eq : digits.length = 32
deriving DecidableEq

namespace Uuid

/-- The identifier with the digits of a text of just thirty-two digits. -/
def ofDigits? (cs : List Char) : Option Uuid :=
  match cs.mapM digit? with
  | some digits => if h : digits.length = 32 then some ⟨digits, h⟩ else none
  | none => none

/-- The lower-case digits. -/
def chars (id : Uuid) : List Char := id.digits.map fun (d : Fin 16) => Nat.digitChar d

/-- The lower-case hyphenated form. -/
def hyphenated (id : Uuid) : String :=
  let cs := id.chars
  String.ofList (cs.take 8 ++ '-' :: (cs.drop 8).take 4 ++ '-' :: (cs.drop 12).take 4 ++
    '-' :: (cs.drop 16).take 4 ++ '-' :: cs.drop 20)

/-- The identifier that a hyphenated text of thirty-six characters spells. -/
def ofHyphenated? (cs : List Char) : Option Uuid :=
  let hyphens := [cs[8]?, cs[13]?, cs[18]?, cs[23]?]
  if cs.length = 36 ∧ hyphens.all (· = some '-') then
    ofDigits? (cs.take 8 ++ (cs.drop 9).take 4 ++ (cs.drop 14).take 4 ++ (cs.drop 19).take 4 ++ cs.drop 24)
  else none

/-- The start of the URN of an identifier, which may be in any ASCII case. -/
def urnStart : List Char := ['u', 'r', 'n', ':', 'u', 'u', 'i', 'd', ':']

/-- The identifier that a text spells in one of the four forms, told apart by their lengths. -/
def ofText? (text : String) : Option Uuid :=
  let cs := text.toList
  if cs.length = 32 then ofDigits? cs
  else if cs.length = 38 then
    if cs.head? = some '\x7b' ∧ cs.getLast? = some '\x7d' then ofHyphenated? (cs.drop 1).dropLast else none
  else if cs.length = 45 then
    if (cs.take 9).map Char.toLower = urnStart then ofHyphenated? (cs.drop 9) else none
  else ofHyphenated? cs

end Uuid

end VectorQuery
