/-!
# Blanks and the words between them

A text is cut into words at its blanks, the characters with the Unicode property `White_Space`.

* `isBlank` — the property, from its table of ranges.
* `splitWhen` — the pieces of a text between separators; joining them again loses only the separators.
* `words` — the nonempty pieces between blanks.
* `trim` — a text without its outer blanks.
-/

namespace VectorQuery.Text

/-! ### The property -/

/-- The ranges of the property `White_Space`, each given by its first and last code point. -/
def blankRanges : List (Nat × Nat) :=
  [(0x09, 0x0D), (0x20, 0x20), (0x85, 0x85), (0xA0, 0xA0), (0x1680, 0x1680), (0x2000, 0x200A),
    (0x2028, 0x2029), (0x202F, 0x202F), (0x205F, 0x205F), (0x3000, 0x3000)]

/-- A blank is a character of one of the ranges. -/
def isBlank (c : Char) : Bool :=
  blankRanges.any fun range => range.1 ≤ c.toNat && c.toNat ≤ range.2

/-- The property has twenty-five members. -/
example : (blankRanges.map fun range => range.2 + 1 - range.1).sum = 25 := by decide

/-! ### Pieces and words -/

/-- The pieces of a list between the members that satisfy `sep`, one more than there are such members. -/
def splitWhen (sep : Char → Bool) : List Char → List (List Char)
  | [] => [[]]
  | c :: cs => if sep c then [] :: splitWhen sep cs else (splitWhen sep cs).modifyHead (c :: ·)

theorem splitWhen_length (sep : Char → Bool) (cs : List Char) :
    (splitWhen sep cs).length = cs.countP sep + 1 := by
  induction cs with
  | nil => rfl
  | cons c cs ih => by_cases h : sep c <;> simp [splitWhen, h, ih]

/-- The words of a text: its nonempty pieces between blanks. -/
def words (cs : List Char) : List (List Char) :=
  (splitWhen isBlank cs).filter (!·.isEmpty)

theorem words_blank {c : Char} (h : isBlank c = true) (cs : List Char) : words (c :: cs) = words cs := by
  simp [words, splitWhen, h]

/-- The text without the blanks before its first word and after its last. -/
def trim (cs : List Char) : List Char :=
  ((cs.dropWhile isBlank).reverse.dropWhile isBlank).reverse

end VectorQuery.Text
