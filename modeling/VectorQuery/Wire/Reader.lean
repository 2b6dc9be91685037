import VectorQuery.Fault
import VectorQuery.Json.Reader
import VectorQuery.Text.Blank

/-!
# Reading wire text back

Wire text is a document but for its bare words: keys before a colon, and the name of an operator. A pass over
the characters puts quotes around these, and the reader of documents does the rest.

* `Mode` — what the pass is inside of between two characters.
* `Mode.step`, `Mode.finish` — what a character, or the end, gives out.
* `quoteWords` — the pass.
* `stringEnd` — where a quoted string ends, by index.
* `document?` — the document of a wire text.
-/

namespace VectorQuery.Wire

/-- What the pass is inside of. Between parts and inside a word it remembers whether the key `operator` has
just been read, so that the next word is its value. -/
inductive Mode
  | between (awaiting : Bool)
  | number
  | word (awaiting : Bool) (letters : List Char)
  | string
  | escape
deriving DecidableEq

/-! ### Character classes -/

/-- The characters that a bare word can start with. -/
def startsWord (c : Char) : Bool := c.isAlpha || c = '_'

/-- The characters inside a bare word. -/
def continuesWord (c : Char) : Bool := c.isAlphanum || c = '_'

/-- The characters inside a number. -/
def continuesNumber (c : Char) : Bool := c.isDigit || c = '.' || c = '-' || c = '+' || c = 'e' || c = 'E'

/-! ### The pass -/

/-- What a character gives out between parts, and the mode after it. A word is held back until it ends. -/
def enter (awaiting : Bool) (c : Char) : List Char × Mode :=
  if c = '"' then ([c], .string)
  else if c.isDigit || c = '-' then ([c], .number)
  else if startsWord c then ([], .word awaiting [c])
  else ([c], .between (awaiting && (c = ':' || Text.isBlank c)))

/-- The word `operator`, whose value is a bare word. -/
def operatorKey : List Char := ['o', 'p', 'e', 'r', 'a', 't', 'o', 'r']

/-- What a complete word gives out, and whether an operator's name is awaited after it. A key is quoted, and so
is an awaited name. -/
def closeWord (awaiting : Bool) (letters : List Char) (isKey : Bool) : List Char × Bool :=
  if isKey then ('"' :: letters ++ ['"'], letters = operatorKey)
  else if awaiting then ('"' :: letters ++ ['"'], false)
  else (letters, false)

/-- What a character gives out, and the mode after it. -/
def Mode.step : Mode → Char → List Char × Mode
  | .between awaiting, c => enter awaiting c
  | .number, c => if continuesNumber c then ([c], .number) else enter false c
  | .word awaiting letters, c =>
    if continuesWord c then ([], .word awaiting (letters ++ [c]))
    else
      let (held, awaiting) := closeWord awaiting letters (c = ':')
      let (out, mode) := enter awaiting c
      (held ++ out, mode)
  | .string, c => ([c], if c = '\\' then .escape else if c = '"' then .between false else .string)
  | .escape, c => ([c], .string)

/-- What the end of the text gives out; inside a quoted string it must not come. -/
def Mode.finish : Mode → Option (List Char)
  | .between _ => some []
  | .number => some []
  | .word awaiting letters => some (closeWord awaiting letters false).1
  | .string => none
  | .escape => none

/-- The text with its bare words quoted, none if it ends inside a quoted string. -/
def quoteWords (mode : Mode) : List Char → Option (List Char)
  | [] => mode.finish
  | c :: cs => (quoteWords (mode.step c).2 cs).map ((mode.step c).1 ++ ·)

/-! ### Quoted strings -/

/-- What is wrong with a string that nothing closes. -/
def unterminated : Fault := .unreadableWire "unterminated string literal"

/-- The index after the first quote from an index on. A backslash and the character after it are passed over
together, be it beyond the end. -/
def scanString (chars : List Char) (i : Nat) : Except Fault Nat :=
  if h : i < chars.length then
    if chars[i] = '\\' then scanString chars (i + 2)
    else if chars[i] = '"' then .ok (i + 1)
    else scanString chars (i + 1)
  else .error unterminated
termination_by chars.length - i

/-- The index after the closing quote of the string whose opening quote is at an index. -/
def stringEnd (chars : List Char) (start : Nat) : Except Fault Nat := scanString chars (start + 1)

/-! ### The document -/

/-- The document of a wire text. -/
def document? (wire : String) : Except Fault Json :=
  match quoteWords (.between false) wire.toList with
  | none => .error unterminated
  | some quoted =>
    match Json.ofChars? Json.maxDepth quoted with
    | some document => .ok document
    | none => .error (.unreadableWire unstatedReason)

end VectorQuery.Wire
