/-!
# Quoted strings

A quoted string stands between double quotes; inside, a quote, a backslash and the control characters
below U+0020 are escaped.

* `encode` — the body of a quoted string, with the shortest escapes.
* `splitClosing` — a text cut at its first quote that no backslash escapes (`splitClosing_encode`: an encoded
  body has none).
* `decode` — the text that a body stands for, read in two steps: escapes to pieces, surrogate pairs to characters
  (`decode_encode`: an encoded body stands for its text).
-/

namespace VectorQuery.Quoted

/-! ### Writing -/

/-- The escape of one character, or the character itself if it needs none. -/
def escape (c : Char) : List Char :=
  if c = '"' then ['\\', '"']
  else if c = '\\' then ['\\', '\\']
  else if c.toNat = 0x08 then ['\\', 'b']
  else if c.toNat = 0x09 then ['\\', 't']
  else if c.toNat = 0x0A then ['\\', 'n']
  else if c.toNat = 0x0C then ['\\', 'f']
  else if c.toNat = 0x0D then ['\\', 'r']
  else if c.toNat < 0x20 then
    ['\\', 'u', '0', '0', Nat.digitChar (c.toNat / 16), Nat.digitChar (c.toNat % 16)]
  else [c]

/-- The body of the quoted string of a text. -/
def encode (cs : List Char) : List Char := cs.flatMap escape

theorem encode_cons (c : Char) (cs : List Char) : encode (c :: cs) = escape c ++ encode cs := rfl

/-! ### The closing quote -/

/-- The characters before the first quote that no backslash escapes, and those after it. -/
def splitClosing : List Char → Option (List Char × List Char)
  | [] => none
  | '"' :: cs => some ([], cs)
  | '\\' :: c :: cs => (splitClosing cs).map fun (body, rest) => ('\\' :: c :: body, rest)
  | c :: cs => (splitClosing cs).map fun (body, rest) => (c :: body, rest)

theorem splitClosing_escape (c : Char) (cs : List Char) :
    splitClosing (escape c ++ cs) = (splitClosing cs).map fun (body, rest) => (escape c ++ body, rest) := by
  have key : ∀ (d : Char), d ≠ '"' → d ≠ '\\' → ∀ ds, splitClosing (d :: ds) =
      (splitClosing ds).map fun (body, rest) => (d :: body, rest) := by
    intro d hq hb ds
    rw [splitClosing]
    · exact fun h => hq h
    · intro c cs h; exact absurd h hb
  have digit : ∀ n, n < 16 → Nat.digitChar n ≠ '"' ∧ Nat.digitChar n ≠ '\\' := by decide
  unfold escape
  repeat' split
  all_goals try simp only [List.cons_append, List.nil_append, splitClosing]
  · rename_i hc
    have hi := digit (c.toNat / 16) (by omega)
    have lo := digit (c.toNat % 16) (by omega)
    rw [key '0' (by decide) (by decide), key '0' (by decide) (by decide), key _ hi.1 hi.2, key _ lo.1 lo.2]
    simp [Option.map_map, Function.comp_def]
  · rename_i hq hb _ _ _ _ _ _
    exact key c hq hb cs

/-- The first closing quote after an encoded text is the one that closes it. -/
theorem splitClosing_encode (cs rest : List Char) :
    splitClosing (encode cs ++ '"' :: rest) = some (encode cs, rest) := by
  induction cs with
  | nil => rfl
  | cons c cs ih => simp [encode_cons, splitClosing_escape, ih]

/-! ### Reading -/

/-- A part of a body: a plain character, or the UTF-16 code unit that an escape gives by number. -/
inductive Piece
  | char (c : Char)
  | unit (code : Nat)

/-- The value of a hexadecimal digit of either case. -/
def hexDigit? (c : Char) : Option Nat :=
  if '0' ≤ c ∧ c ≤ '9' then some (c.toNat - '0'.toNat)
  else if 'a' ≤ c ∧ c ≤ 'f' then some (c.toNat - 'a'.toNat + 10)
  else if 'A' ≤ c ∧ c ≤ 'F' then some (c.toNat - 'A'.toNat + 10)
  else none

theorem hexDigit?_digitChar {n : Nat} (h : n < 16) : hexDigit? (Nat.digitChar n) = some n := by
  revert n; decide

/-- The character that stands after a backslash for itself or for a control character. -/
def shortEscape? (c : Char) : Option Char :=
  if c = '"' ∨ c = '\\' ∨ c = '/' then some c
  else if c = 'b' then some (Char.ofNat 0x08)
  else if c = 't' then some (Char.ofNat 0x09)
  else if c = 'n' then some (Char.ofNat 0x0A)
  else if c = 'f' then some (Char.ofNat 0x0C)
  else if c = 'r' then some (Char.ofNat 0x0D)
  else none

/-- The code unit of four hexadecimal digits. -/
def hexUnit? (a b c d : Char) : Option Nat := do
  let a ← hexDigit? a
  let b ← hexDigit? b
  let c ← hexDigit? c
  let d ← hexDigit? d
  return ((a * 16 + b) * 16 + c) * 16 + d

/-- The pieces of a body; a control character, an unknown escape and an unfinished one are refused. -/
def pieces? : List Char → Option (List Piece)
  | [] => some []
  | '\\' :: 'u' :: a :: b :: c :: d :: rest => do
    let code ← hexUnit? a b c d
    let more ← pieces? rest
    return .unit code :: more
  | '\\' :: c :: rest => do
    let c ← shortEscape? c
    let more ← pieces? rest
    return .char c :: more
  | c :: rest => if c = '\\' ∨ c.toNat < 0x20 then none else (pieces? rest).map (.char c :: ·)

/-- The first code unit of a surrogate pair. -/
def isHighSurrogate (code : Nat) : Bool := 0xD800 ≤ code && code < 0xDC00

/-- The second code unit of a surrogate pair. -/
def isLowSurrogate (code : Nat) : Bool := 0xDC00 ≤ code && code < 0xE000

/-- The character of a surrogate pair. -/
def pairChar (high low : Nat) : Char :=
  Char.ofNat (0x10000 + (high - 0xD800) * 0x400 + (low - 0xDC00))

/-- The characters that pieces stand for; a surrogate outside a pair is refused. -/
def chars? : List Piece → Option (List Char)
  | [] => some []
  | .char c :: rest => (chars? rest).map (c :: ·)
  | .unit high :: .unit low :: rest =>
    if isHighSurrogate high then
      if isLowSurrogate low then (chars? rest).map (pairChar high low :: ·) else none
    else if isLowSurrogate high then none
    else (chars? (.unit low :: rest)).map (Char.ofNat high :: ·)
  | .unit code :: rest =>
    if isHighSurrogate code || isLowSurrogate code then none
    else (chars? rest).map (Char.ofNat code :: ·)

/-- The text that a body stands for. -/
def decode (body : List Char) : Option (List Char) := (pieces? body).bind chars?

/-! ### Reading what was written -/

/-- The piece that the escape of a character is read as. -/
def pieceOf (c : Char) : Piece :=
  if c.toNat < 0x20 ∧ c.toNat ≠ 0x08 ∧ c.toNat ≠ 0x09 ∧ c.toNat ≠ 0x0A ∧ c.toNat ≠ 0x0C ∧ c.toNat ≠ 0x0D then
    .unit c.toNat
  else .char c

theorem pieces?_escape (c : Char) (cs : List Char) :
    pieces? (escape c ++ cs) = (pieces? cs).map (pieceOf c :: ·) := by
  have short : ∀ e d, shortEscape? e = some d → e ≠ 'u' →
      pieces? ('\\' :: e :: cs) = (pieces? cs).map (.char d :: ·) := by
    intro e d he hu
    rw [pieces?]
    · rw [he]; cases pieces? cs <;> rfl
    · intro _ _ _ _ _ h; exact absurd h hu
  have self : ∀ n, c.toNat = n → c = Char.ofNat n := by
    intro n h; rw [← h, Char.ofNat_toNat]
  unfold escape
  split
  · rename_i h; subst h; exact short _ _ rfl (by decide)
  split
  · rename_i h; subst h; exact short _ _ rfl (by decide)
  split
  · rename_i h; rw [self _ h]; exact short _ _ rfl (by decide)
  split
  · rename_i h; rw [self _ h]; exact short _ _ rfl (by decide)
  split
  · rename_i h; rw [self _ h]; exact short _ _ rfl (by decide)
  split
  · rename_i h; rw [self _ h]; exact short _ _ rfl (by decide)
  split
  · rename_i h; rw [self _ h]; exact short _ _ rfl (by decide)
  split
  · rename_i h
    have hi := hexDigit?_digitChar (show c.toNat / 16 < 16 by omega)
    have lo := hexDigit?_digitChar (show c.toNat % 16 < 16 by omega)
    have zero : hexDigit? '0' = some 0 := by decide
    have value : ((0 * 16 + 0) * 16 + c.toNat / 16) * 16 + c.toNat % 16 = c.toNat := by omega
    have unit : hexUnit? '0' '0' (Nat.digitChar (c.toNat / 16)) (Nat.digitChar (c.toNat % 16)) = some c.toNat := by
      simp only [hexUnit?, zero, hi, lo, Option.bind_eq_bind, Option.bind_some, Option.pure_def, value]
    have piece : pieceOf c = .unit c.toNat := by
      rw [pieceOf, if_pos (by omega)]
    simp only [List.cons_append, List.nil_append, pieces?, unit, piece, Option.bind_eq_bind,
      Option.bind_some, Option.pure_def, Option.map_eq_bind, Function.comp_def]
  · rename_i hq hb h8 h9 hA hC hD hlow
    have piece : pieceOf c = .char c := by rw [pieceOf, if_neg (by omega)]
    simp only [List.cons_append, List.nil_append]
    rw [pieces?]
    · rw [if_neg (not_or.2 ⟨hb, hlow⟩), piece]
    · intro _ _ _ _ _ h; exact absurd h hb
    · intro _ _ h; exact absurd h hb

theorem pieces?_encode (cs : List Char) : pieces? (encode cs) = some (cs.map pieceOf) := by
  induction cs with
  | nil => rfl
  | cons c cs ih => simp [encode_cons, pieces?_escape, ih]

theorem chars?_pieceOf (c : Char) (rest : List Piece) :
    chars? (pieceOf c :: rest) = (chars? rest).map (c :: ·) := by
  unfold pieceOf
  split
  · rename_i h
    have high : isHighSurrogate c.toNat = false := by simp [isHighSurrogate]; omega
    have low : isLowSurrogate c.toNat = false := by simp [isLowSurrogate]; omega
    have self : Char.ofNat c.toNat = c := Char.ofNat_toNat c
    match rest with
    | [] => simp [chars?, high, low, self]
    | .char d :: rest => simp [chars?, high, low, self]
    | .unit d :: rest => simp [chars?, high, low, self]
  · rfl

/-- Reading an encoded text gives the text back. -/
theorem decode_encode (cs : List Char) : decode (encode cs) = some cs := by
  simp only [decode, pieces?_encode, Option.bind_some]
  induction cs with
  | nil => rfl
  | cons c cs ih => simp [chars?_pieceOf, ih]

end VectorQuery.Quoted
