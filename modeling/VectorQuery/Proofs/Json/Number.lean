import Mathlib
import VectorQuery.Binary64.Layout
import VectorQuery.Proofs.Text.Run
import VectorQuery.Wire.Reader

/-!
# Written integers are read back

A number of a document is read in three parts: the digits before the point, those after it, and an
exponent.  An integer is written as a canonical numeral, which has only the first of them.

* `readUnsigned_eq` — what the reader gives once the three parts of a number are known;
* `readExponent_ofInt` — an exponent that is written without a plus sign;
* `readNumber_ofInt` — **an integer of 64 bits reads back**, and as an integer;
* `Unsigned`, `Signed` — the characters that a written number consists of.
-/

namespace VectorQuery.Json

open Text Wire

/-! ### The parts of a number -/

theorem continuesNumber_of_isDigit {c : Char} (h : c.isDigit = true) :
    continuesNumber c = true := by
  simp [continuesNumber, h]

/-- A text that does not go on with a number does not go on with digits. -/
theorem stopsAt_isDigit {rest : List Char} (h : StopsAt continuesNumber rest) :
    StopsAt Char.isDigit rest :=
  h.mono fun _ => continuesNumber_of_isDigit

theorem readFraction_stop {rest : List Char} (h : StopsAt continuesNumber rest) :
    readFraction rest = some ([], rest) := by
  rw [readFraction]
  exact fun cs => h.ne (by decide) cs

/-- The digits after a point are a run of digits. -/
theorem readFraction_point {digits rest : List Char} (hne : digits ≠ [])
    (hdigits : ∀ c ∈ digits, c.isDigit = true)
    (hrest : StopsAt Char.isDigit rest) :
    readFraction ('.' :: (digits ++ rest)) = some (digits, rest) := by
  simp only [readFraction, takeWhile_run hdigits hrest, dropWhile_run hdigits hrest]
  rw [if_neg (by simpa using hne)]

theorem readExponent_stop {rest : List Char} (h : StopsAt continuesNumber rest) :
    readExponent rest = some (none, rest) := by
  cases rest with
  | nil => rfl
  | cons c cs =>
    have hc : ¬ (c = 'e' ∨ c = 'E') := by
      intro hc
      rcases hc with rfl | rfl <;> exact absurd (stopsAt_cons.1 h) (by decide)
    rw [readExponent.eq_def]
    exact if_neg hc

theorem readExponentDigits_toDigits (n : ℕ) {rest : List Char} (h : StopsAt Char.isDigit rest) :
    readExponentDigits (Nat.toDigits 10 n ++ rest) = some (n, rest) := by
  have hdigits : ∀ c ∈ Nat.toDigits 10 n, c.isDigit = true := fun _ => isDigit_of_mem_toDigits
  rw [readExponentDigits, takeWhile_run hdigits h, dropWhile_run hdigits h,
    Numeral.digits?_toDigits]
  rfl

theorem ofInt_toList (n : ℤ) :
    (Numeral.ofInt n).toList
      = if n < 0 then '-' :: Nat.toDigits 10 n.natAbs else Nat.toDigits 10 n.natAbs := by
  rw [Numeral.ofInt, Numeral.ofNat]
  split <;> simp

/-- The first character of a numeral is a digit. -/
theorem toDigits_eq_cons (n : ℕ) : ∃ c cs, Nat.toDigits 10 n = c :: cs ∧ c.isDigit = true := by
  cases h : Nat.toDigits 10 n with
  | nil => exact absurd h Nat.toDigits_ne_nil
  | cons c cs => exact ⟨c, cs, rfl, isDigit_of_mem_toDigits (h ▸ List.mem_cons_self)⟩

/-- An exponent that is written without a plus sign. -/
theorem readExponent_ofInt (e : ℤ) {rest : List Char} (h : StopsAt Char.isDigit rest) :
    readExponent ('e' :: ((Numeral.ofInt e).toList ++ rest)) = some (some e, rest) := by
  rw [ofInt_toList, readExponent.eq_def]
  refine (if_pos (Or.inl rfl)).trans ?_
  by_cases hneg : e < 0
  · rw [if_pos hneg]
    show (readExponentDigits (Nat.toDigits 10 e.natAbs ++ rest)).map (fun x => (some (-(x.1 : ℤ)), x.2))
      = some (some e, rest)
    rw [readExponentDigits_toDigits _ h, Option.map_some, show -(e.natAbs : ℤ) = e by omega]
  · rw [if_neg hneg]
    obtain ⟨c, cs, hcs, hc⟩ := toDigits_eq_cons e.natAbs
    have hread := readExponentDigits_toDigits e.natAbs h
    rw [hcs, List.cons_append] at hread ⊢
    split
    · rename_i heq; cases heq; exact absurd hc (by decide)
    · rename_i heq; cases heq; exact absurd hc (by decide)
    · have habs : (e.natAbs : ℤ) = e := by omega
      simp only [hread, Option.map_some, habs]

/-- What the reader gives for a number once its parts are known. -/
theorem readUnsigned_eq (negative : Bool) {whole cs fraction afterFraction rest : List Char}
    {exponent : Option ℤ}
    (hdigits : ∀ c ∈ whole, c.isDigit = true) (hwhole : isWhole whole = true)
    (hcs : StopsAt Char.isDigit cs) (hfraction : readFraction cs = some (fraction, afterFraction))
    (hexponent : readExponent afterFraction = some (exponent, rest)) :
    readUnsigned negative (whole ++ cs)
      = match (if fraction.isEmpty && exponent.isNone
            then integer? negative (DecimalParts.digits ⟨whole, fraction, exponent.getD 0⟩)
            else none) with
        | some n => some (.int n, rest)
        | none => (float? negative ⟨whole, fraction, exponent.getD 0⟩).map
            fun value => (value, rest) := by
  simp only [readUnsigned, takeWhile_run hdigits hcs, dropWhile_run hdigits hcs, hwhole,
    hfraction, hexponent, guard, if_true, Option.bind_eq_bind, Option.pure_def, Option.bind_some]
  generalize (if (fraction.isEmpty && exponent.isNone) = true
    then integer? negative (DecimalParts.digits ⟨whole, fraction, exponent.getD 0⟩) else none) = found
  cases found with
  | some n => rfl
  | none => cases float? negative ⟨whole, fraction, exponent.getD 0⟩ <;> rfl

/-! ### Integers -/

theorem isWhole_of_head {cs : List Char} (hne : cs ≠ []) (hhead : cs.head? ≠ some '0') :
    isWhole cs = true := by
  rw [isWhole.eq_def]
  split
  · exact absurd rfl hne
  · rfl
  · simp at hhead
  · rfl

/-- Canonical numerals may stand before a point. -/
theorem isWhole_toDigits (n : ℕ) : isWhole (Nat.toDigits 10 n) = true := by
  rcases Nat.eq_zero_or_pos n with rfl | hn
  · rw [Nat.toDigits_zero]; rfl
  · exact isWhole_of_head Nat.toDigits_ne_nil (toDigits_head_ne_zero hn)

theorem readUnsigned_toDigits (negative : Bool) {n : ℕ} {i : ℤ} (hi : integer? negative n = some i)
    {rest : List Char} (h : StopsAt continuesNumber rest) :
    readUnsigned negative (Nat.toDigits 10 n ++ rest) = some (.int i, rest) := by
  rw [readUnsigned_eq negative (fun _ => isDigit_of_mem_toDigits) (isWhole_toDigits n)
    (stopsAt_isDigit h) (readFraction_stop h) (readExponent_stop h)]
  have hparts : DecimalParts.digits ⟨Nat.toDigits 10 n, [], (none : Option ℤ).getD 0⟩ = n := by
    rw [DecimalParts.digits, List.append_nil, Nat.ofDigitChars_ten_toDigits]
  simp only [hparts, List.isEmpty_nil, Option.isNone_none, Bool.and_self, if_true, hi]

/-- A number that begins with a digit has no sign. -/
theorem readNumber_digit {c : Char} (hc : c.isDigit = true) (cs : List Char) :
    readNumber (c :: cs) = readUnsigned false (c :: cs) := by
  rw [readNumber]
  intro ds heq
  cases heq
  exact absurd hc (by decide)

/-- **An integer of 64 bits reads back.** -/
theorem readNumber_ofInt (i : Int64) {rest : List Char} (h : StopsAt continuesNumber rest) :
    readNumber ((Numeral.ofInt i.toInt).toList ++ rest) = some (.int i.toInt, rest) := by
  have hlow := i.le_toInt
  have hhigh := i.toInt_lt
  rw [ofInt_toList]
  split
  · rename_i hneg
    refine readUnsigned_toDigits true ?_ h
    rw [integer?, if_pos rfl,
      if_pos ⟨by omega, by rw [show -(i.toInt.natAbs : ℤ) = i.toInt by omega]; exact hlow⟩]
    congr 1
    omega
  · rename_i hnonneg
    obtain ⟨c, cs, hcs, hc⟩ := toDigits_eq_cons i.toInt.natAbs
    have hint : integer? false i.toInt.natAbs = some i.toInt := by
      have hsize : i.toInt.natAbs < UInt64.size := by simp only [UInt64.size]; omega
      rw [integer?, if_neg Bool.false_ne_true, if_pos hsize]
      congr 1
      omega
    have hread := readUnsigned_toDigits false hint h
    rw [hcs, List.cons_append] at hread ⊢
    rw [readNumber_digit hc, hread]

/-! ### The characters of a number -/

/-- The characters of a number without a sign. -/
structure Unsigned (cs : List Char) : Prop where
  head : ∃ c ds, cs = c :: ds ∧ c.isDigit = true
  continues : ∀ c ∈ cs, continuesNumber c = true

theorem unsigned_toDigits (n : ℕ) : Unsigned (Nat.toDigits 10 n) where
  head := toDigits_eq_cons n
  continues := fun _ hc => continuesNumber_of_isDigit (isDigit_of_mem_toDigits hc)

/-- Whether a character may be the first one of a number. -/
def startsNumber (c : Char) : Bool := c.isDigit || c = '-'

/-- The characters of a number with or without a sign. -/
structure Signed (cs : List Char) : Prop where
  head : ∃ c ds, cs = c :: ds ∧ startsNumber c = true
  continues : ∀ c ∈ cs, continuesNumber c = true

theorem Unsigned.signed {cs : List Char} (h : Unsigned cs) (negative : Bool) :
    Signed ((if negative then ['-'] else []) ++ cs) where
  head := by
    obtain ⟨c, ds, hcs, hc⟩ := h.head
    cases negative with
    | true => exact ⟨'-', cs, rfl, by decide⟩
    | false => exact ⟨c, ds, hcs, by simp [startsNumber, hc]⟩
  continues := by
    intro c hc
    rcases List.mem_append.1 hc with hc | hc
    · cases negative with
      | true => rw [List.mem_singleton.1 hc]; decide
      | false => cases hc
    · exact h.continues c hc

theorem signed_ofInt (n : ℤ) : Signed (Numeral.ofInt n).toList := by
  have hsigned := (unsigned_toDigits n.natAbs).signed (decide (n < 0))
  rw [ofInt_toList]
  by_cases hn : n < 0
  · rw [decide_eq_true hn] at hsigned
    rw [if_pos hn]
    exact hsigned
  · rw [decide_eq_false hn] at hsigned
    rw [if_neg hn]
    exact hsigned

end VectorQuery.Json
