import Mathlib
import VectorQuery.Proofs.Text.Run
import VectorQuery.Text.Numeral

/-!
# What numerals denote

A run of digits denotes a number, and the same number has many runs: its canonical numeral with any
number of zeros before it.  These are all of them, so a reader of digits is known by what it accepts.

* `toDigits_ofDigitChars` — digits without a leading zero are the numeral of their value;
* `exists_zeros` — any digits are zeros before the numeral of their value;
* `Numeral.digits?_eq_some_iff`, `Numeral.word64?_toDigits` — what is read as a natural number, and as
  one of 64 bits;
* `Numeral.Spells`, `Numeral.integer?_eq_some_iff` — **what is read as an integer**, with its sign;
* `Numeral.toSigned64?_eq_some_iff` — what a signed word holds;
* `Numeral.digits?_padded` — numerals of a fixed width.
-/

namespace VectorQuery

namespace Text

/-! ### Zeros -/

theorem ofDigitChars_zeros (digits : List Char) (k : ℕ) :
    Nat.ofDigitChars 10 (digits ++ List.replicate k '0') 0 = 10 ^ k * Nat.ofDigitChars 10 digits 0 := by
  rw [Nat.ofDigitChars_append, Nat.ofDigitChars_replicate_zero]

theorem zeros_ofDigitChars (digits : List Char) (k : ℕ) :
    Nat.ofDigitChars 10 (List.replicate k '0' ++ digits) 0 = Nat.ofDigitChars 10 digits 0 := by
  rw [Nat.ofDigitChars_append, Nat.ofDigitChars_replicate_zero, Nat.mul_zero]

theorem isDigit_of_mem_zeros {k : ℕ} {c : Char} (h : c ∈ List.replicate k '0') :
    c.isDigit = true := by
  rw [List.eq_of_mem_replicate h]; decide

/-! ### Digits and their value -/

theorem exists_digitChar {c : Char} (h : c.isDigit = true) : ∃ d < 10, c = Nat.digitChar d := by
  have hrange : 48 ≤ c.toNat ∧ c.toNat ≤ 57 := by
    simp only [Char.isDigit, Bool.and_eq_true, decide_eq_true_eq, ge_iff_le,
      UInt32.le_iff_toNat_le] at h
    exact h
  refine ⟨c.toNat - 48, by omega, Char.toNat_inj.1 ?_⟩
  rw [Nat.toNat_digitChar_of_lt_ten (by omega)]
  omega

/-- Digits after the numeral of a positive number go on with it. -/
theorem toDigits_append {n : ℕ} (hn : 0 < n) {cs : List Char} (hcs : ∀ c ∈ cs, c.isDigit = true) :
    Nat.toDigits 10 n ++ cs = Nat.toDigits 10 (Nat.ofDigitChars 10 cs n) := by
  induction cs generalizing n with
  | nil => rw [Nat.ofDigitChars_nil, List.append_nil]
  | cons c cs ih =>
    obtain ⟨hc, hmore⟩ := List.forall_mem_cons.1 hcs
    obtain ⟨d, hd, rfl⟩ := exists_digitChar hc
    have hnext := Nat.toDigits_append_toDigits (b := 10) (by decide) hn hd
    rw [Nat.toDigits_of_lt_base hd] at hnext
    rw [Nat.ofDigitChars_cons_digitChar_of_lt_ten hd, ← ih (by omega) hmore, ← hnext,
      List.append_assoc, List.singleton_append]

/-- Digits without a leading zero are the numeral of their value. -/
theorem toDigits_ofDigitChars {c : Char} {cs : List Char} (hzero : c ≠ '0')
    (hcs : ∀ d ∈ c :: cs, d.isDigit = true) :
    Nat.toDigits 10 (Nat.ofDigitChars 10 (c :: cs) 0) = c :: cs := by
  obtain ⟨hc, hmore⟩ := List.forall_mem_cons.1 hcs
  obtain ⟨d, hd, rfl⟩ := exists_digitChar hc
  have hpos : 0 < d := Nat.pos_of_ne_zero fun h => hzero (by rw [h]; rfl)
  rw [Nat.ofDigitChars_cons_digitChar_of_lt_ten hd, Nat.mul_zero, Nat.zero_add,
    ← toDigits_append hpos hmore, Nat.toDigits_of_lt_base hd]
  rfl

/-- Any digits are zeros before the numeral of their value. -/
theorem exists_zeros {cs : List Char} (hne : cs ≠ []) (hcs : ∀ c ∈ cs, c.isDigit = true) :
    ∃ zeros, cs = List.replicate zeros '0' ++ Nat.toDigits 10 (Nat.ofDigitChars 10 cs 0) := by
  induction cs with
  | nil => exact absurd rfl hne
  | cons c cs ih =>
    by_cases hzero : c = '0'
    · subst hzero
      rcases eq_or_ne cs [] with rfl | hmore
      · exact ⟨0, rfl⟩
      · obtain ⟨zeros, hzeros⟩ := ih hmore (List.forall_mem_cons.1 hcs).2
        refine ⟨zeros + 1, ?_⟩
        have hvalue : Nat.ofDigitChars 10 ('0' :: cs) 0 = Nat.ofDigitChars 10 cs 0 :=
          zeros_ofDigitChars cs 1
        rw [hvalue, List.replicate_succ, List.cons_append, ← hzeros]
    · exact ⟨0, (toDigits_ofDigitChars hzero hcs).symm⟩

end Text

namespace Numeral

open Text

/-! ### Natural numbers -/

theorem digits?_eq_some_iff_value {cs : List Char} {n : ℕ} :
    digits? cs = some n
      ↔ cs ≠ [] ∧ (∀ c ∈ cs, c.isDigit = true) ∧ Nat.ofDigitChars 10 cs 0 = n := by
  rw [digits?]
  split <;> simp_all

/-- What is read as a natural number: zeros before its numeral. -/
theorem digits?_eq_some_iff {cs : List Char} {n : ℕ} :
    digits? cs = some n ↔ ∃ zeros, cs = List.replicate zeros '0' ++ Nat.toDigits 10 n := by
  rw [digits?_eq_some_iff_value]
  constructor
  · intro h
    obtain ⟨hne, hcs, rfl⟩ := h
    exact exists_zeros hne hcs
  · intro h
    obtain ⟨zeros, rfl⟩ := h
    refine ⟨List.append_ne_nil_of_right_ne_nil _ Nat.toDigits_ne_nil, fun c hc => ?_, ?_⟩
    · rcases List.mem_append.1 hc with hc | hc
      · exact isDigit_of_mem_zeros hc
      · exact isDigit_of_mem_toDigits hc
    · rw [zeros_ofDigitChars, Nat.ofDigitChars_ten_toDigits]

/-- A text that is read as a natural number begins with a digit. -/
theorem head_isDigit {c : Char} {cs : List Char} {n : ℕ} (h : digits? (c :: cs) = some n) :
    c.isDigit = true :=
  (digits?_eq_some_iff_value.1 h).2.1 c List.mem_cons_self

/-- A number of 64 bits is read from its numeral. -/
theorem word64?_toDigits {n : ℕ} (hn : n < UInt64.size) :
    word64? (Nat.toDigits 10 n) = some (UInt64.ofNat n) := by
  have hread : natural? (Nat.toDigits 10 n) = some n := by
    rw [natural?, digits?_toDigits]
    intro more hplus
    exact absurd (head_isDigit (hplus ▸ digits?_toDigits n)) (by decide)
  rw [word64?, hread, Option.bind_some, if_pos hn]

/-! ### Integers -/

/-- The texts of an integer: its numeral, with any number of zeros before it, after a sign.  A plus
sign may be left out. -/
inductive Spells : List Char → ℤ → Prop
  | plain (zeros n : ℕ) : Spells (List.replicate zeros '0' ++ Nat.toDigits 10 n) n
  | plus (zeros n : ℕ) : Spells ('+' :: (List.replicate zeros '0' ++ Nat.toDigits 10 n)) n
  | minus (zeros n : ℕ) : Spells ('-' :: (List.replicate zeros '0' ++ Nat.toDigits 10 n)) (-n)

theorem integer?_minus (cs : List Char) :
    integer? ('-' :: cs) = (digits? cs).map fun n : ℕ => -(n : ℤ) := by
  rw [integer?]
  cases digits? cs <;> rfl

theorem integer?_plus (cs : List Char) :
    integer? ('+' :: cs) = (digits? cs).map fun n : ℕ => (n : ℤ) := by
  rw [integer?, natural?]
  · cases digits? cs <;> rfl
  · simp

/-- Without a sign, an integer is read as a natural number. -/
theorem integer?_of_no_sign {cs : List Char} (h : ∀ more, cs ≠ '-' :: more ∧ cs ≠ '+' :: more) :
    integer? cs = (digits? cs).map fun n : ℕ => (n : ℤ) := by
  rw [integer?, natural?]
  · cases digits? cs <;> rfl
  · exact fun more => (h more).2
  · exact fun more => (h more).1

/-- **What is read as an integer** are its texts. -/
theorem integer?_eq_some_iff {cs : List Char} {m : ℤ} : integer? cs = some m ↔ Spells cs m := by
  constructor
  · intro h
    by_cases hminus : ∃ more, cs = '-' :: more
    · obtain ⟨more, rfl⟩ := hminus
      rw [integer?_minus] at h
      obtain ⟨n, hn, rfl⟩ := Option.map_eq_some_iff.1 h
      obtain ⟨zeros, rfl⟩ := digits?_eq_some_iff.1 hn
      exact .minus zeros n
    by_cases hplus : ∃ more, cs = '+' :: more
    · obtain ⟨more, rfl⟩ := hplus
      rw [integer?_plus] at h
      obtain ⟨n, hn, rfl⟩ := Option.map_eq_some_iff.1 h
      obtain ⟨zeros, rfl⟩ := digits?_eq_some_iff.1 hn
      exact .plus zeros n
    rw [integer?_of_no_sign fun more => ⟨fun h => hminus ⟨more, h⟩, fun h => hplus ⟨more, h⟩⟩] at h
    obtain ⟨n, hn, rfl⟩ := Option.map_eq_some_iff.1 h
    obtain ⟨zeros, rfl⟩ := digits?_eq_some_iff.1 hn
    exact .plain zeros n
  · intro h
    have hdigits : ∀ zeros n, digits? (List.replicate zeros '0' ++ Nat.toDigits 10 n) = some n :=
      fun zeros n => digits?_eq_some_iff.2 ⟨zeros, rfl⟩
    cases h with
    | minus zeros n => rw [integer?_minus, hdigits, Option.map_some]
    | plus zeros n => rw [integer?_plus, hdigits, Option.map_some]
    | plain zeros n =>
      rw [integer?_of_no_sign, hdigits, Option.map_some]
      -- a sign is no digit, and the first character is one
      have hsign : ∀ sign more, List.replicate zeros '0' ++ Nat.toDigits 10 n = sign :: more →
          sign.isDigit = true := fun sign more hcons => head_isDigit (hcons ▸ hdigits zeros n)
      exact fun more => ⟨fun h => absurd (hsign _ _ h) (by decide),
        fun h => absurd (hsign _ _ h) (by decide)⟩

/-- What a signed word of 64 bits holds. -/
theorem toSigned64?_eq_some_iff {n : ℤ} {word : Int64} :
    toSigned64? n = some word ↔ word.toInt = n := by
  rw [toSigned64?]
  constructor
  · intro h
    split at h
    · rename_i hrange
      cases h
      exact Int64.toInt_ofInt_of_le hrange.1 (Int.lt_add_one_of_le hrange.2)
    · cases h
  · intro h
    rw [← h, if_pos ⟨word.minValue_le_toInt, word.toInt_le⟩, Int64.ofInt_toInt]

/-! ### Numerals of a fixed width -/

/-- The numeral of a number with zeros before it up to a width. -/
def padded (width n : ℕ) : List Char := (Nat.toDigits 10 n).leftpad width '0'

theorem padded_eq (width n : ℕ) :
    padded width n
      = List.replicate (width - (Nat.toDigits 10 n).length) '0' ++ Nat.toDigits 10 n := rfl

theorem digits?_padded (width n : ℕ) : digits? (padded width n) = some n :=
  digits?_eq_some_iff.2 ⟨_, padded_eq width n⟩

/-- A number below a power of ten fits the width. -/
theorem length_padded {width n : ℕ} (hwidth : 0 < width) (hn : n < 10 ^ width) :
    (padded width n).length = width := by
  have hlength := (Nat.length_toDigits_le_iff (by decide) hwidth).2 hn
  rw [padded, List.length_leftpad]
  omega

theorem isDigit_of_mem_padded {width n : ℕ} {c : Char} (h : c ∈ padded width n) :
    c.isDigit = true :=
  (digits?_eq_some_iff_value.1 (digits?_padded width n)).2.1 c h

end Numeral

end VectorQuery
