import Mathlib
import VectorQuery.Json.Reader
import VectorQuery.Proofs.Binary64.Spelling
import VectorQuery.Proofs.Json.Number

/-!
# The texts of numbers in documents

A number of a document is stricter than the text of a float: there are digits before the point,
without a leading zero unless it stands alone, a point has digits after it, and the only sign is a
minus.

* `WholeText`, `FractionText`, `NumberText` — the texts of numbers and of their parts; exponents are
  those of any float;
* `numberText_of_readNumber` — **the reader of documents takes number texts only**;
* `NumberText.signed` — the characters of a number text.
-/

namespace VectorQuery.Json

open Text Wire

variable {cs rest : List Char}

/-! ### The grammar -/

/-- The digits before the point: a zero alone, or digits of which the first is not zero. -/
inductive WholeText : List Char → Prop
  | zero : WholeText ['0']
  | digits {c : Char} {cs : List Char} (hzero : c ≠ '0')
      (hdigits : ∀ d ∈ c :: cs, d.isDigit = true) : WholeText (c :: cs)

/-- What stands between the digits before the point and the exponent: nothing, or a point with digits
after it. -/
inductive FractionText : List Char → Prop
  | none : FractionText []
  | point {digits : List Char} (hne : digits ≠ []) (hdigits : ∀ d ∈ digits, d.isDigit = true) :
      FractionText ('.' :: digits)

/-- The texts of a number without a sign. -/
inductive UnsignedNumberText : List Char → Prop
  | parts {whole fraction exponent : List Char} {n : ℤ} (hwhole : WholeText whole)
      (hfraction : FractionText fraction) (hexponent : ExponentText exponent n) :
      UnsignedNumberText (whole ++ (fraction ++ exponent))

/-- The texts of a number. -/
inductive NumberText : List Char → Prop
  | plain {cs : List Char} (h : UnsignedNumberText cs) : NumberText cs
  | minus {cs : List Char} (h : UnsignedNumberText cs) : NumberText ('-' :: cs)

/-! ### What is read -/

theorem wholeText_of_isWhole (hdigits : ∀ d ∈ cs, d.isDigit = true) (h : isWhole cs = true) :
    WholeText cs := by
  rw [isWhole.eq_def] at h
  split at h
  · cases h
  · exact .zero
  · cases h
  · rename_i hnil hzero hleading
    cases cs with
    | nil => exact absurd rfl hnil
    | cons c cs => exact .digits (fun hc => hleading cs (hc ▸ rfl)) hdigits

theorem fractionText_of_readFraction {digits : List Char}
    (h : readFraction cs = some (digits, rest)) :
    ∃ fraction, cs = fraction ++ rest ∧ FractionText fraction := by
  rw [readFraction.eq_def] at h
  split at h
  · rename_i cs
    dsimp only at h
    split at h
    · cases h
    · rename_i hne
      cases h
      refine ⟨'.' :: cs.takeWhile Char.isDigit, ?_, .point ?_ fun d hd => List.mem_takeWhile_imp hd⟩
      · rw [List.cons_append, List.takeWhile_append_dropWhile]
      · simpa using hne
  · cases h
    exact ⟨[], rfl, .none⟩

theorem numeral_of_readExponentDigits {n : ℕ} (h : readExponentDigits cs = some (n, rest)) :
    ∃ zeros, cs = List.replicate zeros '0' ++ Nat.toDigits 10 n ++ rest := by
  obtain ⟨m, hm, hsame⟩ := Option.map_eq_some_iff.1 h
  obtain ⟨rfl, rfl⟩ := Prod.mk.inj hsame
  obtain ⟨zeros, hzeros⟩ := Numeral.digits?_eq_some_iff.1 hm
  exact ⟨zeros, by rw [← hzeros, List.takeWhile_append_dropWhile]⟩

theorem exponentText_of_readExponent {exponent : Option ℤ}
    (h : readExponent cs = some (exponent, rest)) :
    ∃ text, cs = text ++ rest ∧ ExponentText text (exponent.getD 0) := by
  rw [readExponent.eq_def] at h
  split at h
  · split at h
    next hletter =>
      split at h
      · obtain ⟨⟨n, tail⟩, hdigits, hsame⟩ := Option.map_eq_some_iff.1 h
        obtain ⟨zeros, rfl⟩ := numeral_of_readExponentDigits hdigits
        cases hsame
        exact ⟨_, rfl, .some hletter (.minus zeros n)⟩
      · obtain ⟨⟨n, tail⟩, hdigits, hsame⟩ := Option.map_eq_some_iff.1 h
        obtain ⟨zeros, rfl⟩ := numeral_of_readExponentDigits hdigits
        cases hsame
        exact ⟨_, rfl, .some hletter (.plus zeros n)⟩
      · obtain ⟨⟨n, tail⟩, hdigits, hsame⟩ := Option.map_eq_some_iff.1 h
        obtain ⟨zeros, rfl⟩ := numeral_of_readExponentDigits hdigits
        cases hsame
        exact ⟨_, rfl, .some hletter (.plain zeros n)⟩
    next =>
      cases h
      exact ⟨[], rfl, .none⟩
  · cases h
    exact ⟨[], rfl, .none⟩

theorem unsignedText_of_readUnsigned {negative : Bool} {value : Json}
    (h : readUnsigned negative cs = some (value, rest)) :
    ∃ number, cs = number ++ rest ∧ UnsignedNumberText number := by
  obtain ⟨_, hguard, h⟩ := Option.bind_eq_some_iff.1 h
  obtain ⟨⟨fraction, more⟩, hfraction, h⟩ := Option.bind_eq_some_iff.1 h
  obtain ⟨⟨exponent, tail⟩, hexponent, h⟩ := Option.bind_eq_some_iff.1 h
  have htail : tail = rest := by
    dsimp only at h
    split at h
    · cases h
      rfl
    · obtain ⟨found, -, hsame⟩ := Option.bind_eq_some_iff.1 h
      cases hsame
      rfl
  subst htail
  have hwhole : WholeText (cs.takeWhile Char.isDigit) := by
    refine wholeText_of_isWhole (fun d hd => List.mem_takeWhile_imp hd) ?_
    by_contra hnot
    rw [guard, if_neg hnot] at hguard
    cases hguard
  obtain ⟨fraction, hmore, hfraction⟩ := fractionText_of_readFraction hfraction
  obtain ⟨text, htext, hexponent⟩ := exponentText_of_readExponent hexponent
  refine ⟨_, ?_, .parts hwhole hfraction hexponent⟩
  rw [List.append_assoc, List.append_assoc, ← htext, ← hmore, List.takeWhile_append_dropWhile]

/-- **The reader of documents takes number texts only.** -/
theorem numberText_of_readNumber {value : Json} (h : readNumber cs = some (value, rest)) :
    ∃ number, cs = number ++ rest ∧ NumberText number := by
  rw [readNumber.eq_def] at h
  split at h
  · obtain ⟨number, rfl, hnumber⟩ := unsignedText_of_readUnsigned h
    exact ⟨'-' :: number, rfl, .minus hnumber⟩
  · obtain ⟨number, rfl, hnumber⟩ := unsignedText_of_readUnsigned h
    exact ⟨number, rfl, .plain hnumber⟩

/-! ### The characters of a number -/

theorem continuesNumber_of_spells {n : ℤ} (h : Numeral.Spells cs n) :
    ∀ c ∈ cs, continuesNumber c = true := by
  have hdigits : ∀ zeros n, ∀ c ∈ List.replicate zeros '0' ++ Nat.toDigits 10 n,
      continuesNumber c = true := by
    intro zeros n c hc
    rcases List.mem_append.1 hc with hc | hc
    · exact continuesNumber_of_isDigit (isDigit_of_mem_zeros hc)
    · exact continuesNumber_of_isDigit (isDigit_of_mem_toDigits hc)
  cases h with
  | plain zeros n => exact hdigits zeros n
  | plus zeros n => exact List.forall_mem_cons.2 ⟨by decide, hdigits zeros n⟩
  | minus zeros n => exact List.forall_mem_cons.2 ⟨by decide, hdigits zeros n⟩

theorem UnsignedNumberText.unsigned (h : UnsignedNumberText cs) : Unsigned cs := by
  cases h with
  | @parts whole fraction exponent n hwhole hfraction hexponent =>
    have hdigits : ∀ c ∈ whole, c.isDigit = true := by
      cases hwhole with
      | zero => simp
      | digits _ hdigits => exact hdigits
    refine ⟨?_, List.forall_mem_append.2 ⟨fun c hc => continuesNumber_of_isDigit (hdigits c hc),
      List.forall_mem_append.2 ⟨?_, ?_⟩⟩⟩
    · cases hwhole with
      | zero => exact ⟨'0', _, rfl, by decide⟩
      | digits => exact ⟨_, _, rfl, hdigits _ List.mem_cons_self⟩
    · cases hfraction with
      | none => exact List.forall_mem_nil _
      | point _ hdigits =>
        exact List.forall_mem_cons.2
          ⟨by decide, fun c hc => continuesNumber_of_isDigit (hdigits c hc)⟩
    · cases hexponent with
      | none => exact List.forall_mem_nil _
      | some hletter hspells =>
        refine List.forall_mem_cons.2 ⟨?_, continuesNumber_of_spells hspells⟩
        rcases hletter with rfl | rfl <;> decide

theorem NumberText.signed (h : NumberText cs) : Signed cs := by
  cases h with
  | plain h => exact h.unsigned.signed false
  | minus h => exact h.unsigned.signed true

end VectorQuery.Json
