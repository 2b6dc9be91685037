import Mathlib
import VectorQuery.Proofs.Wire.Pass

/-!
# Where a quoted string ends

The pass over wire text copies a quoted string up to the quote that closes it, and the scan by index
finds the same place: it takes a backslash together with the character after it, and stops at the first
quote that it comes to.  A quote is one that it comes to iff an even number of backslashes stands in a
row before it.

* `slashesBefore`, `ClosesAt` — the backslashes in a row before an index, and the indices after a quote
  with an even number of them before it;
* `scanString_firstClosing` — the scan keeps the parity, so it comes to the first such index;
* `scanString_splitClosing`, `quoteWords_string` — the scan, the reader of documents and the pass
  agree on where a string ends;
* `stringEnd_exact` — **the scan stops exactly at the end of a quoted string**.
-/

namespace VectorQuery.Wire

open Text

variable {chars : List Char} {start i e : ℕ}

/-! ### Closing quotes -/

/-- How many backslashes stand in a row right before an index, none of them before `low`. -/
def slashesBefore (chars : List Char) (low : ℕ) : ℕ → ℕ
  | 0 => 0
  | i + 1 => if low ≤ i ∧ chars[i]? = some '\\' then slashesBefore chars low i + 1 else 0

/-- An index stands after a quote that closes the string opened at `start`: between the two quotes,
an even number of backslashes stands in a row before the second. -/
structure ClosesAt (chars : List Char) (start e : ℕ) : Prop where
  opened : start + 1 < e
  inside : e ≤ chars.length
  quote : chars[e - 1]? = some '"'
  even : Even (slashesBefore chars (start + 1) (e - 1))

/-- What a scan should come to: the first index after a closing quote, or that there is none. -/
def FirstClosing (chars : List Char) (start : ℕ) : Except Fault ℕ → Prop
  | .ok e => ClosesAt chars start e ∧ ∀ e' < e, ¬ ClosesAt chars start e'
  | .error fault => fault = unterminated ∧ ∀ e, ¬ ClosesAt chars start e

theorem slashesBefore_slash (hi : start < i) (h : chars[i]? = some '\\') :
    slashesBefore chars (start + 1) (i + 1) = slashesBefore chars (start + 1) i + 1 :=
  if_pos ⟨hi, h⟩

theorem slashesBefore_other (h : chars[i]? ≠ some '\\') (low : ℕ) :
    slashesBefore chars low (i + 1) = 0 :=
  if_neg fun hslash => h hslash.2

/-- After a backslash that is not escaped, and whatever character it escapes, the number of
backslashes in a row is even again. -/
theorem even_slashesBefore_pair (hi : start < i) (h : chars[i]? = some '\\')
    (heven : Even (slashesBefore chars (start + 1) i)) :
    Even (slashesBefore chars (start + 1) (i + 2)) := by
  by_cases hnext : chars[i + 1]? = some '\\'
  · rw [slashesBefore_slash (by omega) hnext, slashesBefore_slash hi h, add_assoc]
    exact heven.add even_two
  · rw [slashesBefore_other hnext]
    exact Even.zero

theorem not_closesAt_of_char {c : Char} (h : chars[i]? = some c) (hc : c ≠ '"') :
    ¬ ClosesAt chars start (i + 1) := by
  intro hcloses
  have hquote : chars[i]? = some '"' := hcloses.quote
  exact hc (Option.some.inj (h.symm.trans hquote))

/-- The character after a backslash that is not escaped closes nothing. -/
theorem not_closesAt_of_escaped (hi : start < i) (h : chars[i]? = some '\\')
    (heven : Even (slashesBefore chars (start + 1) i)) : ¬ ClosesAt chars start (i + 2) := by
  intro hcloses
  have hodd : Even (slashesBefore chars (start + 1) (i + 1)) := hcloses.even
  rw [slashesBefore_slash hi h, Nat.even_add_one] at hodd
  exact hodd heven

/-- **The scan comes to the first closing quote.**  Where it looks at a character, an even number of
backslashes stands in a row before it, and no quote before that closes the string. -/
theorem scanString_firstClosing (hi : start < i) (heven : Even (slashesBefore chars (start + 1) i))
    (hnone : ∀ e ≤ i, ¬ ClosesAt chars start e) : FirstClosing chars start (scanString chars i) := by
  fun_induction scanString chars i with
  | case1 i hlt hslash ih =>
    have hchar : chars[i]? = some '\\' := by rw [List.getElem?_eq_getElem hlt, hslash]
    refine ih (by omega) (even_slashesBefore_pair hi hchar heven) fun e he => ?_
    rcases Nat.lt_or_ge i e with hlater | hsooner
    · obtain rfl | rfl : e = i + 1 ∨ e = i + 2 := by omega
      · exact not_closesAt_of_char hchar (by decide)
      · exact not_closesAt_of_escaped hi hchar heven
    · exact hnone e hsooner
  | case2 i hlt _ hquote =>
    have hchar : chars[i]? = some '"' := by rw [List.getElem?_eq_getElem hlt, hquote]
    exact ⟨⟨by omega, hlt, hchar, heven⟩, fun e he => hnone e (Nat.le_of_lt_succ he)⟩
  | case3 i hlt hslash hquote ih =>
    have hchar : chars[i]? = some chars[i] := List.getElem?_eq_getElem hlt
    have hzero : slashesBefore chars (start + 1) (i + 1) = 0 :=
      slashesBefore_other (by rw [hchar, Ne, Option.some.injEq]; exact hslash) _
    refine ih (by omega) (by rw [hzero]; exact Even.zero) fun e he => ?_
    rcases Nat.lt_or_ge i e with hlater | hsooner
    · obtain rfl : e = i + 1 := by omega
      exact not_closesAt_of_char hchar hquote
    · exact hnone e hsooner
  | case4 i hend =>
    refine ⟨rfl, fun e hcloses => hnone e ?_ hcloses⟩
    have := hcloses.inside
    omega

theorem stringEnd_firstClosing (chars : List Char) (start : ℕ) :
    FirstClosing chars start (stringEnd chars start) := by
  refine scanString_firstClosing (Nat.lt_succ_self start) ?_ fun e he hcloses => ?_
  · rw [slashesBefore, if_neg (by omega)]
    exact Even.zero
  · have := hcloses.opened
    omega

/-- There is one first closing index at most. -/
theorem FirstClosing.unique {x y : Except Fault ℕ} (hx : FirstClosing chars start x)
    (hy : FirstClosing chars start y) : x = y := by
  cases x with
  | error fault =>
    cases y with
    | error other => rw [hx.1, hy.1]
    | ok e => exact absurd hy.1 (hx.2 e)
  | ok e =>
    cases y with
    | error fault => exact absurd hx.1 (hy.2 e)
    | ok other =>
      rcases Nat.lt_trichotomy e other with h | rfl | h
      · exact absurd hx.1 (hy.2 e h)
      · rfl
      · exact absurd hy.1 (hx.2 other h)

/-! ### The readers of strings -/

/-- The scan stops where the reader of documents cuts. -/
theorem scanString_splitClosing (before cs : List Char) :
    scanString (before ++ cs) before.length
      = match Quoted.splitClosing cs with
        | some (body, _) => .ok (before.length + body.length + 1)
        | none => .error unterminated := by
  fun_induction Quoted.splitClosing cs generalizing before with
  | case1 => rw [scanString, dif_neg (by simp)]
  | case2 cs =>
    rw [scanString, dif_pos (by simp)]
    simp
  | case3 c cs ih =>
    have hnext := ih (before ++ ['\\', c])
    rw [List.append_assoc, List.length_append] at hnext
    rw [scanString, dif_pos (by simp), if_pos (by simp)]
    refine hnext.trans ?_
    cases Quoted.splitClosing cs with
    | none => rfl
    | some cut => simp; omega
  | case4 c cs hquote hslash ih =>
    by_cases hc : c = '\\'
    · -- a backslash with nothing behind it: the scan goes beyond the end
      have hcs : cs = [] := by
        cases cs with
        | nil => rfl
        | cons d ds => exact (hslash d ds hc rfl).elim
      subst hc hcs
      rw [scanString, dif_pos (by simp), if_pos (by simp), scanString, dif_neg (by simp)]
      rfl
    · have hnext := ih (before ++ [c])
      rw [List.append_assoc, List.length_append] at hnext
      rw [scanString, dif_pos (by simp), if_neg (by simpa using hc), if_neg (by simpa using hquote)]
      refine hnext.trans ?_
      cases Quoted.splitClosing cs with
      | none => rfl
      | some cut => simp; omega

/-- A quoted string ends where it was written to end, whatever stands before it and after it. -/
theorem stringEnd_quote (before : List Char) (text : String) (rest : List Char) :
    stringEnd (before ++ (quote text).toList ++ rest) before.length
      = .ok (before.length + (quote text).toList.length) := by
  have hscan := scanString_splitClosing (before ++ ['"']) (Quoted.encode text.toList ++ '"' :: rest)
  rw [Quoted.splitClosing_encode, List.length_append, List.length_singleton] at hscan
  rw [stringEnd, quote_toList]
  simpa [add_assoc, add_comm 1] using hscan

/-- From inside a string, the pass copies what stands up to the end of the scan and goes on between
parts; it fails where the scan does. -/
theorem quoteWords_stringEnd (chars : List Char) (start : ℕ) :
    quoteWords .string (chars.drop (start + 1))
      = match stringEnd chars start with
        | .ok e => (quoteWords (.between false) (chars.drop e)).map
            ((chars.take e).drop (start + 1) ++ ·)
        | .error _ => none := by
  rcases Nat.lt_or_ge chars.length (start + 1) with hshort | hlong
  · rw [stringEnd, scanString, dif_neg (by omega), List.drop_eq_nil_of_le hshort.le]
    rfl
  · have hscan := scanString_splitClosing (chars.take (start + 1)) (chars.drop (start + 1))
    rw [List.take_append_drop, List.length_take_of_le hlong] at hscan
    rw [stringEnd, hscan, quoteWords_string]
    cases hcut : Quoted.splitClosing (chars.drop (start + 1)) with
    | none => rfl
    | some cut =>
      obtain ⟨body, rest⟩ := cut
      have hsplit : chars.drop (start + 1) = body ++ ['"'] ++ rest := by
        rw [splitClosing_eq_append hcut, List.append_assoc, List.singleton_append]
      have hlength : start + 1 + body.length + 1 = start + 1 + (body ++ ['"']).length := by
        rw [List.length_append, List.length_singleton, add_assoc]
      have hrest : chars.drop (start + 1 + body.length + 1) = rest := by
        rw [hlength, ← List.drop_drop, hsplit, List.drop_left]
      have hcopied : (chars.take (start + 1 + body.length + 1)).drop (start + 1) = body ++ ['"'] := by
        rw [hlength, List.drop_take, hsplit, Nat.add_sub_cancel_left, List.take_left]
      simp only [hrest, hcopied, List.append_assoc, List.singleton_append]

/-! ### The end of a string -/

/-- **The scan stops exactly at the end of a quoted string.**  From the opening quote of any quoted
text, whatever stands before it and after it, the scan stops right after its closing quote.  In any
characters and from any index it stops right after the first quote that an even number of backslashes
in a row precedes, and fails iff there is no such quote.  The pass over wire text copies a string up
to there, and fails with the scan. -/
theorem stringEnd_exact (chars : List Char) (start : ℕ) :
    (∀ before text rest, stringEnd (before ++ (quote text).toList ++ rest) before.length
      = .ok (before.length + (quote text).toList.length))
    ∧ (∀ e, stringEnd chars start = .ok e
      ↔ ClosesAt chars start e ∧ ∀ e' < e, ¬ ClosesAt chars start e')
    ∧ (∀ fault, stringEnd chars start = .error fault
      ↔ fault = .unreadableWire "unterminated string literal" ∧ ∀ e, ¬ ClosesAt chars start e)
    ∧ quoteWords .string (chars.drop (start + 1))
      = match stringEnd chars start with
        | .ok e => (quoteWords (.between false) (chars.drop e)).map
            ((chars.take e).drop (start + 1) ++ ·)
        | .error _ => none := by
  have hscan := stringEnd_firstClosing chars start
  refine ⟨stringEnd_quote, fun e => ⟨fun h => ?_, fun h => ?_⟩, fun fault => ⟨fun h => ?_, fun h => ?_⟩,
    quoteWords_stringEnd chars start⟩
  · rw [h] at hscan
    exact hscan
  · exact hscan.unique (y := .ok e) h
  · rw [h] at hscan
    exact hscan
  · exact hscan.unique (y := .error fault) h

/-- Three backslashes in a row escape a quote, four do not. -/
example : stringEnd "\"a\\\\\\\"b\\\\\\\\\"c".toList 0 = .ok 12 := by cbv

end VectorQuery.Wire
