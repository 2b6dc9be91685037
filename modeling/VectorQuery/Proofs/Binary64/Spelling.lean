import Mathlib
import VectorQuery.Binary64.Reader
import VectorQuery.Proofs.Binary64.Overflow
import VectorQuery.Proofs.Text.Numeral

/-!
# Texts of floating-point numbers

A number is spelt by a decimal with an optional point and an optional exponent, or by a name, each
after an optional sign.  A decimal that reaches the boundary, halfway between the largest value of the
format and `2 ^ 1024`, spells an infinity, as the names do.

* `ExponentText`, `DecimalText` — the texts of exponents and of unsigned decimals, with what they
  denote;
* `DecimalParts.exponent?_eq_some_iff`, `DecimalParts.decimalText_of_ofChars?`,
  `DecimalParts.exists_ofChars?_of_decimalText` — the readers of these give what the texts denote;
* `UnsignedText`, `FloatText` — the texts of numbers;
* `ofText?_eq_some_iff` — **a number is read iff the text spells it**;
* `FloatText.unique` — a text spells one number at most.
-/

namespace VectorQuery

open Text

variable {cs : List Char}

/-! ### Decimals -/

/-- The texts of an exponent: none at all, or the letter `e` of either case before an integer. -/
inductive ExponentText : List Char → ℤ → Prop
  | none : ExponentText [] 0
  | some {letter : Char} {cs : List Char} {n : ℤ} (hletter : letter = 'e' ∨ letter = 'E')
      (h : Numeral.Spells cs n) : ExponentText (letter :: cs) n

/-- The texts of an unsigned decimal `digits · 10 ^ place`.  There is a digit before the point or
after it, and without a digit after it the point may be left out. -/
inductive DecimalText : List Char → ℕ → ℤ → Prop
  | whole {whole exponent : List Char} {n : ℤ} (hdigits : ∀ c ∈ whole, c.isDigit = true)
      (hne : whole ≠ []) (hexponent : ExponentText exponent n) :
      DecimalText (whole ++ exponent) (Nat.ofDigitChars 10 whole 0) n
  | pointed {whole fraction exponent : List Char} {n : ℤ}
      (hdigits : ∀ c ∈ whole ++ fraction, c.isDigit = true) (hne : whole ++ fraction ≠ [])
      (hexponent : ExponentText exponent n) :
      DecimalText (whole ++ '.' :: (fraction ++ exponent))
        (Nat.ofDigitChars 10 (whole ++ fraction) 0) (n - fraction.length)

theorem ExponentText.stops {n : ℤ} (h : ExponentText cs n) :
    StopsAt (fun c => c.isDigit || c = '.') cs := by
  cases h with
  | none => exact stopsAt_nil
  | some hletter =>
    rw [stopsAt_cons]
    rcases hletter with rfl | rfl <;> decide

theorem ExponentText.stopsAt_isDigit {n : ℤ} (h : ExponentText cs n) : StopsAt Char.isDigit cs :=
  h.stops.mono fun c hc => by simp [hc]

/-- A decimal begins with a digit or with the point. -/
theorem DecimalText.head {digits : ℕ} {place : ℤ} (h : DecimalText cs digits place) :
    ∃ c more, cs = c :: more ∧ (c = '.' ∨ ∃ d < 10, c = Nat.digitChar d) := by
  cases h with
  | @whole whole exponent _ hdigits hne =>
    obtain ⟨c, more, rfl⟩ := List.exists_cons_of_ne_nil hne
    exact ⟨c, more ++ exponent, rfl, Or.inr (exists_digitChar (hdigits c List.mem_cons_self))⟩
  | @pointed whole fraction exponent _ hdigits =>
    cases whole with
    | nil => exact ⟨'.', fraction ++ exponent, rfl, Or.inl rfl⟩
    | cons c more =>
      exact ⟨c, _, rfl, Or.inr (exists_digitChar (hdigits c List.mem_cons_self))⟩

namespace DecimalParts

theorem exponent?_eq_some_iff {n : ℤ} : exponent? cs = some n ↔ ExponentText cs n := by
  constructor
  · intro h
    cases cs with
    | nil =>
      cases h
      exact .none
    | cons letter cs =>
      rw [exponent?] at h
      split at h
      next hletter => exact .some hletter (Numeral.integer?_eq_some_iff.1 h)
      next => cases h
  · intro h
    cases h with
    | none => rfl
    | some hletter h => rw [exponent?, if_pos hletter, Numeral.integer?_eq_some_iff.2 h]

/-- The parts of a text without a point. -/
theorem ofChars?_whole {whole rest : List Char} (hdigits : ∀ c ∈ whole, c.isDigit = true)
    (hrest : StopsAt (fun c => c.isDigit || c = '.') rest) :
    ofChars? (whole ++ rest)
      = if whole = [] then none else (exponent? rest).map fun n => ⟨whole, [], n⟩ := by
  have hstop : StopsAt Char.isDigit rest := hrest.mono fun c hc => by simp [hc]
  have hpoint : ∀ more, rest ≠ '.' :: more := fun more => hrest.ne (by decide) more
  rw [ofChars?, takeWhile_run hdigits hstop, dropWhile_run hdigits hstop]
  split
  next hparts =>
    split at hparts
    next more => exact absurd rfl (hpoint more)
    next =>
      cases hparts
      by_cases hne : whole = []
      · rw [if_pos hne]
        simp [hne, guard]
      · rw [if_neg hne]
        cases exponent? rest <;> simp [hne, guard]

/-- The parts of a text with a point. -/
theorem ofChars?_pointed {whole fraction rest : List Char}
    (hwhole : ∀ c ∈ whole, c.isDigit = true) (hfraction : ∀ c ∈ fraction, c.isDigit = true)
    (hrest : StopsAt Char.isDigit rest) :
    ofChars? (whole ++ '.' :: (fraction ++ rest))
      = if whole ++ fraction = [] then none
        else (exponent? rest).map fun n => ⟨whole, fraction, n⟩ := by
  have hstop : StopsAt Char.isDigit ('.' :: (fraction ++ rest)) := stopsAt_cons.2 (by decide)
  simp only [ofChars?, takeWhile_run hwhole hstop, dropWhile_run hwhole hstop,
    takeWhile_run hfraction hrest, dropWhile_run hfraction hrest]
  by_cases hne : whole ++ fraction = []
  · rw [if_pos hne]
    obtain ⟨rfl, rfl⟩ := List.append_eq_nil_iff.1 hne
    simp [guard]
  · have hsome : whole ≠ [] ∨ fraction ≠ [] :=
      not_and_or.1 fun h => hne (List.append_eq_nil_iff.2 h)
    rw [if_neg hne]
    cases exponent? rest <;> simp [hsome, guard]

/-- A text that has parts spells the decimal of these parts. -/
theorem decimalText_of_ofChars? {parts : DecimalParts} (h : ofChars? cs = some parts) :
    DecimalText cs parts.digits parts.place := by
  have hwhole : ∀ c ∈ cs.takeWhile Char.isDigit, c.isDigit = true := fun c hc =>
    List.mem_takeWhile_imp hc
  have hstop := stopsAt_dropWhile Char.isDigit cs
  rw [← List.takeWhile_append_dropWhile (p := Char.isDigit) (l := cs)] at h ⊢
  generalize cs.takeWhile Char.isDigit = whole at h hwhole ⊢
  generalize cs.dropWhile Char.isDigit = rest at h hstop ⊢
  by_cases hpoint : ∃ more, rest = '.' :: more
  · obtain ⟨more, rfl⟩ := hpoint
    have hfraction : ∀ c ∈ more.takeWhile Char.isDigit, c.isDigit = true := fun c hc =>
      List.mem_takeWhile_imp hc
    have hend := stopsAt_dropWhile Char.isDigit more
    rw [← List.takeWhile_append_dropWhile (p := Char.isDigit) (l := more)] at h ⊢
    generalize more.takeWhile Char.isDigit = fraction at h hfraction ⊢
    generalize more.dropWhile Char.isDigit = exponent at h hend ⊢
    rw [ofChars?_pointed hwhole hfraction hend] at h
    split at h
    next => cases h
    next hne =>
      obtain ⟨n, hn, rfl⟩ := Option.map_eq_some_iff.1 h
      exact .pointed (List.forall_mem_append.2 ⟨hwhole, hfraction⟩) hne (exponent?_eq_some_iff.1 hn)
  · have hrest : StopsAt (fun c => c.isDigit || c = '.') rest := by
      cases rest with
      | nil => exact stopsAt_nil
      | cons c more =>
        have hc : c ≠ '.' := fun hc => hpoint ⟨more, by rw [hc]⟩
        simpa [stopsAt_cons, hc] using stopsAt_cons.1 hstop
    rw [ofChars?_whole hwhole hrest] at h
    split at h
    next => cases h
    next hne =>
      obtain ⟨n, hn, rfl⟩ := Option.map_eq_some_iff.1 h
      have hdecimal := DecimalText.whole hwhole hne (exponent?_eq_some_iff.1 hn)
      simpa [DecimalParts.digits, DecimalParts.place] using hdecimal

/-- A text that spells a decimal has its parts. -/
theorem exists_ofChars?_of_decimalText {digits : ℕ} {place : ℤ} (h : DecimalText cs digits place) :
    ∃ parts, ofChars? cs = some parts ∧ parts.digits = digits ∧ parts.place = place := by
  cases h with
  | @whole whole exponent _ hdigits hne hexponent =>
    refine ⟨⟨whole, [], place⟩, ?_, ?_, sub_zero place⟩
    · rw [ofChars?_whole hdigits hexponent.stops, if_neg hne, exponent?_eq_some_iff.2 hexponent,
        Option.map_some]
    · rw [DecimalParts.digits, List.append_nil]
  | @pointed whole fraction exponent n hdigits hne hexponent =>
    obtain ⟨hwhole, hfraction⟩ := List.forall_mem_append.1 hdigits
    refine ⟨⟨whole, fraction, n⟩, ?_, rfl, rfl⟩
    rw [ofChars?_pointed hwhole hfraction hexponent.stopsAt_isDigit, if_neg hne,
      exponent?_eq_some_iff.2 hexponent, Option.map_some]

end DecimalParts

/-! ### Numbers -/

/-- The texts of a number after its sign, if there is one. -/
inductive UnsignedText (negative : Bool) : List Char → Binary64 → Prop
  | undefined {cs : List Char} (hname : cs.map Char.toLower = "nan".toList) :
      UnsignedText negative cs .nan
  | infinite {cs : List Char}
      (hname : cs.map Char.toLower = "inf".toList ∨ cs.map Char.toLower = "infinity".toList) :
      UnsignedText negative cs (.infinite negative)
  | overflow {cs : List Char} {digits : ℕ} {place : ℤ} (h : DecimalText cs digits place)
      (hlarge : (2 : ℚ) ^ 1024 - 2 ^ 970 ≤ digits * 10 ^ place) :
      UnsignedText negative cs (.infinite negative)
  | decimal {cs : List Char} {digits : ℕ} {place : ℤ} {size : Magnitude .double}
      (h : DecimalText cs digits place) (hsize : Magnitude.ofDecimal? .double digits place = some size) :
      UnsignedText negative cs (.finite negative size)

/-- The texts of a number; a plus sign may be left out. -/
inductive FloatText : List Char → Binary64 → Prop
  | plain {cs : List Char} {x : Binary64} (h : UnsignedText false cs x) : FloatText cs x
  | plus {cs : List Char} {x : Binary64} (h : UnsignedText false cs x) : FloatText ('+' :: cs) x
  | minus {cs : List Char} {x : Binary64} (h : UnsignedText true cs x) : FloatText ('-' :: cs) x

namespace Binary64

theorem name_eq_iff (cs : List Char) (name : String) :
    String.ofList (cs.map Char.toLower) = name ↔ cs.map Char.toLower = name.toList := by
  rw [← String.toList_inj, String.toList_ofList]

/-- No decimal is a name. -/
theorem not_name_of_decimal {digits : ℕ} {place : ℤ} (h : DecimalText cs digits place) :
    cs.map Char.toLower ≠ "nan".toList ∧ cs.map Char.toLower ≠ "inf".toList
      ∧ cs.map Char.toLower ≠ "infinity".toList := by
  have hdigit : ∀ d < 10, (Nat.digitChar d).toLower ≠ 'n' ∧ (Nat.digitChar d).toLower ≠ 'i' := by decide
  obtain ⟨c, more, rfl, hc⟩ := h.head
  have hhead : c.toLower ≠ 'n' ∧ c.toLower ≠ 'i' := by
    rcases hc with rfl | ⟨d, hd, rfl⟩
    · decide
    · exact hdigit d hd
  refine ⟨fun h => ?_, fun h => ?_, fun h => ?_⟩
  · exact hhead.1 (List.cons.inj h).1
  · exact hhead.2 (List.cons.inj h).1
  · exact hhead.2 (List.cons.inj h).1

/-- A decimal is rounded to a magnitude or to an infinity. -/
theorem ofDecimal_eq_iff {negative : Bool} {digits : ℕ} {place : ℤ} {x : Binary64} :
    ofDecimal negative digits place = x
      ↔ (∃ size, Magnitude.ofDecimal? .double digits place = some size ∧ x = .finite negative size)
        ∨ (2 : ℚ) ^ 1024 - 2 ^ 970 ≤ digits * 10 ^ place ∧ x = .infinite negative := by
  rw [← Magnitude.overflow_double, ← Magnitude.ofDecimal?_eq_none_iff, ofDecimal]
  cases Magnitude.ofDecimal? .double digits place with
  | none => simp [ofMagnitude?, eq_comm]
  | some size => simp [ofMagnitude?, eq_comm]

theorem ofUnsigned?_eq_some_iff {negative : Bool} {x : Binary64} :
    ofUnsigned? (ofDecimal negative) negative cs = some x ↔ UnsignedText negative cs x := by
  rw [ofUnsigned?]
  simp only [name_eq_iff]
  constructor
  · intro h
    split_ifs at h with hinf hnan
    · cases h
      exact .infinite hinf
    · cases h
      exact .undefined hnan
    · obtain ⟨parts, hparts, hround⟩ := Option.map_eq_some_iff.1 h
      have hdecimal := DecimalParts.decimalText_of_ofChars? hparts
      rcases ofDecimal_eq_iff.1 hround with ⟨size, hsize, rfl⟩ | ⟨hlarge, rfl⟩
      · exact .decimal hdecimal hsize
      · exact .overflow hdecimal hlarge
  · intro h
    have hdecimal : ∀ {digits : ℕ} {place : ℤ}, DecimalText cs digits place →
        ofDecimal negative digits place = x →
        (if cs.map Char.toLower = "inf".toList ∨ cs.map Char.toLower = "infinity".toList then
          some (.infinite negative)
        else if cs.map Char.toLower = "nan".toList then some .nan
        else (DecimalParts.ofChars? cs).map fun parts => ofDecimal negative parts.digits parts.place)
          = some x := by
      intro digits place hdecimal hround
      obtain ⟨hnan, hinf, hinfinity⟩ := not_name_of_decimal hdecimal
      obtain ⟨parts, hparts, rfl, rfl⟩ := DecimalParts.exists_ofChars?_of_decimalText hdecimal
      rw [if_neg (not_or.2 ⟨hinf, hinfinity⟩), if_neg hnan, hparts, Option.map_some, hround]
    cases h with
    | undefined hname =>
      rw [hname]
      rfl
    | infinite hname => rw [if_pos hname]
    | overflow h hlarge => exact hdecimal h (ofDecimal_eq_iff.2 (Or.inr ⟨hlarge, rfl⟩))
    | decimal h hsize => exact hdecimal h (ofDecimal_eq_iff.2 (Or.inl ⟨_, hsize, rfl⟩))

/-- After the sign there is none. -/
theorem not_sign_of_unsigned {negative : Bool} {x : Binary64} (h : UnsignedText negative cs x)
    (more : List Char) : cs ≠ '-' :: more ∧ cs ≠ '+' :: more := by
  have hname : ∀ {name : List Char}, name.head? = some 'n' ∨ name.head? = some 'i' →
      cs.map Char.toLower = name → cs ≠ '-' :: more ∧ cs ≠ '+' :: more := by
    intro name hhead hname
    have hsign : ∀ sign, sign = '-' ∨ sign = '+' → cs ≠ sign :: more := by
      intro sign hsign heq
      have hlower : sign.toLower ≠ 'n' ∧ sign.toLower ≠ 'i' := by rcases hsign with rfl | rfl <;> decide
      rw [← hname, heq, List.map_cons, List.head?_cons, Option.some.injEq, Option.some.injEq] at hhead
      exact hhead.elim hlower.1 hlower.2
    exact ⟨hsign '-' (Or.inl rfl), hsign '+' (Or.inr rfl)⟩
  have hdecimal : ∀ {digits : ℕ} {place : ℤ}, DecimalText cs digits place →
      cs ≠ '-' :: more ∧ cs ≠ '+' :: more := by
    intro digits place hdecimal
    have hdigit : ∀ d < 10, Nat.digitChar d ≠ '-' ∧ Nat.digitChar d ≠ '+' := by decide
    obtain ⟨c, others, rfl, hc⟩ := hdecimal.head
    have hhead : c ≠ '-' ∧ c ≠ '+' := by
      rcases hc with rfl | ⟨d, hd, rfl⟩
      · decide
      · exact hdigit d hd
    exact ⟨fun h => hhead.1 (List.cons.inj h).1, fun h => hhead.2 (List.cons.inj h).1⟩
  cases h with
  | undefined h => exact hname (Or.inl rfl) h
  | infinite h => rcases h with h | h <;> exact hname (Or.inr rfl) h
  | overflow h => exact hdecimal h
  | decimal h => exact hdecimal h

/-- **A number is read iff the text spells it.** -/
theorem ofText?_eq_some_iff {text : String} {x : Binary64} :
    ofText? text = some x ↔ FloatText text.toList x := by
  rw [ofText?]
  generalize text.toList = cs
  constructor
  · intro h
    rw [ofSigned?.eq_def] at h
    split at h
    · exact .minus (ofUnsigned?_eq_some_iff.1 h)
    · exact .plus (ofUnsigned?_eq_some_iff.1 h)
    · exact .plain (ofUnsigned?_eq_some_iff.1 h)
  · intro h
    cases h with
    | minus h => exact ofUnsigned?_eq_some_iff.2 h
    | plus h => exact ofUnsigned?_eq_some_iff.2 h
    | plain h =>
      rw [ofSigned?]
      · exact ofUnsigned?_eq_some_iff.2 h
      · exact fun more => (not_sign_of_unsigned h more).1
      · exact fun more => (not_sign_of_unsigned h more).2

end Binary64

/-- A text spells one number at most. -/
theorem FloatText.unique {x y : Binary64} (hx : FloatText cs x) (hy : FloatText cs y) : x = y := by
  rw [← String.toList_ofList (l := cs), ← Binary64.ofText?_eq_some_iff] at hx hy
  exact Option.some.inj (hx.symm.trans hy)

end VectorQuery
