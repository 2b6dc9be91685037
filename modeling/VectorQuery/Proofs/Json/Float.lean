import Mathlib
import VectorQuery.Proofs.Binary64.Decimal
import VectorQuery.Proofs.Json.Number
import VectorQuery.Proofs.Text.Numeral

/-!
# Written floats are read back

A float is written as its shortest decimal in one of two layouts: with all places around a point, or
with one digit before the point and an exponent.  Both carry a mark, a point or an exponent, that
keeps the reader from taking the float for an integer, and both stand for the same rational number
as the decimal.

* `positional_pointed`, `readUnsigned_pointed` — the layout with all places;
* `readUnsigned_scientific` — the layout with an exponent;
* `readNumber_wireFloat` — **a finite float of the query grammar reads back**, with the sign of a
  zero.
-/

namespace VectorQuery.Json

open Text Wire

/-! ### The value of the parts -/

/-- The rational number that the parts of a decimal stand for. -/
def partsValue (parts : DecimalParts) : ℚ := parts.digits * (10 : ℚ) ^ parts.place

/-- A decimal that a magnitude is read from gives the float of that magnitude. -/
theorem float?_of_reads {negative : Bool} {parts : DecimalParts} {d : Decimal}
    {size : Magnitude .double}
    (hvalue : partsValue parts = d.value) (hreads : d.reads size = true) :
    float? negative parts = some (.float (.finite negative size)) := by
  have hread : Magnitude.ofDecimal? .double parts.digits parts.place = some size := by
    rw [Magnitude.ofDecimal?_congr hvalue]
    exact eq_of_beq hreads
  have hdecimal : Binary64.ofDecimal negative parts.digits parts.place = .finite negative size := by
    rw [Binary64.ofDecimal, hread]
    rfl
  simp only [float?, hdecimal, Binary64.isFinite, if_true]

/-! ### All places -/

/-- Digits around a point that stand for a decimal. -/
structure Pointed (d : Decimal) (whole fraction : List Char) : Prop where
  fraction_ne : fraction ≠ []
  whole_digits : ∀ c ∈ whole, c.isDigit = true
  fraction_digits : ∀ c ∈ fraction, c.isDigit = true
  isWhole : isWhole whole = true
  value : partsValue ⟨whole, fraction, 0⟩ = d.value

/-- A decimal below one: zeros stand between the point and its digits. -/
theorem pointed_below (d : Decimal) (h : (Nat.toDigits 10 d.digits).length + d.exponent ≤ 0) :
    Pointed d ['0'] (List.replicate (-((Nat.toDigits 10 d.digits).length + d.exponent)).toNat '0'
      ++ Nat.toDigits 10 d.digits) where
  fraction_ne := List.append_ne_nil_of_right_ne_nil _ Nat.toDigits_ne_nil
  whole_digits := by simp
  fraction_digits := by
    intro c hc
    rcases List.mem_append.1 hc with hc | hc
    · exact isDigit_of_mem_zeros hc
    · exact isDigit_of_mem_toDigits hc
  isWhole := rfl
  value := by
    have hdigits : ∀ k,
        Nat.ofDigitChars 10 (['0'] ++ (List.replicate k '0' ++ Nat.toDigits 10 d.digits)) 0
        = d.digits := by
      intro k
      rw [show ['0'] = List.replicate 1 '0' from rfl, zeros_ofDigitChars, zeros_ofDigitChars,
        Nat.ofDigitChars_ten_toDigits]
    simp only [partsValue, Decimal.value, DecimalParts.digits, DecimalParts.place, hdigits,
      List.length_append, List.length_replicate]
    congr 2
    omega

/-- A whole decimal: zeros stand between its digits and the point, and one more after the point. -/
theorem pointed_whole (d : Decimal) (hzero : d.digits = 0 → d.exponent = 0) (h : 0 ≤ d.exponent) :
    Pointed d (Nat.toDigits 10 d.digits ++ List.replicate d.exponent.toNat '0') ['0'] where
  fraction_ne := by simp
  whole_digits := by
    intro c hc
    rcases List.mem_append.1 hc with hc | hc
    · exact isDigit_of_mem_toDigits hc
    · exact isDigit_of_mem_zeros hc
  fraction_digits := by simp
  isWhole := by
    rcases Nat.eq_zero_or_pos d.digits with hd | hd
    · rw [hzero hd, hd, Nat.toDigits_zero]; rfl
    · refine isWhole_of_head (List.append_ne_nil_of_left_ne_nil Nat.toDigits_ne_nil _) ?_
      rw [List.head?_append_of_ne_nil _ Nat.toDigits_ne_nil]
      exact toDigits_head_ne_zero hd
  value := by
    obtain ⟨k, hk⟩ := Int.eq_ofNat_of_zero_le h
    have hdigits : Nat.ofDigitChars 10 ((Nat.toDigits 10 d.digits ++ List.replicate k '0') ++ ['0']) 0
        = 10 ^ (k + 1) * d.digits := by
      rw [List.append_assoc, ← List.replicate_succ', ofDigitChars_zeros,
        Nat.ofDigitChars_ten_toDigits]
    simp only [partsValue, Decimal.value, DecimalParts.digits, DecimalParts.place, hk,
      Int.toNat_natCast, hdigits, List.length_singleton]
    push_cast
    rw [zpow_neg_one, zpow_natCast, pow_succ]
    field_simp

/-- A decimal with the point among its digits. -/
theorem pointed_among (d : Decimal) {p : ℕ} (hpos : 0 < p)
    (hp : (p : ℤ) = (Nat.toDigits 10 d.digits).length + d.exponent) (h : d.exponent < 0) :
    Pointed d ((Nat.toDigits 10 d.digits).take p) ((Nat.toDigits 10 d.digits).drop p) where
  fraction_ne := by
    rw [Ne, List.drop_eq_nil_iff]
    omega
  whole_digits := fun _ hc => isDigit_of_mem_toDigits (List.mem_of_mem_take hc)
  fraction_digits := fun _ hc => isDigit_of_mem_toDigits (List.mem_of_mem_drop hc)
  isWhole := by
    -- two digits or more, so the number is positive
    have hd : 0 < d.digits := by
      rcases Nat.eq_zero_or_pos d.digits with hd | hd
      · rw [hd, Nat.toDigits_zero, List.length_singleton] at hp; omega
      · exact hd
    have hhead : ((Nat.toDigits 10 d.digits).take p).head? = (Nat.toDigits 10 d.digits).head? := by
      rw [List.head?_take, if_neg hpos.ne']
    refine isWhole_of_head ?_ (hhead ▸ toDigits_head_ne_zero hd)
    rw [Ne, List.take_eq_nil_iff]
    rintro (hp0 | hnil)
    · omega
    · exact Nat.toDigits_ne_nil hnil
  value := by
    simp only [partsValue, Decimal.value, DecimalParts.digits, DecimalParts.place, List.take_append_drop,
      Nat.ofDigitChars_ten_toDigits, List.length_drop]
    congr 2
    omega

/-- With all places written, a decimal is a pair of digit runs around a point. -/
theorem positional_pointed (d : Decimal) (hzero : d.digits = 0 → d.exponent = 0) :
    ∃ whole fraction,
      (Layout.positional true d).toList = whole ++ '.' :: fraction ∧ Pointed d whole fraction := by
  have hlen : 0 < (Nat.toDigits 10 d.digits).length := Nat.length_toDigits_pos
  rcases le_or_gt ((Nat.toDigits 10 d.digits).length + d.exponent : ℤ) 0 with hpoint | hpoint
  · have hbelow := pointed_below d hpoint
    refine ⟨_, _, ?_, hbelow⟩
    simp only [Layout.positional, if_pos hpoint, String.toList_ofList]
    rw [if_pos (by simp)]
  · obtain ⟨p, hp⟩ := Int.eq_ofNat_of_zero_le hpoint.le
    have hpt : ((Nat.toDigits 10 d.digits).length + d.exponent : ℤ).toNat = p := by omega
    rcases le_or_gt 0 d.exponent with hexp | hexp
    · refine ⟨_, _, ?_, pointed_whole d hzero hexp⟩
      have htake : (Nat.toDigits 10 d.digits).take p = Nat.toDigits 10 d.digits :=
        List.take_of_length_le (by omega)
      have hdrop : (Nat.toDigits 10 d.digits).drop p = [] := List.drop_eq_nil_of_le (by omega)
      simp only [Layout.positional, if_neg (not_le.2 hpoint), String.toList_ofList, hpt, htake,
        hdrop]
      rfl
    · have hamong := pointed_among d (p := p) (by omega) hp.symm hexp
      refine ⟨_, _, ?_, hamong⟩
      have hzeros : d.exponent.toNat = 0 := by omega
      simp only [Layout.positional, if_neg (not_le.2 hpoint), String.toList_ofList, hpt, hzeros,
        List.replicate_zero, List.append_nil]
      rw [if_pos (by simp [hamong.fraction_ne])]

theorem readUnsigned_pointed (negative : Bool) {d : Decimal} {whole fraction rest : List Char}
    (h : Pointed d whole fraction) {size : Magnitude .double} (hreads : d.reads size = true)
    (hrest : StopsAt continuesNumber rest) :
    readUnsigned negative (whole ++ '.' :: fraction ++ rest)
      = some (.float (.finite negative size), rest) := by
  have hpoint : StopsAt Char.isDigit ('.' :: (fraction ++ rest)) := stopsAt_cons.2 (by decide)
  rw [List.append_assoc, List.cons_append, readUnsigned_eq negative h.whole_digits h.isWhole hpoint
    (readFraction_point h.fraction_ne h.fraction_digits (stopsAt_isDigit hrest))
    (readExponent_stop hrest)]
  have hne : fraction.isEmpty = false := by simpa using h.fraction_ne
  simp only [hne, Bool.false_and, Bool.false_eq_true, if_false, Option.getD_none,
    float?_of_reads h.value hreads, Option.map_some]

/-! ### An exponent -/

theorem isWhole_singleton (c : Char) : isWhole [c] = true := by
  by_cases hc : c = '0'
  · rw [hc]; rfl
  · exact isWhole_of_head (by simp) (by simpa using hc)

/-- The text of a decimal before an exponent. -/
theorem scientific_toList (d : Decimal) :
    (Layout.scientific false d).toList
      = (Nat.toDigits 10 d.digits).take 1
        ++ ((if (Nat.toDigits 10 d.digits).length ≤ 1 then []
          else '.' :: (Nat.toDigits 10 d.digits).drop 1)
        ++ 'e' :: (Numeral.ofInt ((Nat.toDigits 10 d.digits).length + d.exponent - 1)).toList) := by
  simp [Layout.scientific]

/-- A decimal before an exponent is read as a float. -/
theorem readUnsigned_scientific (negative : Bool) {d : Decimal} {size : Magnitude .double}
    (hreads : d.reads size = true) {rest : List Char} (hrest : StopsAt continuesNumber rest) :
    readUnsigned negative ((Layout.scientific false d).toList ++ rest)
      = some (.float (.finite negative size), rest) := by
  obtain ⟨c, cs, hcs, hc⟩ := toDigits_eq_cons d.digits
  have hlen : (Nat.toDigits 10 d.digits).length = cs.length + 1 := by rw [hcs]; rfl
  have hdigits : ∀ c' ∈ cs, c'.isDigit = true := fun c' hc' =>
    isDigit_of_mem_toDigits (n := d.digits) (by rw [hcs]; exact List.mem_cons_of_mem _ hc')
  have he : ∀ ds, StopsAt Char.isDigit ('e' :: ds) := fun ds => stopsAt_cons.2 (by decide)
  set exponent : ℤ := (Nat.toDigits 10 d.digits).length + d.exponent - 1 with hexp
  set tail : List Char := 'e' :: ((Numeral.ofInt exponent).toList ++ rest) with htail
  -- a point is written only where digits follow the first one
  have hshape : (Layout.scientific false d).toList ++ rest
      = [c] ++ ((if cs = [] then [] else '.' :: cs) ++ tail) := by
    rw [scientific_toList, ← hexp, hlen, hcs]
    cases cs <;> simp [htail]
  have hstop : StopsAt Char.isDigit ((if cs = [] then [] else '.' :: cs) ++ tail) := by
    split
    · exact he _
    · exact stopsAt_cons.2 (by decide)
  have hfraction : readFraction ((if cs = [] then [] else '.' :: cs) ++ tail) = some (cs, tail) := by
    split
    · rename_i hnil; rw [hnil]; rfl
    · rename_i hne; exact readFraction_point hne hdigits (he _)
  have hvalue : partsValue ⟨[c], cs, exponent⟩ = d.value := by
    simp only [partsValue, Decimal.value, DecimalParts.digits, DecimalParts.place,
      List.singleton_append, ← hcs, Nat.ofDigitChars_ten_toDigits]
    rw [show exponent - (cs.length : ℤ) = d.exponent by omega]
  rw [hshape, readUnsigned_eq negative (by simpa using hc) (isWhole_singleton c) hstop hfraction
    (readExponent_ofInt exponent (stopsAt_isDigit hrest))]
  simp only [Option.isNone_some, Bool.and_false, Bool.false_eq_true, if_false, Option.getD_some,
    float?_of_reads hvalue hreads, Option.map_some]

/-! ### Both layouts -/

theorem shortest_exponent {tie : Tie} {size : Magnitude .double}
    (h : (Decimal.shortest tie size).digits = 0) :
    (Decimal.shortest tie size).exponent = 0 := by
  rw [Decimal.shortest_eq_zero h]

/-- Floats of the query grammar are laid out in one of two ways. -/
theorem wireFloat_decimal (d : Decimal) :
    wireFloat.decimal d = Layout.positional true d
      ∨ wireFloat.decimal d = Layout.scientific false d := by
  simp only [Layout.decimal]
  exact ite_eq_or_eq _ _ _

theorem readUnsigned_shortest (negative : Bool) (size : Magnitude .double) {rest : List Char}
    (hrest : StopsAt continuesNumber rest) :
    readUnsigned negative ((wireFloat.decimal (Decimal.shortest .up size)).toList ++ rest)
      = some (.float (.finite negative size), rest) := by
  have hreads := Decimal.reads_shortest .up size
  rcases wireFloat_decimal (Decimal.shortest .up size) with hlayout | hlayout
  · obtain ⟨whole, fraction, htext, hpointed⟩ := positional_pointed _ shortest_exponent
    rw [hlayout, htext]
    exact readUnsigned_pointed negative hpointed hreads hrest
  · rw [hlayout]
    exact readUnsigned_scientific negative hreads hrest

/-! ### The characters of a float -/

theorem Pointed.unsigned {d : Decimal} {whole fraction : List Char} (h : Pointed d whole fraction) :
    Unsigned (whole ++ '.' :: fraction) where
  head := by
    cases hw : whole with
    | nil => have := h.isWhole; rw [hw] at this; cases this
    | cons c cs => exact ⟨c, _, rfl, h.whole_digits c (hw ▸ List.mem_cons_self)⟩
  continues := by
    intro c hc
    rcases List.mem_append.1 hc with hc | hc
    · exact continuesNumber_of_isDigit (h.whole_digits c hc)
    · rcases List.mem_cons.1 hc with rfl | hc
      · decide
      · exact continuesNumber_of_isDigit (h.fraction_digits c hc)

theorem unsigned_scientific (d : Decimal) : Unsigned (Layout.scientific false d).toList where
  head := by
    obtain ⟨c, cs, hcs, hc⟩ := toDigits_eq_cons d.digits
    rw [scientific_toList, hcs]
    exact ⟨c, _, rfl, hc⟩
  continues := by
    intro c hc
    rw [scientific_toList] at hc
    rcases List.mem_append.1 hc with hc | hc
    · exact (unsigned_toDigits _).continues c (List.mem_of_mem_take hc)
    rcases List.mem_append.1 hc with hc | hc
    · split at hc
      · cases hc
      · rcases List.mem_cons.1 hc with rfl | hc
        · decide
        · exact (unsigned_toDigits _).continues c (List.mem_of_mem_drop hc)
    · rcases List.mem_cons.1 hc with rfl | hc
      · decide
      · exact (signed_ofInt _).continues c hc

theorem unsigned_shortest (size : Magnitude .double) :
    Unsigned (wireFloat.decimal (Decimal.shortest .up size)).toList := by
  rcases wireFloat_decimal (Decimal.shortest .up size) with hlayout | hlayout
  · obtain ⟨whole, fraction, htext, hpointed⟩ := positional_pointed _ (@shortest_exponent .up size)
    rw [hlayout, htext]
    exact hpointed.unsigned
  · rw [hlayout]
    exact unsigned_scientific _

/-- The text of a finite float, by its sign. -/
theorem wireFloat_finite (negative : Bool) (size : Magnitude .double) :
    (wireFloat.write (.finite negative size)).toList
      = (if negative then ['-'] else []) ++ (wireFloat.decimal (Decimal.shortest .up size)).toList := by
  cases negative <;> simp [Layout.write, wireFloat]

theorem signed_wireFloat {x : Binary64} (hx : x.isFinite = true) :
    Signed (wireFloat.write x).toList := by
  cases x with
  | nan => cases hx
  | infinite negative => cases hx
  | finite negative size =>
    rw [wireFloat_finite]
    exact (unsigned_shortest size).signed negative

/-- **A finite float of the query grammar reads back.** -/
theorem readNumber_wireFloat {x : Binary64} (hx : x.isFinite = true) {rest : List Char}
    (hrest : StopsAt continuesNumber rest) :
    readNumber ((wireFloat.write x).toList ++ rest) = some (.float x, rest) := by
  cases x with
  | nan => cases hx
  | infinite negative => cases hx
  | finite negative size =>
    have hread := readUnsigned_shortest negative size hrest
    rw [wireFloat_finite]
    cases negative with
    | true =>
      simp only [if_true, List.cons_append]
      exact hread
    | false =>
      obtain ⟨c, cs, hcs, hc⟩ := (unsigned_shortest size).head
      simp only [Bool.false_eq_true, if_false, List.nil_append]
      rw [hcs, List.cons_append] at hread ⊢
      rw [readNumber_digit hc, hread]

end VectorQuery.Json
