import Mathlib
import VectorQuery.Proofs.Outcome
import VectorQuery.Uuid

/-!
# Spellings of identifiers

An identifier is spelt by its thirty-two hexadecimal digits, each in either case: all of them in a
row, in five groups with hyphens between them, and the latter in braces or after the start of a URN.
What is read is what is spelt.

* `Uuid.Digit`, `Uuid.Hyphenated`, `Uuid.Spells` — the spellings;
* `Uuid.ofDigits?_eq_some_iff`, `Uuid.ofHyphenated?_eq_some_iff`, `Uuid.ofText?_eq_some_iff` — **a
  reader gives an identifier iff the text spells it**;
* `Uuid.hyphenated_spelt`, `Uuid.hyphenated_lower` — the form that is written.
-/

namespace VectorQuery

namespace Uuid

variable {id : Uuid} {cs : List Char}

/-! ### Digits -/

/-- A character that is a hexadecimal digit, in either case. -/
inductive Digit : Char → Fin 16 → Prop
  | lower (d : Fin 16) : Digit (Nat.digitChar d) d
  | upper (d : Fin 16) : Digit (Nat.digitChar d).toUpper d

theorem digit?_eq_some_iff {c : Char} {d : Fin 16} : digit? c = some d ↔ Digit c d := by
  constructor
  · intro h
    have hfound := List.find?_some h
    simp only [Bool.or_eq_true, decide_eq_true_eq] at hfound
    rcases hfound with rfl | rfl
    · exact .lower d
    · exact .upper d
  · intro h
    cases h with
    | lower => revert d; decide
    | upper => revert d; decide

theorem ofDigits?_eq_some_iff : ofDigits? cs = some id ↔ List.Forall₂ Digit cs id.digits := by
  have hread : cs.mapM digit? = some id.digits ↔ List.Forall₂ Digit cs id.digits := by
    simp only [Outcome.mapM_eq_some_iff, digit?_eq_some_iff]
  rw [← hread, ofDigits?]
  constructor
  · intro h
    split at h
    · rename_i digits hdigits
      split at h
      · cases h
        exact hdigits
      · cases h
    · cases h
  · intro h
    rw [h]
    exact dif_pos id.length_eq

theorem length_of_digits (h : List.Forall₂ Digit cs id.digits) : cs.length = 32 :=
  h.length_eq.trans id.length_eq

theorem chars_spelt (id : Uuid) : List.Forall₂ Digit id.chars id.digits :=
  List.forall₂_map_left_iff.2 (List.forall₂_same.2 fun d _ => .lower d)

/-! ### Groups -/

/-- The five groups of an identifier's digits, with hyphens between them. -/
inductive Hyphenated (id : Uuid) (cs : List Char) : Prop
  | groups {a b c d e : List Char} (ha : a.length = 8) (hb : b.length = 4) (hc : c.length = 4)
      (hd : d.length = 4) (hcs : cs = a ++ '-' :: (b ++ '-' :: (c ++ '-' :: (d ++ '-' :: e))))
      (h : List.Forall₂ Digit (a ++ b ++ c ++ d ++ e) id.digits) : Hyphenated id cs

theorem Hyphenated.length_eq (h : Hyphenated id cs) : cs.length = 36 := by
  obtain ⟨-, -, -, -, rfl, h⟩ := h
  have hdigits := length_of_digits h
  simp only [List.length_append, List.length_cons] at hdigits ⊢
  omega

/-- What stands before a character of a text, and what stands after it. -/
theorem cut_iff {n : ℕ} {c : Char} {before after : List Char} :
    before.length = n ∧ cs = before ++ c :: after
      ↔ cs[n]? = some c ∧ before = cs.take n ∧ after = cs.drop (n + 1) := by
  constructor
  · intro h
    obtain ⟨rfl, rfl⟩ := h
    simp [List.drop_append]
  · intro h
    obtain ⟨hc, rfl, rfl⟩ := h
    obtain ⟨hn, rfl⟩ := List.getElem?_eq_some_iff.1 hc
    exact ⟨List.length_take_of_le hn.le, by rw [List.getElem_cons_drop, List.take_append_drop]⟩

/-- The groups by their places. -/
theorem hyphenated_iff : Hyphenated id cs
    ↔ (cs[8]? = some '-' ∧ cs[13]? = some '-' ∧ cs[18]? = some '-' ∧ cs[23]? = some '-')
      ∧ List.Forall₂ Digit (cs.take 8 ++ (cs.drop 9).take 4 ++ (cs.drop 14).take 4
          ++ (cs.drop 19).take 4 ++ cs.drop 24) id.digits := by
  constructor
  · intro h
    obtain ⟨ha, hb, hc, hd, hcs, h⟩ := h
    obtain ⟨h₁, rfl, hcs₁⟩ := cut_iff.1 ⟨ha, hcs⟩
    obtain ⟨h₂, rfl, hcs₂⟩ := cut_iff.1 ⟨hb, hcs₁.symm⟩
    obtain ⟨h₃, rfl, hcs₃⟩ := cut_iff.1 ⟨hc, hcs₂.symm⟩
    obtain ⟨h₄, rfl, rfl⟩ := cut_iff.1 ⟨hd, hcs₃.symm⟩
    simp only [List.getElem?_drop, List.drop_drop] at h₂ h₃ h₄ h
    exact ⟨⟨h₁, h₂, h₃, h₄⟩, h⟩
  · intro h
    obtain ⟨⟨h₁, h₂, h₃, h₄⟩, h⟩ := h
    have hat : ∀ i j, (cs.drop i)[j]? = cs[i + j]? := fun _ _ => List.getElem?_drop
    obtain ⟨ha, hcs₁⟩ := cut_iff.2 ⟨h₁, rfl, rfl⟩
    obtain ⟨hb, hcs₂⟩ := cut_iff.2 ⟨(hat 9 4).trans h₂, rfl, rfl⟩
    obtain ⟨hc, hcs₃⟩ := cut_iff.2 ⟨(hat 14 4).trans h₃, rfl, rfl⟩
    obtain ⟨hd, hcs₄⟩ := cut_iff.2 ⟨(hat 19 4).trans h₄, rfl, rfl⟩
    rw [List.drop_drop] at hcs₂ hcs₃ hcs₄
    rw [hcs₄] at hcs₃
    rw [hcs₃] at hcs₂
    rw [hcs₂] at hcs₁
    exact .groups ha hb hc hd hcs₁ h

theorem ofHyphenated?_eq_some_iff : ofHyphenated? cs = some id ↔ Hyphenated id cs := by
  rw [ofHyphenated?]
  constructor
  · intro h
    split at h
    · rename_i hshape
      obtain ⟨-, hhyphens⟩ := hshape
      simp only [List.all_cons, List.all_nil, Bool.and_true, Bool.and_eq_true,
        decide_eq_true_eq] at hhyphens
      exact hyphenated_iff.2 ⟨hhyphens, ofDigits?_eq_some_iff.1 h⟩
    · cases h
  · intro h
    obtain ⟨⟨h₁, h₂, h₃, h₄⟩, hdigits⟩ := hyphenated_iff.1 h
    rw [if_pos ⟨h.length_eq, by simp [h₁, h₂, h₃, h₄]⟩]
    exact ofDigits?_eq_some_iff.2 hdigits

/-! ### Spellings -/

/-- The spellings of an identifier.  The start of a URN is in any case. -/
inductive Spells (id : Uuid) : List Char → Prop
  | plain {cs : List Char} (h : List.Forall₂ Digit cs id.digits) : Spells id cs
  | hyphenated {cs : List Char} (h : Hyphenated id cs) : Spells id cs
  | braced {cs : List Char} (h : Hyphenated id cs) : Spells id ('\x7b' :: (cs ++ ['\x7d']))
  | urn {start cs : List Char} (hstart : start.map Char.toLower = urnStart)
      (h : Hyphenated id cs) : Spells id (start ++ cs)

/-- A text from an opening to a closing brace. -/
theorem eq_braced (hlength : 2 ≤ cs.length) (hhead : cs.head? = some '\x7b')
    (hlast : cs.getLast? = some '\x7d') : cs = '\x7b' :: ((cs.drop 1).dropLast ++ ['\x7d']) := by
  obtain ⟨more, rfl⟩ := List.head?_eq_some_iff.1 hhead
  have hmore : more ≠ [] := by
    intro hnil
    rw [hnil] at hlength
    exact absurd hlength (by decide)
  rw [List.getLast?_cons_of_ne_nil hmore] at hlast
  exact congrArg _ (List.dropLast_append_getLast? _ hlast).symm

/-- **What is read from a text is what it spells.**  The four forms have lengths of their own. -/
theorem ofText?_eq_some_iff {text : String} : ofText? text = some id ↔ Spells id text.toList := by
  rw [ofText?]
  generalize text.toList = cs
  constructor
  · intro h
    split at h
    · exact .plain (ofDigits?_eq_some_iff.1 h)
    split at h
    · split at h
      · rename_i hlength hbraces
        rw [eq_braced (by omega) hbraces.1 hbraces.2]
        exact .braced (ofHyphenated?_eq_some_iff.1 h)
      · cases h
    split at h
    · split at h
      · rename_i hstart
        rw [← List.take_append_drop 9 cs]
        exact .urn hstart (ofHyphenated?_eq_some_iff.1 h)
      · cases h
    · exact .hyphenated (ofHyphenated?_eq_some_iff.1 h)
  · intro h
    cases h with
    | plain h => exact (if_pos (length_of_digits h)).trans (ofDigits?_eq_some_iff.2 h)
    | hyphenated h =>
      have hlength := h.length_eq
      rw [if_neg (by omega), if_neg (by omega), if_neg (by omega)]
      exact ofHyphenated?_eq_some_iff.2 h
    | @braced cs h =>
      have hlength : ('\x7b' :: (cs ++ ['\x7d'])).length = 38 := by
        rw [List.length_cons, List.length_append, h.length_eq, List.length_singleton]
      have hlast : ('\x7b' :: (cs ++ ['\x7d'])).getLast? = some '\x7d' := by
        rw [← List.cons_append, List.getLast?_concat]
      rw [if_neg (by omega), if_pos hlength, if_pos ⟨rfl, hlast⟩, List.drop_one, List.tail_cons,
        List.dropLast_concat]
      exact ofHyphenated?_eq_some_iff.2 h
    | @urn start cs hstart h =>
      have hnine : start.length = 9 := by
        rw [← List.length_map, hstart]
        rfl
      have hlength : (start ++ cs).length = 45 := by
        rw [List.length_append, h.length_eq, hnine]
      rw [if_neg (by omega), if_neg (by omega), if_pos hlength, List.take_left' hnine,
        if_pos hstart, List.drop_left' hnine]
      exact ofHyphenated?_eq_some_iff.2 h

/-! ### The written form -/

/-- The written form is a spelling in groups. -/
theorem hyphenated_spelt (id : Uuid) : Hyphenated id id.hyphenated.toList := by
  have hspelt := id.chars_spelt
  have hlength : id.chars.length = 32 := length_of_digits hspelt
  rw [Uuid.hyphenated, String.toList_ofList]
  have hfirst : (id.chars.take 8).length = 8 := List.length_take_of_le (by omega)
  have hgroup : ∀ n, n + 4 ≤ 32 → ((id.chars.drop n).take 4).length = 4 := by
    intro n hn
    refine List.length_take_of_le ?_
    rw [List.length_drop]
    omega
  have hall : id.chars.take 8 ++ (id.chars.drop 8).take 4 ++ (id.chars.drop 12).take 4
      ++ (id.chars.drop 16).take 4 ++ id.chars.drop 20 = id.chars := by
    rw [← List.take_add, ← List.take_add, ← List.take_add, List.take_append_drop]
  rw [← hall] at hspelt
  refine .groups hfirst (hgroup 8 (by decide)) (hgroup 12 (by decide)) (hgroup 16 (by decide)) ?_
    hspelt
  simp only [List.append_assoc, List.cons_append]

theorem ofHyphenated?_hyphenated (id : Uuid) : ofHyphenated? id.hyphenated.toList = some id :=
  ofHyphenated?_eq_some_iff.2 id.hyphenated_spelt

/-- What holds of hyphens and lower-case digits holds of all characters of the written form. -/
theorem forall_mem_hyphenated {p : Char → Prop} (hhyphen : p '-')
    (hdigits : ∀ d : Fin 16, p (Nat.digitChar d)) (id : Uuid) : ∀ c ∈ id.hyphenated.toList, p c := by
  have hchars : ∀ c ∈ id.chars, p c := by
    intro c hc
    obtain ⟨d, -, rfl⟩ := List.mem_map.1 hc
    exact hdigits d
  have hgroup : ∀ n, ∀ c ∈ (id.chars.drop n).take 4, p c := fun _ c hc =>
    hchars c (List.mem_of_mem_drop (List.mem_of_mem_take hc))
  rw [Uuid.hyphenated, String.toList_ofList]
  simp only [List.forall_mem_append, List.forall_mem_cons]
  exact ⟨⟨⟨⟨fun c hc => hchars c (List.mem_of_mem_take hc), hhyphen, hgroup 8⟩, hhyphen, hgroup 12⟩,
    hhyphen, hgroup 16⟩, hhyphen, fun c hc => hchars c (List.mem_of_mem_drop hc)⟩

/-- No letter of the written form is in upper case. -/
theorem hyphenated_lower : ∀ id : Uuid, ∀ c ∈ id.hyphenated.toList, c.isUpper = false :=
  forall_mem_hyphenated (by decide) (by decide)

end Uuid

end VectorQuery
