import Mathlib
import VectorQuery.Proofs.Wire.Phrase

/-!
# Wire text is delimited

Each part of a wire text is told from what follows it: two texts that begin with such a part and
are equal begin with the same part and go on in the same way.  Quoted strings and lists end by
themselves, whatever they quote; words and numbers end where nothing goes on with them.

* `quote_append_inj` — a quoted string ends at its closing quote;
* `moreItems_append_inj` — items that are delimited themselves end before a closing character;
* `quotes_append_inj` — a list of quoted strings ends at its closing bracket;
* `word_append_inj`, `integer_append_inj`, `float_append_inj` — bare words and numbers end where
  nothing goes on with them.
-/

namespace VectorQuery.Wire

open Text Json

variable {s t : List Char}

/-! ### Quoted strings -/

/-- A quoted string is told from what follows it. -/
theorem quote_append_inj {a b : String} (h : (quote a).toList ++ s = (quote b).toList ++ t) :
    a = b ∧ s = t := by
  simp only [quote_toList, List.cons_append, List.append_assoc, List.nil_append,
    List.cons.injEq, true_and] at h
  have hread := Phrase.readText_encode a s
  rw [h, Phrase.readText_encode, Option.some.injEq, Prod.mk.injEq] at hread
  exact ⟨hread.1.symm, hread.2.symm⟩

/-! ### Items behind commas -/

section Items

variable {α : Type} (text : α → List Char)

/-- Items after the first one, each behind a comma. -/
def moreItems (items : List α) : List Char := items.flatMap fun item => ',' :: ' ' :: text item

theorem intercalate_cons_eq (first : α) (more : List α) :
    List.intercalate [',', ' '] ((first :: more).map text) = text first ++ moreItems text more := by
  induction more generalizing first with
  | nil => simp [moreItems]
  | cons second more ih =>
    have hrest := ih second
    rw [List.map_cons] at hrest
    rw [List.map_cons, List.map_cons, List.intercalate_cons_cons, hrest]
    simp [moreItems]

variable {text}

/-- Items that are told from what follows them, and then a character that is no comma. -/
theorem moreItems_append_inj {closing : Char} (hclosing : closing ≠ ',')
    (htext : ∀ {a b : α} {s t : List Char}, text a ++ s = text b ++ t → a = b ∧ s = t)
    {xs ys : List α} (h : moreItems text xs ++ closing :: s = moreItems text ys ++ closing :: t) :
    xs = ys ∧ s = t := by
  induction xs generalizing ys with
  | nil =>
    cases ys with
    | nil => exact ⟨rfl, (List.cons.inj h).2⟩
    | cons y ys => exact absurd (List.cons.inj h).1 hclosing
  | cons x xs ih =>
    cases ys with
    | nil => exact absurd (List.cons.inj h).1 hclosing.symm
    | cons y ys =>
      simp only [moreItems, List.flatMap_cons, List.cons_append, List.append_assoc,
        List.cons.injEq, true_and] at h
      obtain ⟨hxy, hrest⟩ := htext h
      obtain ⟨hmore, hst⟩ := ih hrest
      exact ⟨by rw [hxy, hmore], hst⟩

end Items

/-! ### Lists of quoted strings -/

theorem list_toList (items : List String) :
    (list items).toList = '[' :: (List.intercalate [',', ' '] (items.map String.toList) ++ [']']) := by
  simp [list]

/-- The items of a list after the first one, each behind a comma. -/
def moreQuotes (texts : List String) : List Char :=
  texts.flatMap fun text => ',' :: ' ' :: (quote text).toList

theorem quotes_cons (first : String) (more : List String) :
    (list ((first :: more).map quote)).toList
      = '[' :: ((quote first).toList ++ (moreQuotes more ++ [']'])) := by
  have hitems := intercalate_cons_eq (fun text => (quote text).toList) first more
  rw [list_toList, List.map_map]
  show '[' :: (List.intercalate [',', ' '] ((first :: more).map fun text => (quote text).toList)
    ++ [']']) = _
  rw [hitems, List.append_assoc]
  rfl

theorem moreQuotes_append_inj {xs ys : List String}
    (h : moreQuotes xs ++ ']' :: s = moreQuotes ys ++ ']' :: t) : xs = ys ∧ s = t :=
  moreItems_append_inj (by decide) quote_append_inj h

/-- A list of quoted strings is told from what follows it. -/
theorem quotes_append_inj {xs ys : List String}
    (h : (list (xs.map quote)).toList ++ s = (list (ys.map quote)).toList ++ t) :
    xs = ys ∧ s = t := by
  -- an empty list closes where the other one opens a quoted string
  have hempty : ∀ (y : String) (ys : List String) (u v : List Char),
      (list (([] : List String).map quote)).toList ++ u ≠ (list ((y :: ys).map quote)).toList ++ v := by
    intro y ys u v heq
    rw [quotes_cons, quote_toList] at heq
    exact absurd (List.cons.inj (List.cons.inj heq).2).1 (by decide)
  cases xs with
  | nil =>
    cases ys with
    | nil => exact ⟨rfl, List.append_cancel_left h⟩
    | cons y ys => exact absurd h (hempty y ys s t)
  | cons x xs =>
    cases ys with
    | nil => exact absurd h.symm (hempty x xs t s)
    | cons y ys =>
      simp only [quotes_cons, List.cons_append, List.append_assoc, List.nil_append,
        List.cons.injEq, true_and] at h
      obtain ⟨hxy, hrest⟩ := quote_append_inj h
      obtain ⟨hmore, hst⟩ := moreQuotes_append_inj hrest
      exact ⟨by rw [hxy, hmore], hst⟩

/-! ### Bare words -/

/-- A bare word is told from what follows it. -/
theorem word_append_inj {a b : String} (ha : isBareWord a.toList = true)
    (hb : isBareWord b.toList = true) (hs : StopsAt continuesWord s) (ht : StopsAt continuesWord t)
    (h : a.toList ++ s = b.toList ++ t) :
    a = b ∧ s = t := by
  obtain ⟨hword, hrest⟩ := run_append_inj (continuesWord_of_isBareWord ha)
    (continuesWord_of_isBareWord hb) hs ht h
  exact ⟨String.toList_inj.1 hword, hrest⟩

/-! ### Numbers -/

/-- An integer of 64 bits is told from what follows it. -/
theorem integer_append_inj {a b : Int64} (hs : StopsAt continuesNumber s)
    (ht : StopsAt continuesNumber t)
    (h : (Numeral.ofInt a.toInt).toList ++ s = (Numeral.ofInt b.toInt).toList ++ t) :
    a = b ∧ s = t := by
  have hread := readNumber_ofInt a hs
  rw [h, readNumber_ofInt b ht, Option.some.injEq, Prod.mk.injEq, Json.int.injEq] at hread
  exact ⟨(Int64.toInt_inj.1 hread.1).symm, hread.2.symm⟩

/-- A finite float is told from what follows it, bit for bit. -/
theorem float_append_inj {a b : Binary64} (ha : a.isFinite = true) (hb : b.isFinite = true)
    (hs : StopsAt continuesNumber s) (ht : StopsAt continuesNumber t)
    (h : (wireFloat.write a).toList ++ s = (wireFloat.write b).toList ++ t) :
    a = b ∧ s = t := by
  have hread := readNumber_wireFloat ha hs
  rw [h, readNumber_wireFloat hb ht, Option.some.injEq, Prod.mk.injEq, Json.float.injEq] at hread
  exact ⟨hread.1.symm, hread.2.symm⟩

end VectorQuery.Wire
