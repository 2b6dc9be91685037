import Mathlib
import VectorQuery.Proofs.Text.Run
import VectorQuery.Text.Blank

/-!
# A text as words and gaps

A text that has a word is a gap, that word, and a text that is empty or goes on with a blank.  With
this every fact about the words of a text is an induction on the text, one word at a time.

* `whiteSpace`, `isBlank_iff` — the blanks, one by one;
* `exists_word` — **a text is blank, or begins with a gap and a word**;
* `splitWhen_intercalate`, `intercalate_splitWhen` — the pieces of texts that are joined, and pieces
  that are joined again;
* `words_gap_word` — the words of a gap, a word and more;
* `Parted`, `words_eq_iff` — a text with its words, and that these are the ones that are found;
* `words_append` — the words on both sides of a cut at a blank;
* `words_eq_nil_iff`, `trim_isEmpty_iff` — a text without words is blank;
* `Trimmed`, `trim_eq_iff` — a text without its outer blanks, and that this is what is found.
-/

namespace VectorQuery.Text

/-! ### Blanks -/

/-- The characters with the property `White_Space`. -/
def whiteSpace : List Char :=
  ['\t', '\n', '\x0b', '\x0c', '\r', ' ', '\u0085', '\u00a0', '\u1680', '\u2000', '\u2001',
    '\u2002', '\u2003', '\u2004', '\u2005', '\u2006', '\u2007', '\u2008', '\u2009', '\u200a',
    '\u2028', '\u2029', '\u202f', '\u205f', '\u3000']

/-- **The blanks are the characters of the list**: the table of ranges has no others. -/
theorem isBlank_iff {c : Char} : isBlank c = true ↔ c ∈ whiteSpace := by
  constructor
  · intro h
    have hcode : c.toNat ∈ whiteSpace.map Char.toNat := by
      simp only [isBlank, blankRanges, List.any_cons, List.any_nil, Bool.or_false, Bool.or_eq_true,
        Bool.and_eq_true, decide_eq_true_eq] at h
      simp only [whiteSpace, List.map_cons, List.map_nil, List.mem_cons, List.not_mem_nil, or_false,
        Char.reduceToNat]
      omega
    obtain ⟨d, hd, hsame⟩ := List.mem_map.1 hcode
    exact Char.toNat_inj.1 hsame ▸ hd
  · have hall : whiteSpace.all isBlank = true := by decide
    exact List.all_eq_true.1 hall c

theorem isBlank_eq_false_iff {c : Char} : isBlank c = false ↔ c ∉ whiteSpace := by
  rw [← isBlank_iff, Bool.not_eq_true]

/-- A text of blanks. -/
def Gap (cs : List Char) : Prop := ∀ c ∈ cs, c ∈ whiteSpace

theorem gap_iff {cs : List Char} : Gap cs ↔ ∀ c ∈ cs, isBlank c = true := by
  simp only [Gap, isBlank_iff]

/-- A nonempty text without blanks. -/
structure Word (w : List Char) : Prop where
  ne_nil : w ≠ []
  solid : ∀ c ∈ w, c ∉ whiteSpace

/-- No character of a word passes the test for blanks. -/
theorem Word.isBlank {w : List Char} (h : Word w) : ∀ c ∈ w, isBlank c = false :=
  fun c hc => isBlank_eq_false_iff.2 (h.solid c hc)

theorem word_iff {w : List Char} : Word w ↔ w ≠ [] ∧ w.all (!isBlank ·) = true := by
  simp only [List.all_eq_true, Bool.not_eq_true', isBlank_eq_false_iff]
  exact ⟨fun h => ⟨h.ne_nil, h.solid⟩, fun h => ⟨h.1, h.2⟩⟩

instance (w : List Char) : Decidable (Word w) := decidable_of_iff _ word_iff.symm

/-- A text that is empty or begins with a blank. -/
def EndsWord (cs : List Char) : Prop := ∀ c ∈ cs.head?, c ∈ whiteSpace

theorem endsWord_iff {cs : List Char} : EndsWord cs ↔ StopsAt (!isBlank ·) cs := by
  simp only [EndsWord, StopsAt, Bool.not_eq_false', isBlank_iff]

theorem endsWord_cons {c : Char} {cs : List Char} : EndsWord (c :: cs) ↔ isBlank c = true := by
  rw [endsWord_iff, stopsAt_cons, Bool.not_eq_false']

/-! ### Pieces -/

variable {sep : Char → Bool}

theorem splitWhen_ne_nil (cs : List Char) : splitWhen sep cs ≠ [] := by
  intro h
  have hlength := splitWhen_length sep cs
  rw [h] at hlength
  simp at hlength

/-- Characters that part nothing go to the first piece. -/
theorem splitWhen_solid {w : List Char} (hw : ∀ c ∈ w, sep c = false) (cs : List Char) :
    splitWhen sep (w ++ cs) = (splitWhen sep cs).modifyHead (w ++ ·) := by
  induction w with
  | nil =>
    cases hpieces : splitWhen sep cs <;> simp [hpieces]
  | cons c w ih =>
    have hc : ¬ sep c = true := by simp [hw c List.mem_cons_self]
    rw [List.cons_append, splitWhen, if_neg hc, ih fun d hd => hw d (List.mem_cons_of_mem c hd)]
    cases hpieces : splitWhen sep cs <;> simp

/-- A separator parts the pieces before it from those after it. -/
theorem splitWhen_append {c : Char} (hc : sep c = true) (cs ds : List Char) :
    splitWhen sep (cs ++ c :: ds) = splitWhen sep cs ++ splitWhen sep ds := by
  induction cs with
  | nil => simp [splitWhen, hc]
  | cons d cs ih =>
    obtain ⟨piece, pieces, hpieces⟩ := List.exists_cons_of_ne_nil (@splitWhen_ne_nil sep cs)
    rw [List.cons_append, splitWhen, splitWhen, ih]
    by_cases hd : sep d = true
    · rw [if_pos hd, if_pos hd]
      rfl
    · rw [if_neg hd, if_neg hd, hpieces]
      rfl

theorem splitWhen_congr {other : Char → Bool} {cs : List Char} (h : ∀ c ∈ cs, sep c = other c) :
    splitWhen sep cs = splitWhen other cs := by
  induction cs with
  | nil => rfl
  | cons c cs ih =>
    rw [splitWhen, splitWhen, h c List.mem_cons_self, ih fun d hd => h d (List.mem_cons_of_mem c hd)]

/-- No piece holds a separator. -/
theorem solid_of_mem_splitWhen {cs piece : List Char} (h : piece ∈ splitWhen sep cs) :
    ∀ c ∈ piece, sep c = false := by
  induction cs generalizing piece with
  | nil =>
    rw [splitWhen, List.mem_singleton] at h
    simp [h]
  | cons c cs ih =>
    obtain ⟨first, pieces, hpieces⟩ := List.exists_cons_of_ne_nil (@splitWhen_ne_nil sep cs)
    rw [hpieces] at ih
    by_cases hc : sep c = true
    · rw [splitWhen, if_pos hc, hpieces, List.mem_cons] at h
      rcases h with rfl | h
      · exact List.forall_mem_nil _
      · exact ih h
    · rw [splitWhen, if_neg hc, hpieces, List.modifyHead_cons, List.mem_cons] at h
      rcases h with rfl | h
      · exact List.forall_mem_cons.2 ⟨by simpa using hc, ih List.mem_cons_self⟩
      · exact ih (List.mem_cons_of_mem _ h)

/-- The pieces of texts that are joined by a separator are their pieces, if there is a text. -/
theorem splitWhen_intercalate {c : Char} (hc : sep c = true) {texts : List (List Char)}
    (htexts : texts ≠ []) :
    splitWhen sep ([c].intercalate texts) = texts.flatMap (splitWhen sep) := by
  induction texts with
  | nil => exact absurd rfl htexts
  | cons text texts ih =>
    cases texts with
    | nil => rw [List.intercalate_singleton, List.flatMap_singleton]
    | cons next texts =>
      rw [List.intercalate_cons_cons, List.append_assoc, List.singleton_append,
        splitWhen_append hc, ih (List.cons_ne_nil _ _)]
      rfl

/-- A text is what its pieces make when they are joined again. -/
theorem intercalate_splitWhen (c : Char) (cs : List Char) :
    [c].intercalate (splitWhen (· = c) cs) = cs := by
  induction cs with
  | nil => rfl
  | cons d cs ih =>
    obtain ⟨piece, pieces, hpieces⟩ := List.exists_cons_of_ne_nil (@splitWhen_ne_nil (· = c) cs)
    rw [hpieces] at ih
    by_cases hd : d = c
    · rw [splitWhen, if_pos (by simpa using hd), hpieces, List.intercalate_cons_cons, ih, hd]
      rfl
    · rw [splitWhen, if_neg (by simpa using hd), hpieces, List.modifyHead_cons]
      conv_rhs => rw [← ih]
      cases pieces with
      | nil => rw [List.intercalate_singleton, List.intercalate_singleton]
      | cons next pieces =>
        rw [List.intercalate_cons_cons, List.intercalate_cons_cons]
        rfl

/-! ### Words -/

theorem words_gap {gap : List Char} (hgap : Gap gap) (cs : List Char) :
    words (gap ++ cs) = words cs := by
  induction gap with
  | nil => rfl
  | cons c gap ih =>
    rw [List.cons_append, words_blank (isBlank_iff.2 (hgap c List.mem_cons_self)),
      ih fun d hd => hgap d (List.mem_cons_of_mem c hd)]

theorem words_dropWhile (cs : List Char) : words (cs.dropWhile isBlank) = words cs := by
  have hgap : Gap (cs.takeWhile isBlank) := gap_iff.2 fun c hc => List.mem_takeWhile_imp hc
  conv_rhs => rw [← List.takeWhile_append_dropWhile (p := isBlank) (l := cs)]
  exact (words_gap hgap _).symm

/-- The words on both sides of a cut at a blank. -/
theorem words_append {c : Char} (hc : isBlank c = true) (cs ds : List Char) :
    words (cs ++ c :: ds) = words cs ++ words ds := by
  rw [words, words, words, splitWhen_append hc, List.filter_append]

/-- The words of texts that are joined by a blank. -/
theorem words_intercalate {c : Char} (hc : isBlank c = true) (texts : List (List Char)) :
    words ([c].intercalate texts) = texts.flatMap words := by
  cases texts with
  | nil => rfl
  | cons text texts =>
    rw [words, splitWhen_intercalate hc (List.cons_ne_nil text texts), List.filter_flatMap]
    rfl

/-- The characters of texts that are joined by one more. -/
theorem forall_mem_intercalate {p : Char → Prop} {c : Char} {texts : List (List Char)} (hc : p c)
    (h : ∀ text ∈ texts, ∀ d ∈ text, p d) : ∀ d ∈ [c].intercalate texts, p d := by
  induction texts with
  | nil => exact List.forall_mem_nil _
  | cons text texts ih =>
    obtain ⟨htext, hmore⟩ := List.forall_mem_cons.1 h
    cases texts with
    | nil =>
      rw [List.intercalate_singleton]
      exact htext
    | cons next texts =>
      rw [List.intercalate_cons_cons, List.forall_mem_append, List.forall_mem_append]
      exact ⟨⟨htext, List.forall_mem_singleton.2 hc⟩, ih hmore⟩

/-- A text without blanks is its only word. -/
theorem words_self {w : List Char} (hw : Word w) : words w = [w] := by
  have hsplit := splitWhen_solid hw.isBlank []
  rw [List.append_nil] at hsplit
  rw [words, hsplit]
  simp [splitWhen, hw.ne_nil]

theorem words_word {w more : List Char} (hw : Word w) (hmore : EndsWord more) :
    words (w ++ more) = w :: words more := by
  cases more with
  | nil =>
    rw [List.append_nil, words_self hw]
    rfl
  | cons c cs =>
    have hc : isBlank c = true := endsWord_cons.1 hmore
    rw [words_append hc, words_blank hc, words_self hw]
    rfl

/-- The words of a gap, a word and more. -/
theorem words_gap_word {gap w more : List Char} (hgap : Gap gap) (hw : Word w)
    (hmore : EndsWord more) :
    words (gap ++ (w ++ more)) = w :: words more := by
  rw [words_gap hgap, words_word hw hmore]

/-- **A text is blank, or begins with a gap and a word.** -/
theorem exists_word (cs : List Char) :
    Gap cs ∨ ∃ gap w more, cs = gap ++ (w ++ more) ∧ Gap gap ∧ Word w ∧ EndsWord more := by
  have hgap : Gap (cs.takeWhile isBlank) := gap_iff.2 fun c hc => List.mem_takeWhile_imp hc
  cases hrest : cs.dropWhile isBlank with
  | nil =>
    left
    rw [← List.takeWhile_append_dropWhile (p := isBlank) (l := cs), hrest, List.append_nil]
    exact hgap
  | cons c rest =>
    right
    have hc : isBlank c = false := by
      have hstop := stopsAt_dropWhile isBlank cs
      rw [hrest] at hstop
      exact stopsAt_cons.1 hstop
    refine ⟨cs.takeWhile isBlank, (c :: rest).takeWhile (!isBlank ·),
      (c :: rest).dropWhile (!isBlank ·), ?_, hgap, ?_, ?_⟩
    · rw [List.takeWhile_append_dropWhile, ← hrest, List.takeWhile_append_dropWhile]
    · refine ⟨?_, ?_⟩
      · rw [List.takeWhile_cons_of_pos (by rw [hc]; rfl)]
        exact List.cons_ne_nil _ _
      · intro d hd
        have hd := List.mem_takeWhile_imp hd
        exact isBlank_eq_false_iff.1 (by simpa using hd)
    · exact endsWord_iff.2 (stopsAt_dropWhile _ _)

/-! ### Blank texts -/

theorem words_eq_nil_iff (cs : List Char) : words cs = [] ↔ Gap cs := by
  constructor
  · intro h
    rcases exists_word cs with hgap | ⟨gap, w, more, rfl, hgap, hw, hmore⟩
    · exact hgap
    · rw [words_gap_word hgap hw hmore] at h
      cases h
  · intro hgap
    have h := words_gap hgap []
    rw [List.append_nil] at h
    rw [h]
    rfl

/-! ### Outer blanks -/

/-- A text with what is left of it without its outer blanks: it stands between two gaps, and neither
begins nor ends with a blank. -/
structure Trimmed (cs core : List Char) : Prop where
  between : ∃ before after, cs = before ++ (core ++ after) ∧ Gap before ∧ Gap after
  first : ∀ c ∈ core.head?, c ∉ whiteSpace
  last : ∀ c ∈ core.getLast?, c ∉ whiteSpace

theorem trimmed_trim (cs : List Char) : Trimmed cs (trim cs) := by
  rw [trim]
  generalize hinner : cs.dropWhile isBlank = inner
  have hcs : cs = cs.takeWhile isBlank ++ inner := by
    rw [← hinner, List.takeWhile_append_dropWhile]
  have hends : inner
      = (inner.reverse.dropWhile isBlank).reverse ++ (inner.reverse.takeWhile isBlank).reverse := by
    rw [← List.reverse_append, List.takeWhile_append_dropWhile, List.reverse_reverse]
  refine ⟨⟨cs.takeWhile isBlank, (inner.reverse.takeWhile isBlank).reverse, ?_, ?_, ?_⟩, ?_, ?_⟩
  · rw [← hends, ← hcs]
  · exact gap_iff.2 fun c hc => List.mem_takeWhile_imp hc
  · exact gap_iff.2 fun c hc => List.mem_takeWhile_imp (List.mem_reverse.1 hc)
  · intro c hc
    -- what is left at the end begins where the text begins that has no blanks before it
    have hfirst : c ∈ inner.head? := by
      rw [hends, List.head?_append, Option.mem_def.1 hc]
      rfl
    rw [← hinner] at hfirst
    exact isBlank_eq_false_iff.1 (stopsAt_dropWhile isBlank cs c hfirst)
  · intro c hc
    rw [List.getLast?_reverse] at hc
    exact isBlank_eq_false_iff.1 (stopsAt_dropWhile isBlank _ c hc)

theorem Trimmed.trim_eq {cs core : List Char} (h : Trimmed cs core) : trim cs = core := by
  obtain ⟨⟨before, after, rfl, hbefore, hafter⟩, hfirst, hlast⟩ := h
  have hdrop : ∀ gap rest, Gap gap → (∀ c ∈ rest.head?, c ∉ whiteSpace) →
      (gap ++ rest).dropWhile isBlank = rest := fun gap rest hgap hrest =>
    dropWhile_run (gap_iff.1 hgap) fun c hc => isBlank_eq_false_iff.2 (hrest c hc)
  cases core with
  | nil =>
    have hgap : Gap (before ++ ([] ++ after)) := List.forall_mem_append.2 ⟨hbefore, hafter⟩
    rw [trim, List.dropWhile_eq_nil_iff.2 (gap_iff.1 hgap)]
    rfl
  | cons c cs =>
    rw [trim, hdrop before (c :: cs ++ after) hbefore hfirst, List.reverse_append,
      hdrop after.reverse, List.reverse_reverse]
    · exact fun d hd => hafter d (List.mem_reverse.1 hd)
    · rw [List.head?_reverse]
      exact hlast

/-- **A text is trimmed to what stands between its outer blanks.** -/
theorem trim_eq_iff {cs core : List Char} : trim cs = core ↔ Trimmed cs core :=
  ⟨fun h => h ▸ trimmed_trim cs, Trimmed.trim_eq⟩

theorem Trimmed.unique {cs core other : List Char} (h : Trimmed cs core) (hother : Trimmed cs other) :
    core = other :=
  h.trim_eq.symm.trans hother.trim_eq

theorem trim_isEmpty_iff (cs : List Char) : (trim cs).isEmpty = true ↔ Gap cs := by
  rw [List.isEmpty_iff, trim_eq_iff]
  constructor
  · intro h
    obtain ⟨before, after, rfl, hbefore, hafter⟩ := h.between
    exact List.forall_mem_append.2 ⟨hbefore, hafter⟩
  · intro h
    exact ⟨⟨cs, [], (List.append_nil cs).symm, h, List.forall_mem_nil _⟩, nofun, nofun⟩

/-! ### Texts with their words -/

/-- A text with its words: a gap before each of them, a blank or the end after each, and a gap at the
end. -/
inductive Parted : List Char → List (List Char) → Prop
  | gap {cs : List Char} (hgap : Gap cs) : Parted cs []
  | word {gap w more : List Char} {ws : List (List Char)} (hgap : Gap gap) (hw : Word w)
      (hmore : EndsWord more) (hrest : Parted more ws) : Parted (gap ++ (w ++ more)) (w :: ws)

theorem parted_words (cs : List Char) : Parted cs (words cs) := by
  induction h : cs.length using Nat.strong_induction_on generalizing cs with
  | _ n ih =>
    rcases exists_word cs with hgap | ⟨gap, w, more, rfl, hgap, hw, hmore⟩
    · rw [(words_eq_nil_iff cs).2 hgap]
      exact .gap hgap
    · have hshort : more.length < n := by
        have hpos := List.length_pos_of_ne_nil hw.ne_nil
        simp only [List.length_append] at h
        omega
      rw [words_gap_word hgap hw hmore]
      exact .word hgap hw hmore (ih _ hshort more rfl)

/-- **The words of a text are those that its blanks part.** -/
theorem words_eq_iff {cs : List Char} {ws : List (List Char)} : words cs = ws ↔ Parted cs ws := by
  constructor
  · rintro rfl
    exact parted_words cs
  · intro h
    induction h with
    | gap hgap => exact (words_eq_nil_iff _).2 hgap
    | word hgap hw hmore _ ih => rw [words_gap_word hgap hw hmore, ih]

end VectorQuery.Text
