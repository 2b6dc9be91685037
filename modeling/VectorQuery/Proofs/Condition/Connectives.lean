import Mathlib
import VectorQuery.Condition.Clause
import VectorQuery.Proofs.Text.Words

/-!
# The first connective of a text

A text is cut at its first connective by a search over its characters.  Where the cut falls depends
only on the words of the text and on whether there are blanks before the first and after the last of
them: a connective is a word with blanks on both sides.

* `splitWords` — the cut in a list of words;
* `leadingConnective?_gap_word` — what the search finds in front of a word;
* `splitConnective?_gap_word` — how the search passes a word;
* `splitWords_words` — **the cut of a text is the cut of its words**;
* `stopsAt_splitConnective?` — what stands after the cut begins with no blank.
-/

namespace VectorQuery.Clause

open Text

/-! ### The cut in a list of words -/

/-- A list of words cut at its first connective.  The first word counts only if there is a blank
before it, the last only if there is one after it. -/
def splitWords (openStart openEnd : Bool) :
    List String → Option (List String × Connective × List String)
  | [] => none
  | w :: ws =>
    match if openStart && (openEnd || !ws.isEmpty) then Connective.ofWord? w else none with
    | some connective => some ([], connective, ws)
    | none => (splitWords true openEnd ws).map fun (left, connective, right) =>
        (w :: left, connective, right)

/-- The words on both sides of a cut. -/
def wordsOfCut (cut : List Char × Connective × List Char) :
    List String × Connective × List String :=
  (words cut.1, cut.2.1, words cut.2.2)

theorem words_of_gap {cs : List Char} (hgap : Gap cs) : words cs = [] := by
  rw [words, (words_eq_nil_iff cs).2 hgap]
  rfl

/-- Whether a text begins with a blank. -/
def startsBlank (cs : List Char) : Bool := cs.head?.any isBlank

/-- Whether a text ends with a blank. -/
def endsBlank (cs : List Char) : Bool := cs.getLast?.any isBlank

theorem startsBlank_iff {cs : List Char} :
    startsBlank cs = true ↔ ∃ c ∈ cs.head?, c ∈ whiteSpace := by
  simp only [startsBlank, Option.any_eq_true, isBlank_iff, Option.mem_def]

theorem endsBlank_append {ds : List Char} (hds : ds ≠ []) (cs : List Char) :
    endsBlank (cs ++ ds) = endsBlank ds := by
  rw [endsBlank, endsBlank, List.getLast?_append_of_ne_nil _ hds]

theorem not_startsBlank_word {w : List Char} (hw : Word w) (more : List Char) :
    startsBlank (w ++ more) = false := by
  obtain ⟨c, cs, rfl⟩ := List.exists_cons_of_ne_nil hw.ne_nil
  exact hw.isBlank c List.mem_cons_self

/-! ### The search -/

/-- No connective begins inside a word. -/
theorem leadingConnective?_solid {c : Char} (hc : isBlank c = false) (cs : List Char) :
    leadingConnective? (c :: cs) = none := by
  simp [leadingConnective?, hc]

/-- In front of a word the search finds that word or nothing. -/
theorem leadingConnective?_gap_word {gap w more : List Char} (hgap : Gap gap) (hw : Word w)
    (hmore : EndsWord more) :
    leadingConnective? (gap ++ (w ++ more))
      = if !gap.isEmpty && !more.isEmpty then
          (Connective.ofWord? (String.ofList w)).map fun connective =>
            (connective, more.dropWhile isBlank)
        else none := by
  have hstart : startsBlank (gap ++ (w ++ more)) = !gap.isEmpty := by
    cases gap with
    | nil => exact not_startsBlank_word hw more
    | cons c gap => exact isBlank_iff.2 (hgap c List.mem_cons_self)
  have hinner : (gap ++ (w ++ more)).dropWhile isBlank = w ++ more := by
    apply dropWhile_run (gap_iff.1 hgap)
    obtain ⟨c, cs, rfl⟩ := List.exists_cons_of_ne_nil hw.ne_nil
    exact stopsAt_cons.2 (hw.isBlank c List.mem_cons_self)
  have hsolid : ∀ c ∈ w, (!isBlank c) = true := by
    intro c hc
    rw [hw.isBlank c hc]
    rfl
  have hend : more.head?.any isBlank = !more.isEmpty := by
    cases more with
    | nil => rfl
    | cons c cs => exact endsWord_cons.1 hmore
  rw [startsBlank] at hstart
  have hstop := endsWord_iff.1 hmore
  simp only [leadingConnective?, hstart, hinner, takeWhile_run hsolid hstop,
    dropWhile_run hsolid hstop, hend]

theorem splitConnective?_solid {w : List Char} (hw : ∀ c ∈ w, isBlank c = false)
    (more : List Char) :
    splitConnective? (w ++ more) = (splitConnective? more).map fun cut => (w ++ cut.1, cut.2) := by
  induction w with
  | nil => exact Option.map_id'.symm
  | cons c w ih =>
    rw [List.cons_append, splitConnective?, leadingConnective?_solid (hw c List.mem_cons_self)]
    simp only [ih fun d hd => hw d (List.mem_cons_of_mem c hd), Option.map_map]
    rfl

theorem splitConnective?_gap {gap : List Char} (hgap : Gap gap) : splitConnective? gap = none := by
  induction gap with
  | nil => rfl
  | cons c gap ih =>
    have hrest : (c :: gap).dropWhile isBlank = [] := List.dropWhile_eq_nil_iff.2 (gap_iff.1 hgap)
    have hleading : leadingConnective? (c :: gap) = none := by
      simp [leadingConnective?, hrest]
    rw [splitConnective?, hleading]
    simp only [ih fun d hd => hgap d (List.mem_cons_of_mem c hd), Option.map_none]

/-- The search cuts at a word that is a connective between blanks, and passes any other. -/
theorem splitConnective?_gap_word {gap w more : List Char} (hgap : Gap gap) (hw : Word w)
    (hmore : EndsWord more) :
    splitConnective? (gap ++ (w ++ more))
      = match if !gap.isEmpty && !more.isEmpty then Connective.ofWord? (String.ofList w) else none with
        | some connective => some ([], connective, more.dropWhile isBlank)
        | none => (splitConnective? more).map fun cut => (gap ++ (w ++ cut.1), cut.2) := by
  induction gap with
  | nil => exact splitConnective?_solid hw.isBlank more
  | cons c gap ih =>
    have hleading := leadingConnective?_gap_word hgap hw hmore
    have htail : Gap gap := fun d hd => hgap d (List.mem_cons_of_mem c hd)
    rw [List.cons_append] at hleading ⊢
    rw [splitConnective?, hleading, ih htail]
    simp only [List.isEmpty_cons, Bool.not_false, Bool.true_and]
    by_cases hne : (!more.isEmpty) = true
    · rw [if_pos hne]
      cases hconnective : Connective.ofWord? (String.ofList w) with
      | some connective =>
        rw [if_pos hne]
        rfl
      | none =>
        have hinner : (if (!gap.isEmpty && !more.isEmpty) = true then none else none)
            = (none : Option Connective) :=
          ite_self _
        rw [Option.map_none, if_pos hne, hinner]
        simp only [Option.map_map]
        rfl
    · have hempty : (!gap.isEmpty && !more.isEmpty) = true ↔ False := by simp [hne]
      rw [if_neg hne, if_neg hne, if_neg hempty.1]
      simp only [Option.map_map]
      rfl

/-! ### What is cut -/

theorem splitConnective?_left {cs left right : List Char} {connective : Connective}
    (h : splitConnective? cs = some (left, connective, right)) : left <+: cs := by
  induction cs generalizing left with
  | nil => cases h
  | cons c cs ih =>
    rw [splitConnective?] at h
    split at h
    · cases h
      exact List.nil_prefix
    · obtain ⟨⟨left', connective', right'⟩, hrest, hsame⟩ := Option.map_eq_some_iff.1 h
      cases hsame
      exact List.cons_prefix_cons.2 ⟨rfl, ih hrest⟩

/-- What stands after the cut begins with no blank. -/
theorem stopsAt_splitConnective? {cs left right : List Char} {connective : Connective}
    (h : splitConnective? cs = some (left, connective, right)) : StopsAt isBlank right := by
  induction cs generalizing left with
  | nil => cases h
  | cons c cs ih =>
    rw [splitConnective?] at h
    split at h
    · rename_i hleading
      cases h
      simp only [leadingConnective?] at hleading
      split at hleading
      · obtain ⟨_, -, hright⟩ := Option.map_eq_some_iff.1 hleading
        cases hright
        exact stopsAt_dropWhile isBlank _
      · cases hleading
    · obtain ⟨⟨left', connective', right'⟩, hrest, hsame⟩ := Option.map_eq_some_iff.1 h
      cases hsame
      exact ih hrest

theorem startsBlank_splitConnective? {cs left right : List Char} {connective : Connective}
    (h : splitConnective? cs = some (left, connective, right)) : startsBlank right = false := by
  have hstop := stopsAt_splitConnective? h
  cases right with
  | nil => rfl
  | cons c cs => exact stopsAt_cons.1 hstop

theorem endsWord_of_isPrefix {cs more : List Char} (h : cs <+: more) (hmore : EndsWord more) :
    EndsWord cs := by
  obtain ⟨ds, rfl⟩ := h
  cases cs with
  | nil => exact endsWord_iff.2 stopsAt_nil
  | cons c cs => exact hmore

/-- **The cut of a text is the cut of its words.** -/
theorem splitWords_words (cs : List Char) :
    (splitConnective? cs).map wordsOfCut = splitWords (startsBlank cs) (endsBlank cs) (words cs) := by
  induction h : cs.length using Nat.strong_induction_on generalizing cs with
  | _ n ih =>
    rcases exists_word cs with hgap | ⟨gap, w, more, rfl, hgap, hw, hmore⟩
    · rw [splitConnective?_gap hgap, words_of_gap hgap]
      rfl
    have hstart : startsBlank (gap ++ (w ++ more)) = !gap.isEmpty := by
      cases gap with
      | nil => exact not_startsBlank_word hw more
      | cons c gap => exact isBlank_iff.2 (hgap c List.mem_cons_self)
    have hwords : ∀ ds, EndsWord ds → words (gap ++ (w ++ ds)) = String.ofList w :: words ds := by
      intro ds hds
      rw [words, words_gap_word hgap hw hds]
      rfl
    have hlength : more.length < n := by
      have hpos := List.length_pos_of_ne_nil hw.ne_nil
      simp only [List.length_append] at h
      omega
    have hrest := ih _ hlength more rfl
    rw [splitConnective?_gap_word hgap hw hmore, hwords more hmore, splitWords, hstart]
    cases more with
    | nil =>
      have hend : endsBlank (gap ++ (w ++ [])) = false := by
        rw [List.append_nil, endsBlank_append hw.ne_nil, endsBlank,
          List.getLast?_eq_some_getLast hw.ne_nil]
        exact hw.isBlank _ (List.getLast_mem hw.ne_nil)
      rw [hend]
      simp [words, Text.words, splitWhen, splitWords, splitConnective?]
    | cons c cs =>
      have hc : isBlank c = true := endsWord_cons.1 hmore
      have hend : endsBlank (gap ++ (w ++ c :: cs)) = endsBlank (c :: cs) := by
        rw [← List.append_assoc, endsBlank_append (List.cons_ne_nil c cs)]
      have hopen : (endsBlank (c :: cs) || !(words (c :: cs)).isEmpty) = true := by
        rcases exists_word (c :: cs) with hblank | ⟨gap', w', more', heq, hgap', hw', hmore'⟩
        · have hlast := isBlank_iff.2 (hblank _ (List.getLast_mem (List.cons_ne_nil c cs)))
          rw [endsBlank, List.getLast?_eq_some_getLast (List.cons_ne_nil c cs)]
          simp [hlast]
        · rw [heq, words, words_gap_word hgap' hw' hmore']
          simp
      have hafter : words ((c :: cs).dropWhile isBlank) = words (c :: cs) := by
        rw [words, words_dropWhile]
        rfl
      rw [show startsBlank (c :: cs) = true from hc] at hrest
      rw [hend, hopen, List.isEmpty_cons, Bool.not_false, ← hrest]
      cases (if (!gap.isEmpty && true) = true then Connective.ofWord? (String.ofList w) else none) with
      | some connective =>
        show some (words [], connective, words ((c :: cs).dropWhile isBlank))
          = some ([], connective, words (c :: cs))
        rw [hafter]
        rfl
      | none =>
        cases hcut : splitConnective? (c :: cs) with
        | none => rfl
        | some cut =>
          have hleft := endsWord_of_isPrefix (splitConnective?_left hcut) hmore
          show some (words (gap ++ (w ++ cut.1)), cut.2.1, words cut.2.2)
            = some (_ :: words cut.1, cut.2.1, words cut.2.2)
          rw [hwords cut.1 hleft]

end VectorQuery.Clause
