import Mathlib
import VectorQuery.Proofs.Json.Number

/-!
# Reading containers

The items of an array and the fields of an object are parts between brackets with commas among
them.  The reader goes down by one level for each container, so whether it reads a text depends on
how deep the text goes.

* `Spelling` — characters with the value that a reader of bounded depth takes them for, and the
  depth it needs;
* `joined`, `deepest` — several spellings with commas between them, and the depth that they need;
* `readParts_joined` — the loop over the parts reads all of them, or refuses one that is too deep;
* `readList_joined` — **a list in brackets is read iff its deepest part is**;
* `insertAll_of_nodup` — fields under different keys stay as they are;
* `ofChars?_spelling` — what a whole text is read as.
-/

namespace VectorQuery.Json

open Text Wire

variable {α : Type}

/-- A reader of bounded depth. -/
abbrev DepthReader (α : Type) := ℕ → List Char → Option (α × List Char)

/-- Whether a character may be the first one of a part. -/
def opensPart (c : Char) : Bool := !isSpace c && c ≠ ']' && c ≠ '\x7d'

/-- Characters that a reader takes for a value as soon as it may go down far enough, and refuses
before that. -/
structure Spelling (read : DepthReader α) where
  chars : List Char
  value : α
  levels : ℕ
  opens : ∃ c cs, chars = c :: cs ∧ opensPart c = true
  reads : ∀ depth rest, StopsAt continuesNumber rest →
    read depth (chars ++ rest) = if levels ≤ depth then some (value, rest) else none

variable {read : DepthReader α}

/-- Spellings with a comma and a gap between them. -/
def joined (gap : List Char) (ps : List (Spelling read)) : List Char :=
  List.intercalate (',' :: gap) (ps.map (·.chars))

/-- The depth that is needed for the deepest spelling. -/
def deepest : List (Spelling read) → ℕ
  | [] => 0
  | p :: ps => max p.levels (deepest ps)

theorem deepest_cons_le {p : Spelling read} {ps : List (Spelling read)} {depth : ℕ} :
    deepest (p :: ps) ≤ depth ↔ p.levels ≤ depth ∧ deepest ps ≤ depth := max_le_iff

theorem joined_singleton (gap : List Char) (p : Spelling read) : joined gap [p] = p.chars :=
  List.intercalate_singleton

theorem joined_cons_cons (gap : List Char) (p q : Spelling read) (ps : List (Spelling read)) :
    joined gap (p :: q :: ps) = p.chars ++ ',' :: (gap ++ joined gap (q :: ps)) := by
  show List.intercalate (',' :: gap) (p.chars :: q.chars :: ps.map (·.chars)) = _
  rw [List.intercalate_cons_cons, List.append_assoc]
  rfl

/-! ### Blanks -/

theorem stopsAt_isSpace {c : Char} (h : opensPart c = true) (cs : List Char) :
    StopsAt isSpace (c :: cs) := by
  rw [stopsAt_cons]
  simp only [opensPart, Bool.and_eq_true, Bool.not_eq_true'] at h
  exact h.1.1

/-- A spelling begins where the blanks before it end. -/
theorem skipBlanks_spelling {gap : List Char} (hgap : ∀ c ∈ gap, isSpace c = true)
    (p : Spelling read)
    (rest : List Char) : skipBlanks (gap ++ (p.chars ++ rest)) = p.chars ++ rest := by
  obtain ⟨c, cs, hcs, hc⟩ := p.opens
  rw [skipBlanks, dropWhile_run hgap]
  rw [hcs]
  exact stopsAt_isSpace hc _

theorem skipBlanks_joined {gap lead : List Char} (hlead : ∀ c ∈ lead, isSpace c = true)
    (p : Spelling read)
    (ps : List (Spelling read)) (rest : List Char) :
    skipBlanks (lead ++ (joined gap (p :: ps) ++ rest)) = joined gap (p :: ps) ++ rest := by
  cases ps with
  | nil =>
    rw [joined_singleton]
    exact skipBlanks_spelling hlead p rest
  | cons q ps =>
    rw [joined_cons_cons, List.append_assoc]
    exact skipBlanks_spelling hlead p _

/-! ### The parts of a container -/

theorem readMore_comma (closing : Char) (more : List Char → Option (List α × List Char))
    (cs : List Char)
    (hclosing : closing ≠ ',') : readMore closing more (',' :: cs) = more cs := by
  have hskip : skipBlanks (',' :: cs) = ',' :: cs := dropWhile_stop (stopsAt_cons.2 (by decide))
  rw [readMore, hskip]
  exact (if_neg hclosing.symm).trans (if_pos rfl)

theorem readMore_closing {closing : Char} (more : List Char → Option (List α × List Char))
    {tail rest : List Char}
    (htail : skipBlanks tail = closing :: rest) : readMore closing more tail = some ([], rest) := by
  rw [readMore, htail]
  exact if_pos rfl

/-- The loop over the parts reads all of them, or refuses one that is too deep. -/
theorem readParts_joined {closing : Char} (hclosing : closing ≠ ',') {gap tail rest : List Char}
    (hgap : ∀ c ∈ gap, isSpace c = true) (hstop : StopsAt continuesNumber tail)
    (htail : skipBlanks tail = closing :: rest) (depth : ℕ) (p : Spelling read)
    (ps : List (Spelling read)) (lead : List Char) (hlead : ∀ c ∈ lead, isSpace c = true)
    {fuel : ℕ} (hfuel : ps.length < fuel) :
    readParts closing (read depth) fuel (lead ++ (joined gap (p :: ps) ++ tail))
      = if deepest (p :: ps) ≤ depth then some ((p :: ps).map (·.value), rest) else none := by
  induction ps generalizing p lead fuel with
  | nil =>
    obtain ⟨fuel, rfl⟩ : ∃ n, fuel = n + 1 := ⟨fuel - 1, by omega⟩
    simp only [readParts, joined_singleton, skipBlanks_spelling hlead, p.reads depth tail hstop,
      deepest, Nat.max_zero]
    by_cases hlevels : p.levels ≤ depth
    · simp [hlevels, readMore_closing _ htail]
    · simp [hlevels]
  | cons q ps ih =>
    obtain ⟨fuel, rfl⟩ : ∃ n, fuel = n + 1 := ⟨fuel - 1, by omega⟩
    have hcomma : ∀ cs, StopsAt continuesNumber (',' :: cs) := fun cs => stopsAt_cons.2 (by decide)
    have hmore := ih q gap hgap (show ps.length < fuel by simp only [List.length_cons] at hfuel; omega)
    simp only [readParts, joined_cons_cons, List.append_assoc, List.cons_append,
      skipBlanks_spelling hlead, p.reads depth _ (hcomma _)]
    by_cases hlevels : p.levels ≤ depth
    · simp only [hlevels, if_true, Option.bind_eq_bind, Option.bind_some,
        readMore_comma closing _ _ hclosing, hmore]
      by_cases hrest : deepest (q :: ps) ≤ depth
      · rw [if_pos hrest, if_pos (deepest_cons_le.2 ⟨hlevels, hrest⟩)]
        rfl
      · rw [if_neg hrest, if_neg fun h => hrest (deepest_cons_le.1 h).2]
        rfl
    · rw [if_neg hlevels, if_neg fun h => hlevels (deepest_cons_le.1 h).1]
      rfl

/-- Every part has a character, so the length of a text bounds the number of its parts. -/
theorem length_le_joined (gap : List Char) (ps : List (Spelling read)) :
    ps.length ≤ (joined gap ps).length := by
  induction ps with
  | nil => exact Nat.le_refl 0
  | cons p ps ih =>
    obtain ⟨c, cs, hcs, -⟩ := p.opens
    cases ps with
    | nil => simp [joined_singleton, hcs]
    | cons q ps =>
      simp only [List.length_cons] at ih
      simp only [joined_cons_cons, hcs, List.length_append, List.length_cons]
      omega

/-- **A list in brackets is read iff its deepest part is**, and its parts come out in order. -/
theorem readList_joined {closing : Char} (hclosing : closing ≠ ',') {gap lead tail rest : List Char}
    (hgap : ∀ c ∈ gap, isSpace c = true) (hlead : ∀ c ∈ lead, isSpace c = true)
    (hstop : StopsAt continuesNumber tail) (htail : skipBlanks tail = closing :: rest) (depth : ℕ)
    (ps : List (Spelling read)) (hopen : ∀ c, opensPart c = true → c ≠ closing) :
    readList closing (read depth) (lead ++ (joined gap ps ++ tail))
      = if deepest ps ≤ depth then some (ps.map (·.value), rest) else none := by
  cases ps with
  | nil =>
    have hskip : skipBlanks (lead ++ (joined gap ([] : List (Spelling read)) ++ tail))
        = closing :: rest := by
      rw [skipBlanks, List.dropWhile_append_of_pos hlead]
      exact htail
    rw [readList, hskip,
      if_pos (show deepest ([] : List (Spelling read)) ≤ depth from Nat.zero_le depth)]
    exact if_pos rfl
  | cons p ps =>
    obtain ⟨c, cs, hcs, hc⟩ : ∃ c cs, joined gap (p :: ps) = c :: cs ∧ opensPart c = true := by
      obtain ⟨c, cs, hcs, hc⟩ := p.opens
      cases ps with
      | nil => exact ⟨c, cs, by rw [joined_singleton, hcs], hc⟩
      | cons q ps => exact ⟨c, _, by rw [joined_cons_cons, hcs, List.cons_append], hc⟩
    have hlength : ps.length < (joined gap (p :: ps) ++ tail).length := by
      have hle := length_le_joined gap (p :: ps)
      simp only [List.length_cons] at hle
      rw [List.length_append]
      omega
    have hparts := readParts_joined hclosing hgap hstop htail depth p ps [] (by simp) hlength
    rw [List.nil_append] at hparts
    rw [readList, skipBlanks_joined hlead]
    rw [hcs, List.cons_append] at hparts ⊢
    exact (if_neg (hopen c hc)).trans hparts

/-! ### The fields of an object -/

theorem insert_of_not_mem {key : String} {fields : Fields} (h : key ∉ fields.keys) (value : Json) :
    fields.insert key value = fields ++ [(key, value)] := by
  induction fields with
  | nil => rfl
  | cons field fields ih =>
    rw [Fields.keys, List.map_cons, List.mem_cons, not_or] at h
    rw [Fields.insert, if_neg (Ne.symm h.1), ih h.2, List.cons_append]

/-- Fields under different keys stay as they are. -/
theorem insertAll_of_nodup (fields more : Fields) (h : (fields ++ more).keys.Nodup) :
    fields.insertAll more = fields ++ more := by
  induction more generalizing fields with
  | nil => exact (List.append_nil fields).symm
  | cons field more ih =>
    have hkey : field.1 ∉ fields.keys := by
      rw [Fields.keys, List.map_append, List.map_cons] at h
      intro hmem
      exact (List.nodup_append.1 h).2.2 _ hmem _ List.mem_cons_self rfl
    have happend : fields ++ field :: more = (fields ++ [field]) ++ more := by simp
    show (fields.insert field.1 field.2).insertAll more = fields ++ field :: more
    rw [insert_of_not_mem hkey, happend]
    exact ih _ (happend ▸ h)

/-! ### Whole texts -/

/-- **A spelling is read as a whole text iff the reader may go down far enough.** -/
theorem ofChars?_spelling (p : Spelling readValue) (depth : ℕ) :
    ofChars? depth p.chars = if p.levels ≤ depth then some p.value else none := by
  have hskip := skipBlanks_spelling (List.forall_mem_nil _) p []
  have hreads := p.reads depth [] stopsAt_nil
  rw [List.append_nil] at hskip hreads
  rw [ofChars?, show skipBlanks p.chars = p.chars from hskip, hreads]
  by_cases hdepth : p.levels ≤ depth
  · simp [hdepth, skipBlanks]
  · simp [hdepth]

end VectorQuery.Json
