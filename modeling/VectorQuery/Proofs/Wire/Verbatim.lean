import Mathlib
import VectorQuery.Proofs.Json.NumberText
import VectorQuery.Proofs.Wire.Pass

/-!
# The pass leaves documents as they are

A document has no bare words but `true`, `false` and `null`, and none of these is a key.  So the pass
that quotes the bare words of wire text gives out the text of any document as it is, with its
escapes, its numbers and the keys inside its strings, and wire text extends the texts of documents.

* `Verbatim` — a text that comes out of the pass as it is;
* `Keeps` — a reader that reads verbatim texts only, up to what follows them;
* `verbatim_readText`, `keeps_readNumber`, `keeps_readScalar` — the parts without parts;
* `verbatim_readList` — what stands between brackets, if its parts are kept;
* `keeps_readValue` — **the reader of documents keeps**;
* `document?_of_ofText?` — **the document of a text is also the document of the wire text**.
-/

namespace VectorQuery.Wire

open Text Json

variable {α : Type} {cs rest : List Char}

/-- A text that comes out of the pass as it is. -/
def Verbatim (cs : List Char) : Prop := quoteWords (.between false) cs = some cs

/-- What the reader reads, up to a rest that ends the part, comes out of the pass as it is. -/
def Keeps (read : List Char → Option (α × List Char)) : Prop :=
  ∀ {cs value rest}, read cs = some (value, rest) → StopsAt continues rest → Verbatim rest →
    Verbatim cs

/-! ### Putting texts together -/

theorem verbatim_nil : Verbatim [] := rfl

theorem Verbatim.cons_mark {c : Char} (h : Verbatim cs) (hc : isMark c = true) :
    Verbatim (c :: cs) := by
  rw [Verbatim, quoteWords_mark hc, h, Option.map_some]

theorem Verbatim.append_part {part : List Char} (h : Verbatim rest)
    (hpart : Passes (.between false) part part (.between false)) (hrest : StopsAt continues rest) :
    Verbatim (part ++ rest) := by
  rw [Verbatim, hpart rest hrest, h, Option.map_some]

/-- A character that ends the part before it, and comes out as it is. -/
structure Ends (c : Char) : Prop where
  mark : isMark c = true
  stops : continues c = false

theorem ends_of_isSpace {c : Char} (h : isSpace c = true) : Ends c := by
  simp only [isSpace, Bool.or_eq_true, decide_eq_true_eq] at h
  rcases h with ((rfl | rfl) | rfl) | rfl <;> exact ⟨by decide, by decide⟩

theorem ends_comma : Ends ',' := ⟨by decide, by decide⟩

theorem ends_bracket : Ends ']' := ⟨by decide, by decide⟩

theorem ends_brace : Ends '\x7d' := ⟨by decide, by decide⟩

/-- Spaces before a text come out as they are. -/
theorem verbatim_of_skipBlanks (h : Verbatim (skipBlanks cs)) : Verbatim cs := by
  induction cs with
  | nil => exact verbatim_nil
  | cons c cs ih =>
    by_cases hc : isSpace c = true
    · rw [skipBlanks, List.dropWhile_cons_of_pos hc] at h
      exact (ih h).cons_mark (ends_of_isSpace hc).mark
    · rw [skipBlanks, List.dropWhile_cons_of_neg hc] at h
      exact h

/-- Spaces end a part. -/
theorem stopsAt_of_skipBlanks (h : StopsAt continues (skipBlanks cs)) : StopsAt continues cs := by
  cases cs with
  | nil => exact stopsAt_nil
  | cons c cs =>
    by_cases hc : isSpace c = true
    · exact stopsAt_cons.2 (ends_of_isSpace hc).stops
    · rw [skipBlanks, List.dropWhile_cons_of_neg hc] at h
      exact h

/-! ### Strings -/

/-- The pass and the reader agree on where a string ends. -/
theorem quoteWords_splitClosing {body : List Char} (h : Quoted.splitClosing cs = some (body, rest))
    (hrest : Verbatim rest) : quoteWords .string cs = some cs := by
  have hverbatim : quoteWords (.between false) rest = some rest := hrest
  simp only [quoteWords_string, h, hverbatim, Option.map_some]
  rw [splitClosing_eq_append h]

theorem verbatim_readText {text : String} (h : readText cs = some (text, rest))
    (hrest : Verbatim rest) : Verbatim ('"' :: cs) := by
  obtain ⟨⟨body, tail⟩, hbody, h⟩ := Option.bind_eq_some_iff.1 h
  obtain ⟨chars, -, hsame⟩ := Option.bind_eq_some_iff.1 h
  cases hsame
  rw [Verbatim, quoteWords_cons (show Mode.step (.between false) '"' = (['"'], .string) from rfl),
    quoteWords_splitClosing hbody hrest]
  rfl

/-! ### Numbers -/

theorem keeps_readNumber : Keeps readNumber := by
  intro cs value rest h hstop hrest
  obtain ⟨number, rfl, hnumber⟩ := numberText_of_readNumber h
  exact hrest.append_part (passes_number hnumber.signed) hstop

/-! ### Parts without parts -/

theorem eq_append_of_readWord {word : List Char} (h : readWord word cs = some rest) :
    cs = word ++ rest := by
  induction word generalizing cs with
  | nil => exact Option.some.inj h
  | cons w word ih =>
    cases cs with
    | nil => cases h
    | cons c cs =>
      rw [readWord] at h
      split at h
      · rename_i hc
        rw [hc, ih h]
        rfl
      · cases h

theorem keeps_readScalar : Keeps readScalar := by
  intro cs value rest h hstop hrest
  have hword : ∀ {c : Char} {word cs : List Char} {f : List Char → Json × List Char},
      isBareWord (c :: word) = true → (∀ rest, (f rest).2 = rest) →
      (readWord word cs).map f = some (value, rest) → Verbatim (c :: cs) := by
    intro c word cs f hbare hf hmap
    obtain ⟨tail, htail, hsame⟩ := Option.map_eq_some_iff.1 hmap
    have hsame : tail = rest := by rw [← hf tail, hsame]
    subst hsame
    rw [eq_append_of_readWord htail]
    exact hrest.append_part (passes_word hbare) hstop
  rw [readScalar.eq_def] at h
  split at h
  · obtain ⟨⟨text, tail⟩, htext, hsame⟩ := Option.map_eq_some_iff.1 h
    cases hsame
    exact verbatim_readText htext hrest
  · exact hword (by decide) (fun _ => rfl) h
  · exact hword (by decide) (fun _ => rfl) h
  · exact hword (by decide) (fun _ => rfl) h
  · exact keeps_readNumber h hstop hrest

/-! ### Containers -/

theorem verbatim_of_mark {c : Char} (hc : Ends c) (h : skipBlanks cs = c :: rest) (hrest : Verbatim rest) :
    Verbatim cs ∧ StopsAt continues cs := by
  constructor
  · apply verbatim_of_skipBlanks
    rw [h]
    exact hrest.cons_mark hc.mark
  · apply stopsAt_of_skipBlanks
    rw [h]
    exact stopsAt_cons.2 hc.stops

theorem verbatim_readMore {closing : Char} (hclosing : Ends closing)
    {more : List Char → Option (List α × List Char)} {values : List α}
    (hmore : ∀ {cs values}, more cs = some (values, rest) → Verbatim cs)
    (h : readMore closing more cs = some (values, rest)) (hrest : Verbatim rest) :
    Verbatim cs ∧ StopsAt continues cs := by
  rw [readMore.eq_def] at h
  split at h
  · rename_i c tail hskip
    split at h
    · rename_i hc
      cases h
      exact verbatim_of_mark (hc ▸ hclosing) hskip hrest
    · split at h
      · rename_i hc
        exact verbatim_of_mark (hc ▸ ends_comma) hskip (hmore h)
      · cases h
  · cases h

variable {closing : Char} {part : List Char → Option (α × List Char)}

theorem verbatim_readParts (hclosing : Ends closing) (hpart : Keeps part) {fuel : ℕ}
    {values : List α} (h : readParts closing part fuel cs = some (values, rest))
    (hrest : Verbatim rest) : Verbatim cs := by
  induction fuel generalizing cs values with
  | zero => cases h
  | succ fuel ih =>
    obtain ⟨⟨first, tail⟩, hfirst, h⟩ := Option.bind_eq_some_iff.1 h
    obtain ⟨⟨others, last⟩, hothers, hsame⟩ := Option.bind_eq_some_iff.1 h
    cases hsame
    obtain ⟨htail, hstop⟩ := verbatim_readMore hclosing ih hothers hrest
    exact verbatim_of_skipBlanks (hpart hfirst hstop htail)

/-- A list whose parts are kept is verbatim, and the bracket that closes it ends it. -/
theorem verbatim_readList (hclosing : Ends closing) (hpart : Keeps part) {values : List α}
    (h : readList closing part cs = some (values, rest)) (hrest : Verbatim rest) : Verbatim cs := by
  rw [readList.eq_def] at h
  split at h
  · rename_i c tail hskip
    split at h
    · rename_i hc
      cases h
      exact (verbatim_of_mark (hc ▸ hclosing) hskip hrest).1
    · apply verbatim_of_skipBlanks
      rw [hskip]
      exact verbatim_readParts hclosing hpart h hrest
  · cases h

theorem keeps_readField {value : List Char → Option (Json × List Char)} (hvalue : Keeps value) :
    Keeps (readField value) := by
  intro cs field rest h hstop hrest
  rw [readField.eq_def] at h
  split at h
  · obtain ⟨⟨key, tail⟩, hkey, h⟩ := Option.bind_eq_some_iff.1 h
    dsimp only at h
    split at h
    · rename_i more hcolon
      obtain ⟨⟨item, last⟩, hitem, hsame⟩ := Option.bind_eq_some_iff.1 h
      cases hsame
      have hmore : Verbatim more := verbatim_of_skipBlanks (hvalue hitem hstop hrest)
      have htail : Verbatim tail := by
        apply verbatim_of_skipBlanks
        rw [hcolon]
        exact hmore.cons_mark (by decide)
      exact verbatim_readText hkey htail
    · cases h
  · cases h

/-- **The reader of documents keeps**, at any depth. -/
theorem keeps_readValue (depth : ℕ) : Keeps (readValue depth) := by
  -- the parts of a container are one level less deep, and brackets are marks
  induction depth with
  | zero => exact keeps_readScalar
  | succ depth ih =>
    intro cs value rest h hstop hrest
    rw [readValue.eq_def] at h
    dsimp only at h
    split at h
    · exact keeps_readScalar h hstop hrest
    · rename_i inner cs hinner
      cases hinner
      obtain ⟨⟨items, tail⟩, hitems, hsame⟩ := Option.map_eq_some_iff.1 h
      cases hsame
      exact (verbatim_readList ends_bracket ih hitems hrest).cons_mark (by decide)
    · rename_i inner cs hinner
      cases hinner
      obtain ⟨⟨fields, tail⟩, hfields, hsame⟩ := Option.map_eq_some_iff.1 h
      cases hsame
      exact (verbatim_readList ends_brace (keeps_readField ih) hfields hrest).cons_mark (by decide)
    · exact keeps_readScalar h hstop hrest

/-! ### Whole texts -/

theorem verbatim_of_ofChars? {depth : ℕ} {document : Json} (h : ofChars? depth cs = some document) :
    Verbatim cs := by
  rw [ofChars?] at h
  split at h
  · rename_i found rest hvalue
    split at h
    · rename_i hend
      have hblank : skipBlanks rest = [] := List.isEmpty_iff.1 hend
      have hrest : Verbatim rest := verbatim_of_skipBlanks (hblank ▸ verbatim_nil)
      have hstop : StopsAt continues rest := stopsAt_of_skipBlanks (hblank ▸ stopsAt_nil)
      exact verbatim_of_skipBlanks (keeps_readValue _ hvalue hstop hrest)
    · cases h
  · cases h

/-- **The document of a text is the document of the same wire text.**  The pass changes no character
of a text that has a document. -/
theorem document?_of_ofText? {text : String} {document : Json} (h : Json.ofText? text = some document) :
    quoteWords (.between false) text.toList = some text.toList
    ∧ Wire.document? text = .ok document := by
  rw [ofText?] at h
  have hverbatim : Verbatim text.toList := verbatim_of_ofChars? h
  refine ⟨hverbatim, ?_⟩
  rw [Wire.document?, show quoteWords (.between false) text.toList = _ from hverbatim]
  dsimp only
  rw [h]

/-- A text whose strings and keys look like the bare words of wire text. -/
def keyLikeText : String :=
  "\x7b\"operator:\" : [\"operator: Equal\", -1.5e2, true, null, \"\\\"path:\", \x7b\x7d ]\x7d"

theorem document?_of_ofText?_keyLikeText :
    ∃ document, Json.ofText? keyLikeText = some document
      ∧ quoteWords (.between false) keyLikeText.toList = some keyLikeText.toList
      ∧ Wire.document? keyLikeText = .ok document := by
  obtain ⟨document, h⟩ := Option.isSome_iff_exists.1
    (show (Json.ofText? keyLikeText).isSome = true by decide +kernel)
  exact ⟨document, h, document?_of_ofText? h⟩

end VectorQuery.Wire
