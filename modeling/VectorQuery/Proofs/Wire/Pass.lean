import Mathlib
import VectorQuery.Proofs.Json.Number
import VectorQuery.Wire.Basic
import VectorQuery.Wire.Reader

/-!
# The pass over wire text

What the pass that quotes bare words makes of the parts of a wire text.  It holds a word back until
it ends, so a part is followed here by a text that does not go on with a word, a number or a key.

* `Passes` — what a part gives out, and the mode after it, whatever comes next;
* `passes_quote` — a quoted string comes out as it is, with everything that looks like a key inside
  it;
* `quoteWords_string` — the pass leaves a string where the reader of documents does;
* `passes_number`, `passes_word` — numbers and bare values come out as they are;
* `passes_key`, `passes_name` — keys, and the word after the key `operator`, come out in quotes.
-/

namespace VectorQuery.Wire

open Text Json

/-- The characters that go on with a part, or make a key of it. -/
def continues (c : Char) : Bool := continuesNumber c || continuesWord c || c = ':'

/-- A part gives out some characters and leaves the pass in some mode, whatever comes next. -/
def Passes (mode : Mode) (text out : List Char) (next : Mode) : Prop :=
  ∀ rest, StopsAt continues rest →
    quoteWords mode (text ++ rest) = (quoteWords next rest).map (out ++ ·)

theorem stopsAt_continuesNumber {rest : List Char} (h : StopsAt continues rest) :
    StopsAt continuesNumber rest :=
  h.mono fun c hc => by simp [continues, hc]

theorem stopsAt_continuesWord {rest : List Char} (h : StopsAt continues rest) :
    StopsAt continuesWord rest :=
  h.mono fun c hc => by simp [continues, hc]

/-! ### Step by step -/

theorem quoteWords_cons {mode next : Mode} {c : Char} {out : List Char}
    (h : mode.step c = (out, next))
    (rest : List Char) : quoteWords mode (c :: rest) = (quoteWords next rest).map (out ++ ·) := by
  rw [quoteWords, h]

/-- A stretch of text that is passed over character by character. -/
theorem quoteWords_run {mode : Mode} {run : List Char} (h : ∀ c ∈ run, mode.step c = ([c], mode))
    (rest : List Char) :
    quoteWords mode (run ++ rest) = (quoteWords mode rest).map (run ++ ·) := by
  induction run with
  | nil => exact Option.map_id'.symm
  | cons c run ih =>
    rw [List.cons_append, quoteWords_cons (h c List.mem_cons_self),
      ih fun d hd => h d (List.mem_cons_of_mem c hd), Option.map_map]
    rfl

/-- Whether a character stands for itself between parts. -/
def isMark (c : Char) : Bool := c ≠ '"' && !c.isDigit && c ≠ '-' && !startsWord c

theorem enter_mark {c : Char} (h : isMark c = true) (awaiting : Bool) :
    enter awaiting c = ([c], .between (awaiting && (c = ':' || isBlank c))) := by
  simp only [isMark, Bool.and_eq_true, Bool.not_eq_true', decide_eq_true_eq] at h
  obtain ⟨⟨⟨hquote, hdigit⟩, hminus⟩, hword⟩ := h
  simp [enter, hquote, hdigit, hminus, hword]

theorem quoteWords_mark {c : Char} (h : isMark c = true) (rest : List Char) :
    quoteWords (.between false) (c :: rest) = (quoteWords (.between false) rest).map (c :: ·) :=
  quoteWords_cons
    (show Mode.step (.between false) c = ([c], .between false) from enter_mark h false) rest

theorem Passes.mark {c : Char} (h : isMark c = true) {text out : List Char} {next : Mode}
    (hpasses : Passes (.between false) text out next) :
    Passes (.between false) (c :: text) (c :: out) next := by
  intro rest hrest
  rw [List.cons_append, quoteWords_mark h, hpasses rest hrest, Option.map_map]
  rfl

theorem passes_nil (mode : Mode) : Passes mode [] [] mode := by
  intro rest _
  exact Option.map_id'.symm

/-- One part after the other: the second begins with a character that ends the first. -/
theorem Passes.append {mode next last : Mode} {text out more : List Char} {c : Char}
    {cs : List Char}
    (hfirst : Passes mode text out next) (hsecond : Passes next (c :: cs) more last)
    (hc : continues c = false) :
    Passes mode (text ++ c :: cs) (out ++ more) last := by
  intro rest hrest
  rw [List.append_assoc, hfirst (c :: cs ++ rest) (stopsAt_cons.2 hc), hsecond rest hrest,
    Option.map_map]
  congr 1
  funext tail
  simp

/-! ### Quoted strings -/

/-- The escape of a character neither ends the string nor leaves a backslash open. -/
theorem quoteWords_escape (c : Char) (rest : List Char) :
    quoteWords .string (Quoted.escape c ++ rest)
      = (quoteWords .string rest).map (Quoted.escape c ++ ·) := by
  have hpair : ∀ d ds,
      quoteWords .string ('\\' :: d :: ds) = (quoteWords .string ds).map ('\\' :: d :: ·) := by
    intro d ds
    rw [quoteWords_cons (show Mode.step .string '\\' = (['\\'], .escape) from rfl),
      quoteWords_cons (show Mode.step .escape d = ([d], .string) from rfl), Option.map_map]
    rfl
  have hplain : ∀ d, d ≠ '"' → d ≠ '\\' → Mode.step .string d = ([d], .string) := by
    intro d hquote hslash
    simp [Mode.step, hquote, hslash]
  have hdigit : ∀ n < 16, Nat.digitChar n ≠ '"' ∧ Nat.digitChar n ≠ '\\' := by decide
  unfold Quoted.escape
  repeat' split
  -- the last two cases are an escape by number and a character that stands for itself
  all_goals try exact hpair _ rest
  · rename_i hcontrol
    have hhigh := hdigit (c.toNat / 16) (by omega)
    have hlow := hdigit (c.toNat % 16) (by omega)
    have hrun : ∀ d ∈ ['0', '0', Nat.digitChar (c.toNat / 16), Nat.digitChar (c.toNat % 16)],
        Mode.step .string d = ([d], .string) := by
      intro d hd
      simp only [List.mem_cons, List.not_mem_nil, or_false] at hd
      rcases hd with rfl | rfl | rfl | rfl
      · rfl
      · rfl
      · exact hplain _ hhigh.1 hhigh.2
      · exact hplain _ hlow.1 hlow.2
    show quoteWords .string ('\\' :: 'u' :: (['0', '0', _, _] ++ rest)) = _
    rw [hpair, quoteWords_run hrun, Option.map_map]
    rfl
  · rename_i hquote hslash _ _ _ _ _ _
    exact quoteWords_cons (hplain c hquote hslash) rest

theorem quoteWords_encode (cs rest : List Char) :
    quoteWords .string (Quoted.encode cs ++ rest)
      = (quoteWords .string rest).map (Quoted.encode cs ++ ·) := by
  induction cs with
  | nil => exact Option.map_id'.symm
  | cons c cs ih =>
    rw [Quoted.encode_cons, List.append_assoc, quoteWords_escape, ih, Option.map_map]
    congr 1
    funext tail
    simp

/-- A quoted string comes out as it is. -/
theorem passes_quote (text : String) :
    Passes (.between false) (quote text).toList (quote text).toList (.between false) := by
  intro rest _
  rw [quote_toList, List.cons_append, List.append_assoc,
    quoteWords_cons (show Mode.step (.between false) '"' = (['"'], .string) from rfl),
    quoteWords_encode, List.singleton_append,
    quoteWords_cons (show Mode.step .string '"' = (['"'], .between false) from rfl),
    Option.map_map, Option.map_map]
  congr 1
  funext tail
  simp

/-- A text that is cut at its closing quote. -/
theorem splitClosing_eq_append {cs body rest : List Char}
    (h : Quoted.splitClosing cs = some (body, rest)) : cs = body ++ '"' :: rest := by
  fun_induction Quoted.splitClosing cs generalizing body with
  | case1 => cases h
  | case2 cs =>
    cases h
    rfl
  | case3 c cs ih =>
    obtain ⟨⟨inner, tail⟩, hinner, hsame⟩ := Option.map_eq_some_iff.1 h
    cases hsame
    rw [ih hinner]
    rfl
  | case4 c cs _ _ ih =>
    obtain ⟨⟨inner, tail⟩, hinner, hsame⟩ := Option.map_eq_some_iff.1 h
    cases hsame
    rw [ih hinner]
    rfl

/-- From inside a string, the pass copies what stands up to the closing quote, and fails where there is
none. -/
theorem quoteWords_string (cs : List Char) :
    quoteWords .string cs
      = match Quoted.splitClosing cs with
        | some (body, rest) => (quoteWords (.between false) rest).map (body ++ '"' :: ·)
        | none => none := by
  fun_induction Quoted.splitClosing cs with
  | case1 => rfl
  | case2 cs => exact quoteWords_cons rfl cs
  | case3 c cs ih =>
    rw [quoteWords_cons (show Mode.step .string '\\' = (['\\'], .escape) from rfl),
      quoteWords_cons (show Mode.step .escape c = ([c], .string) from rfl), ih]
    cases Quoted.splitClosing cs with
    | none => rfl
    | some cut => simp [Function.comp_def]
  | case4 c cs hquote hslash ih =>
    by_cases hc : c = '\\'
    · -- a backslash with nothing behind it ends no string
      have hcs : cs = [] := by
        cases cs with
        | nil => rfl
        | cons d ds => exact (hslash d ds hc rfl).elim
      subst hc hcs
      rfl
    · have hstep : Mode.step .string c = ([c], .string) := by
        simp [Mode.step, hc, show c ≠ '"' from hquote]
      rw [quoteWords_cons hstep, ih]
      cases Quoted.splitClosing cs with
      | none => rfl
      | some cut => simp [Function.comp_def]

/-! ### Numbers -/

/-- A number comes out as it is. -/
theorem passes_number {number : List Char} (h : Signed number) :
    Passes (.between false) number number (.between false) := by
  obtain ⟨c, cs, rfl, hc⟩ := h.head
  have hfirst : Mode.step (.between false) c = ([c], .number) := by
    have hquote : c ≠ '"' := ne_of_kind hc (by decide)
    show enter false c = _
    rw [enter, if_neg hquote]
    exact if_pos hc
  have hrun : ∀ d ∈ cs, Mode.step .number d = ([d], .number) := by
    intro d hd
    exact if_pos (h.continues d (List.mem_cons_of_mem c hd))
  -- after a number the pass goes on as between parts
  have hend : ∀ rest, StopsAt continues rest →
      quoteWords .number rest = quoteWords (.between false) rest := by
    intro rest hrest
    cases rest with
    | nil => rfl
    | cons d ds =>
      have hd := stopsAt_cons.1 (stopsAt_continuesNumber hrest)
      have hstep : Mode.step .number d = Mode.step (.between false) d := if_neg (by simp [hd])
      rw [quoteWords, hstep, quoteWords]
  intro rest hrest
  rw [List.cons_append, quoteWords_cons hfirst, quoteWords_run hrun, hend rest hrest,
    Option.map_map]
  rfl

/-! ### Bare words -/

theorem not_isDigit_of_startsWord {c : Char} (h : startsWord c = true) : c.isDigit = false := by
  simp [startsWord, Char.isAlpha, Char.isUpper, Char.isLower, Char.isDigit, UInt32.le_iff_toNat_le,
    Char.ext_iff, ← UInt32.toNat_inj] at h ⊢
  omega

theorem continuesWord_of_startsWord {c : Char} (h : startsWord c = true) :
    continuesWord c = true := by
  simp only [startsWord, Bool.or_eq_true] at h
  simp only [continuesWord, Char.isAlphanum, Bool.or_eq_true]
  exact h.imp Or.inl id

/-- Whether a text is a bare word: a letter or underscore, then letters, digits and underscores. -/
def isBareWord : List Char → Bool
  | [] => false
  | c :: cs => startsWord c && cs.all continuesWord

theorem isBareWord_cons {word : List Char} (h : isBareWord word = true) :
    ∃ c cs, word = c :: cs ∧ startsWord c = true ∧ ∀ d ∈ cs, continuesWord d = true := by
  cases word with
  | nil => cases h
  | cons c cs =>
    rw [isBareWord, Bool.and_eq_true, List.all_eq_true] at h
    exact ⟨c, cs, rfl, h.1, h.2⟩

theorem continuesWord_of_isBareWord {word : List Char} (h : isBareWord word = true) :
    ∀ c ∈ word, continuesWord c = true := by
  obtain ⟨c, cs, rfl, hstart, hall⟩ := isBareWord_cons h
  intro d hd
  rcases List.mem_cons.1 hd with rfl | hd
  · exact continuesWord_of_startsWord hstart
  · exact hall d hd

theorem quoteWords_letters (awaiting : Bool) (letters more rest : List Char)
    (hmore : ∀ c ∈ more, continuesWord c = true) :
    quoteWords (.word awaiting letters) (more ++ rest)
      = quoteWords (.word awaiting (letters ++ more)) rest := by
  induction more generalizing letters with
  | nil => rw [List.nil_append, List.append_nil]
  | cons c more ih =>
    have hstep : Mode.step (.word awaiting letters) c = ([], .word awaiting (letters ++ [c])) :=
      if_pos (hmore c List.mem_cons_self)
    rw [List.cons_append, quoteWords_cons hstep, ih _ fun d hd => hmore d (List.mem_cons_of_mem c hd),
      List.append_assoc]
    exact Option.map_id'

/-- A bare word is held back. -/
theorem quoteWords_word {word : List Char} (h : isBareWord word = true) (awaiting : Bool)
    (rest : List Char) :
    quoteWords (.between awaiting) (word ++ rest) = quoteWords (.word awaiting word) rest := by
  obtain ⟨c, cs, rfl, hstart, hall⟩ := isBareWord_cons h
  have hstep : Mode.step (.between awaiting) c = ([], .word awaiting [c]) := by
    have hquote : c ≠ '"' := ne_of_kind hstart (by decide)
    have hminus : c ≠ '-' := ne_of_kind hstart (by decide)
    show enter awaiting c = _
    simp [enter, hquote, hminus, not_isDigit_of_startsWord hstart, hstart]
  rw [List.cons_append, quoteWords_cons hstep,
    quoteWords_letters awaiting [c] cs rest hall]
  exact Option.map_id'

/-- The end of a word that is no key. -/
theorem quoteWords_close (awaiting : Bool) (letters : List Char) {rest : List Char}
    (hrest : StopsAt continues rest) :
    quoteWords (.word awaiting letters) rest
      = (quoteWords (.between false) rest).map ((closeWord awaiting letters false).1 ++ ·) := by
  cases rest with
  | nil => simp [quoteWords, Mode.finish]
  | cons c cs =>
    have hword := stopsAt_cons.1 (stopsAt_continuesWord hrest)
    have hcolon : c ≠ ':' := by
      intro heq
      subst heq
      exact absurd (stopsAt_cons.1 hrest) (by decide)
    have hclosed : (closeWord awaiting letters false).2 = false := by cases awaiting <;> rfl
    have hstep : Mode.step (.word awaiting letters) c
        = ((closeWord awaiting letters false).1 ++ (enter false c).1, (enter false c).2) := by
      simp [Mode.step, hword, hcolon, hclosed]
    rw [quoteWords_cons hstep, quoteWords]
    show _ = ((quoteWords (enter false c).2 cs).map ((enter false c).1 ++ ·)).map _
    rw [Option.map_map]
    congr 1
    funext tail
    simp

/-- A bare value comes out as it is. -/
theorem passes_word {word : List Char} (h : isBareWord word = true) :
    Passes (.between false) word word (.between false) := by
  intro rest hrest
  rw [quoteWords_word h, quoteWords_close false word hrest]
  rfl

/-- The name of an operator, after its key, comes out in quotes. -/
theorem passes_name {name : List Char} (h : isBareWord name = true) :
    Passes (.between true) name ('"' :: name ++ ['"']) (.between false) := by
  intro rest hrest
  rw [quoteWords_word h, quoteWords_close true name hrest]
  rfl

/-- A key comes out in quotes; after the key `operator` a name is awaited. -/
theorem quoteWords_key {key : List Char} (h : isBareWord key = true) (rest : List Char) :
    quoteWords (.between false) (key ++ ':' :: ' ' :: rest)
      = (quoteWords (.between (key = operatorKey)) rest).map ('"' :: key ++ ['"', ':', ' '] ++ ·) := by
  have hcolon : Mode.step (.word false key) ':'
      = ('"' :: key ++ ['"'] ++ [':'], .between (key = operatorKey)) := by
    have hmark := enter_mark (show isMark ':' = true by decide) (decide (key = operatorKey))
    rw [Mode.step, if_neg (by decide)]
    simp [closeWord, hmark]
  have hblank : Mode.step (.between (key = operatorKey)) ' '
      = ([' '], .between (key = operatorKey)) := by
    have hmark := enter_mark (show isMark ' ' = true by decide) (decide (key = operatorKey))
    show enter (decide (key = operatorKey)) ' ' = _
    rw [hmark, show (decide (' ' = ':') || isBlank ' ') = true by decide, Bool.and_true]
  rw [quoteWords_word h, quoteWords_cons hcolon, quoteWords_cons hblank, Option.map_map]
  congr 1
  funext tail
  simp

end VectorQuery.Wire
