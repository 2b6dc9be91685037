import Mathlib
import VectorQuery.Proofs.Wire.Delimited
import VectorQuery.Proofs.Wire.Verbatim

/-!
# Brackets of wire text

The brackets and braces that stand outside of strings are counted: an opening one as `+1`, a closing
one as `-1`.  The reader of documents reads texts in balance only, and the pass that quotes the bare
words keeps the balance, wherever the text ends.  So a text with an open bracket has no document.

* `Quoting`, `Quoting.step` — whether a character stands in a string, and behind a backslash there;
* `balance` — the brackets that a text opens, less those that it closes;
* `Balances`, `balances_readValue` — a reader takes as many closing brackets as opening ones;
* `Mirrors`, `balance_quoteWords` — what comes out of the pass has the balance of what went in;
* `document?_of_balance` — **a text out of balance has no document**;
* `Nested` — a stretch of text that closes its own brackets only, put together from its parts;
* `Enclosed` — a pair of braces around such a stretch: some bracket is open until the last character.
-/

namespace VectorQuery.Wire

open Text Json

/-! ### Counting -/

/-- Where a character stands: outside of strings, inside of one, or behind a backslash inside. -/
inductive Quoting
  | outside
  | inside
  | escaped
deriving DecidableEq

/-- Where the next character stands. -/
def Quoting.step : Quoting → Char → Quoting
  | .outside, c => if c = '"' then .inside else .outside
  | .inside, c => if c = '\\' then .escaped else if c = '"' then .outside else .inside
  | .escaped, _ => .inside

/-- What a character counts: brackets count outside of strings only. -/
def Quoting.weight : Quoting → Char → ℤ
  | .outside, c => if c = '[' ∨ c = '\x7b' then 1 else if c = ']' ∨ c = '\x7d' then -1 else 0
  | .inside, _ => 0
  | .escaped, _ => 0

/-- The brackets that a text opens, less those that it closes. -/
def balance (quoting : Quoting) : List Char → ℤ
  | [] => 0
  | c :: cs => quoting.weight c + balance (quoting.step c) cs

/-- Where a text ends. -/
def Quoting.run (quoting : Quoting) (cs : List Char) : Quoting := cs.foldl step quoting

variable {here there last : Quoting} {c : Char} {cs ds rest : List Char}

theorem balance_append (here : Quoting) (cs ds : List Char) :
    balance here (cs ++ ds) = balance here cs + balance (here.run cs) ds := by
  induction cs generalizing here with
  | nil => exact (zero_add _).symm
  | cons c cs ih =>
    rw [List.cons_append, balance, ih, balance, add_assoc]
    rfl

theorem run_append (here : Quoting) (cs ds : List Char) :
    here.run (cs ++ ds) = (here.run cs).run ds :=
  List.foldl_append

/-- The characters that count for nothing outside of strings and begin none. -/
def isPlain (c : Char) : Bool := c ≠ '"' && c ≠ '[' && c ≠ '\x7b' && c ≠ ']' && c ≠ '\x7d'

theorem isPlain_iff :
    isPlain c = true ↔ c ≠ '"' ∧ c ≠ '[' ∧ c ≠ '\x7b' ∧ c ≠ ']' ∧ c ≠ '\x7d' := by
  simp [isPlain, and_assoc]

theorem isPlain_of_kind {kind : Char → Bool} (h : kind c = true)
    (hmarks : (['"', '[', '\x7b', ']', '\x7d'].any kind) = false) : isPlain c = true := by
  simp only [List.any_cons, List.any_nil, Bool.or_eq_false_iff] at hmarks
  obtain ⟨hquote, hlist, hrecord, hlist', hrecord', -⟩ := hmarks
  exact isPlain_iff.2 ⟨ne_of_kind h hquote, ne_of_kind h hlist, ne_of_kind h hrecord,
    ne_of_kind h hlist', ne_of_kind h hrecord'⟩

theorem isPlain_of_isSpace (h : isSpace c = true) : isPlain c = true :=
  isPlain_of_kind h (by decide)

theorem isPlain_of_continuesNumber (h : continuesNumber c = true) : isPlain c = true :=
  isPlain_of_kind h (by decide)

theorem isPlain_of_continuesWord (h : continuesWord c = true) : isPlain c = true :=
  isPlain_of_kind h (by decide)

theorem step_plain (h : isPlain c = true) : Quoting.outside.step c = .outside :=
  if_neg (isPlain_iff.1 h).1

theorem weight_plain (h : isPlain c = true) : Quoting.outside.weight c = 0 := by
  obtain ⟨-, hlist, hrecord, hlist', hrecord'⟩ := isPlain_iff.1 h
  rw [Quoting.weight, if_neg (not_or.2 ⟨hlist, hrecord⟩), if_neg (not_or.2 ⟨hlist', hrecord'⟩)]

theorem balance_cons_plain (h : isPlain c = true) (cs : List Char) :
    balance .outside (c :: cs) = balance .outside cs := by
  rw [balance, weight_plain h, step_plain h, zero_add]

/-- A stretch of plain characters does not count. -/
theorem balance_plain {part : List Char} (h : ∀ c ∈ part, isPlain c = true) (rest : List Char) :
    balance .outside (part ++ rest) = balance .outside rest := by
  induction part with
  | nil => rfl
  | cons c part ih =>
    rw [List.forall_mem_cons] at h
    rw [List.cons_append, balance_cons_plain h.1, ih h.2]

/-! ### Documents are in balance -/

variable {α : Type}

/-- What a reader takes is in balance, whatever it leaves. -/
def Balances (read : List Char → Option (α × List Char)) : Prop :=
  ∀ {cs value rest}, read cs = some (value, rest) → balance .outside cs = balance .outside rest

theorem balance_skipBlanks (cs : List Char) :
    balance .outside (skipBlanks cs) = balance .outside cs := by
  have hspaces : ∀ c ∈ cs.takeWhile isSpace, isPlain c = true := fun c hc =>
    isPlain_of_isSpace (List.mem_takeWhile_imp hc)
  rw [skipBlanks, ← balance_plain hspaces, List.takeWhile_append_dropWhile]

theorem balance_of_skipBlanks (h : skipBlanks cs = c :: rest) :
    balance .outside cs = balance .outside (c :: rest) := by
  rw [← h, balance_skipBlanks]

/-- Brackets inside of a string do not count. -/
theorem balance_splitClosing {body : List Char} (h : Quoted.splitClosing cs = some (body, rest)) :
    balance .inside cs = balance .outside rest := by
  fun_induction Quoted.splitClosing cs generalizing body with
  | case1 => cases h
  | case2 cs =>
    cases h
    exact zero_add _
  | case3 c cs ih =>
    obtain ⟨⟨inner, tail⟩, hinner, hsame⟩ := Option.map_eq_some_iff.1 h
    cases hsame
    have hpair : balance .inside ('\\' :: c :: cs) = 0 + (0 + balance .inside cs) := rfl
    rw [hpair, zero_add, zero_add, ih hinner]
  | case4 c cs hquote hslash ih =>
    obtain ⟨⟨inner, tail⟩, hinner, hsame⟩ := Option.map_eq_some_iff.1 h
    cases hsame
    -- a backslash with nothing behind it ends no string
    have hplain : c ≠ '\\' := by
      intro hc
      cases cs with
      | nil => cases hinner
      | cons d ds => exact hslash d ds hc rfl
    have hstep : Quoting.inside.step c = .inside := by
      rw [Quoting.step, if_neg hplain, if_neg hquote]
    rw [balance, hstep, ih hinner]
    exact zero_add _

theorem balance_readText {text : String} (h : readText cs = some (text, rest)) :
    balance .outside ('"' :: cs) = balance .outside rest := by
  obtain ⟨⟨body, tail⟩, hbody, h⟩ := Option.bind_eq_some_iff.1 h
  obtain ⟨chars, -, hsame⟩ := Option.bind_eq_some_iff.1 h
  cases hsame
  have hquote : balance .outside ('"' :: cs) = 0 + balance .inside cs := rfl
  rw [hquote, zero_add, balance_splitClosing hbody]

theorem balances_readNumber : Balances readNumber := by
  intro cs value rest h
  obtain ⟨number, rfl, hnumber⟩ := numberText_of_readNumber h
  exact balance_plain (fun c hc => isPlain_of_continuesNumber (hnumber.signed.continues c hc)) rest

theorem balances_readScalar : Balances readScalar := by
  intro cs value rest h
  have hword : ∀ {c : Char} {word cs : List Char} {f : List Char → Json × List Char},
      (c :: word).all isPlain = true → (∀ rest, (f rest).2 = rest) →
      (readWord word cs).map f = some (value, rest) →
      balance .outside (c :: cs) = balance .outside rest := by
    intro c word cs f hplain hf hmap
    obtain ⟨tail, htail, hsame⟩ := Option.map_eq_some_iff.1 hmap
    have hsame : tail = rest := by rw [← hf tail, hsame]
    subst hsame
    rw [eq_append_of_readWord htail]
    exact balance_plain (List.all_eq_true.1 hplain) tail
  rw [readScalar.eq_def] at h
  split at h
  · obtain ⟨⟨text, tail⟩, htext, hsame⟩ := Option.map_eq_some_iff.1 h
    cases hsame
    exact balance_readText htext
  · exact hword (by decide) (fun _ => rfl) h
  · exact hword (by decide) (fun _ => rfl) h
  · exact hword (by decide) (fun _ => rfl) h
  · exact balances_readNumber h

/-- A bracket that opens a list. -/
def Opens (c : Char) : Prop := ∀ rest, balance .outside (c :: rest) = 1 + balance .outside rest

/-- A bracket that closes a list. -/
def Closes (c : Char) : Prop := ∀ rest, balance .outside (c :: rest) = balance .outside rest - 1

theorem opens_bracket : Opens '[' := fun _ => rfl

theorem opens_brace : Opens '\x7b' := fun _ => rfl

theorem closes_bracket : Closes ']' := by
  intro rest
  have h : balance .outside (']' :: rest) = -1 + balance .outside rest := rfl
  omega

theorem closes_brace : Closes '\x7d' := by
  intro rest
  have h : balance .outside ('\x7d' :: rest) = -1 + balance .outside rest := rfl
  omega

variable {closing : Char} {part : List Char → Option (α × List Char)} {values : List α}

theorem balance_readMore (hclosing : Closes closing)
    {more : List Char → Option (List α × List Char)}
    (hmore : ∀ {cs values}, more cs = some (values, rest) →
      balance .outside cs = balance .outside rest - 1)
    (h : readMore closing more cs = some (values, rest)) :
    balance .outside cs = balance .outside rest - 1 := by
  rw [readMore.eq_def] at h
  split at h
  · rename_i c tail hskip
    rw [balance_of_skipBlanks hskip]
    split at h
    · rename_i hc
      cases h
      rw [hc, hclosing]
    · split at h
      · rename_i hc
        rw [hc, balance_cons_plain (by decide), hmore h]
      · cases h
  · cases h

theorem balance_readParts (hclosing : Closes closing) (hpart : Balances part) {fuel : ℕ}
    (h : readParts closing part fuel cs = some (values, rest)) :
    balance .outside cs = balance .outside rest - 1 := by
  induction fuel generalizing cs values with
  | zero => cases h
  | succ fuel ih =>
    obtain ⟨⟨first, tail⟩, hfirst, h⟩ := Option.bind_eq_some_iff.1 h
    obtain ⟨⟨others, end'⟩, hothers, hsame⟩ := Option.bind_eq_some_iff.1 h
    cases hsame
    rw [← balance_skipBlanks, hpart hfirst, balance_readMore hclosing ih hothers]

/-- A list takes the bracket that closes it, and else what its parts take. -/
theorem balance_readList (hclosing : Closes closing) (hpart : Balances part)
    (h : readList closing part cs = some (values, rest)) :
    balance .outside cs = balance .outside rest - 1 := by
  rw [readList.eq_def] at h
  split at h
  · rename_i c tail hskip
    rw [balance_of_skipBlanks hskip]
    split at h
    · rename_i hc
      cases h
      rw [hc, hclosing]
    · exact balance_readParts hclosing hpart h
  · cases h

theorem balances_readField {value : List Char → Option (Json × List Char)} (hvalue : Balances value) :
    Balances (readField value) := by
  intro cs field rest h
  rw [readField.eq_def] at h
  split at h
  · obtain ⟨⟨key, tail⟩, hkey, h⟩ := Option.bind_eq_some_iff.1 h
    dsimp only at h
    split at h
    · rename_i more hcolon
      obtain ⟨⟨item, end'⟩, hitem, hsame⟩ := Option.bind_eq_some_iff.1 h
      cases hsame
      rw [balance_readText hkey, balance_of_skipBlanks hcolon, balance_cons_plain (by decide),
        ← balance_skipBlanks, hvalue hitem]
    · cases h
  · cases h

/-- **The reader of documents takes texts in balance**, at any depth. -/
theorem balances_readValue (depth : ℕ) : Balances (readValue depth) := by
  -- the parts of a container are one level less deep; its two brackets make up for each other
  induction depth with
  | zero => exact balances_readScalar
  | succ depth ih =>
    intro cs value rest h
    rw [readValue.eq_def] at h
    dsimp only at h
    split at h
    · exact balances_readScalar h
    · rename_i inner cs hinner
      cases hinner
      obtain ⟨⟨items, tail⟩, hitems, hsame⟩ := Option.map_eq_some_iff.1 h
      cases hsame
      have hlist := balance_readList closes_bracket ih hitems
      rw [opens_bracket, hlist]
      exact add_sub_cancel 1 _
    · rename_i inner cs hinner
      cases hinner
      obtain ⟨⟨fields, tail⟩, hfields, hsame⟩ := Option.map_eq_some_iff.1 h
      cases hsame
      have hlist := balance_readList closes_brace (balances_readField ih) hfields
      rw [opens_brace, hlist]
      exact add_sub_cancel 1 _
    · exact balances_readScalar h

theorem balance_of_ofChars? {depth : ℕ} {document : Json} (h : ofChars? depth cs = some document) :
    balance .outside cs = 0 := by
  rw [ofChars?] at h
  split at h
  · rename_i found rest hvalue
    split at h
    · rename_i hend
      have hblank : skipBlanks rest = [] := List.isEmpty_iff.1 hend
      rw [← balance_skipBlanks, balances_readValue depth hvalue, ← balance_skipBlanks, hblank]
      rfl
    · cases h
  · cases h

/-! ### The pass keeps the balance -/

/-- Where the pass is, as far as strings go. -/
def Mode.quoting : Mode → Quoting
  | .between _ => .outside
  | .number => .outside
  | .word _ _ => .outside
  | .string => .inside
  | .escape => .escaped

/-- What the pass holds back is the beginning of a word. -/
def Mode.Sound : Mode → Prop
  | .word _ letters => ∀ c ∈ letters, continuesWord c = true
  | _ => True

/-- What the pass makes of a character: what it gives out counts what the character counts, and it is
then where the character leads. -/
structure Mirrors (here : Quoting) (c : Char) (out : List Char) (next : Mode) : Prop where
  sound : next.Sound
  quoting : next.quoting = here.step c
  balance : ∀ ds, balance here (out ++ ds) = here.weight c + balance (here.step c) ds

/-- A character that is given out as it is. -/
theorem mirrors_self {next : Mode} (hsound : next.Sound) (hnext : next.quoting = here.step c) :
    Mirrors here c [c] next :=
  ⟨hsound, hnext, fun _ => rfl⟩

/-- A character of a word that is held back. -/
theorem mirrors_held {awaiting : Bool} {letters : List Char}
    (hletters : ∀ d ∈ letters, continuesWord d = true) (hc : continuesWord c = true) :
    Mirrors .outside c [] (.word awaiting (letters ++ [c])) := by
  have hplain := isPlain_of_continuesWord hc
  refine ⟨?_, (step_plain hplain).symm, ?_⟩
  · intro d hd
    rcases List.mem_append.1 hd with hd | hd
    · exact hletters d hd
    · rwa [List.mem_singleton.1 hd]
  · intro ds
    rw [step_plain hplain, weight_plain hplain, zero_add]
    rfl

theorem mirrors_enter (awaiting : Bool) (c : Char) :
    Mirrors .outside c (enter awaiting c).1 (enter awaiting c).2 := by
  rw [enter]
  split
  next hquote =>
    exact mirrors_self trivial (if_pos hquote).symm
  next hquote =>
    have hstep : Quoting.outside.step c = .outside := if_neg hquote
    split
    next => exact mirrors_self trivial hstep.symm
    next =>
      split
      next hstart =>
        exact mirrors_held (List.forall_mem_nil _) (continuesWord_of_startsWord hstart)
      next => exact mirrors_self trivial hstep.symm

/-- A complete word does not count, with quotes around it or without. -/
theorem balance_closeWord {letters : List Char} (h : ∀ c ∈ letters, continuesWord c = true)
    (awaiting isKey : Bool) (rest : List Char) :
    balance .outside ((closeWord awaiting letters isKey).1 ++ rest) = balance .outside rest := by
  have hbare := balance_plain (fun c hc => isPlain_of_continuesWord (h c hc)) rest
  have hrun : ∀ more, (∀ c ∈ more, continuesWord c = true) →
      balance .inside (more ++ '"' :: rest) = balance .outside rest := by
    intro more hmore
    induction more with
    | nil => exact zero_add _
    | cons c more ih =>
      rw [List.forall_mem_cons] at hmore
      have hstep : Quoting.inside.step c = .inside := by
        rw [Quoting.step, if_neg (ne_of_kind hmore.1 (by decide)), if_neg (ne_of_kind hmore.1 (by decide))]
      rw [List.cons_append, balance, hstep, ih hmore.2]
      exact zero_add _
  have hquoted : balance .outside ('"' :: letters ++ ['"'] ++ rest) = balance .outside rest := by
    rw [List.append_assoc, List.cons_append, balance]
    exact (zero_add _).trans (hrun letters h)
  rw [closeWord]
  split
  next => exact hquoted
  next =>
    split
    next => exact hquoted
    next => exact hbare

/-- The step lemma: whatever the pass is inside of, it mirrors each character. -/
theorem mirrors_step {mode : Mode} (h : mode.Sound) (c : Char) :
    Mirrors mode.quoting c (mode.step c).1 (mode.step c).2 := by
  cases mode with
  | between awaiting => exact mirrors_enter awaiting c
  | number =>
    rw [Mode.step]
    split
    next hc => exact mirrors_self trivial (step_plain (isPlain_of_continuesNumber hc)).symm
    next => exact mirrors_enter false c
  | word awaiting letters =>
    rw [Mode.step]
    split
    next hc => exact mirrors_held h hc
    next =>
      have hafter := mirrors_enter (closeWord awaiting letters (c = ':')).2 c
      refine ⟨hafter.sound, hafter.quoting, ?_⟩
      intro ds
      rw [List.append_assoc]
      exact (balance_closeWord h awaiting _ _).trans (hafter.balance ds)
  | string =>
    by_cases hslash : c = '\\'
    · subst hslash
      exact mirrors_self trivial rfl
    by_cases hquote : c = '"'
    · subst hquote
      exact mirrors_self trivial rfl
    · rw [Mode.step, if_neg hslash, if_neg hquote]
      refine mirrors_self trivial ?_
      rw [Mode.quoting, Quoting.step, if_neg hslash, if_neg hquote]
  | escape => exact mirrors_self trivial rfl

/-- **The pass keeps the balance.** -/
theorem balance_quoteWords {mode : Mode} {quoted : List Char} (hmode : mode.Sound)
    (h : quoteWords mode cs = some quoted) :
    balance mode.quoting quoted = balance mode.quoting cs := by
  -- the mode is general, since a word that is held back comes out later
  induction cs generalizing mode quoted with
  | nil =>
    cases mode with
    | between awaiting => cases h; rfl
    | number => cases h; rfl
    | word awaiting letters =>
      cases h
      have hword := balance_closeWord hmode awaiting false []
      rwa [List.append_nil] at hword
    | string => cases h
    | escape => cases h
  | cons c cs ih =>
    obtain ⟨rest, hrest, rfl⟩ := Option.map_eq_some_iff.1 h
    have hstep := mirrors_step hmode c
    have hkept := ih hstep.sound hrest
    rw [hstep.quoting] at hkept
    rw [hstep.balance, hkept]
    rfl

/-- **A text out of balance has no document.** -/
theorem document?_of_balance {text : String} (h : balance .outside text.toList ≠ 0) :
    ∃ reason, document? text = .error (.unreadableWire reason) := by
  rw [document?]
  cases hpass : quoteWords (.between false) text.toList with
  | none => exact ⟨_, rfl⟩
  | some quoted =>
    have hsound : Mode.Sound (.between false) := trivial
    have hquoted : balance .outside quoted = balance .outside text.toList :=
      balance_quoteWords hsound hpass
    cases hread : ofChars? maxDepth quoted with
    | none => exact ⟨unstatedReason, by dsimp only; rw [hread]⟩
    | some document => exact absurd (hquoted ▸ balance_of_ofChars? hread) h

/-! ### Texts put together -/

/-- A stretch of text that closes its own brackets and no others. -/
structure Nested (here : Quoting) (cs : List Char) (there : Quoting) : Prop where
  run : here.run cs = there
  level : balance here cs = 0
  start : ∀ p, p <+: cs → 0 ≤ balance here p

theorem nested_nil (here : Quoting) : Nested here [] here where
  run := rfl
  level := rfl
  start := fun p hp => by rw [List.prefix_nil.1 hp, balance]

theorem Nested.append (h : Nested here cs there) (hds : Nested there ds last) :
    Nested here (cs ++ ds) last where
  run := by rw [run_append, h.run, hds.run]
  level := by rw [balance_append, h.run, h.level, hds.level, add_zero]
  start := by
    intro p hp
    rcases List.prefix_or_prefix_of_prefix hp (List.prefix_append cs ds) with hcs | ⟨tail, rfl⟩
    · exact h.start p hcs
    · rw [balance_append, h.run, h.level, zero_add]
      exact hds.start tail ((List.prefix_append_right_inj cs).1 hp)

/-- A character that does not count. -/
theorem nested_singleton (h : here.weight c = 0) : Nested here [c] (here.step c) where
  run := rfl
  level := by rw [balance, h, zero_add, balance]
  start := by
    intro p hp
    rcases List.prefix_cons_iff.1 hp with rfl | ⟨tail, rfl, htail⟩
    · rfl
    · rw [List.prefix_nil.1 htail, balance, h, zero_add, balance]

/-- Characters that do not count and lead nowhere else. -/
theorem nested_run (h : ∀ c ∈ cs, here.weight c = 0 ∧ here.step c = here) : Nested here cs here := by
  induction cs with
  | nil => exact nested_nil here
  | cons c cs ih =>
    rw [List.forall_mem_cons] at h
    have hc := nested_singleton h.1.1
    rw [h.1.2] at hc
    exact hc.append (ih h.2)

theorem nested_plain (h : ∀ c ∈ cs, isPlain c = true) : Nested .outside cs .outside :=
  nested_run fun c hc => ⟨weight_plain (h c hc), step_plain (h c hc)⟩

variable {opening closing : Char}

/-- Behind a bracket, one more bracket is open. -/
theorem Nested.one_le_balance (h : Nested .outside cs .outside) (hopening : Opens opening)
    {p : List Char} (hp : p <+: cs) : 1 ≤ balance .outside (opening :: p) := by
  have := h.start p hp
  rw [hopening]
  omega

/-- Brackets that belong together, around a text that closes its own. -/
theorem Nested.enclose (h : Nested .outside cs .outside) (hopening : Opens opening)
    (hclosing : Closes closing) (hmarks : opening ≠ '"' ∧ closing ≠ '"') :
    Nested .outside (opening :: (cs ++ [closing])) .outside := by
  have hlevel : balance .outside (opening :: (cs ++ [closing])) = 0 := by
    rw [hopening, balance_append, h.run, h.level, hclosing, balance]
    rfl
  refine ⟨?_, hlevel, ?_⟩
  · have hrun : Quoting.run .outside (opening :: (cs ++ [closing]))
        = (Quoting.outside.step opening).run (cs ++ [closing]) := rfl
    rw [hrun, Quoting.step, if_neg hmarks.1, run_append, h.run]
    exact if_neg hmarks.2
  · intro p hp
    rcases List.prefix_cons_iff.1 hp with rfl | ⟨tail, rfl, htail⟩
    · exact le_refl 0
    rcases List.prefix_concat_iff.1 htail with rfl | htail
    · exact hlevel.ge
    · have := h.one_le_balance hopening htail
      omega

theorem nested_escape (c : Char) : Nested .inside (Quoted.escape c) .inside := by
  have hpair : ∀ d, Nested .inside ['\\', d] .inside := fun d =>
    have hslash : Nested .inside ['\\'] .escaped := nested_singleton rfl
    hslash.append (nested_singleton rfl)
  have hplain : ∀ d, d ≠ '"' → d ≠ '\\' → Quoting.inside.weight d = 0 ∧ Quoting.inside.step d = .inside := by
    intro d hquote hslash
    exact ⟨rfl, by rw [Quoting.step, if_neg hslash, if_neg hquote]⟩
  have hdigit : ∀ n < 16, Nat.digitChar n ≠ '"' ∧ Nat.digitChar n ≠ '\\' := by decide
  unfold Quoted.escape
  repeat' split
  -- the last two cases are an escape by number and a character that stands for itself
  all_goals try exact hpair _
  · rename_i hcontrol
    have hhigh := hdigit (c.toNat / 16) (by omega)
    have hlow := hdigit (c.toNat % 16) (by omega)
    refine (hpair 'u').append (nested_run ?_)
    intro d hd
    simp only [List.mem_cons, List.not_mem_nil, or_false] at hd
    rcases hd with rfl | rfl | rfl | rfl
    · exact ⟨rfl, rfl⟩
    · exact ⟨rfl, rfl⟩
    · exact hplain _ hhigh.1 hhigh.2
    · exact hplain _ hlow.1 hlow.2
  · rename_i hquote hslash _ _ _ _ _ _
    apply nested_run
    intro d hd
    rw [List.mem_singleton.1 hd]
    exact hplain c hquote hslash

theorem nested_encode (cs : List Char) : Nested .inside (Quoted.encode cs) .inside := by
  induction cs with
  | nil => exact nested_nil .inside
  | cons c cs ih => exact (nested_escape c).append ih

/-- Whatever brackets a text has, they do not count in its quoted string. -/
theorem nested_quote (text : String) : Nested .outside (quote text).toList .outside := by
  have hopen : Nested .outside ['"'] .inside := nested_singleton rfl
  have hclose : Nested .inside ['"'] .outside := nested_singleton rfl
  rw [quote_toList]
  exact hopen.append ((nested_encode _).append hclose)

theorem nested_comma : Nested .outside [',', ' '] .outside := nested_plain (List.all_eq_true.1 rfl)

theorem nested_colon : Nested .outside [':', ' '] .outside := nested_plain (List.all_eq_true.1 rfl)

theorem nested_space : Nested .outside [' '] .outside := nested_plain (List.all_eq_true.1 rfl)

theorem nested_intercalate {parts : List (List Char)}
    (h : ∀ part ∈ parts, Nested .outside part .outside) :
    Nested .outside (List.intercalate [',', ' '] parts) .outside := by
  induction parts with
  | nil => exact nested_nil .outside
  | cons part parts ih =>
    rw [List.forall_mem_cons] at h
    cases parts with
    | nil =>
      rw [List.intercalate_singleton]
      exact h.1
    | cons other parts =>
      rw [List.intercalate_cons_cons]
      exact (h.1.append nested_comma).append (ih h.2)

theorem nested_list {items : List String} (h : ∀ item ∈ items, Nested .outside item.toList .outside) :
    Nested .outside (list items).toList .outside := by
  rw [list_toList]
  exact (nested_intercalate (List.forall_mem_map.2 h)).enclose opens_bracket closes_bracket (by decide)

/-- Braces around a text that closes its own brackets. -/
def Enclosed (cs : List Char) : Prop :=
  ∃ body, cs = '\x7b' :: (body ++ ['\x7d']) ∧ Nested .outside body .outside

theorem Enclosed.nested (h : Enclosed cs) : Nested .outside cs .outside := by
  obtain ⟨body, rfl, hbody⟩ := h
  exact hbody.enclose opens_brace closes_brace (by decide)

/-- The first brace is open until the last character. -/
theorem Enclosed.one_le_balance (h : Enclosed cs) {p tail : List Char} (hcs : cs = p ++ tail)
    (hp : p ≠ []) (htail : tail ≠ []) : 1 ≤ balance .outside p := by
  obtain ⟨body, rfl, hbody⟩ := h
  obtain ⟨c, p, rfl⟩ := List.exists_cons_of_ne_nil hp
  obtain ⟨rfl, hbody'⟩ := List.cons.inj hcs
  refine hbody.one_le_balance opens_brace ?_
  rcases List.prefix_concat_iff.1 ⟨tail, hbody'.symm⟩ with rfl | hstart
  · exact absurd (List.self_eq_append_right.1 hbody') htail
  · exact hstart

/-- A record is enclosed, if its items close their own brackets and its keys have none. -/
theorem enclosed_record {fields : List (String × String)}
    (h : ∀ field ∈ fields,
      (∀ c ∈ field.1.toList, isPlain c = true) ∧ Nested .outside field.2.toList .outside) :
    Enclosed (record fields).toList := by
  have hparts : ∀ part ∈ fields.map fun field => (field.1 ++ ": " ++ field.2).toList,
      Nested .outside part .outside := by
    intro part hpart
    obtain ⟨field, hfield, rfl⟩ := List.mem_map.1 hpart
    obtain ⟨hkey, hitem⟩ := h field hfield
    have hsplit : (field.1 ++ ": " ++ field.2).toList
        = field.1.toList ++ [':', ' '] ++ field.2.toList := by simp
    rw [hsplit]
    exact ((nested_plain hkey).append nested_colon).append hitem
  refine ⟨_, ?_, (nested_space.append (nested_intercalate hparts)).append nested_space⟩
  simp [record, Function.comp_def]

end VectorQuery.Wire
