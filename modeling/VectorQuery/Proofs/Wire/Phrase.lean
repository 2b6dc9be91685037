import Mathlib
import VectorQuery.Proofs.Json.Container
import VectorQuery.Proofs.Json.Float
import VectorQuery.Proofs.Wire.Pass
import VectorQuery.Condition.Comparand

/-!
# Phrases of wire text

A phrase is a stretch of wire text with what the pass makes of it and the document that the reader
then finds.  Phrases are put together the way wire text is, so the text of a phrase is wire text,
and its laws come with it.

* `Phrase` — wire text that passes to a spelling of a value;
* `Phrase.quote`, `Phrase.number`, `Phrase.truth` — the phrases without parts;
* `Phrase.list`, `Phrase.record` — the phrases with parts, each one level deeper than its deepest
  part;
* `Phrase.field`, `Phrase.operator` — the parts of a record;
* `Phrase.document?_text` — **a phrase is read back iff it is at most 127 levels deep**.
-/

namespace VectorQuery.Wire

open Text Json

variable {α : Type} {read : DepthReader α}

/-- Wire text that passes to a spelling of a value. -/
structure Phrase (read : DepthReader α) extends Spelling read where
  text : List Char
  passes : Passes (.between false) text chars (.between false)

/-- The reader of the fields of an object. -/
def fieldReader : DepthReader (String × Json) := fun depth => readField (readValue depth)

namespace Phrase

/-- The texts of several phrases with commas between them. -/
def texts (ps : List (Phrase read)) : List Char := List.intercalate [',', ' '] (ps.map (·.text))

/-- The spellings that several phrases pass to. -/
def spellings (ps : List (Phrase read)) : List (Spelling read) := ps.map (·.toSpelling)

theorem passes_texts (ps : List (Phrase read)) :
    Passes (.between false) (texts ps) (joined [' '] (spellings ps)) (.between false) := by
  induction ps with
  | nil => exact passes_nil _
  | cons p ps ih =>
    cases ps with
    | nil =>
      show Passes _ (List.intercalate [',', ' '] [p.text]) (joined [' '] [p.toSpelling]) _
      rw [List.intercalate_singleton, joined_singleton]
      exact p.passes
    | cons q ps =>
      have hmore := (ih.mark (show isMark ' ' = true by decide)).mark (show isMark ',' = true by decide)
      have htexts : texts (p :: q :: ps) = p.text ++ ',' :: ' ' :: texts (q :: ps) := by
        show List.intercalate [',', ' '] (p.text :: q.text :: ps.map (·.text)) = _
        rw [List.intercalate_cons_cons, List.append_assoc]
        rfl
      rw [htexts]
      show Passes _ _ (joined [' '] (p.toSpelling :: q.toSpelling :: spellings ps)) _
      rw [joined_cons_cons]
      exact p.passes.append hmore (by decide)

/-! ### Phrases without parts -/

/-- Characters that open no container are read as a document without parts at any depth. -/
theorem readValue_scalar {c : Char} (hlist : c ≠ '[') (hrecord : c ≠ '\x7b') (depth : ℕ)
    (cs : List Char) :
    readValue depth (c :: cs) = readScalar (c :: cs) := by
  cases depth with
  | zero => rfl
  | succ depth =>
    rw [readValue]
    · intro _ h
      exact hlist (List.cons.inj h).1
    · intro _ h
      exact hrecord (List.cons.inj h).1

theorem readText_encode (text : String) (rest : List Char) :
    readText (Quoted.encode text.toList ++ '"' :: rest) = some (text, rest) := by
  simp [readText, Quoted.splitClosing_encode, Quoted.decode_encode]

/-- A quoted string. -/
def quote (text : String) : Phrase readValue where
  text := (Wire.quote text).toList
  chars := (Wire.quote text).toList
  value := .text text
  levels := 0
  opens := ⟨'"', _, quote_toList text, by decide⟩
  reads := by
    intro depth rest _
    rw [quote_toList, List.cons_append, List.append_assoc, readValue_scalar (by decide) (by decide),
      if_pos depth.zero_le]
    show (readText (Quoted.encode text.toList ++ '"' :: rest)).map _ = _
    rw [readText_encode]
    rfl
  passes := passes_quote text

@[simp] theorem text_quote (text : String) :
    (quote text).text = (Wire.quote text).toList := by dsimp only [quote]

theorem opensPart_of_startsNumber {c : Char} (h : startsNumber c = true) : opensPart c = true := by
  have hother : ∀ d, startsNumber d = false → c ≠ d := fun d hd => ne_of_kind h hd
  simp [opensPart, isSpace, hother ' ' (by decide), hother '\n' (by decide), hother '\t' (by decide),
    hother '\r' (by decide), hother ']' (by decide), hother '\x7d' (by decide)]

/-- What begins as a number is read as one, at any depth. -/
theorem readValue_number {c : Char} (hc : startsNumber c = true) (depth : ℕ) (cs : List Char) :
    readValue depth (c :: cs) = readNumber (c :: cs) := by
  rw [readValue_scalar (ne_of_kind hc (by decide)) (ne_of_kind hc (by decide)), readScalar]
  all_goals intro _ h
  · exact ne_of_kind hc (show startsNumber '"' = false by decide) (List.cons.inj h).1
  · exact ne_of_kind hc (show startsNumber 't' = false by decide) (List.cons.inj h).1
  · exact ne_of_kind hc (show startsNumber 'f' = false by decide) (List.cons.inj h).1
  · exact ne_of_kind hc (show startsNumber 'n' = false by decide) (List.cons.inj h).1

/-- A number. -/
def number (cs : List Char) (value : Json) (hcs : Signed cs)
    (hread : ∀ rest, StopsAt continuesNumber rest → readNumber (cs ++ rest) = some (value, rest)) :
    Phrase readValue where
  text := cs
  chars := cs
  value := value
  levels := 0
  opens := by
    obtain ⟨c, ds, hds, hc⟩ := hcs.head
    exact ⟨c, ds, hds, opensPart_of_startsNumber hc⟩
  reads := by
    intro depth rest hrest
    obtain ⟨c, ds, rfl, hc⟩ := hcs.head
    rw [List.cons_append, readValue_number hc, if_pos depth.zero_le]
    exact hread rest hrest
  passes := passes_number hcs

@[simp] theorem text_number (cs : List Char) (value : Json) (hcs : Signed cs)
    (hread : ∀ rest, StopsAt continuesNumber rest → readNumber (cs ++ rest) = some (value, rest)) :
    (number cs value hcs hread).text = cs := rfl

/-- A truth value. -/
def truth (value : Bool) : Phrase readValue where
  text := (Comparand.truthName value).toList
  chars := (Comparand.truthName value).toList
  value := .bool value
  levels := 0
  opens := by cases value <;> exact ⟨_, _, rfl, by decide⟩
  reads := by
    intro depth rest _
    rw [if_pos depth.zero_le]
    cases value with
    | true =>
      show readValue depth ('t' :: (['r', 'u', 'e'] ++ rest)) = _
      rw [readValue_scalar (by decide) (by decide), readScalar, readWord_append]
      rfl
    | false =>
      show readValue depth ('f' :: (['a', 'l', 's', 'e'] ++ rest)) = _
      rw [readValue_scalar (by decide) (by decide), readScalar, readWord_append]
      rfl
  passes := by
    cases value with
    | true => exact passes_word (show isBareWord ['t', 'r', 'u', 'e'] = true by decide)
    | false => exact passes_word (show isBareWord ['f', 'a', 'l', 's', 'e'] = true by decide)

/-! ### Lists and records -/

theorem isSpace_of_mem_blank : ∀ c ∈ [' '], isSpace c = true := by
  intro c hc
  rw [List.mem_singleton.1 hc]
  rfl

/-- A container is read one level deeper than its parts. -/
theorem map_of_levels {β γ : Type} (f : β → γ) (levels depth : ℕ) (found : β) :
    (if levels ≤ depth then some found else none).map f
      = if levels + 1 ≤ depth + 1 then some (f found) else none := by
  by_cases hdepth : levels ≤ depth
  · rw [if_pos hdepth, if_pos (Nat.succ_le_succ hdepth), Option.map_some]
  · rw [if_neg hdepth, if_neg fun h => hdepth (Nat.le_of_succ_le_succ h), Option.map_none]

/-- A list. -/
def list (items : List (Phrase readValue)) : Phrase readValue where
  text := '[' :: (texts items ++ [']'])
  chars := '[' :: (joined [' '] (spellings items) ++ [']'])
  value := .array (items.map (·.value))
  levels := deepest (spellings items) + 1
  opens := ⟨'[', _, rfl, by decide⟩
  reads := by
    intro depth rest _
    rw [List.cons_append, List.append_assoc, List.singleton_append]
    cases depth with
    | zero => rfl
    | succ depth =>
      have hstop : StopsAt continuesNumber (']' :: rest) := stopsAt_cons.2 (by decide)
      have htail : skipBlanks (']' :: rest) = ']' :: rest := dropWhile_stop (stopsAt_cons.2 (by decide))
      have hitems :
          readList ']' (readValue depth) ([] ++ (joined [' '] (spellings items) ++ ']' :: rest)) = _ :=
        readList_joined (by decide) isSpace_of_mem_blank (by simp) hstop htail depth (spellings items)
          (fun c hc => ne_of_kind hc (by decide))
      rw [List.nil_append] at hitems
      rw [readValue, hitems, map_of_levels, spellings, List.map_map]
      rfl
  passes :=
    ((passes_texts items).append ((passes_nil _).mark (show isMark ']' = true by decide))
      (by decide)).mark (by decide)

/-- A record, whose keys are different. -/
def record (fields : List (Phrase fieldReader)) (hkeys : (fields.map (·.value.1)).Nodup) :
    Phrase readValue where
  text := '\x7b' :: ' ' :: (texts fields ++ [' ', '\x7d'])
  chars := '\x7b' :: ' ' :: (joined [' '] (spellings fields) ++ [' ', '\x7d'])
  value := .object (fields.map (·.value))
  levels := deepest (spellings fields) + 1
  opens := ⟨'\x7b', _, rfl, by decide⟩
  reads := by
    intro depth rest _
    rw [List.cons_append, List.cons_append, List.append_assoc]
    cases depth with
    | zero => rfl
    | succ depth =>
      have hstop : StopsAt continuesNumber ([' ', '\x7d'] ++ rest) := stopsAt_cons.2 (by decide)
      have htail : skipBlanks ([' ', '\x7d'] ++ rest) = '\x7d' :: rest :=
        dropWhile_run isSpace_of_mem_blank (stopsAt_cons.2 (by decide))
      have hfields : readList '\x7d' (fieldReader depth)
          ([' '] ++ (joined [' '] (spellings fields) ++ ([' ', '\x7d'] ++ rest))) = _ :=
        readList_joined (by decide) isSpace_of_mem_blank isSpace_of_mem_blank hstop
          htail depth (spellings fields) (fun c hc => ne_of_kind hc (by decide))
      have hnodup : Fields.insertAll [] (fields.map (·.value)) = fields.map (·.value) := by
        apply insertAll_of_nodup
        rw [List.nil_append, Fields.keys, List.map_map]
        exact hkeys
      rw [readValue, show readField (readValue depth) = fieldReader depth from rfl]
      show (readList _ _
        ([' '] ++ (joined [' '] (spellings fields) ++ ([' ', '\x7d'] ++ rest)))).map _ = _
      rw [hfields, map_of_levels, spellings, List.map_map]
      refine if_congr Iff.rfl ?_ rfl
      show some (Json.object (Fields.insertAll [] (fields.map (·.value))), rest) = _
      rw [hnodup]
  passes := by
    have hclose := ((passes_nil (.between false)).mark (show isMark '\x7d' = true by decide)).mark
      (show isMark ' ' = true by decide)
    exact (((passes_texts fields).append hclose (by decide)).mark (by decide)).mark (by decide)

/-! ### The parts of a record -/

theorem escape_of_continuesWord {c : Char} (h : continuesWord c = true) :
    Quoted.escape c = [c] := by
  have hquote : c ≠ '"' := ne_of_kind h (by decide)
  have hslash : c ≠ '\\' := ne_of_kind h (by decide)
  have hlow : 0x20 ≤ c.toNat := by
    simp [continuesWord, Char.isAlphanum, Char.isAlpha, Char.isUpper, Char.isLower, Char.isDigit,
      UInt32.le_iff_toNat_le, Char.ext_iff, ← UInt32.toNat_inj] at h ⊢
    omega
  simp only [Quoted.escape, if_neg hquote, if_neg hslash]
  rw [if_neg (by omega), if_neg (by omega), if_neg (by omega), if_neg (by omega), if_neg (by omega),
    if_neg (by omega)]

/-- A text without characters to escape stands as it is. -/
theorem encode_of_escape {cs : List Char} (h : ∀ c ∈ cs, Quoted.escape c = [c]) :
    Quoted.encode cs = cs := by
  induction cs with
  | nil => rfl
  | cons c cs ih =>
    rw [Quoted.encode_cons, h c List.mem_cons_self, ih fun d hd => h d (List.mem_cons_of_mem c hd)]
    rfl

/-- Letters, digits and underscores need no escapes. -/
theorem encode_letters {letters : List Char} (h : ∀ c ∈ letters, continuesWord c = true) :
    Quoted.encode letters = letters :=
  encode_of_escape fun c hc => escape_of_continuesWord (h c hc)

theorem readText_word {word : String} (h : isBareWord word.toList = true) (rest : List Char) :
    readText (word.toList ++ '"' :: rest) = some (word, rest) := by
  have hread := readText_encode word rest
  rw [encode_letters (continuesWord_of_isBareWord h)] at hread
  exact hread

theorem skipBlanks_blank {c : Char} (h : isSpace c = false) (cs : List Char) :
    skipBlanks (' ' :: c :: cs) = c :: cs :=
  dropWhile_run isSpace_of_mem_blank (stopsAt_cons.2 h)

/-- A field: a key and its item. -/
def field (key : String) (hkey : isBareWord key.toList = true) (hother : key.toList ≠ operatorKey)
    (item : Phrase readValue) : Phrase fieldReader where
  text := key.toList ++ ':' :: ' ' :: item.text
  chars := '"' :: key.toList ++ ['"', ':', ' '] ++ item.chars
  value := (key, item.value)
  levels := item.levels
  opens := ⟨'"', _, rfl, by decide⟩
  reads := by
    intro depth rest hrest
    have hcolon :
        skipBlanks (':' :: ' ' :: (item.chars ++ rest)) = ':' :: ' ' :: (item.chars ++ rest) :=
      dropWhile_stop (stopsAt_cons.2 (by decide))
    have hitem : skipBlanks (' ' :: (item.chars ++ rest)) = item.chars ++ rest :=
      skipBlanks_spelling isSpace_of_mem_blank item.toSpelling rest
    show readField (readValue depth)
      ('"' :: ((key.toList ++ ['"', ':', ' '] ++ item.chars) ++ rest)) = _
    rw [List.append_assoc, List.append_assoc]
    show readField (readValue depth)
      ('"' :: (key.toList ++ '"' :: ':' :: ' ' :: (item.chars ++ rest))) = _
    simp only [readField, readText_word hkey, Option.bind_eq_bind, Option.bind_some, hcolon, hitem,
      item.reads depth rest hrest]
    by_cases hdepth : item.levels ≤ depth
    · simp [hdepth]
    · simp [hdepth]
  passes := by
    intro rest hrest
    rw [List.append_assoc, List.cons_append, List.cons_append, quoteWords_key hkey,
      decide_eq_false hother, item.passes rest hrest, Option.map_map]
    congr 1
    funext tail
    simp

/-- The field of an operator, whose name is a bare word. -/
def operator (name : String) (hname : isBareWord name.toList = true) : Phrase fieldReader where
  text := operatorKey ++ ':' :: ' ' :: name.toList
  chars := '"' :: operatorKey ++ ['"', ':', ' '] ++ ('"' :: name.toList ++ ['"'])
  value := ("operator", .text name)
  levels := 0
  opens := ⟨'"', _, rfl, by decide⟩
  reads := by
    intro depth rest _
    have hkey : isBareWord "operator".toList = true := by decide
    have hcolon : ∀ cs, skipBlanks (':' :: cs) = ':' :: cs :=
      fun cs => dropWhile_stop (stopsAt_cons.2 (by decide))
    have hitem : ∀ cs, skipBlanks (' ' :: '"' :: cs) = '"' :: cs := skipBlanks_blank (by decide)
    show readField (readValue depth)
      ('"' :: ((operatorKey ++ ['"', ':', ' '] ++ ('"' :: name.toList ++ ['"'])) ++ rest)) = _
    rw [List.append_assoc, List.append_assoc, List.append_assoc]
    show readField (readValue depth)
      ('"' :: ("operator".toList ++ '"' :: ':' :: ' ' :: '"' :: (name.toList ++ '"' :: rest))) = _
    simp only [readField, readText_word hkey, Option.bind_eq_bind, Option.bind_some, hcolon, hitem,
      readValue_scalar (show '"' ≠ '[' by decide) (show '"' ≠ '\x7b' by decide), readScalar,
      readText_word hname, Option.map_some, Option.pure_def, Nat.zero_le, if_true]
  passes := by
    intro rest hrest
    rw [List.append_assoc, List.cons_append, List.cons_append,
      quoteWords_key (show isBareWord operatorKey = true by decide), decide_eq_true rfl,
      passes_name hname rest hrest, Option.map_map]
    rfl

/-! ### The text of a phrase is wire text -/

theorem text_list {items : List (Phrase readValue)} {wires : List String}
    (h : items.map (·.text) = wires.map String.toList) :
    (list items).text = (Wire.list wires).toList := by
  show '[' :: (List.intercalate [',', ' '] (items.map (·.text)) ++ [']']) = _
  rw [h]
  simp [Wire.list]

theorem text_record {fields : List (Phrase fieldReader)} (hkeys : (fields.map (·.value.1)).Nodup)
    {wires : List (String × String)}
    (h : fields.map (·.text) = wires.map fun (key, item) => key.toList ++ ':' :: ' ' :: item.toList) :
    (record fields hkeys).text = (Wire.record wires).toList := by
  show '\x7b' :: ' ' :: (List.intercalate [',', ' '] (fields.map (·.text)) ++ [' ', '\x7d']) = _
  rw [h]
  simp [Wire.record, Function.comp_def]

/-! ### Whole texts -/

/-- **A phrase is read back iff it is at most 127 levels deep.** -/
theorem document?_text (p : Phrase readValue) :
    document? (String.ofList p.text)
      = if p.levels ≤ 127 then .ok p.value else .error (.unreadableWire unstatedReason) := by
  have hquoted : quoteWords (.between false) p.text = some p.chars := by
    have hpass := p.passes [] stopsAt_nil
    rw [List.append_nil] at hpass
    rw [hpass]
    simp [quoteWords, Mode.finish]
  rw [document?, String.toList_ofList, hquoted]
  simp only [ofChars?_spelling, maxDepth]
  by_cases hdepth : p.levels ≤ 127
  · simp only [if_pos hdepth]
  · simp only [if_neg hdepth]

end Phrase

end VectorQuery.Wire
