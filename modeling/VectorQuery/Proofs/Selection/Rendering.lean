import Mathlib
import VectorQuery.Proofs.Outcome
import VectorQuery.Proofs.Query.Calls
import VectorQuery.Proofs.Selection.Outline
import VectorQuery.Proofs.Selection.Renaming

/-!
# Rendering keeps the selection

A selection stands for a list of fields: its flat names as leaves, and its nested fields as nodes.
What the field list of a query says is these fields under the names of the backend, as long as every
name is one word without braces.

* `Selection.outline` — the fields that a selection stands for;
* `Selection.Spells` — texts with given words, and no blanks but spaces;
* `Selection.spells_fieldList`, `Selection.spells_fields` — a written selection has the words of its
  fields;
* `Selection.render_of_calls` — a selection that calls have come to can be rendered, whatever the
  default attributes are;
* `Selection.readAll?_render` — **the fields are read back from what is rendered**.
-/

namespace VectorQuery.Selection

open Text Outcome

/-! ### The fields of a selection -/

mutual

/-- The fields that a nested selection stands for: a text is a leaf, items follow each other, and a
key is a node over the fields of its value. -/
def forest : Json → List Field
  | .text name => [.leaf name]
  | .array items => forests items
  | .object fields => nodes fields
  | _ => []

/-- The fields of the items of an array. -/
def forests : List Json → List Field
  | [] => []
  | item :: items => forest item ++ forests items

/-- The fields of an object. -/
def nodes : List (String × Json) → List Field
  | [] => []
  | (key, value) :: fields => .node key (forest value) :: nodes fields

end

/-- The fields that a selection stands for. -/
def outline (selection : Selection) : List Field :=
  selection.names.map .leaf ++ nodes selection.nested

/-- A name of one word without braces. -/
structure PlainName (name : String) : Prop where
  word : Word name.toList
  opening : '\x7b' ∉ name.toList
  closing : '\x7d' ∉ name.toList

theorem plainName_iff {name : String} :
    PlainName name ↔ Word name.toList ∧ '\x7b' ∉ name.toList ∧ '\x7d' ∉ name.toList :=
  ⟨fun h => ⟨h.word, h.opening, h.closing⟩, fun h => ⟨h.1, h.2.1, h.2.2⟩⟩

instance (name : String) : Decidable (PlainName name) := decidable_of_iff _ plainName_iff.symm

theorem PlainName.isName {name : String} (h : PlainName name) : Reading.IsName name := by
  constructor
  · rintro rfl
    exact h.opening (by decide)
  · rintro rfl
    exact h.closing (by decide)

theorem PlainName.isName_backendSpelling {name : String} (h : PlainName name) :
    Reading.IsName (backendSpelling name) :=
  backendSpelling_induction (p := Reading.IsName) h.isName ⟨by decide, by decide⟩
    ⟨by decide, by decide⟩ ⟨by decide, by decide⟩

/-! ### Written selections -/

/-- Texts with the given words, and no blanks but spaces. -/
structure Spells (texts ws : List String) : Prop where
  tokens : texts.flatMap Selection.tokens = ws
  spaced : ∀ text ∈ texts, Spaced text

theorem spells_nil : Spells [] [] := ⟨rfl, List.forall_mem_nil _⟩

theorem spells_word {name : String} (h : Word name.toList) : Spells [name] [name] := by
  constructor
  · rw [List.flatMap_singleton, tokens_word h]
  · refine List.forall_mem_singleton.2 fun c hc hblank => ?_
    rw [h.isBlank c hc] at hblank
    cases hblank

theorem Spells.append {texts others ws more : List String} (h : Spells texts ws)
    (hmore : Spells others more) : Spells (texts ++ others) (ws ++ more) :=
  ⟨by rw [List.flatMap_append, h.tokens, hmore.tokens],
    List.forall_mem_append.2 ⟨h.spaced, hmore.spaced⟩⟩

/-- Texts that are joined by a space have the same words. -/
theorem Spells.joined {texts ws : List String} (h : Spells texts ws) :
    Spells [" ".intercalate texts] ws :=
  ⟨by rw [List.flatMap_singleton, tokens_intercalate, h.tokens],
    List.forall_mem_singleton.2 (spaced_intercalate h.spaced)⟩

theorem spells_words {names : List String} (h : ∀ name ∈ names, Word name.toList) :
    Spells names names := by
  induction names with
  | nil => exact spells_nil
  | cons name names ih =>
    rw [List.forall_mem_cons] at h
    exact (spells_word h.1).append (ih h.2)

theorem intercalate_block (key inner : String) :
    " ".intercalate [key, "\x7b", inner, "\x7d"] = key ++ " \x7b " ++ inner ++ " \x7d" := by
  apply String.toList_injective
  simp

/-- A name before a block. -/
theorem Spells.block {key inner : String} {ws : List String} (hkey : Word key.toList)
    (h : Spells [inner] ws) :
    Spells [key ++ " \x7b " ++ inner ++ " \x7d"] (key :: "\x7b" :: (ws ++ ["\x7d"])) := by
  have hopening : Word "\x7b".toList := by decide
  have hclosing : Word "\x7d".toList := by decide
  have hjoined := ((spells_word hkey).append
    ((spells_word hopening).append (h.append (spells_word hclosing)))).joined
  rwa [← intercalate_block]

mutual

/-- **A written selection has the words of its fields.** -/
theorem spells_fieldList : ∀ (document : Json) {text : String}, fieldList document = .ok text →
    (∀ name ∈ Field.listNames (forest document), PlainName name) →
    Spells [text] (Field.listWords (forest document))
  | .text name, text, h, hplain => by
    cases h
    exact spells_word (hplain name List.mem_cons_self).word
  | .array items, text, h, hplain => by
    obtain ⟨texts, htexts, rfl⟩ := map_eq_ok_iff.1 h
    exact (spells_fieldLists items htexts hplain).joined
  | .object fields, text, h, hplain => by
    obtain ⟨texts, htexts, rfl⟩ := map_eq_ok_iff.1 h
    exact (spells_fieldBlocks fields htexts hplain).joined
  | .null, _, h, _ | .bool _, _, h, _ | .int _, _, h, _ | .float _, _, h, _ => nomatch h

theorem spells_fieldLists : ∀ (items : List Json) {texts : List String},
    fieldLists items = .ok texts →
    (∀ name ∈ Field.listNames (forests items), PlainName name) →
    Spells texts (Field.listWords (forests items))
  | [], texts, h, _ => by
    cases h
    exact spells_nil
  | item :: items, texts, h, hplain => by
    obtain ⟨first, hfirst, h⟩ := bind_eq_ok_iff.1 h
    obtain ⟨others, hothers, hsame⟩ := bind_eq_ok_iff.1 h
    cases hsame
    rw [forests, Field.listNames_append, List.forall_mem_append] at hplain
    rw [forests, Field.listWords_append]
    exact (spells_fieldList item hfirst hplain.1).append
      (spells_fieldLists items hothers hplain.2)

theorem spells_fieldBlocks : ∀ (fields : List (String × Json)) {texts : List String},
    fieldBlocks fields = .ok texts →
    (∀ name ∈ Field.listNames (nodes fields), PlainName name) →
    Spells texts (Field.listWords (nodes fields))
  | [], texts, h, _ => by
    cases h
    exact spells_nil
  | (key, value) :: fields, texts, h, hplain => by
    obtain ⟨inner, hinner, h⟩ := bind_eq_ok_iff.1 h
    obtain ⟨others, hothers, hsame⟩ := bind_eq_ok_iff.1 h
    cases hsame
    rw [nodes, Field.listNames, Field.names, List.forall_mem_append, List.forall_mem_cons] at hplain
    obtain ⟨⟨hkey, hvalue⟩, hmore⟩ := hplain
    exact (Spells.block hkey.word (spells_fieldList value hinner hvalue)).append
      (spells_fieldBlocks fields hothers hmore)

end

/-- A whole selection that is written has the words of its fields. -/
theorem spells_fields {selection : Selection} {text : String} (h : selection.fields = .ok text)
    (hplain : ∀ name ∈ Field.listNames selection.outline, PlainName name) :
    Spells [text] (Field.listWords selection.outline) := by
  obtain ⟨blocks, hblocks, hsame⟩ := bind_eq_ok_iff.1 h
  cases hsame
  rw [outline, Field.listNames_append, Field.listNames_leaves, List.forall_mem_append] at hplain
  have hnested := spells_fieldBlocks selection.nested hblocks hplain.2
  rw [outline, Field.listWords_append, Field.listWords_leaves]
  refine Spells.joined (Spells.append ?_ ?_)
  · split
    · rename_i hempty
      rw [List.isEmpty_iff.1 hempty]
      exact spells_nil
    · exact (spells_words fun name hname => (hplain.1 name hname).word).joined
  · split
    · rename_i hempty
      rw [List.isEmpty_iff.1 hempty]
      exact spells_nil
    · exact hnested.joined

/-! ### Rendered selections -/

/-- A call of `select` after others. -/
def selectCall (selection : Selection) (call : List String × Option Json) : Except Fault Selection :=
  selection.select call.1 call.2

/-- What calls have come to can be written. -/
theorem fields_of_calls {calls : List (List String × Option Json)} {start selection : Selection}
    (hstart : ∃ text, start.fields = .ok text) (h : calls.foldlM selectCall start = .ok selection) :
    ∃ text, selection.fields = .ok text := by
  induction calls generalizing start with
  | nil =>
    cases h
    exact hstart
  | cons call calls ih =>
    obtain ⟨next, hnext, h⟩ := bind_eq_ok_iff.1 h
    exact ih (Query.select_rendered hnext) h

/-- **The fields are read back from what is rendered.**  If every name that calls have selected is one
word without braces, then the words of the rendered selection, which does not depend on the default
attributes, are read as the flat names and then the nested selection, each of the three logical
meta-attribute names replaced by the backend's and every other name as it is. -/
theorem readAll?_render {calls : List (List String × Option Json)} {selection : Selection}
    (hcalls : calls.foldlM selectCall {} = .ok selection) (hselected : selection.HasFields)
    (hplain : ∀ name ∈ Field.listNames selection.outline, PlainName name) :
    ∃ text, (∀ defaults, selection.render defaults = .ok text)
      ∧ Field.readAll? (tokens text)
        = some (Field.renameAll backendSpelling selection.outline) := by
  obtain ⟨written, hwritten⟩ := fields_of_calls ⟨"", rfl⟩ hcalls
  have hspells := spells_fields hwritten hplain
  refine ⟨renameAll written, ?_, ?_⟩
  · intro defaults
    rw [render, isEmpty_eq, decide_eq_true hselected, hwritten]
    rfl
  · have htokens : tokens written = Field.listWords selection.outline := by
      simpa using hspells.tokens
    have hrename : MetaAttribute.rename = backendSpelling := funext rename_eq
    have hnames : ∀ name ∈ Field.listNames (Field.renameAll backendSpelling selection.outline),
        Reading.IsName name := by
      intro name hname
      rw [Field.listNames_renameAll] at hname
      obtain ⟨logical, hlogical, rfl⟩ := List.mem_map.1 hname
      exact (hplain logical hlogical).isName_backendSpelling
    rw [Field.readAll?_eq_some_iff hnames, Field.listWords_renameAll ⟨by decide, by decide⟩,
      tokens_renameAll (List.forall_mem_singleton.1 hspells.spaced), htokens, hrename]

/-- Flat names that repeat, a meta-attribute as a key, and blocks with nothing in them. -/
def nestedCalls : List (List String × Option Json) :=
  [(["title", "created_at"], none),
    (["title"], some (.object [("_additional", .array [.text "id", .array [], .text "updated_at"]),
      ("feature_projection", .object [("vector", .object []), ("of", .text "title")])]))]

/-- What the calls have come to. -/
def nestedSelection : Selection :=
  ⟨["title", "created_at"], [("_additional", .array [.text "id", .array [], .text "updated_at"]),
    ("feature_projection", .object [("vector", .object []), ("of", .text "title")])]⟩

theorem readAll?_render_nestedSelection :
    ∃ text, (∀ defaults, nestedSelection.render defaults = .ok text)
      ∧ Field.readAll? (tokens text) = some
        [.leaf "title", .leaf "creationTimeUnix",
          .node "_additional" [.leaf "id", .leaf "lastUpdateTimeUnix"],
          .node "featureProjection" [.node "vector" [], .node "of" [.leaf "title"]]] := by
  have hcalls : nestedCalls.foldlM selectCall {} = .ok nestedSelection := rfl
  have hplain : ∀ name ∈ Field.listNames nestedSelection.outline, PlainName name := by
    decide +kernel
  exact readAll?_render hcalls (by decide) hplain

end VectorQuery.Selection
