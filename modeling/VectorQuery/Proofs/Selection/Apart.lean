import Mathlib
import VectorQuery.Proofs.Selection.Rendering

/-!
# Which selections are renamed as a whole

A selection is written with single spaces between its names and braces, so the pieces of what is
written are those of the names, the braces and nothing.  Whether logical names stand alone in it is
therefore a question of each name for itself.

* `Selection.apart_intercalate`, `Selection.apart_block` — texts that are put together;
* `Selection.apart_fieldList_iff` — a nested selection that is written;
* `Selection.apart_fields_iff` — **logical names stand alone in a selection that is written iff they
  do in each of its names**.
-/

namespace VectorQuery.Selection

open Outcome

/-! ### Texts that are put together -/

theorem apart_intercalate {texts : List String} :
    Apart (" ".intercalate texts) ↔ ∀ text ∈ texts, Apart text := by
  cases texts with
  | nil =>
    have hempty : Spaced "" := by decide
    exact ⟨fun _ => List.forall_mem_nil _, fun _ => hempty.apart⟩
  | cons text texts =>
    rw [Apart, pieces_intercalate (List.cons_ne_nil text texts), List.forall_mem_flatMap]
    rfl

theorem apart_block {key inner : String} :
    Apart (key ++ " \x7b " ++ inner ++ " \x7d") ↔ Apart key ∧ Apart inner := by
  have hopening : Spaced "\x7b" := by decide
  have hclosing : Spaced "\x7d" := by decide
  rw [← intercalate_block, apart_intercalate]
  simp [hopening.apart, hclosing.apart]

/-! ### Selections -/

mutual

/-- Logical names stand alone in a nested selection that is written iff they do in its names. -/
theorem apart_fieldList_iff : ∀ (document : Json) {text : String}, fieldList document = .ok text →
    (Apart text ↔ ∀ name ∈ Field.listNames (forest document), Apart name)
  | .text name, text, h => by
    cases h
    exact List.forall_mem_singleton.symm
  | .array items, text, h => by
    obtain ⟨texts, htexts, rfl⟩ := map_eq_ok_iff.1 h
    exact apart_intercalate.trans (apart_fieldLists_iff items htexts)
  | .object fields, text, h => by
    obtain ⟨texts, htexts, rfl⟩ := map_eq_ok_iff.1 h
    exact apart_intercalate.trans (apart_fieldBlocks_iff fields htexts)
  | .null, _, h | .bool _, _, h | .int _, _, h | .float _, _, h => nomatch h

theorem apart_fieldLists_iff : ∀ (items : List Json) {texts : List String},
    fieldLists items = .ok texts →
    ((∀ text ∈ texts, Apart text) ↔ ∀ name ∈ Field.listNames (forests items), Apart name)
  | [], texts, h => by
    cases h
    exact Iff.rfl
  | item :: items, texts, h => by
    obtain ⟨first, hfirst, h⟩ := bind_eq_ok_iff.1 h
    obtain ⟨others, hothers, hsame⟩ := bind_eq_ok_iff.1 h
    cases hsame
    rw [forests, Field.listNames_append, List.forall_mem_append, List.forall_mem_cons,
      apart_fieldList_iff item hfirst, apart_fieldLists_iff items hothers]

theorem apart_fieldBlocks_iff : ∀ (fields : List (String × Json)) {texts : List String},
    fieldBlocks fields = .ok texts →
    ((∀ text ∈ texts, Apart text) ↔ ∀ name ∈ Field.listNames (nodes fields), Apart name)
  | [], texts, h => by
    cases h
    exact Iff.rfl
  | (key, value) :: fields, texts, h => by
    obtain ⟨inner, hinner, h⟩ := bind_eq_ok_iff.1 h
    obtain ⟨others, hothers, hsame⟩ := bind_eq_ok_iff.1 h
    cases hsame
    rw [nodes, Field.listNames, Field.names, List.forall_mem_append, List.forall_mem_cons,
      List.forall_mem_cons, apart_block, apart_fieldList_iff value hinner,
      apart_fieldBlocks_iff fields hothers]

end

/-- **Logical names stand alone in a selection that is written iff they do in each of its names.** -/
theorem apart_fields_iff {selection : Selection} {text : String} (h : selection.fields = .ok text) :
    Apart text ↔ ∀ name ∈ Field.listNames selection.outline, Apart name := by
  obtain ⟨blocks, hblocks, hsame⟩ := bind_eq_ok_iff.1 h
  cases hsame
  -- a part that is left out has nothing to be told apart
  have hparts : ∀ {texts : List String} {empty : Bool}, (empty = true → texts = []) →
      ((∀ text ∈ if empty then [] else [" ".intercalate texts], Apart text)
        ↔ ∀ text ∈ texts, Apart text) := by
    intro texts empty hempty
    cases empty with
    | true => simp [hempty rfl]
    | false => simp [apart_intercalate]
  have hnone : selection.nested.isEmpty = true → blocks = [] := by
    intro hempty
    rw [List.isEmpty_iff.1 hempty] at hblocks
    cases hblocks
    rfl
  rw [apart_intercalate, List.forall_mem_append, hparts List.isEmpty_iff.1, hparts hnone, outline,
    Field.listNames_append, Field.listNames_leaves, List.forall_mem_append,
    apart_fieldBlocks_iff selection.nested hblocks]

end VectorQuery.Selection
