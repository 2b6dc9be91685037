import Mathlib
import VectorQuery.Proofs.Outcome
import VectorQuery.Selection

/-!
# Selections that can be written

The field list of a nested selection fails at a leaf that is no text, however deep it stands, and
nowhere else.

* `Selection.Selectable` — a document whose leaves are texts;
* `Selection.exists_fieldList_iff` — **these are the documents that have a field list**;
* `Selection.exists_fields_iff` — a selection can be written iff its nested fields are such
  documents.
-/

namespace VectorQuery.Selection

open Outcome

/-- A document whose leaves are texts, through all arrays and objects. -/
inductive Selectable : Json → Prop
  | text (name : String) : Selectable (.text name)
  | array {items : List Json} (h : ∀ item ∈ items, Selectable item) : Selectable (.array items)
  | object {fields : Json.Fields} (h : ∀ field ∈ fields, Selectable field.2) :
      Selectable (.object fields)

theorem selectable_array_iff {items : List Json} :
    Selectable (.array items) ↔ ∀ item ∈ items, Selectable item := by
  constructor
  · rintro ⟨⟩
    assumption
  · exact .array

theorem selectable_object_iff {fields : Json.Fields} :
    Selectable (.object fields) ↔ ∀ field ∈ fields, Selectable field.2 := by
  constructor
  · rintro ⟨⟩
    assumption
  · exact .object

mutual

/-- **The documents with a field list are those whose leaves are texts.** -/
theorem exists_fieldList_iff : ∀ document : Json,
    (∃ text, fieldList document = .ok text) ↔ Selectable document
  | .text name => ⟨fun _ => .text name, fun _ => ⟨name, rfl⟩⟩
  | .array items => by
    rw [selectable_array_iff, ← exists_fieldLists_iff items]
    simp only [fieldList, map_eq_ok_iff]
    exact ⟨fun ⟨_, texts, h, _⟩ => ⟨texts, h⟩, fun ⟨texts, h⟩ => ⟨_, texts, h, rfl⟩⟩
  | .object fields => by
    rw [selectable_object_iff, ← exists_fieldBlocks_iff fields]
    simp only [fieldList, map_eq_ok_iff]
    exact ⟨fun ⟨_, texts, h, _⟩ => ⟨texts, h⟩, fun ⟨texts, h⟩ => ⟨_, texts, h, rfl⟩⟩
  | .null => ⟨nofun, nofun⟩
  | .bool _ => ⟨nofun, nofun⟩
  | .int _ => ⟨nofun, nofun⟩
  | .float _ => ⟨nofun, nofun⟩

theorem exists_fieldLists_iff : ∀ items : List Json,
    (∃ texts, fieldLists items = .ok texts) ↔ ∀ item ∈ items, Selectable item
  | [] => by simp [fieldLists]
  | item :: items => by
    rw [List.forall_mem_cons, ← exists_fieldList_iff item, ← exists_fieldLists_iff items]
    simp only [fieldLists, bind_eq_ok_iff]
    constructor
    · rintro ⟨_, text, htext, texts, htexts, -⟩
      exact ⟨⟨text, htext⟩, texts, htexts⟩
    · rintro ⟨⟨text, htext⟩, texts, htexts⟩
      exact ⟨_, text, htext, texts, htexts, rfl⟩

theorem exists_fieldBlocks_iff : ∀ fields : List (String × Json),
    (∃ texts, fieldBlocks fields = .ok texts) ↔ ∀ field ∈ fields, Selectable field.2
  | [] => by simp [fieldBlocks]
  | (key, value) :: fields => by
    rw [List.forall_mem_cons, ← exists_fieldList_iff value, ← exists_fieldBlocks_iff fields]
    simp only [fieldBlocks, bind_eq_ok_iff]
    constructor
    · rintro ⟨_, text, htext, texts, htexts, -⟩
      exact ⟨⟨text, htext⟩, texts, htexts⟩
    · rintro ⟨⟨text, htext⟩, texts, htexts⟩
      exact ⟨_, text, htext, texts, htexts, rfl⟩

end

/-- A selection can be written iff the leaves of its nested fields are texts. -/
theorem exists_fields_iff {selection : Selection} :
    (∃ text, selection.fields = .ok text) ↔ ∀ field ∈ selection.nested, Selectable field.2 := by
  rw [← exists_fieldBlocks_iff]
  simp only [fields, bind_eq_ok_iff]
  exact ⟨fun ⟨_, texts, h, _⟩ => ⟨texts, h⟩, fun ⟨texts, h⟩ => ⟨_, texts, h, rfl⟩⟩

end VectorQuery.Selection
