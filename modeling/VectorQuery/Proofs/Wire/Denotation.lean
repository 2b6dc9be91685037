import Mathlib
import VectorQuery.Proofs.Wire.Phrase

/-!
# What wire text stands for

A text stands for a document if it is the text of a phrase with this value.  Wire text is put
together from parts, and so is what it stands for; at the end the reader finds this document.

* `Denotes` — a text, the document that it stands for, and a bound for its levels;
* `denotes_quote`, `denotes_float` — texts and finite floats;
* `Denotes.list`, `Denotes.record` — what stands for a list or a record of documents;
* `Denotes.document?` — **up to 127 levels, the reader finds the document that a text stands for**.
-/

namespace VectorQuery.Wire

open Json

/-- A text stands for a document of so many levels at most. -/
def Denotes (levels : ℕ) (wire : String) (document : Json) : Prop :=
  ∃ p : Phrase readValue, p.text = wire.toList ∧ p.value = document ∧ p.levels ≤ levels

/-! ### Texts and numbers -/

theorem denotes_quote (levels : ℕ) (text : String) : Denotes levels (quote text) (.text text) :=
  ⟨.quote text, Phrase.text_quote text, rfl, levels.zero_le⟩

theorem denotes_float (levels : ℕ) {value : Binary64} (hfinite : value.isFinite = true) :
    Denotes levels (wireFloat.write value) (.float value) :=
  ⟨.number _ (.float value) (signed_wireFloat hfinite) fun _ hrest => readNumber_wireFloat hfinite hrest,
    Phrase.text_number _ _ _ _, rfl, levels.zero_le⟩

/-! ### Lists and records -/

/-- Phrases for several parts, with the deepest among them. -/
theorem exists_phrases {α ι : Type} {read : DepthReader α} {levels : ℕ} (text : ι → List Char)
    (value : ι → α) {items : List ι}
    (h : ∀ item ∈ items, ∃ p : Phrase read,
      p.text = text item ∧ p.value = value item ∧ p.levels ≤ levels) :
    ∃ ps : List (Phrase read), ps.map (·.text) = items.map text
      ∧ ps.map (·.value) = items.map value ∧ deepest (Phrase.spellings ps) ≤ levels := by
  induction items with
  | nil => exact ⟨[], rfl, rfl, levels.zero_le⟩
  | cons item items ih =>
    rw [List.forall_mem_cons] at h
    obtain ⟨p, htext, hvalue, hlevels⟩ := h.1
    obtain ⟨ps, htexts, hvalues, hdeepest⟩ := ih h.2
    refine ⟨p :: ps, ?_, ?_, deepest_cons_le.2 ⟨hlevels, hdeepest⟩⟩
    · rw [List.map_cons, List.map_cons, htext, htexts]
    · rw [List.map_cons, List.map_cons, hvalue, hvalues]

theorem Denotes.list {ι : Type} {levels : ℕ} {wire : ι → String} {document : ι → Json}
    {items : List ι} (h : ∀ item ∈ items, Denotes levels (wire item) (document item)) :
    Denotes (levels + 1) (Wire.list (items.map wire)) (.array (items.map document)) := by
  obtain ⟨ps, htexts, hvalues, hdeepest⟩ := exists_phrases (fun item => (wire item).toList) document h
  refine ⟨.list ps, ?_, ?_, Nat.succ_le_succ hdeepest⟩
  · apply Phrase.text_list
    rw [htexts, List.map_map]
    rfl
  · show Json.array (ps.map (·.value)) = _
    rw [hvalues]

/-- A field of a record: a bare key, which is not the one before an operator, and an item that stands
for a document. -/
inductive FieldDenotes (levels : ℕ) : String × String × Json → Prop
  | intro {key wire : String} {document : Json} (hkey : isBareWord key.toList = true)
      (hother : key ≠ "operator") (hitem : Denotes levels wire document) :
      FieldDenotes levels (key, wire, document)

theorem Denotes.record {levels : ℕ} {fields : List (String × String × Json)}
    (h : ∀ field ∈ fields, FieldDenotes levels field) (hkeys : (fields.map (·.1)).Nodup) :
    Denotes (levels + 1) (Wire.record (fields.map fun field => (field.1, field.2.1)))
      (.object (fields.map fun field => (field.1, field.2.2))) := by
  have hphrases : ∀ field ∈ fields, ∃ p : Phrase fieldReader,
      p.text = field.1.toList ++ ':' :: ' ' :: field.2.1.toList
      ∧ p.value = (field.1, field.2.2) ∧ p.levels ≤ levels := by
    intro field hfield
    cases h field hfield with
    | @intro key wire document hkey hother hitem =>
      obtain ⟨item, htext, hvalue, hlevels⟩ := hitem
      have hoperator : key.toList ≠ operatorKey := fun h => hother (String.toList_inj.1 h)
      refine ⟨.field key hkey hoperator item, ?_, ?_, hlevels⟩
      · show key.toList ++ ':' :: ' ' :: item.text = _
        rw [htext]
      · show (key, item.value) = _
        rw [hvalue]
  obtain ⟨ps, htexts, hvalues, hdeepest⟩ := exists_phrases _ _ hphrases
  have hnodup : (ps.map (·.value.1)).Nodup := by
    have hsame : ps.map (·.value.1) = (ps.map (·.value)).map (·.1) := (List.map_map ..).symm
    rw [hsame, hvalues, List.map_map]
    exact hkeys
  refine ⟨.record ps hnodup, ?_, ?_, Nat.succ_le_succ hdeepest⟩
  · apply Phrase.text_record
    rw [htexts, List.map_map]
    rfl
  · show Json.object (ps.map (·.value)) = _
    rw [hvalues]

/-! ### Reading -/

/-- **The reader finds the document that a text stands for.** -/
theorem Denotes.document? {levels : ℕ} {wire : String} {document : Json}
    (h : Denotes levels wire document) (hlevels : levels ≤ 127) :
    Wire.document? wire = .ok document := by
  obtain ⟨p, htext, rfl, hp⟩ := h
  have hread := p.document?_text
  rwa [htext, String.ofList_toList, if_pos (hp.trans hlevels)] at hread

end VectorQuery.Wire
