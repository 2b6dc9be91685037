import Mathlib
import VectorQuery.Json.Shape
import VectorQuery.Proofs.Outcome

/-!
# Records in documents

A part of a record stands under its name in an object, or in its place in an array.

* `Json.word64?_eq_some_iff` — the documents of the unsigned 64-bit words are the integers in their
  range;
* `Json.get?_zip` — the part of an array that a name stands for is the one in the place of the name;
* `Json.Record`, `Json.exists_record?_iff` — the documents that give the parts of a record, and **what
  is read of one is read of its parts**;
* `Json.required?_text`, `Json.Items`, `Json.optional?_listOf?_iff` — a text that must be there, and a
  list that may be left out.
-/

namespace VectorQuery.Json

/-- The document of an unsigned 64-bit word is the integer of its value. -/
theorem word64?_eq_some_iff {document : Json} {word : UInt64} :
    document.word64? = some word ↔ document = .int word.toNat := by
  constructor
  · intro h
    cases document with
    | int value =>
      rw [word64?] at h
      split at h
      · rename_i hrange
        obtain ⟨hnonneg, hlt⟩ := hrange
        have hsmall : value.toNat < UInt64.size := by omega
        rw [← Option.some.inj h, UInt64.toNat_ofNat_of_lt' hsmall, Int.toNat_of_nonneg hnonneg]
      · cases h
    | _ => cases h
  · rintro rfl
    have hlt : word.toNat < UInt64.size := word.toNat_lt
    rw [word64?, if_pos ⟨by omega, by omega⟩, Int.toNat_natCast, UInt64.ofNat_toNat]

/-- In an array of parts, the part of a name is in the place of the name. -/
theorem get?_zip {names : List String} (hnames : names.Nodup) (items : List Json) {place : Nat}
    {name : String} (hplace : names[place]? = some name) :
    Fields.get? name (names.zip items) = items[place]? := by
  induction names generalizing items place with
  | nil => cases hplace
  | cons first names ih =>
    obtain ⟨hfirst, hrest⟩ := List.nodup_cons.1 hnames
    cases items with
    | nil => rfl
    | cons item items =>
      cases place with
      | zero =>
        cases hplace
        exact if_pos rfl
      | succ place =>
        have hmem : name ∈ names := List.mem_of_getElem? hplace
        have hne : first ≠ name := fun h => hfirst (h ▸ hmem)
        exact (if_neg hne).trans (ih hrest items hplace)

/-! ### Records -/

/-- A document gives the parts of a record by name: it is an object with these fields, and whatever
others, or an array of the parts in their order, of which the last ones may be left out. -/
inductive Record (names : List String) : Json → (String → Option Json) → Prop
  | named (fields : Fields) : Record names (.object fields) fun name => Fields.get? name fields
  | placed {items : List Json} (hlength : items.length ≤ names.length) :
      Record names (.array items) fun name => items[names.idxOf name]?

/-- What is read from the parts of a record depends on the document through the parts alone. -/
theorem exists_record?_iff {names : List String} (hnames : names.Nodup) {p : Fields → Prop}
    {q : (String → Option Json) → Prop}
    (h : ∀ parts part, (∀ name ∈ names, Fields.get? name parts = part name) → (p parts ↔ q part))
    (document : Json) :
    (∃ parts, document.record? names = some parts ∧ p parts)
      ↔ ∃ part, Record names document part ∧ q part := by
  cases document with
  | object fields =>
    have hsame := h fields (fun name => Fields.get? name fields) fun _ _ => rfl
    constructor
    · rintro ⟨parts, hparts, hp⟩
      cases hparts
      exact ⟨_, .named fields, hsame.1 hp⟩
    · rintro ⟨part, hrecord, hq⟩
      cases hrecord
      exact ⟨fields, rfl, hsame.2 hq⟩
  | array items =>
    have hsame := h (names.zip items) (fun name => items[names.idxOf name]?) fun name hname =>
      get?_zip hnames items (List.getElem?_idxOf hname)
    constructor
    · rintro ⟨parts, hparts, hp⟩
      rw [record?] at hparts
      split at hparts
      · rename_i hlength
        cases hparts
        exact ⟨_, .placed hlength, hsame.1 hp⟩
      · cases hparts
    · rintro ⟨part, hrecord, hq⟩
      cases hrecord with
      | placed hlength => exact ⟨names.zip items, if_pos hlength, hsame.2 hq⟩
  | _ =>
    constructor
    · rintro ⟨parts, hparts, -⟩
      cases hparts
    · rintro ⟨part, hrecord, -⟩
      cases hrecord

/-! ### Parts of a record -/

theorem required?_text {name value : String} {parts : Fields} :
    required? text? name parts = some value ↔ Fields.get? name parts = some (.text value) := by
  rw [required?, Option.bind_eq_some_iff]
  constructor
  · rintro ⟨document, hget, htext⟩
    cases document with
    | text found =>
      cases htext
      exact hget
    | _ => cases htext
  · intro hget
    exact ⟨_, hget, rfl⟩

/-- The items of a list that is a part of a record: none where the part is left out. -/
inductive Items : Option Json → List Json → Prop
  | absent : Items none []
  | present (items : List Json) : Items (some (.array items)) items

/-- A list that may be left out is read item by item. -/
theorem optional?_listOf?_iff {α : Type} {read : Json → Option α} {name : String} {parts : Fields}
    {values : List α} :
    optional? (listOf? read) [] name parts = some values
      ↔ ∃ items, Items (Fields.get? name parts) items
        ∧ List.Forall₂ (fun item value => read item = some value) items values := by
  simp only [← Outcome.mapM_eq_some_iff]
  rw [optional?]
  cases Fields.get? name parts with
  | none =>
    constructor
    · intro h
      cases h
      exact ⟨[], .absent, rfl⟩
    · rintro ⟨items, hitems, hread⟩
      cases hitems
      exact hread
  | some document =>
    constructor
    · intro h
      cases document with
      | array items => exact ⟨items, .present items, h⟩
      | _ => cases h
    · rintro ⟨items, hitems, hread⟩
      cases hitems
      exact hread

end VectorQuery.Json
