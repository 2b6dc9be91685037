import Mathlib
import VectorQuery.Proofs.Search.Accumulation
import VectorQuery.Proofs.Uuid.Spelling
import VectorQuery.Proofs.Wire.Phrase
import VectorQuery.StoredObject

/-!
# Searches near a stored object

A stored object has an id if its meta-attribute spells one.  A search near the object goes by the
written form of the id, so how it is spelt makes no difference.

* `StoredObject.HasId`, `StoredObject.id?_eq_some_iff` — the objects that have an id;
* `Search.quote_hyphenated` — the written form in a fragment;
* `Search.on_nearObject`, `Search.on_nearObject_none` — what a search near an object does;
* `Search.nearObject_stored` — **any object with an id can be searched near**.
-/

namespace VectorQuery

/-! ### Ids of objects -/

namespace StoredObject

/-- An object's id is a text that spells an identifier. -/
def HasId (object : StoredObject) (id : Uuid) : Prop :=
  ∃ text : String, object.metaAttribute? "id" = some (.text text) ∧ id.Spells text.toList

theorem id?_eq_some_iff {object : StoredObject} {id : Uuid} :
    object.id? = some id ↔ object.HasId id := by
  rw [id?, Option.bind_eq_some_iff]
  constructor
  · intro h
    obtain ⟨value, hvalue, hid⟩ := h
    obtain ⟨text, htext, hread⟩ := Option.bind_eq_some_iff.1 hid
    cases value with
    | text _ =>
      cases htext
      exact ⟨text, hvalue, Uuid.ofText?_eq_some_iff.1 hread⟩
    | null | bool _ | int _ | float _ | array _ | object _ => cases htext
  · intro h
    obtain ⟨text, hvalue, hspells⟩ := h
    exact ⟨.text text, hvalue, Uuid.ofText?_eq_some_iff.2 hspells⟩

end StoredObject

namespace Search

/-! ### Searches by id -/

theorem quote_hyphenated (id : Uuid) : Wire.quote id.hyphenated = "\"" ++ id.hyphenated ++ "\"" := by
  have hplain : ∀ c ∈ id.hyphenated.toList, Quoted.escape c = [c] :=
    Uuid.forall_mem_hyphenated (by decide) (by decide) id
  rw [Wire.quote, Wire.Phrase.encode_of_escape hplain, String.ofList_toList]

theorem record_of_id (id : Uuid) (distance : Binary64) :
    Wire.record [("id", Wire.quote id.hyphenated), ("distance", wireFloat.write distance)]
      = "\x7b id: \"" ++ id.hyphenated ++ "\", distance: " ++ wireFloat.write distance
        ++ " \x7d" := by
  rw [Wire.record, quote_hyphenated, ← String.toList_inj]
  simp [String.toList_append]

variable {distance : Binary64}

/-- The written form of an id is accepted. -/
theorem on_nearObjectId (hdistance : distance.isFinite = true) (id : Uuid) (search : Search) :
    (nearObjectId id.hyphenated distance).on search
      = (.ok (), { search with object := some (id.hyphenated, distance) }) := by
  have hread := Uuid.ofHyphenated?_hyphenated id
  rw [nearObjectId, hread, finiteDistance, if_pos hdistance]
  rfl

/-- A search near an object with an id goes by the id's written form. -/
theorem on_nearObject (hdistance : distance.isFinite = true) {object : StoredObject} {id : Uuid}
    (hid : object.id? = some id) (search : Search) :
    (perform (.nearObject object.idText? distance)).on search
      = (.ok (), { search with object := some (id.hyphenated, distance) }) := by
  rw [StoredObject.idText?, hid]
  exact on_nearObjectId hdistance id search

/-- Without an id, nothing is changed. -/
theorem on_nearObject_none {object : StoredObject} (hid : object.id? = none) (distance : Binary64)
    (search : Search) :
    (perform (.nearObject object.idText? distance)).on search
      = (.error (.wrongType "entity has no id"), search) := by
  rw [StoredObject.idText?, hid]
  rfl

/-- **Any object with an id can be searched near.**  The search succeeds iff the object has an id.
Then the fragment holds the id's lower-case hyphenated form, and a search by that form does the same;
else nothing is changed.  Objects whose ids spell the same identifier are searched near alike. -/
theorem nearObject_stored (hdistance : distance.isFinite = true) (object : StoredObject)
    (search : Search) :
    let near := fun object : StoredObject => (perform (.nearObject object.idText? distance)).on search
    ((near object).1.isOk = object.id?.isSome)
    ∧ (∀ id, object.id? = some id →
        (near object).2.nearObjectWire?
          = some ("\x7b id: \"" ++ id.hyphenated ++ "\", distance: " ++ wireFloat.write distance
            ++ " \x7d")
        ∧ id.Hyphenated id.hyphenated.toList ∧ (∀ c ∈ id.hyphenated.toList, c.isUpper = false)
        ∧ (perform (.nearObjectId id.hyphenated distance)).on search = near object)
    ∧ (object.id? = none → near object = (.error (.wrongType "entity has no id"), search))
    ∧ ∀ other id, object.HasId id → other.HasId id → near other = near object := by
  intro near
  refine ⟨?_, fun id hid => ?_, fun hid => on_nearObject_none hid distance search,
    fun other id hobject hother => ?_⟩
  · show ((perform (.nearObject object.idText? distance)).on search).1.isOk = object.id?.isSome
    cases hid : object.id? with
    | none => rw [on_nearObject_none hid]; rfl
    | some id => rw [on_nearObject hdistance hid]; rfl
  · have hnear : near object = _ := on_nearObject hdistance hid search
    rw [hnear]
    exact ⟨congrArg some (record_of_id id distance), id.hyphenated_spelt, id.hyphenated_lower,
      on_nearObjectId hdistance id search⟩
  · have hid := StoredObject.id?_eq_some_iff.2 hobject
    have hotherId := StoredObject.id?_eq_some_iff.2 hother
    exact (on_nearObject hdistance hotherId search).trans (on_nearObject hdistance hid search).symm

/-- A quarter. -/
def quarter : Binary64 := .ofDecimal false 25 (-2)

/-- An object with an id, as the backend gives it. -/
def stored (id : String) : StoredObject :=
  .ofFields [("title", .text "Dune"), ("_additional", .object [("id", .text id)])] false

/-- A URN and a text in braces, with letters of both cases; digits without hyphens are no id in
braces. -/
theorem nearObject_stored_spellings :
    let near := fun id => (perform (.nearObject (stored id).idText? quarter)).on {}
    quarter.isFinite = true
    ∧ (near "URN:uuid:00112233-4455-6677-8899-AaBbCcDdEeFf").2.nearObjectWire?
        = some "\x7b id: \"00112233-4455-6677-8899-aabbccddeeff\", distance: 0.25 \x7d"
    ∧ near "\x7b00112233-4455-6677-8899-aABBCCDDEEff\x7d"
        = near "URN:uuid:00112233-4455-6677-8899-AaBbCcDdEeFf"
    ∧ near "\x7b00112233445566778899aabbccddeeff\x7d"
        = (.error (.wrongType "entity has no id"), {}) := by
  intro near
  let id : Uuid := ⟨[0, 0, 1, 1, 2, 2, 3, 3, 4, 4, 5, 5, 6, 6, 7, 7, 8, 8, 9, 9, 10, 10, 11, 11, 12,
    12, 13, 13, 14, 14, 15, 15], rfl⟩
  have hfinite : quarter.isFinite = true := by decide
  have hurn : (stored "URN:uuid:00112233-4455-6677-8899-AaBbCcDdEeFf").id? = some id := by decide
  have hbraced : (stored "\x7b00112233-4455-6677-8899-aABBCCDDEEff\x7d").id? = some id := by decide
  have hnone : (stored "\x7b00112233445566778899aabbccddeeff\x7d").id? = none := by decide
  obtain ⟨-, hfragment, -, hsame⟩ := nearObject_stored hfinite
    (stored "URN:uuid:00112233-4455-6677-8899-AaBbCcDdEeFf") {}
  obtain ⟨-, -, hfault, -⟩ := nearObject_stored hfinite
    (stored "\x7b00112233445566778899aabbccddeeff\x7d") {}
  have hwire : "\x7b id: \"00112233-4455-6677-8899-aabbccddeeff\", distance: 0.25 \x7d"
      = "\x7b id: \"" ++ id.hyphenated ++ "\", distance: " ++ wireFloat.write quarter
        ++ " \x7d" := by decide
  refine ⟨hfinite, ?_, hsame _ id (StoredObject.id?_eq_some_iff.1 hurn)
    (StoredObject.id?_eq_some_iff.1 hbraced), hfault hnone⟩
  rw [hwire]
  exact (hfragment id hurn).1

end Search

end VectorQuery
