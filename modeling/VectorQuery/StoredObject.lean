import VectorQuery.Calendar.Instant
import VectorQuery.Json.Basic
import VectorQuery.MetaAttribute
import VectorQuery.Text.Numeral
import VectorQuery.Uuid

/-!
# Stored objects

An object as the backend gives it, parted into its attributes and its meta-attributes.

* `StoredObject` — the two groups of fields, and whether the query selected fields of its own.
* `StoredObject.ofFields` — the parts of raw fields, with logical names for the meta-attributes.
* `attribute?`, `metaAttribute?` — look-up in each group.
* `id?`, `createdAt?`, `updatedAt?` — the meta-attributes that are more than a document.
-/

namespace VectorQuery

/-- An object of the backend. -/
structure StoredObject where
  attributes : Json.Fields
  metaAttributes : Json.Fields
  customSelected : Bool

namespace StoredObject

/-- The key of the meta-attributes among raw fields. -/
def metaKey : String := "_additional"

/-- Fields with a meta-attribute moved from its backend name to its logical name. -/
def renameMeta (fields : Json.Fields) (x : MetaAttribute) : Json.Fields :=
  match Json.Fields.get? x.backendName fields with
  | some value => Json.Fields.insert x.logicalName value (Json.Fields.erase x.backendName fields)
  | none => fields

/-- The object of raw fields; meta-attributes that are no object are passed over. -/
def ofFields (raw : Json.Fields) (customSelected : Bool) : StoredObject :=
  let block := ((Json.Fields.get? metaKey raw).bind Json.fields?).getD []
  ⟨Json.Fields.erase metaKey raw, MetaAttribute.all.foldl renameMeta block, customSelected⟩

/-- The value of an attribute. -/
def attribute? (object : StoredObject) (name : String) : Option Json :=
  Json.Fields.get? name object.attributes

/-- The value of a meta-attribute by its logical name. -/
def metaAttribute? (object : StoredObject) (name : String) : Option Json :=
  Json.Fields.get? name object.metaAttributes

/-- The id, if there is one that is an identifier. -/
def id? (object : StoredObject) : Option Uuid :=
  (object.metaAttribute? "id").bind fun value => value.text?.bind Uuid.ofText?

/-- The id as text, for a search near the object. -/
def idText? (object : StoredObject) : Option String := object.id?.map Uuid.hyphenated

/-- The milliseconds of a point in time, which the backend sends as text or as an integer. -/
def millis? : Json → Option Int64
  | .text value => Numeral.signed64? value.toList
  | .int value => Numeral.toSigned64? value
  | _ => none

/-- A meta-attribute that is a point in time. -/
def instant? (object : StoredObject) (x : MetaAttribute) : Option Instant :=
  (object.metaAttribute? x.logicalName).bind fun value =>
    (millis? value).bind fun millis => Instant.ofEpochMillis? millis.toInt

/-- When the object was created. -/
def createdAt? (object : StoredObject) : Option Instant := object.instant? .createdAt

/-- When the object was last changed. -/
def updatedAt? (object : StoredObject) : Option Instant := object.instant? .updatedAt

end StoredObject

end VectorQuery
