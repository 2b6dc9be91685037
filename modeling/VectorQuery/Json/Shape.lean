import VectorQuery.Json.Basic
import VectorQuery.Text.Numeral

/-!
# Reading records out of documents

A record has named parts. A document gives them as an object, in which other keys are passed over, or as an array
of the parts in their order, in which the last ones may be left out.

* `record?` — the parts that a document gives.
* `required?`, `optional?` — a part by name.
* `listOf?`, `word64?` — parts of a given form.
-/

namespace VectorQuery.Json

/-- The parts of a record with the given names, as fields. -/
def record? (names : List String) : Json → Option Fields
  | .object fields => some fields
  | .array items => if items.length ≤ names.length then some (names.zip items) else none
  | _ => none

/-- A part that must be there. -/
def required? {α : Type} (read : Json → Option α) (name : String) (fields : Fields) : Option α :=
  (Fields.get? name fields).bind read

/-- A part that has a standard value when it is not there; if it is, it must be well formed. -/
def optional? {α : Type} (read : Json → Option α) (standard : α) (name : String) (fields : Fields) : Option α :=
  match Fields.get? name fields with
  | none => some standard
  | some document => read document

/-- The items of an array, all of one form. -/
def listOf? {α : Type} (read : Json → Option α) : Json → Option (List α)
  | .array items => items.mapM read
  | _ => none

/-- An integer in the range of unsigned 64-bit words. -/
def word64? : Json → Option UInt64
  | .int value => if 0 ≤ value ∧ value < UInt64.size then some (UInt64.ofNat value.toNat) else none
  | _ => none

end VectorQuery.Json
