import VectorQuery.Binary64.Basic

/-!
# Documents

The values that documents hold. Integers and floats are told apart, and an object keeps its fields in the
order in which they came.

* `Json`, `Json.Fields` — a document, and the fields of an object.
* `Json.kind` — the name of a document's kind.
* `Fields.get?`, `Fields.insert`, `Fields.erase` — look-up, writing and removal by key, with what each does to
  the other keys (`get?_insert`).
-/

namespace VectorQuery

/-- A document. -/
inductive Json
  | null
  | bool (value : Bool)
  | int (value : Int)
  | float (value : Binary64)
  | text (value : String)
  | array (items : List Json)
  | object (fields : List (String × Json))

namespace Json

/-- The fields of an object, in order. -/
abbrev Fields := List (String × Json)

/-- The name of a document's kind; integers and floats are both numbers. -/
def kind : Json → String
  | .null => "null"
  | .bool _ => "boolean"
  | .int _ => "number"
  | .float _ => "number"
  | .text _ => "string"
  | .array _ => "array"
  | .object _ => "object"

namespace Fields

/-- The value under a key. -/
def get? (key : String) : Fields → Option Json
  | [] => none
  | (k, v) :: rest => if k = key then some v else get? key rest

/-- The keys in order. -/
def keys (fields : Fields) : List String := fields.map Prod.fst

/-- The fields with a value written under a key: in place if the key is there, else at the end. -/
def insert (key : String) (value : Json) : Fields → Fields
  | [] => [(key, value)]
  | (k, v) :: rest => if k = key then (key, value) :: rest else (k, v) :: insert key value rest

theorem get?_insert (key name : String) (value : Json) (fields : Fields) :
    get? name (insert key value fields) = if key = name then some value else get? name fields := by
  induction fields with
  | nil => simp [insert, get?]
  | cons field rest ih =>
    obtain ⟨k, v⟩ := field
    by_cases hk : k = key
    · subst hk
      by_cases hn : k = name <;> simp [insert, get?, hn]
    · by_cases hn : k = name
      · subst hn
        simp [insert, get?, hk, Ne.symm hk]
      · simp [insert, get?, hk, hn, ih]

/-- The fields written one after another into others. -/
def insertAll (fields more : Fields) : Fields :=
  more.foldl (fun acc (key, value) => insert key value acc) fields

/-- The fields without a key; the last field moves into the gap. -/
def erase (key : String) : Fields → Fields
  | [] => []
  | (k, v) :: rest =>
    if k = key then
      match rest.getLast? with
      | none => []
      | some last => last :: rest.dropLast
    else (k, v) :: erase key rest

end Fields

/-- The fields of an object. -/
def fields? : Json → Option Fields
  | .object fields => some fields
  | _ => none

/-- The characters of a text value. -/
def text? : Json → Option String
  | .text value => some value
  | _ => none

/-- The value under a key of an object. -/
def field? (document : Json) (key : String) : Option Json :=
  document.fields?.bind (Fields.get? key)

end Json

end VectorQuery
