import VectorQuery.Json.Basic
import VectorQuery.Wire.Basic
import VectorQuery.Binary64.Layout

/-!
# Writing documents

The compact text of a document: no blanks, fields in order, shortest escapes and shortest floats.

* `Json.compact` — the text; a float that is no finite number is written as `null`.
-/

namespace VectorQuery.Json

mutual

/-- The compact text of a document. -/
def compact : Json → String
  | .null => "null"
  | .bool value => if value then "true" else "false"
  | .int value => Numeral.ofInt value
  | .float value => if value.isFinite then documentFloat.write value else "null"
  | .text value => Wire.quote value
  | .array items => "[" ++ ",".intercalate (compactItems items) ++ "]"
  | .object fields => "\x7b" ++ ",".intercalate (compactFields fields) ++ "\x7d"

/-- The texts of the items of an array. -/
def compactItems : List Json → List String
  | [] => []
  | item :: items => compact item :: compactItems items

/-- The texts of the fields of an object. -/
def compactFields : List (String × Json) → List String
  | [] => []
  | (key, value) :: fields => (Wire.quote key ++ ":" ++ compact value) :: compactFields fields

end

end VectorQuery.Json
