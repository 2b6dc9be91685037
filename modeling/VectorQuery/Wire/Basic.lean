import VectorQuery.Text.Quoted

/-!
# Wire text

The query grammar is built from quoted strings, lists `[a, b]` and records of bare keys.

* `quote` — a text as a quoted string.
* `list` — items between square brackets.
* `record` — `key: item` pairs between braces.
-/

namespace VectorQuery.Wire

/-- The quoted string of a text. -/
def quote (text : String) : String :=
  "\"" ++ String.ofList (Quoted.encode text.toList) ++ "\""

theorem quote_toList (text : String) :
    (quote text).toList = '"' :: (Quoted.encode text.toList ++ ['"']) := by
  simp [quote]

/-- Items between square brackets, parted by commas. -/
def list (items : List String) : String := "[" ++ ", ".intercalate items ++ "]"

/-- Fields between braces, each a bare key before its item. -/
def record (fields : List (String × String)) : String :=
  "\x7b " ++ ", ".intercalate (fields.map fun (key, item) => key ++ ": " ++ item) ++ " \x7d"

end VectorQuery.Wire
