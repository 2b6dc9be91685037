import VectorQuery.Fault
import VectorQuery.Json.Basic
import VectorQuery.MetaAttribute
import VectorQuery.Text.Blank

/-!
# Selections

The fields that a query asks for: attribute names, and nested selections as a document.

* `Selection` — flat names without repetition, and nested fields; `HasFields`, that there is one.
* `fieldList` — a nested selection as text: a name, names in a row, or `name { … }`.
* `Selection.select` — one more call; it is kept only if everything can be written.
* `Selection.render` — the field list of a query, with backend names.
-/

namespace VectorQuery

/-- The fields selected so far. -/
structure Selection where
  names : List String := []
  nested : Json.Fields := []

namespace Selection

/-- What is asked for about every object when nothing is selected. -/
def defaultMeta : String := "_additional \x7b id creationTimeUnix lastUpdateTimeUnix \x7d"

/-- Whether nothing is selected. -/
def isEmpty (selection : Selection) : Bool := selection.names.isEmpty && selection.nested.isEmpty

/-- A selection of some field, be it by a flat name or nested. -/
def HasFields (selection : Selection) : Prop := selection.names ≠ [] ∨ selection.nested ≠ []

instance (selection : Selection) : Decidable selection.HasFields :=
  inferInstanceAs (Decidable (_ ∨ _))

theorem isEmpty_eq (selection : Selection) : selection.isEmpty = !decide selection.HasFields := by
  obtain ⟨names, nested⟩ := selection
  cases names <;> cases nested <;> rfl

/-! ### Nested selections -/

mutual

/-- The field list of a nested selection: texts stand for themselves, items follow each other. -/
def fieldList : Json → Except Fault String
  | .text name => .ok name
  | .array items => (fieldLists items).map (" ".intercalate ·)
  | .object fields => (fieldBlocks fields).map (" ".intercalate ·)
  | other => .error (.wrongType s!"cannot select a {other.kind} value")

/-- The field lists of the items of an array. -/
def fieldLists : List Json → Except Fault (List String)
  | [] => .ok []
  | item :: items => do
    let first ← fieldList item
    let others ← fieldLists items
    return first :: others

/-- The fields of an object, each a key before a block. -/
def fieldBlocks : List (String × Json) → Except Fault (List String)
  | [] => .ok []
  | (key, value) :: fields => do
    let inner ← fieldList value
    let others ← fieldBlocks fields
    return (key ++ " \x7b " ++ inner ++ " \x7d") :: others

end

/-- All that is selected, with logical names. -/
def fields (selection : Selection) : Except Fault String := do
  let flat := if selection.names.isEmpty then [] else [" ".intercalate selection.names]
  let blocks ← fieldBlocks selection.nested
  let nested := if selection.nested.isEmpty then [] else [" ".intercalate blocks]
  return " ".intercalate (flat ++ nested)

/-! ### Selecting -/

/-- Names with one more, unless it is there. -/
def addName (names : List String) (name : String) : List String :=
  if names.contains name then names else names ++ [name]

/-- The selection with more names and nested fields; a key that is there keeps its place and takes the new value.
The nested selection must be an object, and what results must have a field list. -/
def select (selection : Selection) (names : List String) (nested : Option Json) :
    Except Fault Selection := do
  let names := names.foldl addName selection.names
  let merged ← match nested with
    | none => pure selection.nested
    | some (.object more) => pure (Json.Fields.insertAll selection.nested more)
    | some other => throw (.wrongType s!"nested selection must be an object, got {other.kind}")
  let candidate : Selection := ⟨names, merged⟩
  let _ ← candidate.fields
  return candidate

/-! ### The field list of a query -/

/-- A field list with each logical meta-attribute name between single spaces replaced by the backend's. -/
def renameAll (text : String) : String :=
  " ".intercalate
    ((Text.splitWhen (· = ' ') text.toList).map fun piece => MetaAttribute.rename (String.ofList piece))

/-- The field list: what is selected, or else the given names and the default meta-attributes. -/
def render (selection : Selection) (defaults : List String) : Except Fault String :=
  if selection.isEmpty then .ok (" ".intercalate (defaults ++ [defaultMeta]))
  else selection.fields.map renameAll

end Selection

end VectorQuery
