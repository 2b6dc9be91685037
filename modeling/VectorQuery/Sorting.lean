import VectorQuery.Fault
import VectorQuery.MetaAttribute
import VectorQuery.Wire.Basic

/-!
# Sorting

Sort keys are collected over several calls and written only when the query is.

* `Direction`, `SortKey` — a direction, and a path with its direction.
* `SortKey.of` — the key of an attribute name, which must be an identifier.
* `SortKey.ofCall` — the keys of one call: bare names ascending, then pairs.
* `Sorting` — the keys so far; `wire?` writes one bare and several in a list.
-/

namespace VectorQuery

/-- The direction of a sort key. -/
inductive Direction
  | ascending
  | descending
deriving DecidableEq

namespace Direction

/-- The direction of a key that names none. -/
def standard : Direction := .ascending

/-- The name of a direction. -/
def name : Direction → String
  | .ascending => "asc"
  | .descending => "desc"

/-- The direction with a name. -/
def ofName (name : String) : Except Fault Direction :=
  if name = "asc" then .ok .ascending
  else if name = "desc" then .ok .descending
  else .error (.unknownDirection name)

end Direction

/-- A path to sort by, and in which direction. -/
structure SortKey where
  path : String
  direction : Direction
deriving DecidableEq

namespace SortKey

/-- Whether characters are an identifier: ASCII letters, digits and underscores, with no digit first. -/
def isIdentifier : List Char → Bool
  | [] => false
  | c :: cs => (c.isAlpha || c = '_') && cs.all fun d => d.isAlphanum || d = '_'

/-- The place of an attribute: the id and the meta-attributes have backend names of their own. -/
def pathOf (name : String) : String :=
  if name = "id" then "_id" else ((MetaAttribute.ofLogical? name).map (·.path)).getD name

/-- The key of an attribute and a direction. -/
def of (name : String) (direction : Direction) : Except Fault SortKey :=
  if isIdentifier name.toList then .ok ⟨pathOf name, direction⟩
  else .error (.wrongType s!"invalid sorting attribute '{name}'")

/-- The key of an attribute and a direction by name; the direction is read first. -/
def ofPair (pair : String × String) : Except Fault SortKey := do
  let direction ← Direction.ofName pair.2
  of pair.1 direction

/-- The keys of one call: bare names ascending, then pairs, each in order. -/
def ofCall (bare : List String) (directed : List (String × String)) : Except Fault (List SortKey) := do
  if bare.isEmpty && directed.isEmpty then throw (.badArguments "expected at least one argument")
  let first ← bare.mapM fun name => of name .ascending
  let second ← directed.mapM ofPair
  return first ++ second

/-- The wire text of a key. -/
def wire (key : SortKey) : String :=
  Wire.record [("path", Wire.list [Wire.quote key.path]), ("order", key.direction.name)]

end SortKey

/-- The sort keys collected so far. -/
structure Sorting where
  keys : List SortKey := []
deriving DecidableEq

namespace Sorting

/-- More keys after those there are. -/
def extend (sorting : Sorting) (more : List SortKey) : Sorting := ⟨sorting.keys ++ more⟩

/-- Whether there is no key. -/
def isEmpty (sorting : Sorting) : Bool := sorting.keys.isEmpty

/-- The wire text: nothing for no key, one key bare, and several between spaced brackets. -/
def wire? (sorting : Sorting) : Option String :=
  match sorting.keys with
  | [] => none
  | [key] => some key.wire
  | keys => some ("[ " ++ ", ".intercalate (keys.map SortKey.wire) ++ " ]")

end Sorting

end VectorQuery
