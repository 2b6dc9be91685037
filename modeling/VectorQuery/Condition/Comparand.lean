import VectorQuery.Binary64.Layout
import VectorQuery.Condition.Operand
import VectorQuery.Json.Basic
import VectorQuery.Wire.Basic

/-!
# Comparands

The typed right-hand side of a comparison, as the backend takes it.

* `Comparand` — a value of one of the backend's types; only texts come in lists.
* `Comparand.ofOperand` — the comparand of a bound value, if its type has one.
* `Comparand.tag` — the field that holds it.
* `Comparand.wire`, `Comparand.document` — its two forms.
-/

namespace VectorQuery

/-- A typed value to compare with. -/
inductive Comparand
  | integer (value : Int64)
  | number (value : Binary64)
  | text (value : String)
  | texts (values : List String)
  | boolean (value : Bool)
deriving DecidableEq

namespace Comparand

/-- The text of an item of a list; lists hold nothing else. -/
def itemText : Operand → Except Fault String
  | .text value => .ok value
  | other => .error (.incomparable ("list of " ++ other.kind))

/-- The comparand of a bound value. Null, points in time, floats that are not finite and lists of anything but
texts have none. -/
def ofOperand : Operand → Except Fault Comparand
  | .integer value => .ok (.integer value)
  | .float value => if value.isFinite then .ok (.number value) else .error (.incomparable "non-finite float")
  | .boolean value => .ok (.boolean value)
  | .text value => .ok (.text value)
  | .list items => (items.mapM itemText).map .texts
  | other => .error (.incomparable other.kind)

/-- The backend's field for a comparand. -/
def tag : Comparand → String
  | .integer _ => "valueInt"
  | .number _ => "valueNumber"
  | .text _ => "valueText"
  | .texts _ => "valueText"
  | .boolean _ => "valueBoolean"

/-- The name of a truth value. -/
def truthName (value : Bool) : String := if value then "true" else "false"

/-- The wire text of a comparand. -/
def wire : Comparand → String
  | .integer value => Numeral.ofInt value.toInt
  | .number value => wireFloat.write value
  | .text value => Wire.quote value
  | .texts values => Wire.list (values.map Wire.quote)
  | .boolean value => truthName value

/-- The document of a comparand; a float that is not finite has none but null. -/
def document : Comparand → Json
  | .integer value => .int value.toInt
  | .number value => if value.isFinite then .float value else .null
  | .text value => .text value
  | .texts values => .array (values.map .text)
  | .boolean value => .bool value

end Comparand

end VectorQuery
