import VectorQuery.Binary64.Basic
import VectorQuery.Calendar.Reader
import VectorQuery.Fault

/-!
# Operands

The values that a caller binds to a condition.

* `Operand` — a bound value of one of eight types.
* `Operand.kind` — the name of its type.
* `Operand.epochMillis` — its reading as a point in time.
-/

namespace VectorQuery

/-- A value bound to a condition. -/
inductive Operand
  | null
  | integer (value : Int64)
  | float (value : Binary64)
  | boolean (value : Bool)
  | text (value : String)
  | list (items : List Operand)
  | instant (value : Instant)
  | date (value : Date)

namespace Operand

/-- The name of an operand's type. -/
def kind : Operand → String
  | .null => "null"
  | .integer _ => "integer"
  | .float _ => "float"
  | .boolean _ => "boolean"
  | .text _ => "text"
  | .list _ => "list"
  | .instant _ => "datetime"
  | .date _ => "date"

/-- Whether an operand is the null value. -/
def isNull : Operand → Bool
  | .null => true
  | _ => false

/-- Whether an operand is a list. -/
def isList : Operand → Bool
  | .list _ => true
  | _ => false

/-- The milliseconds since 1970-01-01 of a point in time: of an instant, of a date's midnight, of a text that
spells either, or an integer as it is. -/
def epochMillis : Operand → Except Fault Int
  | .instant value => .ok value.epochMillis
  | .date value => .ok value.epochMillis
  | .integer value => .ok value.toInt
  | .text value =>
    match Calendar.epochMillis? value with
    | some millis => .ok millis
    | none => .error (.incomparable s!"text '{value}' (expected a date)")
  | other => .error (.incomparable (other.kind ++ " (expected a date)"))

end Operand

end VectorQuery
