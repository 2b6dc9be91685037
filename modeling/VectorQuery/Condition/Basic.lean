import VectorQuery.Condition.Comparand
import VectorQuery.Condition.Operator
import VectorQuery.MetaAttribute

/-!
# Conditions

Trees of comparisons and null checks, joined by connectives, and their two forms.

* `Condition` — a tree; `and` and `or` join two, `all?` joins a list.
* `Condition.leaves` — the number of its leaves.
* `Condition.wire` — the text of the query grammar.
* `Condition.document` — the document that deletes send.
* `Condition.leaf` — the leaf of an attribute, a symbol and a bound value.
-/

namespace VectorQuery

/-- A condition on objects. -/
inductive Condition
  | comparison (path : String) (operator : Operator) (comparand : Comparand)
  | nullCheck (path : String)
  | join (connective : Connective) (left right : Condition)
deriving DecidableEq

namespace Condition

/-- Both conditions hold. -/
def and (left right : Condition) : Condition := .join .and left right

/-- One of the conditions holds. -/
def or (left right : Condition) : Condition := .join .or left right

/-- Both conditions where there are two, else the one there is. -/
def both? : Option Condition → Option Condition → Option Condition
  | some left, some right => some (left.and right)
  | some condition, none => some condition
  | none, other => other

/-- All conditions hold, joined from the left; none if there is no condition. -/
def all? : List Condition → Option Condition
  | [] => none
  | first :: others => some (others.foldl and first)

/-- The number of comparisons and null checks. -/
def leaves : Condition → Nat
  | .comparison _ _ _ => 1
  | .nullCheck _ => 1
  | .join _ left right => left.leaves + right.leaves

/-! ### Forms -/

/-- The wire text of a condition. -/
def wire : Condition → String
  | .comparison path operator comparand =>
    Wire.record [("path", Wire.list [Wire.quote path]), ("operator", operator.name),
      (comparand.tag, comparand.wire)]
  | .nullCheck path =>
    Wire.record [("path", Wire.list [Wire.quote path]), ("operator", Operator.isNull.name),
      ("valueBoolean", "true")]
  | .join connective left right =>
    Wire.record [("operator", connective.name), ("operands", Wire.list [left.wire, right.wire])]

/-- The document of a condition. -/
def document : Condition → Json
  | .comparison path operator comparand =>
    .object [("path", .array [.text path]), ("operator", .text operator.name),
      (comparand.tag, comparand.document)]
  | .nullCheck path =>
    .object [("path", .array [.text path]), ("operator", .text Operator.isNull.name),
      ("valueBoolean", .bool true)]
  | .join connective left right =>
    .object [("operator", .text connective.name), ("operands", .array [left.document, right.document])]

/-! ### Leaves -/

/-- The point in time that an attribute names, if it is one. -/
def timestamp? (name : String) : Option MetaAttribute :=
  (MetaAttribute.ofLogical? name).filter (·.isTimestamp)

/-- The place of an attribute: points in time are found under the backend's name. -/
def pathOf (name : String) : String := ((timestamp? name).map (·.path)).getD name

/-- What an attribute is compared with: points in time with the text of their milliseconds. -/
def comparandFor (name : String) (operand : Operand) : Except Fault Comparand :=
  if (timestamp? name).isSome then operand.epochMillis.map fun millis => .text (Numeral.ofInt millis)
  else Comparand.ofOperand operand

/-- The leaf of an attribute, a symbol and a bound value. Null makes a null check, whatever the symbol; else
the symbol is looked up before the value is typed. -/
def leaf (name symbol : String) (operand : Operand) : Except Fault Condition :=
  if operand.isNull then .ok (.nullCheck (pathOf name))
  else do
    let operator ← Operator.ofSymbol symbol
    let comparand ← comparandFor name operand
    return .comparison (pathOf name) operator comparand

end Condition

end VectorQuery
