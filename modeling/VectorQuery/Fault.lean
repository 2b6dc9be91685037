/-!
# Faults

The ways in which building, reading or running a query fails.

* `Fault` — one constructor for each cause, with what its message tells.
* `Fault.message` — the message.
* `unstatedReason` — what stands for the reason where a reader of documents gives none.
-/

namespace VectorQuery

/-- A cause of failure. -/
inductive Fault
  /-- The arguments of a call are missing or contradict each other. -/
  | badArguments (detail : String)
  /-- A value has the wrong type or form for its place. -/
  | wrongType (detail : String)
  /-- No comparison operator has this symbol. -/
  | unknownOperator (symbol : String)
  /-- A value of this description cannot be compared with. -/
  | incomparable (description : String)
  /-- No sort direction has this name. -/
  | unknownDirection (name : String)
  /-- A condition clause is not well formed. -/
  | malformedClause (detail : String)
  /-- A wire text cannot be read as a document. -/
  | unreadableWire (reason : String)
  /-- A keyword search or a question has no text. -/
  | emptyPrompt
  /-- A delete has no condition. -/
  | missingCondition
  /-- The backend reports a failure. -/
  | server (detail : String)
  /-- The backend cannot be reached. -/
  | connection (detail : String)
  /-- The catalog has no collection of this name. -/
  | unknownCollection (name : String)
  /-- A setting cannot be used. -/
  | badSetting (key reason : String)
deriving DecidableEq

/-- What stands for the reason where a reader of documents gives none. -/
def unstatedReason : String := "<detail>"

namespace Fault

/-- The message of a fault. -/
def message : Fault → String
  | .badArguments detail => s!"invalid arguments: {detail}"
  | .wrongType detail => s!"type mismatch: {detail}"
  | .unknownOperator symbol => s!"Invalid conditional operator {symbol}"
  | .incomparable description => s!"Invalid value type {description} for comparison"
  | .unknownDirection name => s!"invalid sorting order: {name}"
  | .malformedClause detail => detail
  | .unreadableWire reason => s!"unable to convert where query: {reason}"
  | .emptyPrompt => "text cannot be empty"
  | .missingCondition => "where condition is required for destroy_all"
  | .server detail => s!"server error: {detail}"
  | .connection detail => s!"connection error: {detail}"
  | .unknownCollection name => s!"Collection {name} not found in the schema"
  | .badSetting key reason => s!"invalid configuration for {key}: {reason}"

end Fault

end VectorQuery
