import VectorQuery.Query.Basic

/-!
# Calls

The calls that build a query, one after another. Each checks its arguments before it writes.

* `Call` — a call with its arguments.
* `PageValue` — the values that a limit or an offset may be given as.
* `pagingText` — the check of a limit or an offset.
* `Query.perform` — what a call does to a query.
-/

namespace VectorQuery

/-- A value given as a limit or an offset. -/
inductive PageValue
  | text (value : String)
  | boolean (value : Bool)
  | integer (value : Int)
  | float (value : Binary64)

/-- The text of a value given as a limit or an offset. -/
def PageValue.render : PageValue → String
  | .text value => value
  | .boolean value => Comparand.truthName value
  | .integer value => Numeral.ofInt value
  | .float value => plainFloat.write value

/-- A call that builds a query. Where a search leaves the distance out, the default one is taken. -/
inductive Call
  | restrict (clause : Clause)
  | sort (bare : List String) (directed : List (String × String))
  | sortBy (name : String) (direction : Direction)
  | select (names : List String) (nested : Option Json)
  | limit (text : String)
  | offset (text : String)
  | search (call : SearchCall (Option Binary64))

/-- A limit or an offset: a text that is the canonical numeral of an unsigned 64-bit number. -/
def pagingText (what text : String) : Except Fault String :=
  if (Numeral.word64? text.toList).any fun n => Numeral.ofNat n.toNat = text then .ok text
  else .error (.wrongType s!"{what} must be a non-negative integer, got '{text}'")

namespace Query

/-- The distance of a search: the one given, or the default one. -/
def distanceOr (query : Query) (distance : Option Binary64) : Binary64 :=
  distance.getD query.defaults.distance

/-- The query with one more condition, which is to hold as well. -/
def addCondition (query : Query) (condition : Condition) : Query :=
  { query with condition := Condition.both? query.condition (some condition) }

/-- The query with other directives. -/
def withSearch (search : Search) (query : Query) : Query := { query with search }

/-- What a call does to a query. -/
def perform : Call → Change Query Unit
  | .restrict clause => do
    let condition ← Change.check clause.condition
    modify (·.addCondition condition)
  | .sort bare directed => do
    let keys ← Change.check (SortKey.ofCall bare directed)
    modify fun query => { query with sorting := query.sorting.extend keys }
  | .sortBy name direction => do
    let key ← Change.check (SortKey.of name direction)
    modify fun query => { query with sorting := query.sorting.extend [key] }
  | .select names nested => do
    let selection ← Change.check ((← get).selection.select names nested)
    modify fun query => { query with selection }
  | .limit text => do
    let limit ← Change.check (pagingText "limit" text)
    modify fun query => { query with limit }
  | .offset text => do
    let offset ← Change.check (pagingText "offset" text)
    modify fun query => { query with offset }
  | .search call => do
    if call.lacksPhrases then throw (.badArguments "near_text expects at least one phrase")
    let query ← get
    Change.within (·.search) withSearch (Search.perform (call.map query.distanceOr))

end Query

end VectorQuery
