import VectorQuery.Fault

/-!
# Operators and connectives

* `Operator` — the comparison operators of the backend; `name` is how the backend calls them.
* `Operator.ofSymbol?` — the operator of a symbol in a clause; the null check has no symbol.
* `Connective` — the two ways to join conditions; `ofWord?` reads them in any ASCII case.
-/

namespace VectorQuery

/-- A comparison operator. -/
inductive Operator
  | equal
  | notEqual
  | greaterThan
  | lessThan
  | greaterThanEqual
  | lessThanEqual
  | like
  | containsAny
  | containsAll
  | isNull
deriving DecidableEq

namespace Operator

/-- All operators in their order. -/
def all : List Operator :=
  [.equal, .notEqual, .greaterThan, .lessThan, .greaterThanEqual, .lessThanEqual, .like, .containsAny,
    .containsAll, .isNull]

/-- The backend's name of an operator. -/
def name : Operator → String
  | .equal => "Equal"
  | .notEqual => "NotEqual"
  | .greaterThan => "GreaterThan"
  | .lessThan => "LessThan"
  | .greaterThanEqual => "GreaterThanEqual"
  | .lessThanEqual => "LessThanEqual"
  | .like => "Like"
  | .containsAny => "ContainsAny"
  | .containsAll => "ContainsAll"
  | .isNull => "IsNull"

/-- The symbols of clauses with their operators. -/
def symbols : List (String × Operator) :=
  [("=", .equal), ("==", .equal), ("!=", .notEqual), (">", .greaterThan), ("<", .lessThan),
    (">=", .greaterThanEqual), ("<=", .lessThanEqual), ("LIKE", .like), ("CONTAINS_ANY", .containsAny),
    ("CONTAINS_ALL", .containsAll)]

/-- The operator of a symbol, which must match exactly. -/
def ofSymbol? (symbol : String) : Option Operator := symbols.lookup symbol

/-- The operator of a symbol, or the fault of an unknown one. -/
def ofSymbol (symbol : String) : Except Fault Operator :=
  match ofSymbol? symbol with
  | some operator => .ok operator
  | none => .error (.unknownOperator symbol)

end Operator

/-- A way to join two conditions. -/
inductive Connective
  | and
  | or
deriving DecidableEq

namespace Connective

/-- The backend's name of a connective. -/
def name : Connective → String
  | .and => "And"
  | .or => "Or"

/-- The connective that a word spells, in any ASCII case. -/
def ofWord? (word : String) : Option Connective :=
  let letters := word.toList.map Char.toLower
  if letters = ['a', 'n', 'd'] then some .and
  else if letters = ['o', 'r'] then some .or
  else none

end Connective

end VectorQuery
