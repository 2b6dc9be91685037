import VectorQuery.Backend.Request
import VectorQuery.Catalog
import VectorQuery.Condition.Clause
import VectorQuery.Defaults
import VectorQuery.Search
import VectorQuery.Selection
import VectorQuery.Sorting

/-!
# Queries

What calls have said about a query against one collection, and the requests that it comes to.

* `Query` — the parts of a query; `Query.new` and `Query.forCollection` start one.
* `Query.fetchRequest` — the request for a page of objects.
* `Query.countRequest` — the request for their number, which no paging, sorting or selection changes.
* `Query.deleteRequest?` — the request to remove them, which needs a condition.
-/

namespace VectorQuery

/-- The parts of a query against a collection. -/
structure Query where
  collection : Collection
  defaults : Defaults
  condition : Option Condition := none
  sorting : Sorting := {}
  selection : Selection := {}
  search : Search := {}
  limit : String
  offset : String := "0"

namespace Query

/-- A query that asks for a page of everything. -/
def new (collection : Collection) (defaults : Defaults) : Query :=
  { collection, defaults, limit := Numeral.ofNat defaults.pageSize.toNat }

/-- A new query against a collection of a catalog. -/
def forCollection (catalog : Catalog) (name : String) (defaults : Defaults) : Except Fault Query :=
  (catalog.find name).map fun collection => new collection defaults

/-- The wire text of the sort keys; the backend takes none beside keywords. -/
def sortWire? (query : Query) : Option String :=
  if query.search.keyword.isSome then none else query.sorting.wire?

/-- The wire text of the condition. -/
def conditionWire? (query : Query) : Option String := query.condition.map Condition.wire

/-- The request for a page of objects. -/
def fetchRequest (query : Query) : Except Fault FetchRequest := do
  let fields ← query.selection.render query.collection.attributes
  return {
    collection := query.collection.name
    limit := query.limit
    offset := query.offset
    fields
    nearText := query.search.nearTextWire?
    nearVector := query.search.nearVectorWire?
    nearObject := query.search.nearObjectWire?
    keyword := query.search.keywordWire?
    condition := query.conditionWire?
    sort := query.sortWire?
    question := query.search.questionWire? }

/-- The request for the number of objects. -/
def countRequest (query : Query) : CountRequest where
  collection := query.collection.name
  fields := CountRequest.countFields
  nearText := query.search.nearTextWire?
  nearVector := query.search.nearVectorWire?
  nearObject := query.search.nearObjectWire?
  condition := query.conditionWire?

/-- The request to remove the objects, if there is a condition. -/
def deleteRequest? (query : Query) : Option DeleteRequest :=
  query.condition.map fun condition => ⟨query.collection.name, condition.document⟩

end Query

end VectorQuery
