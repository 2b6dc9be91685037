import VectorQuery.Backend.Scripted
import VectorQuery.Session
import VectorQuery.Wire.Reader
import VectorQuery.Proofs.Binary64.Decimal
import VectorQuery.Proofs.Json.Number
import VectorQuery.Proofs.Json.Float
import VectorQuery.Proofs.Json.Container
import VectorQuery.Proofs.Wire.Pass
import VectorQuery.Proofs.Wire.Phrase
import VectorQuery.Proofs.Condition.ReadBack
import VectorQuery.Proofs.Condition.Connectives
import VectorQuery.Proofs.Condition.Grammar
import VectorQuery.Proofs.Query.Calls
import VectorQuery.Proofs.Session.Steps
import VectorQuery.Proofs.Session.Cache
import VectorQuery.Proofs.Wire.Delimited
import VectorQuery.Proofs.Condition.Unambiguous
import VectorQuery.Proofs.Session.Interleaving
import VectorQuery.Proofs.Json.Record
import VectorQuery.Proofs.Session.Deletion
import VectorQuery.Proofs.Session.Fetches
import VectorQuery.Proofs.Selection.Writable
import VectorQuery.Proofs.Session.Reading
import VectorQuery.Proofs.Change
import VectorQuery.Proofs.Wire.Denotation
import VectorQuery.Proofs.Search.Accumulation
import VectorQuery.Proofs.Search.Fragments
import VectorQuery.Proofs.Session.Counting
import VectorQuery.Proofs.Condition.Leaves
import VectorQuery.Proofs.Session.Restriction
import VectorQuery.Proofs.Calendar.Range
import VectorQuery.Proofs.Condition.Typed
import VectorQuery.Proofs.Session.Documents
import VectorQuery.Proofs.Condition.SpelledPairs
import VectorQuery.Proofs.Wire.Verbatim
import VectorQuery.Proofs.Selection.Renaming
import VectorQuery.Proofs.Selection.Outline
import VectorQuery.Proofs.Selection.Rendering
import VectorQuery.Proofs.Json.Keys
import VectorQuery.Proofs.StoredObject.Parting
import VectorQuery.Proofs.Sorting.Accepted
import VectorQuery.Proofs.Sorting.Unambiguous
import VectorQuery.Proofs.Session.Ordering
import VectorQuery.Proofs.Selection.Merging
import VectorQuery.Proofs.Session.Selecting
import VectorQuery.Proofs.Selection.Apart
import VectorQuery.Proofs.Session.FieldLists
import VectorQuery.Proofs.Session.Paging
import VectorQuery.Proofs.Calendar.DayCount
import VectorQuery.Proofs.Calendar.Written
import VectorQuery.Proofs.Condition.Single
import VectorQuery.Proofs.Condition.Instants
import VectorQuery.Proofs.Search.Reference
import VectorQuery.Proofs.StoredObject.Times
import VectorQuery.Proofs.Condition.Supply
import VectorQuery.Proofs.Backend.Exchanges
import VectorQuery.Proofs.Wire.Brackets
import VectorQuery.Proofs.Condition.Truncated
import VectorQuery.Proofs.Binary64.Overflow
import VectorQuery.Proofs.Binary64.Spelling
import VectorQuery.Proofs.Defaults
import VectorQuery.Proofs.Session.Configured
import VectorQuery.Proofs.Catalog
import VectorQuery.Proofs.Binary64.Shortest
import VectorQuery.Proofs.Binary64.Forms
import VectorQuery.Proofs.Json.NumberText
import VectorQuery.Proofs.Wire.Floats
import VectorQuery.Proofs.Wire.StringEnd
