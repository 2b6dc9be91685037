import VectorQuery.Fault
import VectorQuery.Json.Shape

/-!
# Catalogs

The collections that a backend declares, each with its attributes.

* `Collection` — a name and the names of its attributes.
* `Catalog.ofDocument` — the collections of a schema document, all of them or a fault.
* `Catalog.find` — the first collection with a name.
-/

namespace VectorQuery

/-- A collection of objects and its declared attributes. -/
structure Collection where
  name : String
  attributes : List String
deriving DecidableEq

namespace Collection

/-- The name of an attribute that a document declares. -/
def attributeName? (document : Json) : Option String := do
  let parts ← document.record? ["name"]
  Json.required? Json.text? "name" parts

/-- The collection that a document declares. -/
def ofDocument? (document : Json) : Option Collection := do
  let parts ← document.record? ["class", "properties"]
  let name ← Json.required? Json.text? "class" parts
  let attributes ← Json.optional? (Json.listOf? attributeName?) [] "properties" parts
  return ⟨name, attributes⟩

end Collection

/-- The collections of a backend in the order of their declarations. -/
structure Catalog where
  collections : List Collection := []
deriving DecidableEq

namespace Catalog

/-- The collections that a document declares. -/
def ofDocument? (document : Json) : Option Catalog := do
  let parts ← document.record? ["classes"]
  let collections ← Json.optional? (Json.listOf? Collection.ofDocument?) [] "classes" parts
  return ⟨collections⟩

/-- The catalog of a schema document. -/
def ofDocument (document : Json) : Except Fault Catalog :=
  match ofDocument? document with
  | some catalog => .ok catalog
  | none => .error (.wrongType ("malformed schema: " ++ unstatedReason))

/-- The first collection with a name. -/
def find (catalog : Catalog) (name : String) : Except Fault Collection :=
  match catalog.collections.find? (·.name = name) with
  | some collection => .ok collection
  | none => .error (.unknownCollection name)

/-- The number of collections. -/
def size (catalog : Catalog) : Nat := catalog.collections.length

/-- Whether there is no collection. -/
def isEmpty (catalog : Catalog) : Bool := catalog.collections.isEmpty

end Catalog

end VectorQuery
