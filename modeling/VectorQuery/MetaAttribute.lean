/-!
# Meta-attributes

Properties that the backend keeps for every object, outside the attributes that a collection declares.
Callers use logical names, the backend has names of its own.

* `MetaAttribute` — the meta-attributes that have two names.
* `logicalName`, `backendName` — the names; `ofLogical?` and `ofBackend?` go back.
* `isTimestamp` — the ones that are points in time.
* `path` — where conditions and sorting find a meta-attribute.
-/

namespace VectorQuery

/-- A meta-attribute with a logical and a backend name. -/
inductive MetaAttribute
  | featureProjection
  | createdAt
  | updatedAt
deriving DecidableEq

namespace MetaAttribute

/-- All meta-attributes in their order. -/
def all : List MetaAttribute := [.featureProjection, .createdAt, .updatedAt]

theorem mem_all (x : MetaAttribute) : x ∈ all := by cases x <;> decide

/-- The name that callers use. -/
def logicalName : MetaAttribute → String
  | .featureProjection => "feature_projection"
  | .createdAt => "created_at"
  | .updatedAt => "updated_at"

/-- The name that the backend uses. -/
def backendName : MetaAttribute → String
  | .featureProjection => "featureProjection"
  | .createdAt => "creationTimeUnix"
  | .updatedAt => "lastUpdateTimeUnix"

/-- The meta-attribute with a logical name. -/
def ofLogical? (name : String) : Option MetaAttribute := all.find? (·.logicalName = name)

/-- The meta-attribute with a backend name. -/
def ofBackend? (name : String) : Option MetaAttribute := all.find? (·.backendName = name)

/-- Whether a meta-attribute is a point in time. -/
def isTimestamp : MetaAttribute → Bool
  | .featureProjection => false
  | .createdAt => true
  | .updatedAt => true

/-- The place of a meta-attribute in conditions and sort keys. -/
def path (x : MetaAttribute) : String := "_" ++ x.backendName

/-- A name with a logical meta-attribute name replaced by the backend's. -/
def rename (name : String) : String := ((ofLogical? name).map backendName).getD name

end MetaAttribute

end VectorQuery
