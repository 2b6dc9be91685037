import VectorQuery.Binary64.Reader
import VectorQuery.Fault
import VectorQuery.Text.Blank

/-!
# Defaults

What a query takes where a call says nothing: the distance of a search, and the number of objects of a fetch.

* `Defaults` — the two values; the standard ones are 0.55 and 25.
* `Defaults.ofLookup` — the standard values with those that a lookup of settings overrides.
-/

namespace VectorQuery

/-- The values of a query where a call gives none. -/
structure Defaults where
  distance : Binary64 := Binary64.ofDecimal false 55 (-2)
  pageSize : UInt64 := 25
deriving DecidableEq

namespace Defaults

/-- The setting of the distance. -/
def distanceKey : String := "WEAVIATE_SIMILARITY_DISTANCE"

/-- The setting of the page size. -/
def pageSizeKey : String := "QUERY_DEFAULTS_LIMIT"

/-- A setting without the blanks around it. -/
def trimmed (raw : String) : List Char := Text.trim raw.toList

/-- The distance of a setting; it must be finite. -/
def distanceOf (raw : String) : Except Fault Binary64 :=
  match Binary64.ofText? (String.ofList (trimmed raw)) with
  | none => .error (.badSetting distanceKey s!"'{raw}' is not a number")
  | some distance =>
    if distance.isFinite then .ok distance else .error (.badSetting distanceKey "distance must be finite")

/-- The page size of a setting. -/
def pageSizeOf (raw : String) : Except Fault UInt64 :=
  match Numeral.word64? (trimmed raw) with
  | none => .error (.badSetting pageSizeKey s!"'{raw}' is not a page size")
  | some size => .ok size

/-- A setting's value, or a standard one where the setting is not there. -/
def settingOr {α : Type} (read : String → Except Fault α) (standard : α) : Option String → Except Fault α
  | none => .ok standard
  | some raw => read raw

/-- The defaults of a lookup of settings; the distance is read first. -/
def ofLookup (lookup : String → Option String) : Except Fault Defaults := do
  let standard : Defaults := {}
  let distance ← settingOr distanceOf standard.distance (lookup distanceKey)
  let pageSize ← settingOr pageSizeOf standard.pageSize (lookup pageSizeKey)
  return ⟨distance, pageSize⟩

end Defaults

end VectorQuery
