import Mathlib
import VectorQuery.Proofs.Json.Keys
import VectorQuery.StoredObject

/-!
# Parting raw fields

The raw fields of an object are parted into its attributes and its meta-attributes, and some of the
latter change their names one after another.  Each of these steps removes a field, and so disturbs
the order of the others; since keys are distinct, no other key notices.

* `MetaAttribute.Names` — the logical and the backend name of each meta-attribute;
* `MetaAttribute.logicalName_ne_backendName` — no logical name is a backend name;
* `StoredObject.get?_renameMeta` — what one change of name does to every key;
* `StoredObject.Renamed` — fields before and after some meta-attributes have changed their names, and
  `StoredObject.renamed_foldl`, that any sequence of changes comes to this;
* `StoredObject.ofFields_parted` — **each raw field is found again, in whatever order they come**.
-/

namespace VectorQuery

/-! ### Names -/

namespace MetaAttribute

/-- The logical name of a meta-attribute, with its name for the backend. -/
inductive Names : String → String → Prop
  | featureProjection : Names "feature_projection" "featureProjection"
  | createdAt : Names "created_at" "creationTimeUnix"
  | updatedAt : Names "updated_at" "lastUpdateTimeUnix"

theorem names (x : MetaAttribute) : Names x.logicalName x.backendName := by
  cases x
  · exact .featureProjection
  · exact .createdAt
  · exact .updatedAt

theorem Names.exists_eq {logical backend : String} (h : Names logical backend) :
    ∃ x : MetaAttribute, x.logicalName = logical ∧ x.backendName = backend := by
  cases h with
  | featureProjection => exact ⟨.featureProjection, rfl, rfl⟩
  | createdAt => exact ⟨.createdAt, rfl, rfl⟩
  | updatedAt => exact ⟨.updatedAt, rfl, rfl⟩

theorem logicalName_injective : Function.Injective logicalName := by
  intro x y h
  cases x <;> cases y <;> first | rfl | exact absurd h (by decide)

theorem backendName_injective : Function.Injective backendName := by
  intro x y h
  cases x <;> cases y <;> first | rfl | exact absurd h (by decide)

theorem logicalName_ne_backendName (x y : MetaAttribute) : x.logicalName ≠ y.backendName := by
  cases x <;> cases y <;> decide

end MetaAttribute

namespace StoredObject

open Json Json.Fields MetaAttribute

/-! ### A change of name -/

variable {fields : Json.Fields}

theorem nodup_renameMeta (x : MetaAttribute) (hkeys : (keys fields).Nodup) :
    (keys (renameMeta fields x)).Nodup := by
  rw [renameMeta]
  split
  · exact nodup_insert (nodup_erase _ hkeys) _ _
  · exact hkeys

/-- What one change of name does to every key. -/
theorem get?_renameMeta (x : MetaAttribute) (hkeys : (keys fields).Nodup) (name : String) :
    get? name (renameMeta fields x)
      = if name = x.logicalName then (get? x.backendName fields).or (get? name fields)
        else if name = x.backendName then none
        else get? name fields := by
  rw [renameMeta]
  split
  · rename_i value hvalue
    rw [get?_insert, get?_erase _ _ hkeys, hvalue, Option.some_or]
    by_cases hlogical : name = x.logicalName
    · rw [if_pos hlogical.symm, if_pos hlogical]
    · rw [if_neg (Ne.symm hlogical), if_neg hlogical]
  · rename_i hnone
    -- without a value under the backend name, nothing is done
    rw [hnone, Option.none_or]
    by_cases hbackend : name = x.backendName
    · rw [hbackend, hnone]
      simp
    · simp [hbackend]

/-- Fields before and after some meta-attributes have changed their names.  A value under a backend
name stands under the logical name, in place of any value that stood there; all else is as it was. -/
structure Renamed (xs : List MetaAttribute) (before after : Json.Fields) : Prop where
  logical : ∀ x ∈ xs,
    get? x.logicalName after = (get? x.backendName before).or (get? x.logicalName before)
  backend : ∀ x ∈ xs, get? x.backendName after = none
  other : ∀ name, (∀ x ∈ xs, name ≠ x.logicalName ∧ name ≠ x.backendName) →
    get? name after = get? name before

/-- **Any sequence of changes of names** comes to this. -/
theorem renamed_foldl (xs : List MetaAttribute) (hkeys : (keys fields).Nodup) :
    Renamed xs fields (xs.foldl renameMeta fields) := by
  induction xs generalizing fields with
  | nil => exact ⟨List.forall_mem_nil _, List.forall_mem_nil _, fun _ _ => rfl⟩
  | cons x xs ih =>
    have hrest : Renamed xs (renameMeta fields x) ((x :: xs).foldl renameMeta fields) :=
      ih (nodup_renameMeta x hkeys)
    have hfirst := get?_renameMeta x hkeys
    -- one change of name leaves the names of the other meta-attributes alone
    have hlogical : ∀ y, y ≠ x →
        get? y.logicalName (renameMeta fields x) = get? y.logicalName fields := by
      intro y hy
      rw [hfirst, if_neg (logicalName_injective.ne hy), if_neg (logicalName_ne_backendName y x)]
    have hbackend : ∀ y, y ≠ x →
        get? y.backendName (renameMeta fields x) = get? y.backendName fields := by
      intro y hy
      rw [hfirst, if_neg (logicalName_ne_backendName x y).symm, if_neg (backendName_injective.ne hy)]
    have hself : get? x.backendName (renameMeta fields x) = none := by
      rw [hfirst, if_neg (logicalName_ne_backendName x x).symm, if_pos rfl]
    have hmoved : get? x.logicalName (renameMeta fields x)
        = (get? x.backendName fields).or (get? x.logicalName fields) := by
      rw [hfirst, if_pos rfl]
    refine ⟨fun y hy => ?_, fun y hy => ?_, fun name hname => ?_⟩
    · by_cases hyx : y = x
      · subst hyx
        by_cases hmem : y ∈ xs
        · rw [hrest.logical y hmem, hself, Option.none_or, hmoved]
        · rw [hrest.other, hmoved]
          intro z hz
          have hne : y ≠ z := fun h => hmem (h ▸ hz)
          exact ⟨logicalName_injective.ne hne, logicalName_ne_backendName y z⟩
      · rw [hrest.logical y (List.mem_of_ne_of_mem hyx hy), hbackend y hyx, hlogical y hyx]
    · by_cases hmem : y ∈ xs
      · exact hrest.backend y hmem
      · obtain rfl : y = x := (List.mem_cons.1 hy).resolve_right hmem
        rw [hrest.other, hself]
        intro z hz
        have hne : y ≠ z := fun h => hmem (h ▸ hz)
        exact ⟨(logicalName_ne_backendName z y).symm, backendName_injective.ne hne⟩
    · obtain ⟨hname, hmore⟩ := List.forall_mem_cons.1 hname
      rw [hrest.other name hmore, hfirst, if_neg hname.1, if_neg hname.2]

/-! ### Raw fields -/

/-- The meta-attributes as they come: the object under their key, or none if there is no object. -/
def metaBlock (raw : Json.Fields) : Json.Fields :=
  match get? "_additional" raw with
  | some (.object block) => block
  | _ => []

theorem metaAttributes_ofFields (raw : Json.Fields) (customSelected : Bool) :
    (ofFields raw customSelected).metaAttributes
      = MetaAttribute.all.foldl renameMeta (metaBlock raw) := by
  rw [ofFields, metaBlock, metaKey]
  cases get? "_additional" raw with
  | none => rfl
  | some document => cases document <;> rfl

/-- **Raw fields are parted without loss.**  Let the raw fields, and those of the block of
meta-attributes, have distinct keys, in any order.  Then the attributes are the raw fields but the
block, each of them once.  A meta-attribute of two names is found under its logical name, with the
value under its backend name if there is one, and not under its backend name; every other name stands
for what it stands for in the block. -/
theorem ofFields_parted {raw : Json.Fields} (hraw : (keys raw).Nodup)
    (hblock : (keys (metaBlock raw)).Nodup) (customSelected : Bool) :
    let object := ofFields raw customSelected
    let block := metaBlock raw
    (∀ name, object.attribute? name = if name = "_additional" then none else get? name raw)
    ∧ (keys object.attributes).Nodup
    ∧ object.attributes.Perm (raw.filter fun field => field.1 ≠ "_additional")
    ∧ (∀ logical backend, Names logical backend →
        object.metaAttribute? logical = (get? backend block).or (get? logical block)
        ∧ object.metaAttribute? backend = none)
    ∧ ∀ name, (∀ logical backend, Names logical backend → name ≠ logical ∧ name ≠ backend) →
        object.metaAttribute? name = get? name block := by
  intro object block
  have hrenamed : Renamed MetaAttribute.all block object.metaAttributes := by
    rw [metaAttributes_ofFields]
    exact renamed_foldl MetaAttribute.all hblock
  refine ⟨fun name => get?_erase metaKey name hraw, nodup_erase metaKey hraw,
    erase_perm_filter metaKey hraw, fun logical backend hnames => ?_, fun name hname => ?_⟩
  · obtain ⟨x, rfl, rfl⟩ := hnames.exists_eq
    exact ⟨hrenamed.logical x (mem_all x), hrenamed.backend x (mem_all x)⟩
  · exact hrenamed.other name fun x _ => hname _ _ x.names

/-- A block in which one meta-attribute has both of its names, the logical one first and the backend
one last, and another has its backend name only. -/
def bothNames : Json.Fields :=
  [("title", .text "Dune"),
    ("_additional", .object [("updated_at", .int 1), ("creationTimeUnix", .text "5"), ("id", .null),
      ("lastUpdateTimeUnix", .int 2)]),
    ("year", .int 1965)]

/-- The value under the backend name wins, and nothing is lost beside it. -/
theorem ofFields_parted_bothNames :
    let object := ofFields bothNames false
    object.attribute? "year" = some (.int 1965) ∧ object.attribute? "_additional" = none
    ∧ object.metaAttribute? "updated_at" = some (.int 2)
    ∧ object.metaAttribute? "created_at" = some (.text "5")
    ∧ object.metaAttribute? "lastUpdateTimeUnix" = none
    ∧ object.metaAttribute? "id" = some .null := by
  intro object
  have hraw : (keys bothNames).Nodup := by decide
  have hblock : (keys (metaBlock bothNames)).Nodup := by decide
  obtain ⟨hattribute, -, -, hnames, hother⟩ := ofFields_parted hraw hblock false
  have hid : ∀ logical backend, Names logical backend → "id" ≠ logical ∧ "id" ≠ backend := by
    intro logical backend h
    cases h <;> decide
  have hupdated := hnames _ _ .updatedAt
  exact ⟨hattribute "year", hattribute "_additional", hupdated.1, (hnames _ _ .createdAt).1,
    hupdated.2, hother "id" hid⟩

end StoredObject

end VectorQuery
