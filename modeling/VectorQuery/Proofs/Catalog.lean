import Mathlib
import VectorQuery.Proofs.Json.Record
import VectorQuery.Query.Basic

/-!
# Catalogs keep every collection

A schema document lists the items of its classes, and each of them declares a collection with its
attributes.  One item that declares none makes the whole document unreadable; otherwise no item is
dropped and none is merged with another, so a name finds the first collection that is declared under
it.

* `Collection.NamesAttribute`, `Collection.Declares` — the documents of attributes and of collections;
* `Catalog.ClassItems`, `Catalog.IsSchema` — the items of a schema document, and the documents all of
  whose items declare a collection;
* `Collection.ofDocument?_eq_some_iff`, `Catalog.ofDocument?_eq_some_iff` — **a collection, and a
  catalog, is read iff the document declares it**;
* `Catalog.find_eq_ok_iff`, `Catalog.find_eq_error_iff` — what a name finds, by the items;
* `Catalog.ofDocument_keeps` — **a schema document is read as a whole, or not at all**.
-/

namespace VectorQuery

open Json (Record Items)

/-! ### Attributes and collections -/

namespace Collection

/-- A document names an attribute: its one part, `name`, is a text. -/
def NamesAttribute (document : Json) (name : String) : Prop :=
  ∃ part, Record ["name"] document part ∧ part "name" = some (.text name)

/-- A document declares a collection: its part `class` is the name of it, and the items of its part
`properties`, if that is there, name the attributes one by one. -/
def Declares (document : Json) (collection : Collection) : Prop :=
  ∃ part properties, Record ["class", "properties"] document part
    ∧ part "class" = some (.text collection.name) ∧ Items (part "properties") properties
    ∧ List.Forall₂ NamesAttribute properties collection.attributes

theorem attributeName?_eq_some_iff {document : Json} {name : String} :
    attributeName? document = some name ↔ NamesAttribute document name := by
  simp only [attributeName?, Option.bind_eq_bind, Option.bind_eq_some_iff, Json.required?_text]
  refine Json.exists_record?_iff (List.nodup_singleton _) (fun parts part hsame => ?_) document
  rw [hsame "name" (List.mem_singleton_self _)]

/-- **A collection is read iff the document declares it.** -/
theorem ofDocument?_eq_some_iff {document : Json} {collection : Collection} :
    ofDocument? document = some collection ↔ Declares document collection := by
  have hparts : ofDocument? document = some collection
      ↔ ∃ parts, document.record? ["class", "properties"] = some parts
        ∧ Json.Fields.get? "class" parts = some (.text collection.name)
        ∧ ∃ properties, Items (Json.Fields.get? "properties" parts) properties
          ∧ List.Forall₂ NamesAttribute properties collection.attributes := by
    simp only [ofDocument?, Option.bind_eq_bind, Option.bind_eq_some_iff, Json.required?_text,
      Json.optional?_listOf?_iff, attributeName?_eq_some_iff]
    constructor
    · rintro ⟨parts, hrecord, name, hname, attributes, hattributes, h⟩
      cases h
      exact ⟨parts, hrecord, hname, hattributes⟩
    · rintro ⟨parts, hrecord, hname, hattributes⟩
      exact ⟨parts, hrecord, _, hname, _, hattributes, rfl⟩
  rw [hparts, Json.exists_record?_iff (by decide) (fun parts part hsame => by
    rw [hsame "class" (by decide), hsame "properties" (by decide)])]
  simp only [Declares, exists_and_left]

/-- A document declares one collection at most. -/
theorem Declares.unique {document : Json} {collection other : Collection}
    (h : Declares document collection) (hother : Declares document other) : collection = other :=
  Option.some.inj ((ofDocument?_eq_some_iff.2 h).symm.trans (ofDocument?_eq_some_iff.2 hother))

/-- A document declares a collection of a name. -/
def Named (document : Json) (name : String) : Prop :=
  ∃ collection, Declares document collection ∧ collection.name = name

end Collection

/-! ### Catalogs -/

namespace Catalog

open Collection

variable {document : Json} {items : List Json} {catalog : Catalog} {collection : Collection}
  {name : String}

/-- The items of a schema document are those of its one part, `classes`. -/
def ClassItems (document : Json) (items : List Json) : Prop :=
  ∃ part, Record ["classes"] document part ∧ Items (part "classes") items

/-- A schema document: each of its items declares a collection. -/
def IsSchema (document : Json) : Prop :=
  ∃ items, ClassItems document items ∧ ∀ item ∈ items, ∃ collection, Declares item collection

/-- The collection of a name is declared by the first of the items that has the name. -/
def FirstNamed (items : List Json) (name : String) (collection : Collection) : Prop :=
  ∃ before item after, items = before ++ item :: after ∧ Declares item collection
    ∧ collection.name = name ∧ ∀ earlier ∈ before, ¬ Named earlier name

/-- **A catalog is read iff the items of the document declare its collections**, one by one. -/
theorem ofDocument?_eq_some_iff :
    ofDocument? document = some catalog
      ↔ ∃ items, ClassItems document items ∧ List.Forall₂ Declares items catalog.collections := by
  have hparts : ofDocument? document = some catalog
      ↔ ∃ parts, document.record? ["classes"] = some parts
        ∧ ∃ items, Items (Json.Fields.get? "classes" parts) items
          ∧ List.Forall₂ Declares items catalog.collections := by
    simp only [ofDocument?, Option.bind_eq_bind, Option.bind_eq_some_iff,
      Json.optional?_listOf?_iff, Collection.ofDocument?_eq_some_iff]
    constructor
    · rintro ⟨parts, hrecord, collections, hcollections, h⟩
      cases h
      exact ⟨parts, hrecord, hcollections⟩
    · rintro ⟨parts, hrecord, hcollections⟩
      exact ⟨parts, hrecord, _, hcollections, rfl⟩
  rw [hparts, Json.exists_record?_iff (List.nodup_singleton _) (fun parts part hsame => by
    rw [hsame "classes" (List.mem_singleton_self _)])]
  constructor
  · rintro ⟨part, hrecord, items, hitems, hdeclared⟩
    exact ⟨items, ⟨part, hrecord, hitems⟩, hdeclared⟩
  · rintro ⟨items, ⟨part, hrecord, hitems⟩, hdeclared⟩
    exact ⟨part, hrecord, items, hitems, hdeclared⟩

/-- Items that each declare a collection declare the collections of a catalog. -/
theorem exists_collections (h : ∀ item ∈ items, ∃ collection, Declares item collection) :
    ∃ collections, List.Forall₂ Declares items collections := by
  induction items with
  | nil => exact ⟨[], .nil⟩
  | cons item items ih =>
    obtain ⟨⟨collection, hitem⟩, hrest⟩ := List.forall_mem_cons.1 h
    obtain ⟨collections, hcollections⟩ := ih hrest
    exact ⟨collection :: collections, .cons hitem hcollections⟩

theorem exists_declares {collections : List Collection}
    (h : List.Forall₂ Declares items collections) :
    ∀ item ∈ items, ∃ collection, Declares item collection := by
  induction h with
  | nil => exact List.forall_mem_nil _
  | cons hitem _ ih => exact List.forall_mem_cons.2 ⟨⟨_, hitem⟩, ih⟩

/-- A document is read iff it is a schema document. -/
theorem isSchema_iff : IsSchema document ↔ ∃ catalog, ofDocument? document = some catalog := by
  constructor
  · rintro ⟨items, hitems, hall⟩
    obtain ⟨collections, hcollections⟩ := exists_collections hall
    exact ⟨⟨collections⟩, ofDocument?_eq_some_iff.2 ⟨items, hitems, hcollections⟩⟩
  · rintro ⟨catalog, h⟩
    obtain ⟨items, hitems, hdeclared⟩ := ofDocument?_eq_some_iff.1 h
    exact ⟨items, hitems, exists_declares hdeclared⟩

theorem ofDocument_eq_ok_iff :
    ofDocument document = .ok catalog ↔ ofDocument? document = some catalog := by
  rw [ofDocument]
  cases ofDocument? document <;> simp

theorem ofDocument_eq_error_iff :
    (∃ detail, ofDocument document = .error (.wrongType detail)) ↔ ofDocument? document = none := by
  rw [ofDocument]
  cases ofDocument? document <;> simp

/-! ### Look-up -/

theorem named_iff {item : Json} (h : Declares item collection) :
    Named item name ↔ collection.name = name := by
  constructor
  · rintro ⟨other, hother, hname⟩
    rw [h.unique hother, hname]
  · intro hname
    exact ⟨collection, h, hname⟩

theorem firstNamed_cons {item : Json} {first : Collection} (h : Declares item first) :
    FirstNamed (item :: items) name collection
      ↔ (first.name = name ∧ first = collection)
        ∨ (first.name ≠ name ∧ FirstNamed items name collection) := by
  constructor
  · rintro ⟨before, found, after, hsplit, hdeclares, hname, hbefore⟩
    cases before with
    | nil =>
      obtain ⟨rfl, rfl⟩ := List.cons.inj hsplit
      have hsame := h.unique hdeclares
      exact Or.inl ⟨by rw [hsame, hname], hsame⟩
    | cons other before =>
      obtain ⟨rfl, rfl⟩ := List.cons.inj hsplit
      obtain ⟨hother, hbefore⟩ := List.forall_mem_cons.1 hbefore
      exact Or.inr ⟨fun hfirst => hother ((named_iff h).2 hfirst),
        before, found, after, rfl, hdeclares, hname, hbefore⟩
  · rintro (⟨hname, rfl⟩ | ⟨hname, before, found, after, rfl, hdeclares, hfound, hbefore⟩)
    · exact ⟨[], item, items, rfl, h, hname, List.forall_mem_nil _⟩
    · exact ⟨item :: before, found, after, rfl, hdeclares, hfound,
        List.forall_mem_cons.2 ⟨fun hitem => hname ((named_iff h).1 hitem), hbefore⟩⟩

/-- **A name finds the collection that the first item of this name declares.** -/
theorem find_eq_ok_iff (h : List.Forall₂ Declares items catalog.collections) :
    catalog.find name = .ok collection ↔ FirstNamed items name collection := by
  have hfind : catalog.find name = .ok collection
      ↔ catalog.collections.find? (·.name = name) = some collection := by
    rw [find]
    cases catalog.collections.find? (·.name = name) <;> simp
  rw [hfind]
  generalize catalog.collections = collections at h
  induction h with
  | nil => simp [FirstNamed]
  | @cons item first items collections hitem _ ih =>
    rw [firstNamed_cons hitem, List.find?_cons]
    by_cases hname : first.name = name
    · simp [hname]
    · simp [hname, ih]

/-- A name finds nothing iff no item has it. -/
theorem find_eq_error_iff (h : List.Forall₂ Declares items catalog.collections) {fault : Fault} :
    catalog.find name = .error fault
      ↔ fault = .unknownCollection name ∧ ∀ item ∈ items, ¬ Named item name := by
  have hfind : catalog.find name = .error fault
      ↔ fault = .unknownCollection name
        ∧ ∀ collection ∈ catalog.collections, collection.name ≠ name := by
    have hnone := @List.find?_eq_none _ (fun collection : Collection => collection.name = name)
      catalog.collections
    simp only [decide_eq_true_eq] at hnone
    rw [← hnone, find]
    cases catalog.collections.find? (·.name = name) <;> simp [eq_comm]
  rw [hfind]
  generalize catalog.collections = collections at h
  refine and_congr_right fun _ => ?_
  induction h with
  | nil => simp
  | cons hitem _ ih => rw [List.forall_mem_cons, List.forall_mem_cons, ih, named_iff hitem]

/-! ### What a catalog keeps -/

/-- The standard meta-attributes, as they are asked for. -/
def standardMeta : String := "_additional \x7b id creationTimeUnix lastUpdateTimeUnix \x7d"

/-- A new query asks for the attributes of its collection in their order, and for the standard
meta-attributes after them. -/
theorem fields_new (collection : Collection) (defaults : Defaults) :
    (Query.new collection defaults).fetchRequest.map (·.fields)
      = .ok (" ".intercalate (collection.attributes ++ [standardMeta])) := rfl

/-- A catalog keeps the collections that items declare: it has one for each of them, and a name finds
the first that is declared under it, also for a new query. -/
structure Keeps (items : List Json) (catalog : Catalog) : Prop where
  size : catalog.size = items.length
  declared : List.Forall₂ Declares items catalog.collections
  find_ok : ∀ name collection, catalog.find name = .ok collection ↔ FirstNamed items name collection
  find_error : ∀ name fault, catalog.find name = .error fault
    ↔ fault = .unknownCollection name ∧ ∀ item ∈ items, ¬ Named item name
  query_ok : ∀ name defaults query, Query.forCollection catalog name defaults = .ok query
    ↔ ∃ collection, FirstNamed items name collection ∧ query = Query.new collection defaults
      ∧ query.fetchRequest.map (·.fields)
        = .ok (" ".intercalate (collection.attributes ++ [standardMeta]))
  query_error : ∀ name defaults fault, Query.forCollection catalog name defaults = .error fault
    ↔ fault = .unknownCollection name ∧ ∀ item ∈ items, ¬ Named item name

theorem keeps_of_declares (h : List.Forall₂ Declares items catalog.collections) :
    Keeps items catalog where
  size := h.length_eq.symm
  declared := h
  find_ok _ _ := find_eq_ok_iff h
  find_error _ _ := find_eq_error_iff h
  query_ok name defaults query := by
    rw [Query.forCollection, Outcome.map_eq_ok_iff]
    simp only [find_eq_ok_iff h]
    constructor
    · rintro ⟨collection, hfirst, rfl⟩
      exact ⟨collection, hfirst, rfl, fields_new collection defaults⟩
    · rintro ⟨collection, hfirst, rfl, -⟩
      exact ⟨collection, hfirst, rfl⟩
  query_error name defaults fault := by
    rw [← find_eq_error_iff h, Query.forCollection]
    cases catalog.find name <;> simp [Except.map]

/-- **A schema document is read as a whole, or not at all.**  A document gives a catalog iff it is a
schema document, each of whose items declares a collection; any other is a fault of its type.  The
catalog then has one collection for each item, in their order, with all its attributes.  A name finds
the first collection that is declared under it, and is unknown iff no item has it, and the same holds
of the new query against a collection of that name, whose field list is the collection's attributes
and the standard meta-attributes. -/
theorem ofDocument_keeps (document : Json) :
    ((∃ catalog, ofDocument document = .ok catalog) ↔ IsSchema document)
    ∧ ((∃ detail, ofDocument document = .error (.wrongType detail)) ↔ ¬ IsSchema document)
    ∧ ∀ catalog, ofDocument document = .ok catalog
      → ∃ items, ClassItems document items ∧ Keeps items catalog := by
  refine ⟨?_, ?_, fun catalog hread => ?_⟩
  · simp only [ofDocument_eq_ok_iff]
    exact isSchema_iff.symm
  · rw [ofDocument_eq_error_iff, isSchema_iff, ← Option.isSome_iff_exists, Bool.not_eq_true,
      Option.isSome_eq_false_iff, Option.isNone_iff_eq_none]
  · obtain ⟨items, hitems, hdeclared⟩ := ofDocument?_eq_some_iff.1 (ofDocument_eq_ok_iff.1 hread)
    exact ⟨items, hitems, keeps_of_declares hdeclared⟩

/-- Three classes in both shapes of a record, two of them under one name, and a key that no class has. -/
def sharedName : Json :=
  .object [("version", .int 2), ("classes", .array [
    .object [("class", .text "Article"),
      ("properties", .array [.object [("name", .text "title")], .array [.text "title"]])],
    .array [.text "Author"],
    .array [.text "Article", .array []]])]

/-- The first of the two classes is found, with its repeated attribute. -/
theorem ofDocument_keeps_sharedName :
    IsSchema sharedName ∧ ∃ catalog items, ofDocument sharedName = .ok catalog
      ∧ ClassItems sharedName items ∧ items.length = 3
      ∧ FirstNamed items "Article" ⟨"Article", ["title", "title"]⟩ := by
  obtain ⟨hok, -, hkeeps⟩ := ofDocument_keeps sharedName
  have hread : ofDocument sharedName
      = .ok ⟨[⟨"Article", ["title", "title"]⟩, ⟨"Author", []⟩, ⟨"Article", []⟩]⟩ := by rfl
  obtain ⟨items, hitems, hkept⟩ := hkeeps _ hread
  exact ⟨hok.1 ⟨_, hread⟩, _, items, hread, hitems, hkept.size.symm, (hkept.find_ok _ _).1 rfl⟩

end Catalog

end VectorQuery
