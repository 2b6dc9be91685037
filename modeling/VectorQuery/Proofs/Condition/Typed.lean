import Mathlib
import VectorQuery.Proofs.Calendar.Range
import VectorQuery.Proofs.Condition.Leaves

/-!
# The documents of conditions are well typed

A delete sends the document of a condition, and the backend takes every leaf object of it at its
word.  A leaf comes from a value that is bound to an attribute, and its object is typed by that
value: a null check for null, else a comparison with a value of the type that its field names.

* `LeafObject` — the objects that an attribute and a value may give;
* `Joins` — a document of leaf objects, joined two at a time;
* `Clause.bindings` — the attributes and values that a clause binds, in the order of its leaves;
* `Clause.forall₂_bindings` — a clause has one leaf for each of them;
* `Condition.Typed` — a condition with a leaf object for each binding;
* `Condition.typed_of_leaves` — **a condition is typed by the values that its leaves come from**.
-/

namespace VectorQuery

open Text Outcome

/-! ### Leaf objects -/

/-- The operators that have a symbol, as the backend calls them. -/
def operatorNames : List String :=
  ["Equal", "NotEqual", "GreaterThan", "LessThan", "GreaterThanEqual", "LessThanEqual", "Like",
    "ContainsAny", "ContainsAll"]

/-- A field with a value of the type that it names. -/
inductive TypedField : String × Json → Prop
  | integer (value : Int64) : TypedField ("valueInt", .int value.toInt)
  | number {value : Binary64} (hfinite : value.isFinite = true) :
      TypedField ("valueNumber", .float value)
  | text (value : String) : TypedField ("valueText", .text value)
  | texts (values : List String) : TypedField ("valueText", .array (values.map .text))
  | boolean (value : Bool) : TypedField ("valueBoolean", .bool value)

/-- The object of a leaf: the path of its attribute, an operator and a field. -/
def leafObject (name operator : String) (field : String × Json) : Json :=
  .object [("path", .array [.text ((Clause.timestampPath? name).getD name)]),
    ("operator", .text operator), field]

/-- The objects that an attribute and the value bound to it may give.  Null is checked for; any other
value is compared with, and a point in time as the numeral of its milliseconds. -/
inductive LeafObject : String × Operand → Json → Prop
  | nullCheck (name : String) :
      LeafObject (name, .null) (leafObject name "IsNull" ("valueBoolean", .bool true))
  | comparison {name operator : String} {value : Operand} {field : String × Json}
      (hvalue : value ≠ .null) (hoperator : operator ∈ operatorNames) (hfield : TypedField field)
      (htimestamp : name = "created_at" ∨ name = "updated_at" →
        ∃ millis : Int64, field = ("valueText", .text (toString millis.toInt))) :
      LeafObject (name, value) (leafObject name operator field)

/-- A document with the leaf objects that it joins, from left to right. -/
inductive Joins : List Json → Json → Prop
  | leaf (document : Json) : Joins [document] document
  | join {connective : String} {leftLeaves rightLeaves : List Json} {left right : Json}
      (hconnective : connective ∈ ["And", "Or"]) (hleft : Joins leftLeaves left)
      (hright : Joins rightLeaves right) :
      Joins (leftLeaves ++ rightLeaves)
        (.object [("operator", .text connective), ("operands", .array [left, right])])

/-! ### The leaf of a binding -/

/-- Only the null check has no symbol. -/
theorem name_mem_operatorNames {symbol : String} {operator : Operator}
    (h : operator.HasSymbol symbol) : operator.name ∈ operatorNames := by
  cases h <;> decide

/-- A value is compared with in the field of its type. -/
theorem typedField_of_isLiteral {value : Operand} {comparand : Comparand}
    (h : comparand.IsLiteral value) : TypedField (comparand.tag, comparand.document) := by
  cases h with
  | integer value => exact .integer value
  | number negative size => exact .number rfl
  | text value => exact .text value
  | texts values => exact .texts values
  | boolean value => exact .boolean value

namespace Clause

/-- A leaf that comes from a value bound to an attribute. -/
def Binds (binding : String × Operand) (leaf : Condition) : Prop :=
  ∃ symbol, Leaf binding.1 symbol binding.2 leaf

/-- The document of a leaf is an object of its attribute and value. -/
theorem Leaf.leafObject {name symbol : String} {value : Operand} {c : Condition}
    (h : Leaf name symbol value c) : LeafObject (name, value) c.document := by
  cases h with
  | null => exact .nullCheck name
  | @timestamp _ path operator millis hpath hoperator hmillis =>
    obtain ⟨word, rfl⟩ := Operand.exists_millis (Operand.epochMillis_eq_ok_iff.2 hmillis)
    have hobject : (Condition.comparison path operator (.text (toString word.toInt))).document
        = VectorQuery.leafObject name operator.name ("valueText", .text (toString word.toInt)) := by
      rw [VectorQuery.leafObject, hpath]
      rfl
    rw [hobject]
    exact .comparison hmillis.ne_null (name_mem_operatorNames hoperator) (.text _)
      fun _ => ⟨word, rfl⟩
  | @literal _ operator comparand hpath hoperator hcomparand =>
    have hobject : (Condition.comparison name operator comparand).document
        = VectorQuery.leafObject name operator.name (comparand.tag, comparand.document) := by
      rw [VectorQuery.leafObject, hpath]
      rfl
    have hother : ¬ (name = "created_at" ∨ name = "updated_at") := by
      rintro (rfl | rfl) <;> cases hpath
    rw [hobject]
    exact .comparison hcomparand.ne_null (name_mem_operatorNames hoperator)
      (typedField_of_isLiteral hcomparand) fun htimestamp => absurd htimestamp hother

/-! ### The bindings of a clause -/

/-- The attributes among the words of a chain: the first word, and the one after each connective. -/
def leafNames : List String → List String
  | name :: _ :: _ :: _ :: words => name :: leafNames words
  | name :: _ => [name]
  | [] => []

/-- The attributes and values that a clause binds: its named pairs, then the attributes of its text
with the values for the placeholders. -/
def bindings (clause : Clause) : List (String × Operand) :=
  clause.named ++ (leafNames (words clause.text.toList)).zip clause.values

theorem Chain.forall₂_leafList {plain : String → Prop} {ws : List String} {values : List Operand}
    {c : Condition} (h : Chain plain ws values c) :
    List.Forall₂ Binds ((leafNames ws).zip values) c.leafList := by
  induction h with
  | last _ _ _ hleaf =>
    rw [hleaf.leafList]
    exact .cons ⟨_, hleaf⟩ .nil
  | link _ _ _ hleaf _ _ ih =>
    rw [Condition.leafList, hleaf.leafList]
    exact .cons ⟨_, hleaf⟩ ih

/-- A clause has a leaf for each of its bindings, in their order. -/
theorem forall₂_bindings {clause : Clause} {c : Condition} (h : clause.condition = .ok c) :
    List.Forall₂ Binds clause.bindings c.leafList := by
  obtain ⟨leaves, textual?, hleaves, hspelt, hlist⟩ := exists_leafList h
  have hnamed : List.Forall₂ Binds clause.named leaves := hleaves.imp fun _ _ hleaf => hleaf.leaf
  have htextual : List.Forall₂ Binds ((leafNames (words clause.text.toList)).zip clause.values)
      (Condition.leavesOf textual?) := by
    cases hspelt with
    | blank _ hvalues =>
      rw [hvalues, List.zip_nil_right]
      exact .nil
    | chain hwords hchain _ =>
      rw [Condition.leavesOf_some, words_eq_iff.2 hwords]
      exact hchain.forall₂_leafList
  rw [hlist]
  exact List.rel_append hnamed htextual

end Clause

/-! ### Conditions -/

namespace Condition

/-- A condition whose document joins one leaf object for each binding. -/
def Typed (bindings : List (String × Operand)) (c : Condition) : Prop :=
  ∃ leaves, Joins leaves c.document ∧ leaves.length = c.leaves
    ∧ List.Forall₂ LeafObject bindings leaves

theorem joins_document (c : Condition) : Joins (c.leafList.map document) c.document := by
  induction c with
  | comparison path operator comparand => exact .leaf _
  | nullCheck path => exact .leaf _
  | join connective left right ihleft ihright =>
    rw [leafList, List.map_append]
    exact .join (by cases connective <;> decide) ihleft ihright

/-- **A condition is typed by the values that its leaves come from.** -/
theorem typed_of_leaves {bindings : List (String × Operand)} {c : Condition}
    (h : List.Forall₂ Clause.Binds bindings c.leafList) : c.Typed bindings := by
  refine ⟨c.leafList.map document, c.joins_document, ?_, ?_⟩
  · rw [List.length_map, length_leafList]
  · rw [List.forall₂_map_right_iff]
    exact h.imp fun _ _ ⟨_, hleaf⟩ => hleaf.leafObject

end Condition

end VectorQuery
