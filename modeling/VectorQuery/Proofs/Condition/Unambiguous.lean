import Mathlib
import VectorQuery.Proofs.Condition.ReadBack
import VectorQuery.Proofs.Wire.Delimited

/-!
# Wire text is unambiguous

The wire text of a condition is told from whatever follows it, and it tells the condition: no name
and no text that a condition holds can end its own quotes or pass for another leaf.  One pair of
leaves has to be kept apart, since a comparison with `true` by the operator of null checks is
written as a null check is.

* `Comparand.wire_append_inj` — after its field, a comparand is told from what follows it;
* `leaf_append_inj`, `join_append_inj` — the same for the parts of a leaf and of a join;
* `Condition.WithoutNullComparison` — only null checks test for null;
* `Condition.wire_append_inj` — after the text of a condition, the rest of a text is told from it;
* `Condition.wire_unambiguous` — **equal wire texts have equal conditions**, at any height.
-/

namespace VectorQuery

open Text Wire Json

variable {s t : List Char}

/-! ### Names -/

theorem Operator.name_injective : Function.Injective Operator.name := by
  have hfind : ∀ operator : Operator, all.find? (·.name = operator.name) = some operator := by
    intro operator
    cases operator <;> decide
  intro a b h
  have ha := hfind a
  rw [h, hfind b] at ha
  exact (Option.some.inj ha).symm

theorem Connective.name_injective : Function.Injective Connective.name := by
  intro a b h
  cases a <;> cases b
  · rfl
  · exact absurd h (by decide)
  · exact absurd h (by decide)
  · rfl

/-! ### Comparands -/

namespace Comparand

theorem truthName_injective : Function.Injective truthName := by decide

theorem isBareWord_truthName : ∀ value, isBareWord (truthName value).toList = true := by decide

/-- A quoted string is not the beginning of a list. -/
theorem quote_ne_list (text : String) (items : List String) :
    (quote text).toList ++ s ≠ (list items).toList ++ t := by
  intro h
  rw [quote_toList, list_toList] at h
  exact absurd (List.cons.inj h).1 (by decide)

/-- After its field, a comparand is told from what follows it. -/
theorem wire_append_inj {x y : Comparand} (hx : x.Finite) (hy : y.Finite) (htag : x.tag = y.tag)
    (h : x.wire.toList ++ ' ' :: s = y.wire.toList ++ ' ' :: t) :
    x = y ∧ s = t := by
  have hnumber : ∀ u, StopsAt continuesNumber (' ' :: u) := fun u => stopsAt_cons.2 (by decide)
  have hword : ∀ u, StopsAt continuesWord (' ' :: u) := fun u => stopsAt_cons.2 (by decide)
  cases x with
  | integer a =>
    cases y with
    | integer b =>
      obtain ⟨rfl, hst⟩ := integer_append_inj (hnumber s) (hnumber t) h
      exact ⟨rfl, (List.cons.inj hst).2⟩
    | _ => exact absurd htag (by simp [tag])
  | number a =>
    cases y with
    | number b =>
      obtain ⟨rfl, hst⟩ := float_append_inj hx hy (hnumber s) (hnumber t) h
      exact ⟨rfl, (List.cons.inj hst).2⟩
    | _ => exact absurd htag (by simp [tag])
  | text a =>
    cases y with
    | text b =>
      obtain ⟨rfl, hst⟩ := quote_append_inj h
      exact ⟨rfl, (List.cons.inj hst).2⟩
    | texts bs => exact absurd h (quote_ne_list a _)
    | _ => exact absurd htag (by simp [tag])
  | texts as =>
    cases y with
    | text b => exact absurd h.symm (quote_ne_list b _)
    | texts bs =>
      obtain ⟨rfl, hst⟩ := quotes_append_inj h
      exact ⟨rfl, (List.cons.inj hst).2⟩
    | _ => exact absurd htag (by simp [tag])
  | boolean a =>
    cases y with
    | boolean b =>
      obtain ⟨hname, hst⟩ := word_append_inj (isBareWord_truthName a) (isBareWord_truthName b)
        (hword s) (hword t) h
      exact ⟨congrArg _ (truthName_injective hname), (List.cons.inj hst).2⟩
    | _ => exact absurd htag (by simp [tag])

end Comparand

/-! ### The parts of leaves and joins -/

namespace Condition

/-- The wire text of a leaf. -/
def leafWire (path name tag value : String) : String :=
  Wire.record [("path", Wire.list [Wire.quote path]), ("operator", name), (tag, value)]

/-- The wire text of a join. -/
def joinWire (name left right : String) : String :=
  Wire.record [("operator", name), ("operands", Wire.list [left, right])]

theorem leafWire_toList (path name tag value : String) :
    (leafWire path name tag value).toList
      = "\x7b path: [".toList ++ ((quote path).toList ++ ("], operator: ".toList ++ (name.toList
        ++ (',' :: ' ' :: (tag.toList ++ (':' :: ' ' :: (value.toList ++ [' ', '\x7d']))))))) := by
  simp [leafWire, Wire.record, Wire.list]

theorem joinWire_toList (name left right : String) :
    (joinWire name left right).toList
      = "\x7b operator: ".toList ++ (name.toList ++ (',' :: (" operands: [".toList ++ (left.toList
        ++ (", ".toList ++ (right.toList ++ "] \x7d".toList)))))) := by
  simp [joinWire, Wire.record, Wire.list]

/-- The parts of a leaf are told from what follows each of them. -/
theorem leaf_append_inj {path path' name name' tag tag' value value' : String}
    (hname : isBareWord name.toList = true) (hname' : isBareWord name'.toList = true)
    (htag : isBareWord tag.toList = true) (htag' : isBareWord tag'.toList = true)
    (h : (leafWire path name tag value).toList ++ s = (leafWire path' name' tag' value').toList ++ t) :
    path = path' ∧ name = name' ∧ tag = tag'
      ∧ value.toList ++ ' ' :: '\x7d' :: s = value'.toList ++ ' ' :: '\x7d' :: t := by
  have hcomma : ∀ u, StopsAt continuesWord (',' :: u) := fun u => stopsAt_cons.2 (by decide)
  have hcolon : ∀ u, StopsAt continuesWord (':' :: u) := fun u => stopsAt_cons.2 (by decide)
  simp only [leafWire_toList, List.append_assoc, List.cons_append, List.nil_append,
    List.append_cancel_left_eq] at h
  obtain ⟨hpath, h⟩ := quote_append_inj h
  obtain ⟨hnames, h⟩ := word_append_inj hname hname' (hcomma _) (hcomma _) (List.append_cancel_left h)
  obtain ⟨htags, h⟩ := word_append_inj htag htag' (hcolon _) (hcolon _)
    (List.cons.inj (List.cons.inj h).2).2
  exact ⟨hpath, hnames, htags, (List.cons.inj (List.cons.inj h).2).2⟩

/-- The parts of a join are told from what follows them, if its sides are. -/
theorem join_append_inj {name name' left left' right right' : String}
    (hname : isBareWord name.toList = true) (hname' : isBareWord name'.toList = true)
    (h : (joinWire name left right).toList ++ s = (joinWire name' left' right').toList ++ t) :
    name = name'
      ∧ left.toList ++ (", ".toList ++ (right.toList ++ ("] \x7d".toList ++ s)))
        = left'.toList ++ (", ".toList ++ (right'.toList ++ ("] \x7d".toList ++ t))) := by
  have hcomma : ∀ u, StopsAt continuesWord (',' :: u) := fun u => stopsAt_cons.2 (by decide)
  simp only [joinWire_toList, List.append_assoc, List.cons_append,
    List.append_cancel_left_eq] at h
  obtain ⟨hnames, h⟩ := word_append_inj hname hname' (hcomma _) (hcomma _) h
  exact ⟨hnames, List.append_cancel_left (List.cons.inj h).2⟩

theorem leaf_ne_join {path name tag value name' left right : String} :
    (leafWire path name tag value).toList ++ s ≠ (joinWire name' left right).toList ++ t := by
  intro h
  rw [leafWire_toList, joinWire_toList] at h
  simp at h

/-! ### Conditions -/

/-- No comparison has the operator of null checks. -/
def WithoutNullComparison : Condition → Prop
  | .comparison _ operator _ => operator ≠ .isNull
  | .nullCheck _ => True
  | .join _ left right => left.WithoutNullComparison ∧ right.WithoutNullComparison

theorem comparison_ne_nullCheck {path path' : String} {operator : Operator} {comparand : Comparand}
    (h : operator ≠ .isNull) :
    (comparison path operator comparand).wire.toList ++ s ≠ (nullCheck path').wire.toList ++ t := by
  intro heq
  obtain ⟨-, hname, -⟩ := leaf_append_inj (isBareWord_operator operator)
    (isBareWord_operator .isNull) comparand.isBareWord_tag (by decide) heq
  exact h (Operator.name_injective hname)

/-- The wire text of a condition is told from what follows it. -/
theorem wire_append_inj {c d : Condition} (hc : c.Finite) (hd : d.Finite)
    (hcnull : c.WithoutNullComparison) (hdnull : d.WithoutNullComparison)
    (h : c.wire.toList ++ s = d.wire.toList ++ t) :
    c = d ∧ s = t := by
  induction c generalizing d s t with
  | comparison path operator comparand =>
    cases d with
    | comparison path' operator' comparand' =>
      obtain ⟨rfl, hname, htag, hvalue⟩ := leaf_append_inj (isBareWord_operator operator)
        (isBareWord_operator operator') comparand.isBareWord_tag comparand'.isBareWord_tag h
      obtain ⟨rfl, hrest⟩ := Comparand.wire_append_inj hc hd htag hvalue
      rw [Operator.name_injective hname]
      exact ⟨rfl, (List.cons.inj hrest).2⟩
    | nullCheck path' => exact absurd h (comparison_ne_nullCheck hcnull)
    | join connective left right => exact absurd h leaf_ne_join
  | nullCheck path =>
    cases d with
    | comparison path' operator' comparand' => exact absurd h.symm (comparison_ne_nullCheck hdnull)
    | nullCheck path' =>
      obtain ⟨rfl, -, -, hvalue⟩ := leaf_append_inj (isBareWord_operator .isNull)
        (isBareWord_operator .isNull) (by decide) (by decide) h
      exact ⟨rfl, (List.cons.inj (List.cons.inj (List.append_cancel_left hvalue)).2).2⟩
    | join connective left right => exact absurd h leaf_ne_join
  | join connective left right ihleft ihright =>
    cases d with
    | comparison path' operator' comparand' => exact absurd h.symm leaf_ne_join
    | nullCheck path' => exact absurd h.symm leaf_ne_join
    | join connective' left' right' =>
      obtain ⟨hname, hsides⟩ := join_append_inj (isBareWord_connective connective)
        (isBareWord_connective connective') h
      obtain ⟨rfl, hright⟩ := ihleft hc.1 hd.1 hcnull.1 hdnull.1 hsides
      obtain ⟨rfl, hrest⟩ := ihright hc.2 hd.2 hcnull.2 hdnull.2 (List.append_cancel_left hright)
      rw [Connective.name_injective hname]
      exact ⟨rfl, List.append_cancel_left hrest⟩

/-- **Equal wire texts have equal conditions**, at any height, and the text of a condition ends
where the condition does, whatever follows it. -/
theorem wire_unambiguous {c d : Condition} (hc : c.Finite) (hd : d.Finite)
    (hcnull : c.WithoutNullComparison) (hdnull : d.WithoutNullComparison) (s t : String) :
    c.wire ++ s = d.wire ++ t ↔ c = d ∧ s = t := by
  constructor
  · intro h
    have hchars : c.wire.toList ++ s.toList = d.wire.toList ++ t.toList := by
      rw [← String.toList_append, h, String.toList_append]
    obtain ⟨hcd, hst⟩ := wire_append_inj hc hd hcnull hdnull hchars
    exact ⟨hcd, String.toList_inj.1 hst⟩
  · rintro ⟨rfl, rfl⟩
    rfl

/-- A comparison of an attribute with a number. -/
def honest : Condition := .comparison "a" .equal (.integer 1)

/-- A null check of an attribute whose name spells out the rest of another leaf. -/
def forged : Condition := .nullCheck "a\"], operator: Equal, valueInt: 1 \x7d"

/-- A name that spells out the rest of a leaf does not make a text that begins with this leaf. -/
theorem wire_unambiguous_forged :
    (forged.wire ++ "" = honest.wire ++ "\"], operator: IsNull, valueBoolean: true \x7d"
      ↔ forged = honest ∧ "" = "\"], operator: IsNull, valueBoolean: true \x7d")
    ∧ forged ≠ honest := by
  have hforged : forged.Finite ∧ forged.WithoutNullComparison := ⟨trivial, trivial⟩
  have hequal : Operator.equal ≠ .isNull := by decide
  have hhonest : honest.Finite ∧ honest.WithoutNullComparison := ⟨trivial, hequal⟩
  exact ⟨wire_unambiguous hforged.1 hhonest.1 hforged.2 hhonest.2 _ _, by decide⟩

/-- Comparisons by the operator of null checks have to be left out. -/
example (path : String) :
    (comparison path .isNull (.boolean true)).wire = (nullCheck path).wire := rfl

end Condition

end VectorQuery
