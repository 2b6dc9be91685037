import Mathlib
import VectorQuery.Proofs.Condition.ReadBack
import VectorQuery.Proofs.Wire.Brackets

/-!
# Truncated conditions are not read

The wire text of a condition is a record, and its first brace stays open until the last character.  No
name, no text and no number of the condition can close it.  So a text that has been cut off anywhere
is refused, whether the cut is inside of a string, an escape, a word or a number.

* `Comparand.nested_wire` — a comparand closes its own brackets only;
* `Condition.enclosed_wire` — the braces of a condition enclose the rest of its text;
* `Condition.document?_truncated` — **no condition is read from a part of a wire text**.
-/

namespace VectorQuery

open Wire Json

/-- A text that is no number stands for a float that is not finite. -/
theorem plain_wireFloat (x : Binary64) : ∀ c ∈ (wireFloat.write x).toList, isPlain c = true := by
  cases hx : x.isFinite with
  | true => exact fun c hc => isPlain_of_continuesNumber ((signed_wireFloat hx).continues c hc)
  | false =>
    cases x with
    | nan => exact List.all_eq_true.1 rfl
    | infinite negative => cases negative <;> exact List.all_eq_true.1 rfl
    | finite negative size => cases hx

/-- A comparand closes its own brackets only. -/
theorem Comparand.nested_wire (x : Comparand) : Nested .outside x.wire.toList .outside := by
  cases x with
  | integer value =>
    exact nested_plain fun c hc => isPlain_of_continuesNumber ((signed_ofInt value.toInt).continues c hc)
  | number value => exact nested_plain (plain_wireFloat value)
  | text value => exact nested_quote value
  | texts values =>
    apply nested_list
    intro item hitem
    obtain ⟨value, -, rfl⟩ := List.mem_map.1 hitem
    exact nested_quote value
  | boolean value =>
    apply nested_plain
    cases value <;> exact List.all_eq_true.1 rfl

namespace Condition

theorem plain_of_isBareWord {word : String} (h : isBareWord word.toList = true) :
    ∀ c ∈ word.toList, isPlain c = true := fun c hc =>
  isPlain_of_continuesWord (continuesWord_of_isBareWord h c hc)

/-- A leaf is enclosed, if its value closes its own brackets only. -/
theorem enclosed_leaf (path : String) {name tag value : String} (hname : isBareWord name.toList = true)
    (htag : isBareWord tag.toList = true) (hvalue : Nested .outside value.toList .outside) :
    Enclosed (Wire.record
      [("path", Wire.list [Wire.quote path]), ("operator", name), (tag, value)]).toList := by
  have hpath : Nested .outside (Wire.list [Wire.quote path]).toList .outside :=
    nested_list (List.forall_mem_singleton.2 (nested_quote path))
  apply enclosed_record
  simp only [List.forall_mem_cons]
  exact ⟨⟨plain_of_isBareWord (by decide), hpath⟩,
    ⟨plain_of_isBareWord (by decide), nested_plain (plain_of_isBareWord hname)⟩,
    ⟨plain_of_isBareWord htag, hvalue⟩, List.forall_mem_nil _⟩

/-- The braces of a condition enclose the rest of its text. -/
theorem enclosed_wire (c : Condition) : Enclosed c.wire.toList := by
  induction c with
  | comparison path operator comparand =>
    exact enclosed_leaf path (isBareWord_operator operator) comparand.isBareWord_tag
      comparand.nested_wire
  | nullCheck path =>
    exact enclosed_leaf path (isBareWord_operator .isNull) (by decide)
      (nested_plain (plain_of_isBareWord (by decide)))
  | join connective left right ihleft ihright =>
    have hsides : Nested .outside (Wire.list [left.wire, right.wire]).toList .outside := by
      apply nested_list
      simp only [List.forall_mem_cons]
      exact ⟨ihleft.nested, ihright.nested, List.forall_mem_nil _⟩
    apply enclosed_record
    simp only [List.forall_mem_cons]
    exact ⟨⟨plain_of_isBareWord (by decide),
        nested_plain (plain_of_isBareWord (isBareWord_connective connective))⟩,
      ⟨plain_of_isBareWord (by decide), hsides⟩, List.forall_mem_nil _⟩

/-- **No condition is read from a part of a wire text.**  Wherever the text of a condition is cut off,
what stands before the cut has no document. -/
theorem document?_truncated (c : Condition) {s t : String} (h : c.wire = s ++ t) (ht : t ≠ "") :
    ∃ reason, Wire.document? s = .error (.unreadableWire reason) := by
  have hchars : c.wire.toList = s.toList ++ t.toList := by rw [h, String.toList_append]
  have htail : t.toList ≠ [] := fun hnil => ht (String.toList_inj.1 hnil)
  by_cases hs : s = ""
  · -- no bracket is open before the first character, but there is nothing to read either
    subst hs
    exact ⟨_, rfl⟩
  · have hhead : s.toList ≠ [] := fun hnil => hs (String.toList_inj.1 hnil)
    have hopen := c.enclosed_wire.one_le_balance hchars hhead htail
    exact document?_of_balance (by omega)

/-- A cut between a backslash and the quote that it escapes, in a name with a closing brace. -/
theorem document?_truncated_escape :
    ∃ reason, Wire.document? "\x7b path: [\"\x7d\\" = .error (.unreadableWire reason) := by
  have hwire : (nullCheck "\x7d\"").wire
      = "\x7b path: [\"\x7d\\" ++ "\"\"], operator: IsNull, valueBoolean: true \x7d" := by decide
  exact document?_truncated _ hwire (by decide)

end Condition

end VectorQuery
