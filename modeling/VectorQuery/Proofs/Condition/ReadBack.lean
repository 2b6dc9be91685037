import Mathlib
import VectorQuery.Condition.Basic
import VectorQuery.Proofs.Wire.Phrase

/-!
# Conditions are read back

The wire text of a condition is a phrase: each node of the tree is a record, and a join puts its two
sides into a list inside of its record, which makes two levels.  A tree is therefore read back up to
62 joins above each other, and from 63 on it is refused.

* `Condition.height` — the number of joins on the longest path;
* `Condition.Finite` — no number in the tree is infinite or no number at all;
* `Condition.exists_phrase` — a condition is a phrase of `2 * height + 2` levels;
* `Condition.document?_wire` — **the document of the wire text is the document of the condition, up
  to height 62**.
-/

namespace VectorQuery

open Wire Json

/-! ### Comparands -/

namespace Comparand

/-- Every number is finite. -/
def Finite : Comparand → Prop
  | .number value => value.isFinite = true
  | _ => True

theorem isBareWord_tag (x : Comparand) : isBareWord x.tag.toList = true := by
  cases x <;> simp only [tag] <;> decide

/-- The field of a comparand is none of the other two of its record. -/
theorem tag_not_mem (x : Comparand) : x.tag ∉ ["path", "operator"] := by
  cases x <;> simp [tag]

/-- The wire text of a comparand is a phrase. -/
theorem exists_phrase {x : Comparand} (hx : x.Finite) :
    ∃ p : Phrase readValue, p.text = x.wire.toList ∧ p.value = x.document ∧ p.levels ≤ 1 := by
  cases x with
  | integer value =>
    refine ⟨.number _ (.int value.toInt) (signed_ofInt value.toInt)
      fun rest hrest => readNumber_ofInt value hrest, ?_, rfl, Nat.zero_le 1⟩
    rw [wire, Phrase.text_number]
  | number value =>
    refine ⟨.number _ (.float value) (signed_wireFloat hx)
      fun rest hrest => readNumber_wireFloat hx hrest, ?_, ?_, Nat.zero_le 1⟩
    · rw [wire, Phrase.text_number]
    · exact (if_pos hx).symm
  | text value =>
    refine ⟨.quote value, ?_, rfl, Nat.zero_le 1⟩
    rw [wire, Phrase.text_quote]
  | texts values =>
    refine ⟨.list (values.map .quote), ?_, ?_, ?_⟩
    · apply Phrase.text_list
      rw [List.map_map, List.map_map]
      exact List.map_congr_left fun text _ => Phrase.text_quote text
    · show Json.array ((values.map Phrase.quote).map (·.value)) = .array (values.map .text)
      rw [List.map_map]
      rfl
    · have hflat : deepest (Phrase.spellings (values.map Phrase.quote)) = 0 := by
        clear hx
        induction values with
        | nil => rfl
        | cons value values ih => exact (Nat.max_eq_right (Nat.zero_le _)).trans ih
      show deepest (Phrase.spellings (values.map Phrase.quote)) + 1 ≤ 1
      rw [hflat]
  | boolean value =>
    refine ⟨.truth value, ?_, rfl, Nat.zero_le 1⟩
    rw [wire]
    rfl

end Comparand

/-! ### Trees -/

namespace Condition

/-- The number of joins on the longest path from the root to a leaf. -/
def height : Condition → ℕ
  | .comparison _ _ _ => 0
  | .nullCheck _ => 0
  | .join _ left right => max left.height right.height + 1

/-- Every number in the tree is finite. -/
def Finite : Condition → Prop
  | .comparison _ _ comparand => comparand.Finite
  | .nullCheck _ => True
  | .join _ left right => left.Finite ∧ right.Finite

theorem isBareWord_operator (operator : Operator) : isBareWord operator.name.toList = true := by
  cases operator <;> decide

theorem isBareWord_connective (connective : Connective) :
    isBareWord connective.name.toList = true := by
  cases connective <;> decide

/-- A leaf is a phrase of two levels. -/
theorem exists_phrase_leaf (path : String) (operator : Operator) (tag : String)
    (htag : isBareWord tag.toList = true)
    (hother : tag ∉ ["path", "operator"]) (p : Phrase readValue) (hp : p.levels ≤ 1) (wire : String)
    (hwire : p.text = wire.toList) :
    ∃ q : Phrase readValue,
      q.text = (Wire.record
        [("path", Wire.list [Wire.quote path]), ("operator", operator.name), (tag, wire)]).toList
      ∧ q.value
        = .object [("path", .array [.text path]), ("operator", .text operator.name), (tag, p.value)]
      ∧ q.levels = 2 := by
  simp only [List.mem_cons, List.not_mem_nil, or_false, not_or] at hother
  have hkey : tag.toList ≠ operatorKey := fun h => hother.2 (String.toList_inj.1 h)
  have hpath : (Phrase.list [.quote path]).text = (Wire.list [Wire.quote path]).toList := by
    apply Phrase.text_list
    rw [List.map_singleton, List.map_singleton, Phrase.text_quote]
  have hkeys : ["path", "operator", tag].Nodup := by
    simp [Ne.symm hother.1, Ne.symm hother.2]
  refine ⟨.record [.field "path" (by decide) (by decide) (.list [.quote path]),
    .operator operator.name (isBareWord_operator operator), .field tag htag hkey p] hkeys, ?_, rfl, ?_⟩
  · apply Phrase.text_record
    show [_ ++ ':' :: ' ' :: (Phrase.list [.quote path]).text, _, tag.toList ++ ':' :: ' ' :: p.text]
      = [_, _, _]
    rw [hpath, hwire]
    rfl
  · show max 1 (max 0 (max p.levels 0)) + 1 = 2
    omega

/-- A condition is a phrase; each join adds its record and the list of its two sides. -/
theorem exists_phrase {c : Condition} (hc : c.Finite) :
    ∃ p : Phrase readValue, p.text = c.wire.toList
      ∧ p.value = c.document ∧ p.levels = 2 * c.height + 2 := by
  induction c with
  | comparison path operator comparand =>
    obtain ⟨p, htext, hvalue, hlevels⟩ := Comparand.exists_phrase hc
    obtain ⟨q, hq, hqvalue, hqlevels⟩ :=
      exists_phrase_leaf path operator comparand.tag comparand.isBareWord_tag
      comparand.tag_not_mem p hlevels comparand.wire htext
    refine ⟨q, hq, ?_, hqlevels⟩
    rw [hqvalue, hvalue]
    rfl
  | nullCheck path =>
    obtain ⟨q, hq, hqvalue, hqlevels⟩ :=
      exists_phrase_leaf path .isNull "valueBoolean" (by decide) (by decide)
      (.truth true) (Nat.zero_le 1) "true" rfl
    exact ⟨q, hq, hqvalue, hqlevels⟩
  | join connective left right ihleft ihright =>
    obtain ⟨p, hptext, hpvalue, hplevels⟩ := ihleft hc.1
    obtain ⟨q, hqtext, hqvalue, hqlevels⟩ := ihright hc.2
    have hkeys : ["operator", "operands"].Nodup := by decide
    have hoperands : "operands".toList ≠ operatorKey := by decide
    refine ⟨.record [.operator connective.name (isBareWord_connective connective),
      .field "operands" (by decide) hoperands (.list [p, q])] hkeys, ?_, ?_, ?_⟩
    · apply Phrase.text_record
      have hlist : (Wire.list [left.wire, right.wire]).toList = (Phrase.list [p, q]).text := by
        refine (Phrase.text_list ?_).symm
        show [p.text, q.text] = [left.wire.toList, right.wire.toList]
        rw [hptext, hqtext]
      show [_, "operands".toList ++ ':' :: ' ' :: (Phrase.list [p, q]).text] = [_, _ ++ ':' :: ' ' :: _]
      rw [hlist]
      rfl
    · show Json.object [("operator", .text connective.name), ("operands", .array [p.value, q.value])] = _
      rw [hpvalue, hqvalue]
      rfl
    · show max 0 (max (max p.levels (max q.levels 0) + 1) 0) + 1
        = 2 * (max left.height right.height + 1) + 2
      omega

/-- **The document of the wire text is the document of the condition**, as long as at most 62 joins
stand above each other; a higher tree has no document. -/
theorem document?_wire (c : Condition) (hc : c.Finite) :
    (c.height ≤ 62 → Wire.document? c.wire = .ok c.document)
    ∧ (63 ≤ c.height → ∃ reason, Wire.document? c.wire = .error (.unreadableWire reason)) := by
  obtain ⟨p, htext, hvalue, hlevels⟩ := exists_phrase hc
  have hdocument := p.document?_text
  rw [htext, String.ofList_toList, hlevels, hvalue] at hdocument
  constructor
  · intro hheight
    rw [hdocument, if_pos (by omega)]
  · intro hheight
    exact ⟨unstatedReason, by rw [hdocument, if_neg (by omega)]⟩

/-- A comparison with a negative zero below joins that stand above each other. -/
def tower : ℕ → Condition
  | 0 => .comparison "score" .lessThan (.number (.finite true ⟨0, -1074, by decide⟩))
  | n + 1 => .join .and (tower n) (.nullCheck "title")

theorem tower_finite (n : ℕ) : (tower n).Finite := by
  induction n with
  | zero => rfl
  | succ n ih => exact ⟨ih, trivial⟩

theorem height_tower (n : ℕ) : (tower n).height = n := by
  induction n with
  | zero => rfl
  | succ n ih =>
    show max (tower n).height 0 + 1 = n + 1
    rw [ih, Nat.max_zero]

/-- The limit is met: 62 joins are read back, 63 are refused. -/
theorem document?_wire_tower :
    Wire.document? (tower 62).wire = .ok (tower 62).document
    ∧ ∃ reason, Wire.document? (tower 63).wire = .error (.unreadableWire reason) :=
  ⟨(document?_wire (tower 62) (tower_finite 62)).1 (height_tower 62).le,
    (document?_wire (tower 63) (tower_finite 63)).2 (height_tower 63).ge⟩

end Condition

end VectorQuery
