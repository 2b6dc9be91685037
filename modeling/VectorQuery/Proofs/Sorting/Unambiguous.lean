import Mathlib
import VectorQuery.Proofs.Wire.Delimited
import VectorQuery.Sorting

/-!
# The wire form of sort keys is unambiguous

A key is told from what follows it, whatever its path quotes.  One key begins with a brace and a list
of several with a bracket, so the wire text tells also how many keys there are.

* `SortKey.wire_append_inj` — a key is told from what follows it;
* `Sorting.wire?_eq_none_iff`, `Sorting.wire?_eq_some_iff` — when there is a text, and which;
* `Sorting.wire?_injective` — **different sort keys have different wire texts**.
-/

namespace VectorQuery

open Wire

namespace SortKey

theorem wire_toList (key : SortKey) :
    key.wire.toList = "\x7b path: [".toList ++ ((quote key.path).toList
      ++ ("], order: ".toList ++ (key.direction.name.toList ++ " \x7d".toList))) := by
  simp [wire, record, Wire.list]

variable {s t : List Char}

/-- A key is told from what follows it. -/
theorem wire_append_inj {a b : SortKey} (h : a.wire.toList ++ s = b.wire.toList ++ t) :
    a = b ∧ s = t := by
  obtain ⟨path, direction⟩ := a
  obtain ⟨other, way⟩ := b
  simp only [wire_toList, List.append_assoc] at h
  obtain ⟨hpath, hrest⟩ := quote_append_inj (List.append_cancel_left h)
  have hdirection := List.append_cancel_left hrest
  -- the names of the directions differ in their first letters
  cases direction with
  | ascending =>
    cases way with
    | ascending => exact ⟨by rw [hpath], List.append_cancel_left (List.append_cancel_left hdirection)⟩
    | descending => exact absurd (List.cons.inj hdirection).1 (by decide)
  | descending =>
    cases way with
    | ascending => exact absurd (List.cons.inj hdirection).1 (by decide)
    | descending => exact ⟨by rw [hpath], List.append_cancel_left (List.append_cancel_left hdirection)⟩

theorem wire_injective : Function.Injective wire := by
  intro a b h
  exact (wire_append_inj (s := []) (t := []) (by rw [h])).1

end SortKey

namespace Sorting

variable {sorting : Sorting} {text : String}

/-- There is no text iff there is no key. -/
theorem wire?_eq_none_iff : sorting.wire? = none ↔ sorting.keys = [] := by
  obtain ⟨keys⟩ := sorting
  match keys with
  | [] => exact ⟨fun _ => rfl, fun _ => rfl⟩
  | [key] => exact ⟨nofun, nofun⟩
  | _ :: _ :: _ => exact ⟨nofun, nofun⟩

/-- One key is written as it is, and several between brackets. -/
theorem wire?_eq_some_iff :
    sorting.wire? = some text
      ↔ (∃ key, sorting.keys = [key] ∧ text = key.wire)
        ∨ 2 ≤ sorting.keys.length
          ∧ text = "[ " ++ ", ".intercalate (sorting.keys.map SortKey.wire) ++ " ]" := by
  obtain ⟨keys⟩ := sorting
  match keys with
  | [] => simp [wire?]
  | [key] => simp [wire?, eq_comm]
  | first :: second :: more => simp [wire?, eq_comm]

/-- The text of several keys is that of the first one and of the others behind commas. -/
theorem several_toList (first : SortKey) (more : List SortKey) :
    ("[ " ++ ", ".intercalate ((first :: more).map SortKey.wire) ++ " ]").toList
      = '[' :: ' ' :: (first.wire.toList
        ++ (moreItems (fun key : SortKey => key.wire.toList) more ++ " ]".toList)) := by
  have hchars : ∀ keys : List SortKey,
      ("[ " ++ ", ".intercalate (keys.map SortKey.wire) ++ " ]").toList
        = '[' :: ' ' :: (List.intercalate [',', ' '] (keys.map fun key => key.wire.toList)
          ++ " ]".toList) := by
    intro keys
    simp [Function.comp_def]
  rw [hchars, intercalate_cons_eq (fun key : SortKey => key.wire.toList), List.append_assoc]

/-- A key is no list of keys. -/
theorem wire_ne_several (key first : SortKey) (more : List SortKey) :
    key.wire ≠ "[ " ++ ", ".intercalate ((first :: more).map SortKey.wire) ++ " ]" := by
  intro h
  have hchars := congrArg String.toList h
  rw [several_toList, SortKey.wire_toList] at hchars
  exact absurd (List.cons.inj hchars).1 (by decide)

/-- Lists of keys with the same text are the same. -/
theorem several_injective {first second : SortKey} {more others : List SortKey}
    (h : "[ " ++ ", ".intercalate ((first :: more).map SortKey.wire) ++ " ]"
      = "[ " ++ ", ".intercalate ((second :: others).map SortKey.wire) ++ " ]") :
    first :: more = second :: others := by
  have hchars := congrArg String.toList h
  rw [several_toList, several_toList] at hchars
  obtain ⟨hfirst, hrest⟩ :=
    SortKey.wire_append_inj (List.cons.inj (List.cons.inj hchars).2).2
  obtain ⟨hmore, -⟩ := moreItems_append_inj (by decide) SortKey.wire_append_inj hrest
  rw [hfirst, hmore]

/-- **Different sort keys have different wire texts.** -/
theorem wire?_injective : Function.Injective wire? := by
  rintro ⟨keys⟩ ⟨others⟩ h
  refine congrArg Sorting.mk ?_
  match keys, others with
  | [], [] => rfl
  | [], [_] | [], _ :: _ :: _ | [_], [] | _ :: _ :: _, [] => cases h
  | [key], [other] => rw [SortKey.wire_injective (Option.some.inj h)]
  | [key], first :: second :: more => exact absurd (Option.some.inj h) (wire_ne_several key _ _)
  | first :: second :: more, [key] =>
    exact absurd (Option.some.inj h).symm (wire_ne_several key _ _)
  | _ :: _ :: _, _ :: _ :: _ => exact several_injective (Option.some.inj h)

end Sorting

end VectorQuery
