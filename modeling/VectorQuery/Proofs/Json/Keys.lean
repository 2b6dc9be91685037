import Mathlib
import VectorQuery.Json.Basic

/-!
# Fields under distinct keys

An object has each key once, and then look-up does not depend on the order of its fields.  Removal
disturbs the order, since the last field moves into the gap, but loses nothing else.

* `get?_eq_some_iff`, `get?_perm` — under distinct keys, look-up is membership, in whatever order;
* `erase_perm_filter` — **removal leaves the fields under other keys**, in some order;
* `get?_erase` — so it takes one key away, and nothing from the others;
* `keys_insert` — the keys after a value is written;
* `get?_insertAll` — **a key stands for the value that is written under it last**.
-/

namespace VectorQuery.Json.Fields

variable {fields others : Fields} {key name : String} {value : Json}

/-! ### Look-up -/

theorem keys_cons (field : String × Json) (fields : Fields) :
    keys (field :: fields) = field.1 :: keys fields := rfl

theorem keys_perm (h : fields.Perm others) : (keys fields).Perm (keys others) := h.map _

theorem get?_cons (field : String × Json) (fields : Fields) :
    get? key (field :: fields) = if field.1 = key then some field.2 else get? key fields := rfl

theorem get?_append (fields others : Fields) :
    get? key (fields ++ others) = (get? key fields).or (get? key others) := by
  induction fields with
  | nil => rfl
  | cons field fields ih =>
    rw [List.cons_append, get?_cons, get?_cons, ih]
    split <;> rfl

theorem get?_eq_none_iff : get? key fields = none ↔ key ∉ keys fields := by
  induction fields with
  | nil => simp [get?, keys]
  | cons field fields ih =>
    rw [get?_cons, keys_cons, List.mem_cons, not_or, ← ih]
    by_cases hkey : field.1 = key
    · simp [hkey]
    · simp [hkey, Ne.symm hkey]

/-- Under distinct keys, the fields are what their keys stand for. -/
theorem get?_eq_some_iff (hkeys : (keys fields).Nodup) :
    get? key fields = some value ↔ (key, value) ∈ fields := by
  induction fields with
  | nil => simp [get?]
  | cons field fields ih =>
    obtain ⟨hfirst, hrest⟩ := List.nodup_cons.1 hkeys
    rw [get?_cons, List.mem_cons, ← ih hrest]
    by_cases hkey : field.1 = key
    · -- the key does not come a second time
      have hnone : get? key fields = none := get?_eq_none_iff.2 (hkey ▸ hfirst)
      rw [if_pos hkey, hnone]
      simp [Prod.ext_iff, hkey, eq_comm]
    · rw [if_neg hkey]
      simp [Prod.ext_iff, Ne.symm hkey]

/-- Under distinct keys, look-up does not depend on the order. -/
theorem get?_perm (h : fields.Perm others) (hkeys : (keys fields).Nodup) (name : String) :
    get? name fields = get? name others := by
  apply Option.ext
  intro value
  rw [get?_eq_some_iff hkeys, get?_eq_some_iff ((keys_perm h).nodup_iff.1 hkeys), h.mem_iff]

/-- Fields with the same distinct keys in the same order, and the same values, are the same. -/
theorem ext_get? (hsame : keys fields = keys others) (hkeys : (keys fields).Nodup)
    (hvalues : ∀ key, get? key fields = get? key others) : fields = others := by
  induction fields generalizing others with
  | nil => exact (List.map_eq_nil_iff.1 hsame.symm).symm
  | cons field fields ih =>
    cases others with
    | nil => cases hsame
    | cons other others =>
      obtain ⟨hkey, hrest⟩ := List.cons.inj hsame
      obtain ⟨hfirst, hnodup⟩ := List.nodup_cons.1 hkeys
      have hvalue := hvalues field.1
      rw [get?_cons, get?_cons, if_pos rfl, if_pos hkey.symm] at hvalue
      have hmore : ∀ key, get? key fields = get? key others := by
        intro key
        by_cases hne : field.1 = key
        · -- in what follows, the first key stands for nothing on either side
          rw [get?_eq_none_iff.2 (hne ▸ hfirst), get?_eq_none_iff.2]
          rw [← show keys fields = keys others from hrest, ← hne]
          exact hfirst
        · have hkeyed := hvalues key
          rwa [get?_cons, get?_cons, if_neg hne, if_neg (hkey ▸ hne)] at hkeyed
      rw [ih hrest hnodup hmore, Prod.ext hkey (Option.some.inj hvalue)]

/-! ### Removal -/

/-- Removal of the first field leaves the others. -/
theorem erase_self_perm (key : String) (value : Json) (fields : Fields) :
    (erase key ((key, value) :: fields)).Perm fields := by
  rw [erase, if_pos rfl]
  cases hlast : fields.getLast? with
  | none => rw [List.getLast?_eq_none_iff.1 hlast]
  | some last =>
    -- the last field comes to stand before the others
    have hsplit : fields.dropLast ++ [last] = fields := List.dropLast_append_getLast? _ hlast
    conv_rhs => rw [← hsplit]
    exact (List.perm_append_singleton last fields.dropLast).symm

/-- **Removal leaves the fields under other keys**, in some order. -/
theorem erase_perm_filter (key : String) (hkeys : (keys fields).Nodup) :
    (erase key fields).Perm (fields.filter fun field => field.1 ≠ key) := by
  induction fields with
  | nil => exact .nil
  | cons field fields ih =>
    obtain ⟨k, v⟩ := field
    obtain ⟨hfirst, hrest⟩ := List.nodup_cons.1 hkeys
    by_cases hkey : k = key
    · subst hkey
      have hothers : fields.filter (fun field => field.1 ≠ k) = fields := by
        rw [List.filter_eq_self]
        intro field hfield
        have hmem : field.1 ∈ keys fields := List.mem_map_of_mem hfield
        have hne : field.1 ≠ k := fun h => hfirst (h ▸ hmem)
        simpa using hne
      rw [List.filter_cons_of_neg (by simp), hothers]
      exact erase_self_perm k v fields
    · rw [List.filter_cons_of_pos (by simpa using hkey), erase, if_neg hkey]
      exact (ih hrest).cons (k, v)

theorem nodup_erase (key : String) (hkeys : (keys fields).Nodup) : (keys (erase key fields)).Nodup := by
  rw [(keys_perm (erase_perm_filter key hkeys)).nodup_iff]
  exact hkeys.sublist (List.filter_sublist.map Prod.fst)

theorem get?_filter_ne (key name : String) (fields : Fields) :
    get? name (fields.filter fun field => field.1 ≠ key)
      = if name = key then none else get? name fields := by
  induction fields with
  | nil => simp [get?]
  | cons field fields ih =>
    by_cases hkey : field.1 = key
    · rw [List.filter_cons_of_neg (by simpa using hkey), ih, get?_cons, hkey]
      by_cases hname : name = key
      · simp [hname]
      · simp [hname, Ne.symm hname]
    · rw [List.filter_cons_of_pos (by simpa using hkey), get?_cons, ih, get?_cons]
      by_cases hname : name = key
      · simp [hname, hkey]
      · simp [hname]

/-- Removal takes one key away, and nothing from the others. -/
theorem get?_erase (key name : String) (hkeys : (keys fields).Nodup) :
    get? name (erase key fields) = if name = key then none else get? name fields := by
  rw [get?_perm (erase_perm_filter key hkeys) (nodup_erase key hkeys), get?_filter_ne]

/-! ### Writing -/

/-- A value that is written keeps the keys, or adds its own at their end. -/
theorem keys_insert (key : String) (value : Json) (fields : Fields) :
    keys (insert key value fields)
      = if key ∈ keys fields then keys fields else keys fields ++ [key] := by
  induction fields with
  | nil => rfl
  | cons field fields ih =>
    obtain ⟨k, v⟩ := field
    rw [insert]
    by_cases hkey : k = key
    · rw [if_pos hkey, keys_cons, keys_cons, hkey, if_pos List.mem_cons_self]
    · have hmem : key ∈ keys ((k, v) :: fields) ↔ key ∈ keys fields := by
        rw [keys_cons, List.mem_cons]
        exact or_iff_right (Ne.symm hkey)
      rw [if_neg hkey, keys_cons, ih]
      by_cases h : key ∈ keys fields
      · rw [if_pos h, if_pos (hmem.2 h), keys_cons]
      · rw [if_neg h, if_neg (mt hmem.1 h), keys_cons, List.cons_append]

theorem nodup_insert (hkeys : (keys fields).Nodup) (key : String) (value : Json) :
    (keys (insert key value fields)).Nodup := by
  rw [keys_insert]
  split
  · exact hkeys
  · rename_i hkey
    rw [List.nodup_append]
    refine ⟨hkeys, List.nodup_singleton key, fun k hk other hother => ?_⟩
    rw [List.mem_singleton.1 hother]
    exact fun h => hkey (h ▸ hk)

theorem mem_of_get? (h : get? key fields = some value) : (key, value) ∈ fields := by
  induction fields with
  | nil => cases h
  | cons field fields ih =>
    obtain ⟨k, v⟩ := field
    rw [get?_cons] at h
    split at h
    · rename_i hkey
      cases h
      cases hkey
      exact List.mem_cons_self
    · exact List.mem_cons_of_mem _ (ih h)

/-- What is there after a value is written is this value, or has been there. -/
theorem mem_insert {field : String × Json} (h : field ∈ insert key value fields) :
    field = (key, value) ∨ field ∈ fields := by
  induction fields with
  | nil => exact Or.inl (List.mem_singleton.1 h)
  | cons first fields ih =>
    obtain ⟨k, v⟩ := first
    rw [insert] at h
    split at h
    · exact (List.mem_cons.1 h).imp_right (List.mem_cons_of_mem _)
    · rcases List.mem_cons.1 h with rfl | hmem
      · exact Or.inr List.mem_cons_self
      · exact (ih hmem).imp_right (List.mem_cons_of_mem _)

/-! ### Writing one after another -/

theorem insertAll_append (fields more others : Fields) :
    insertAll fields (more ++ others) = insertAll (insertAll fields more) others :=
  List.foldl_append

theorem nodup_insertAll (hkeys : (keys fields).Nodup) (more : Fields) :
    (keys (insertAll fields more)).Nodup := by
  induction more generalizing fields with
  | nil => exact hkeys
  | cons field more ih => exact ih (nodup_insert hkeys field.1 field.2)

theorem mem_insertAll {field : String × Json} {more : Fields} (h : field ∈ insertAll fields more) :
    field ∈ fields ∨ field ∈ more := by
  induction more generalizing fields with
  | nil => exact Or.inl h
  | cons first more ih =>
    rcases ih h with hinsert | hmore
    · rcases mem_insert hinsert with rfl | hfield
      · exact Or.inr List.mem_cons_self
      · exact Or.inl hfield
    · exact Or.inr (List.mem_cons_of_mem _ hmore)

/-- **A key stands for the value that is written under it last.** -/
theorem get?_insertAll (key : String) (fields more : Fields) :
    get? key (insertAll fields more) = (get? key more.reverse).or (get? key fields) := by
  induction more generalizing fields with
  | nil => rfl
  | cons field more ih =>
    show get? key (insertAll (insert field.1 field.2 fields) more) = _
    rw [ih, get?_insert, List.reverse_cons, get?_append, get?_cons, Option.or_assoc]
    congr 1
    split <;> rfl

/-- Fields under distinct keys are there once they have been written. -/
theorem mem_insertAll_of_mem {more : Fields} (hkeys : (keys more).Nodup)
    {field : String × Json} (h : field ∈ more) : field ∈ insertAll fields more := by
  have hreverse : (keys more.reverse).Nodup :=
    (keys_perm more.reverse_perm).nodup_iff.2 hkeys
  have hlast : get? field.1 more.reverse = some field.2 :=
    (get?_eq_some_iff hreverse).2 (List.mem_reverse.2 h)
  refine mem_of_get? ?_
  rw [get?_insertAll, hlast]
  rfl

end VectorQuery.Json.Fields
