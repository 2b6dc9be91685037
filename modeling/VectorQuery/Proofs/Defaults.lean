import Mathlib
import VectorQuery.Defaults
import VectorQuery.Proofs.Binary64.Spelling
import VectorQuery.Proofs.Outcome
import VectorQuery.Proofs.Text.Words

/-!
# Settings

A setting that is there has to be right: without the blanks around it, the distance is the text of a
finite number, and the page size is the text of a number of 64 bits.  Else the defaults are refused,
and the fault names the setting, the distance first.

* `Numeral.WordText`, `Numeral.word64?_eq_some_iff` — the texts of numbers of 64 bits;
* `Defaults.DistanceText`, `Defaults.NoDistance` — the texts of distances, and why a text is none;
* `Defaults.Given`, `Defaults.Bad` — what a setting gives, and the settings that give nothing;
* `Defaults.settingOr_cases` — a setting gives its value, or the fault that names it;
* `Defaults.ofLookup_cases` — **the defaults are what both settings give, or a fault names the first
  one that is bad**.
-/

namespace VectorQuery

/-! ### Texts of numbers of 64 bits -/

namespace Numeral

/-- The texts of a number of 64 bits: its numeral, with any number of zeros before it, perhaps after a
plus sign. -/
inductive WordText : List Char → UInt64 → Prop
  | plain (zeros : ℕ) (n : UInt64) :
      WordText (List.replicate zeros '0' ++ Nat.toDigits 10 n.toNat) n
  | plus (zeros : ℕ) (n : UInt64) :
      WordText ('+' :: (List.replicate zeros '0' ++ Nat.toDigits 10 n.toNat)) n

/-- Without a plus sign, a natural number is read digit by digit. -/
theorem natural?_of_no_sign {cs : List Char} (h : ∀ more, cs ≠ '+' :: more) :
    natural? cs = digits? cs := by
  rw [natural?]
  exact h

theorem toWord_eq_some_iff {n : ℕ} {word : UInt64} :
    (if n < UInt64.size then some (UInt64.ofNat n) else none) = some word ↔ n = word.toNat := by
  constructor
  · intro h
    split at h
    next hn =>
      cases h
      exact (UInt64.toNat_ofNat_of_lt' hn).symm
    next => cases h
  · intro h
    rw [h, if_pos word.toNat_lt, UInt64.ofNat_toNat]

/-- **What is read as a number of 64 bits** are its texts. -/
theorem word64?_eq_some_iff {cs : List Char} {word : UInt64} :
    word64? cs = some word ↔ WordText cs word := by
  have hdigits : ∀ zeros n, digits? (List.replicate zeros '0' ++ Nat.toDigits 10 n) = some n :=
    fun zeros n => digits?_eq_some_iff.2 ⟨zeros, rfl⟩
  rw [word64?, Option.bind_eq_some_iff]
  constructor
  · intro h
    obtain ⟨n, hn, hword⟩ := h
    obtain rfl := toWord_eq_some_iff.1 hword
    by_cases hplus : ∃ more, cs = '+' :: more
    · obtain ⟨more, rfl⟩ := hplus
      obtain ⟨zeros, rfl⟩ := digits?_eq_some_iff.1 hn
      exact .plus zeros word
    · rw [natural?_of_no_sign fun more h => hplus ⟨more, h⟩] at hn
      obtain ⟨zeros, rfl⟩ := digits?_eq_some_iff.1 hn
      exact .plain zeros word
  · intro h
    refine ⟨word.toNat, ?_, toWord_eq_some_iff.2 rfl⟩
    cases h with
    | plus zeros => exact hdigits zeros word.toNat
    | plain zeros =>
      rw [natural?_of_no_sign, hdigits]
      intro more hplus
      exact absurd (head_isDigit (hplus ▸ hdigits zeros word.toNat)) (by decide)

end Numeral

namespace Defaults

open Numeral Outcome

/-! ### One setting -/

/-- The texts of a distance: those of a finite number. -/
def DistanceText (cs : List Char) (distance : Binary64) : Prop :=
  FloatText cs distance ∧ distance.isFinite = true

/-- Why a text is no distance: it spells no number at all, or the undefined value, or an infinity, be
it by a decimal that is too large. -/
inductive NoDistance (cs : List Char) : Prop
  | unspelt (h : ∀ x, ¬ FloatText cs x)
  | undefined (h : FloatText cs .nan)
  | infinite {negative : Bool} (h : FloatText cs (.infinite negative))

theorem noDistance_iff {cs : List Char} : NoDistance cs ↔ ∀ distance, ¬ DistanceText cs distance := by
  constructor
  · intro h distance hdistance
    cases h with
    | unspelt h => exact h distance hdistance.1
    | undefined h => exact absurd (h.unique hdistance.1 ▸ hdistance.2) (by decide)
    | @infinite negative h =>
      have hfinite := hdistance.2
      rw [← h.unique hdistance.1] at hfinite
      cases hfinite
  · intro h
    by_cases hspelt : ∃ x, FloatText cs x
    · obtain ⟨x, hx⟩ := hspelt
      cases x with
      | nan => exact .undefined hx
      | infinite negative => exact .infinite hx
      | finite negative size => exact absurd ⟨hx, rfl⟩ (h _)
    · exact .unspelt fun x hx => hspelt ⟨x, hx⟩

variable {α : Type} {Spells : List Char → α → Prop} {standard : α} {setting : Option String}

/-- What a setting gives: the standard value if it is not there, else what it spells without the blanks
around it. -/
inductive Given (Spells : List Char → α → Prop) (standard : α) : Option String → α → Prop
  | unset : Given Spells standard none standard
  | set {raw : String} {core : List Char} {value : α} (htrimmed : Text.Trimmed raw.toList core)
      (h : Spells core value) : Given Spells standard (some raw) value

/-- A setting that is there and spells nothing. -/
def Bad (Spells : List Char → α → Prop) (setting : Option String) : Prop :=
  ∃ raw core, setting = some raw ∧ Text.Trimmed raw.toList core ∧ ∀ value, ¬ Spells core value

theorem Given.not_bad {value : α} (h : Given Spells standard setting value) : ¬ Bad Spells setting := by
  intro hbad
  obtain ⟨raw, core, rfl, htrimmed, hnone⟩ := hbad
  cases h with
  | set hfound h => exact hnone value (hfound.unique htrimmed ▸ h)

/-- A setting gives its value, or the fault that names it. -/
theorem settingOr_cases {key : String} {read : String → Except Fault α}
    (hok : ∀ {raw value}, read raw = .ok value ↔ Spells (trimmed raw) value)
    (herror : ∀ {raw fault}, read raw = .error fault → ∃ reason, fault = .badSetting key reason)
    (standard : α) (setting : Option String) :
    (∃ value, settingOr read standard setting = .ok value ∧ Given Spells standard setting value)
    ∨ ∃ reason, settingOr read standard setting = .error (.badSetting key reason)
      ∧ Bad Spells setting := by
  cases setting with
  | none => exact Or.inl ⟨standard, rfl, .unset⟩
  | some raw =>
    cases hread : read raw with
    | ok value => exact Or.inl ⟨value, hread, .set (Text.trimmed_trim _) (hok.1 hread)⟩
    | error fault =>
      obtain ⟨reason, rfl⟩ := herror hread
      refine Or.inr ⟨reason, hread, raw, trimmed raw, rfl, Text.trimmed_trim _, ?_⟩
      intro value hvalue
      rw [hok.2 hvalue] at hread
      cases hread

theorem distanceOf_eq_ok_iff {raw : String} {distance : Binary64} :
    distanceOf raw = .ok distance ↔ DistanceText (trimmed raw) distance := by
  have hread : Binary64.ofText? (String.ofList (trimmed raw)) = some distance
      ↔ FloatText (trimmed raw) distance := by
    rw [Binary64.ofText?_eq_some_iff, String.toList_ofList]
  rw [DistanceText, ← hread, distanceOf]
  cases Binary64.ofText? (String.ofList (trimmed raw)) with
  | none => exact iff_of_false nofun nofun
  | some found =>
    dsimp only
    rw [Option.some.injEq]
    split
    next hfinite =>
      rw [Except.ok.injEq]
      exact ⟨fun h => ⟨h, h ▸ hfinite⟩, fun h => h.1⟩
    next hfinite =>
      exact iff_of_false nofun fun h => hfinite (h.1.symm ▸ h.2)

theorem distanceOf_error {raw : String} {fault : Fault} (h : distanceOf raw = .error fault) :
    ∃ reason, fault = .badSetting distanceKey reason := by
  rw [distanceOf] at h
  split at h
  · cases h
    exact ⟨_, rfl⟩
  · split at h
    · cases h
    · cases h
      exact ⟨_, rfl⟩

theorem pageSizeOf_eq_ok_iff {raw : String} {size : UInt64} :
    pageSizeOf raw = .ok size ↔ WordText (trimmed raw) size := by
  rw [← word64?_eq_some_iff, pageSizeOf]
  cases word64? (trimmed raw) <;> simp

theorem pageSizeOf_error {raw : String} {fault : Fault} (h : pageSizeOf raw = .error fault) :
    ∃ reason, fault = .badSetting pageSizeKey reason := by
  rw [pageSizeOf] at h
  split at h
  · cases h
    exact ⟨_, rfl⟩
  · cases h

/-! ### Both settings -/

/-- The defaults are what both settings give. -/
structure Reads (lookup : String → Option String) (defaults : Defaults) : Prop where
  distance : Given DistanceText (Binary64.ofDecimal false 55 (-2)) (lookup distanceKey) defaults.distance
  pageSize : Given WordText 25 (lookup pageSizeKey) defaults.pageSize

/-- **The defaults are what both settings give, or a fault names the first one that is bad.** -/
theorem ofLookup_cases (lookup : String → Option String) :
    (∃ defaults, ofLookup lookup = .ok defaults ∧ Reads lookup defaults)
    ∨ (∃ reason, ofLookup lookup = .error (.badSetting distanceKey reason)
        ∧ Bad DistanceText (lookup distanceKey))
    ∨ ∃ reason, ofLookup lookup = .error (.badSetting pageSizeKey reason)
        ∧ ¬ Bad DistanceText (lookup distanceKey) ∧ Bad WordText (lookup pageSizeKey) := by
  rcases settingOr_cases distanceOf_eq_ok_iff distanceOf_error (Binary64.ofDecimal false 55 (-2))
      (lookup distanceKey) with ⟨distance, hdistance, hgiven⟩ | ⟨reason, hfault, hbad⟩
  · rcases settingOr_cases pageSizeOf_eq_ok_iff pageSizeOf_error 25 (lookup pageSizeKey) with
      ⟨pageSize, hpageSize, hsize⟩ | ⟨reason, hfault, hbad⟩
    · refine Or.inl ⟨⟨distance, pageSize⟩, ?_, hgiven, hsize⟩
      exact bind_eq_ok_iff.2 ⟨distance, hdistance, bind_eq_ok_iff.2 ⟨pageSize, hpageSize, rfl⟩⟩
    · refine Or.inr (Or.inr ⟨reason, ?_, hgiven.not_bad, hbad⟩)
      exact bind_eq_error_iff.2 (Or.inr ⟨distance, hdistance, bind_eq_error_iff.2 (Or.inl hfault)⟩)
  · exact Or.inr (Or.inl ⟨reason, bind_eq_error_iff.2 (Or.inl hfault), hbad⟩)

/-- A distance that is given is finite, be it the standard one. -/
theorem Reads.isFinite {lookup : String → Option String} {defaults : Defaults}
    (h : Reads lookup defaults) : defaults.distance.isFinite = true := by
  have hgiven := h.distance
  generalize lookup distanceKey = setting, defaults.distance = distance at hgiven ⊢
  cases hgiven with
  | unset => decide
  | set _ h => exact h.2

end Defaults

end VectorQuery
