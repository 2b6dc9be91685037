import Mathlib
import VectorQuery.Proofs.Condition.Single
import VectorQuery.Proofs.StoredObject.Parting
import VectorQuery.Proofs.Text.Numeral

/-!
# Times of stored objects

The backend sends a point in time as a number of milliseconds or as a text of one.  A stored object
gives it as an instant, and a condition that binds the instant compares with milliseconds again.

* `Instant.Covers` — the milliseconds of the years that the calendar covers, and
  `Instant.exists_ofEpochMillis?`, `Instant.ofEpochMillis?_eq_none`, that only those have an instant;
* `StoredObject.Holds` — a document that holds an integer;
* `StoredObject.instant?_eq_some_iff` — the time of an object, from the value of its meta-attribute;
* `StoredObject.metaAttribute?_logicalName` — that value, from the raw fields;
* `StoredObject.Stamp` — the times of an object, by the names under which the backend sends them;
* `StoredObject.instant?_compared` — **a condition that binds an object's time compares with the
  integer that the backend has sent**.
-/

namespace VectorQuery

open Text

/-! ### Milliseconds -/

namespace Instant

/-- The milliseconds from the first second of the first year to the end of the last. -/
def Covers (millis : ℤ) : Prop := -8334601228800000 ≤ millis ∧ millis ≤ 8210266876799999

instance (millis : ℤ) : Decidable (Covers millis) := inferInstanceAs (Decidable (_ ∧ _))

variable {millis : ℤ}

theorem exists_ofEpochMillis? (h : Covers millis) :
    ∃ instant, ofEpochMillis? millis = some instant := by
  obtain ⟨hlow, hhigh⟩ := h
  have hcovered : firstSecond ≤ millis / 1000 ∧ millis / 1000 ≤ lastSecond := by
    rw [firstSecond, lastSecond]
    omega
  have hbounded : (millis % 1000).toNat * 1000000 < 1000000000 := by omega
  rw [ofEpochMillis?, of?, dif_pos hcovered, dif_pos (Or.inl hbounded)]
  exact ⟨_, rfl⟩

theorem ofEpochMillis?_eq_none (h : ¬ Covers millis) : ofEpochMillis? millis = none := by
  refine dif_neg fun hcovered => h ?_
  rw [firstSecond, lastSecond] at hcovered
  rw [Covers]
  omega

theorem exists_word_of_covers (h : Covers millis) : ∃ word : Int64, word.toInt = millis := by
  obtain ⟨hlow, hhigh⟩ := h
  exact ⟨Int64.ofInt millis, Int64.toInt_ofInt_of_le (by omega) (by omega)⟩

end Instant

/-! ### Integers in documents -/

namespace StoredObject

/-- A document that holds an integer: as a number, or as a text of it. -/
inductive Holds : Json → ℤ → Prop
  | number (m : ℤ) : Holds (.int m) m
  | text {s : String} {m : ℤ} (h : Numeral.Spells s.toList m) : Holds (.text s) m

/-- What is read as milliseconds is an integer of 64 bits. -/
theorem millis?_eq_some_iff {value : Json} {word : Int64} :
    millis? value = some word ↔ Holds value word.toInt := by
  constructor
  · intro h
    cases value with
    | int m =>
      rw [← Numeral.toSigned64?_eq_some_iff.1 h]
      exact .number _
    | text s =>
      obtain ⟨m, hm, hword⟩ := Option.bind_eq_some_iff.1 h
      rw [Numeral.toSigned64?_eq_some_iff.1 hword]
      exact .text (Numeral.integer?_eq_some_iff.1 hm)
    | null | bool _ | float _ | array _ | object _ => cases h
  · intro h
    generalize hm : word.toInt = m at h
    cases h with
    | number => exact Numeral.toSigned64?_eq_some_iff.2 hm
    | text hs =>
      rw [millis?, Numeral.signed64?, Numeral.integer?_eq_some_iff.2 hs, Option.bind_some]
      exact Numeral.toSigned64?_eq_some_iff.2 hm

/-- A document holds at most one integer. -/
theorem Holds.unique {value : Json} {m n : ℤ} (hm : Holds value m) (hn : Holds value n) : m = n := by
  cases hm with
  | number => cases hn; rfl
  | text hm =>
    cases hn with
    | text hn =>
      exact Option.some.inj ((Numeral.integer?_eq_some_iff.2 hm).symm.trans
        (Numeral.integer?_eq_some_iff.2 hn))

/-! ### Times -/

variable {object : StoredObject} {x : MetaAttribute} {value : Json}

/-- The time of an object is the instant of the integer that its meta-attribute holds. -/
theorem instant?_eq_some_iff (hvalue : object.metaAttribute? x.logicalName = some value)
    {instant : Instant} :
    object.instant? x = some instant
      ↔ ∃ m, Holds value m ∧ Instant.ofEpochMillis? m = some instant := by
  rw [instant?, hvalue, Option.bind_some, Option.bind_eq_some_iff]
  constructor
  · intro h
    obtain ⟨word, hword, hinstant⟩ := h
    exact ⟨word.toInt, millis?_eq_some_iff.1 hword, hinstant⟩
  · intro h
    obtain ⟨m, hm, hinstant⟩ := h
    -- the integer is read as a word first, and all that have an instant fit one
    have hcovers : Instant.Covers m := by
      by_contra hcovers
      rw [Instant.ofEpochMillis?_eq_none hcovers] at hinstant
      cases hinstant
    obtain ⟨word, rfl⟩ := Instant.exists_word_of_covers hcovers
    exact ⟨word, millis?_eq_some_iff.2 hm, hinstant⟩

/-- A meta-attribute has the value that stands under its backend name in the block. -/
theorem metaAttribute?_logicalName {raw block : Json.Fields} (customSelected : Bool)
    (hblock : Json.Fields.get? "_additional" raw = some (.object block))
    (hkeys : (Json.Fields.keys block).Nodup)
    (hvalue : Json.Fields.get? x.backendName block = some value) :
    (ofFields raw customSelected).metaAttribute? x.logicalName = some value := by
  have hmeta : metaBlock raw = block := by rw [metaBlock, hblock]
  have hrenamed := renamed_foldl MetaAttribute.all hkeys
  rw [metaAttribute?, metaAttributes_ofFields, hmeta,
    hrenamed.logical x (MetaAttribute.mem_all x), hvalue, Option.some_or]

/-- The times of an object, each with the name under which the backend sends it. -/
inductive Stamp : String → (StoredObject → Option Instant) → Prop
  | created : Stamp "creationTimeUnix" createdAt?
  | updated : Stamp "lastUpdateTimeUnix" updatedAt?

theorem Stamp.exists_eq {field : String} {time : StoredObject → Option Instant} (h : Stamp field time) :
    ∃ x : MetaAttribute, x.backendName = field ∧ time = fun object => object.instant? x := by
  cases h with
  | created => exact ⟨.createdAt, rfl, rfl⟩
  | updated => exact ⟨.updatedAt, rfl, rfl⟩

/-- **A condition that binds an object's time compares with the integer that the backend has sent.**
A time that is sent as an integer in the years of the calendar, be it a number or a text, is reported;
any other integer, and any value that holds none, is not. -/
theorem instant?_compared {raw block : Json.Fields} (customSelected : Bool) {field : String}
    {time : StoredObject → Option Instant} (htime : Stamp field time)
    (hblock : Json.Fields.get? "_additional" raw = some (.object block))
    (hkeys : (Json.Fields.keys block).Nodup)
    (hvalue : Json.Fields.get? field block = some value) :
    let object := ofFields raw customSelected
    (∀ m, Holds value m → Instant.Covers m → ∃ instant, time object = some instant
        ∧ ∀ name path, Clause.timestampPath? name = some path → ∀ symbol (operator : Operator),
          operator.HasSymbol symbol → ∀ clause,
            Clause.Single name symbol (.instant instant) clause →
              clause.condition = .ok (.comparison path operator (.text (toString m))))
    ∧ (∀ m, Holds value m → ¬ Instant.Covers m → time object = none)
    ∧ ((∀ m, ¬ Holds value m) → time object = none) := by
  intro object
  obtain ⟨x, rfl, rfl⟩ := htime.exists_eq
  have hread : ∀ instant, object.instant? x = some instant
      ↔ ∃ m, Holds value m ∧ Instant.ofEpochMillis? m = some instant := fun _ =>
    instant?_eq_some_iff (metaAttribute?_logicalName customSelected hblock hkeys hvalue)
  refine ⟨fun m hm hcovers => ?_, fun m hm hcovers => ?_, fun hnone => ?_⟩
  · obtain ⟨instant, hinstant⟩ := Instant.exists_ofEpochMillis? hcovers
    refine ⟨instant, (hread instant).2 ⟨m, hm, hinstant⟩, ?_⟩
    intro name path hpath symbol operator hsymbol clause hsingle
    have hmillis : (Operand.instant instant).epochMillis = .ok m :=
      congrArg Except.ok (Instant.epochMillis_of_ofEpochMillis? hinstant)
    exact hsingle.condition_timestamp hpath hsymbol (Operand.epochMillis_eq_ok_iff.1 hmillis)
  · refine Option.eq_none_iff_forall_ne_some.2 fun instant h => ?_
    obtain ⟨n, hn, hinstant⟩ := (hread instant).1 h
    rw [← hm.unique hn, Instant.ofEpochMillis?_eq_none hcovers] at hinstant
    cases hinstant
  · refine Option.eq_none_iff_forall_ne_some.2 fun instant h => ?_
    obtain ⟨m, hm, -⟩ := (hread instant).1 h
    exact hnone m hm

/-- An object that was created in the last millisecond of the calendar, and changed in the one before
the first. -/
def limits : Json.Fields :=
  [("title", .text "Dune"),
    ("_additional", .object [("lastUpdateTimeUnix", .int (-8334601228800001)),
      ("creationTimeUnix", .text "+0008210266876799999")])]

/-- The sign and the zeros before the number are gone, and the other time is not reported. -/
theorem instant?_compared_limits :
    (∃ instant, (ofFields limits false).createdAt? = some instant
      ∧ Clause.condition { named := [("updated_at", .instant instant)] }
        = .ok (.comparison "_lastUpdateTimeUnix" .equal (.text "8210266876799999")))
    ∧ (ofFields limits false).updatedAt? = none := by
  have hblock : Json.Fields.get? "_additional" limits = some (.object _) := rfl
  obtain ⟨hcompared, -, -⟩ := instant?_compared false .created hblock (by decide) rfl
  obtain ⟨-, hnone, -⟩ := instant?_compared false .updated hblock (by decide) rfl
  have htext : Numeral.Spells "+0008210266876799999".toList 8210266876799999 :=
    .plus 3 8210266876799999
  have hlast : Instant.Covers 8210266876799999 := by decide
  obtain ⟨instant, hinstant, hcondition⟩ := hcompared _ (.text htext) hlast
  have hpath : Clause.timestampPath? "updated_at" = some "_lastUpdateTimeUnix" := by decide
  have hliteral : "8210266876799999" = toString (8210266876799999 : ℤ) := by decide
  refine ⟨⟨instant, hinstant, ?_⟩, hnone _ (.number _) (by decide)⟩
  rw [hliteral]
  exact hcondition _ _ hpath "=" .equal .equal _ (.equal (List.forall_mem_nil _) nofun rfl)

end StoredObject

end VectorQuery
