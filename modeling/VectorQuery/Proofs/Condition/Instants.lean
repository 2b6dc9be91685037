import Mathlib
import VectorQuery.Proofs.Calendar.Written
import VectorQuery.Proofs.Condition.Single

/-!
# Spellings of a point in time

The start of a date is bound as the date, as an instant, as the text of either or as a number of
milliseconds; any other second is bound as the text of a timestamp.

* `Operand.midnights` — the operands that stand for the start of a date;
* `Operand.epochMillis_of_mem_midnights`, `Operand.epochMillis_timestamp` — the milliseconds of the
  start of a date and of a timestamp;
* `Clause.condition_of_spelling` — **a clause that binds a point in time compares with its
  milliseconds, however it is spelt**.
-/

namespace VectorQuery

open Text

namespace Date

theorem epochMillis_eq (date : Date) : date.epochMillis = 86400000 * date.dayNumber :=
  Int.mul_comm _ _

end Date

namespace Timestamp

/-- The start of a date in UTC. -/
def midnight (date : Date) : Timestamp := ⟨date, ⟨0, 0, 0, by decide⟩, .utc⟩

theorem millis_midnight (date : Date) : (midnight date).millis = date.epochMillis := by
  simp only [midnight, millis, localMillis, ClockTime.seconds, Zone.seconds]
  omega

end Timestamp

namespace Operand

/-- The operands that stand for the start of a date: the date, its start as an instant, the text of
either, and the milliseconds. -/
def midnights (date : Date) : List Operand :=
  [.date date, .instant date.midnight, .text (String.ofList date.chars),
    .text (String.ofList (Timestamp.midnight date).chars), .integer (Int64.ofInt date.epochMillis)]

theorem epochMillis_of_text {text : String} {millis : ℤ}
    (h : Calendar.epochMillis? text = some millis) : epochMillis (.text text) = .ok millis := by
  rw [epochMillis, h]

theorem epochMillis_timestamp {stamp : Timestamp} (hdate : stamp.date.Writable) :
    epochMillis (.text (String.ofList stamp.chars)) = .ok stamp.millis :=
  epochMillis_of_text (Calendar.epochMillis?_timestamp hdate)

/-- All of them have the same milliseconds. -/
theorem epochMillis_of_mem_midnights {date : Date} (hdate : date.Writable) {value : Operand}
    (h : value ∈ midnights date) : value.epochMillis = .ok date.epochMillis := by
  simp only [midnights, List.mem_cons, List.not_mem_nil, or_false] at h
  rcases h with rfl | rfl | rfl | rfl | rfl
  · rfl
  · exact congrArg Except.ok date.epochMillis_midnight
  · exact epochMillis_of_text (Calendar.epochMillis?_date hdate)
  · rw [epochMillis_timestamp hdate, Timestamp.millis_midnight]
  · obtain ⟨hlow, hhigh⟩ := date.epochMillis_mem
    exact congrArg Except.ok (Int64.toInt_ofInt_of_le hlow (Int.lt_add_one_of_le hhigh))

end Operand

namespace Clause

/-- **A clause that binds a point in time compares with its milliseconds, however it is spelt.**  To
the start of a date they count the days from 1970-01-01, of which a later date has more; for a
timestamp they are those of its local time less those of its offset. -/
theorem condition_of_spelling {name path symbol : String} (hpath : timestampPath? name = some path)
    {operator : Operator} (hsymbol : operator.HasSymbol symbol) {date : Date}
    (hdate : date.Writable) :
    (∀ days, Date.DaysFrom Date.epoch date days ↔ days = date.dayNumber)
    ∧ (∀ later : Date, date.Before later → date.dayNumber < later.dayNumber)
    ∧ (∀ value ∈ Operand.midnights date, ∀ clause, Single name symbol value clause →
        clause.condition = .ok (.comparison path operator
          (.text (toString (86400000 * date.dayNumber)))))
    ∧ ∀ (time : ClockTime) (zone : Zone) (clause : Clause),
        Single name symbol (.text (String.ofList (Timestamp.chars ⟨date, time, zone⟩))) clause →
        clause.condition = .ok (.comparison path operator (.text (toString
          (86400000 * date.dayNumber + time.seconds * 1000 - zone.seconds * 1000)))) := by
  refine ⟨fun _ => Date.daysFrom_epoch_iff, fun _ => Date.dayNumber_lt,
    fun value hvalue clause h => ?_, fun time zone clause h => ?_⟩
  · have hmillis := Operand.epochMillis_of_mem_midnights hdate hvalue
    rw [Date.epochMillis_eq] at hmillis
    exact h.condition_timestamp hpath hsymbol (Operand.epochMillis_eq_ok_iff.1 hmillis)
  · have hmillis := @Operand.epochMillis_timestamp ⟨date, time, zone⟩ hdate
    rw [Timestamp.millis, Timestamp.localMillis, Date.epochMillis_eq] at hmillis
    exact h.condition_timestamp hpath hsymbol (Operand.epochMillis_eq_ok_iff.1 hmillis)

/-- The first date of the year 0, and a time on it that falls in the year before in UTC. -/
theorem condition_of_spelling_year_zero :
    let date : Date := ⟨0, 1, 1, by decide⟩
    timestampPath? "created_at" = some "_creationTimeUnix"
    ∧ Operator.lessThanEqual.HasSymbol "<="
    ∧ date.Writable
    ∧ Date.DaysFrom Date.epoch date (-719528)
    ∧ (∀ value ∈ Operand.midnights date,
        Clause.condition { text := "created_at <= ?", values := [value] }
          = .ok (.comparison "_creationTimeUnix" .lessThanEqual (.text "-62167219200000")))
    ∧ Clause.condition
        { text := "created_at <= ?", values := [.text "0000-01-01T00:30:00+23:59"] }
          = .ok (.comparison "_creationTimeUnix" .lessThanEqual (.text "-62167303740000")) := by
  intro date
  have hyear : date.Writable := by decide
  have hpath : timestampPath? "created_at" = some "_creationTimeUnix" := by decide
  have hwords : Parted "created_at <= ?".toList (["created_at", "<=", "?"].map String.toList) :=
    words_eq_iff.1 (by decide)
  have hstart : "-62167219200000" = toString (86400000 * date.dayNumber) := by decide
  let time : ClockTime := ⟨0, 30, 0, by decide⟩
  let zone : Zone := .ahead 23 59 (by decide)
  have hbefore : "-62167303740000" = toString
      (86400000 * date.dayNumber + time.seconds * 1000 - zone.seconds * 1000) := by decide
  have hstamp : "0000-01-01T00:30:00+23:59"
      = String.ofList (Timestamp.chars ⟨date, time, zone⟩) := by decide
  obtain ⟨hdays, -, hmidnights, hstamps⟩ := condition_of_spelling hpath .lessThanEqual hyear
  refine ⟨hpath, .lessThanEqual, hyear, (hdays _).2 (by decide), ?_, ?_⟩
  · intro value hvalue
    rw [hstart]
    exact hmidnights value hvalue _ (.textual hwords)
  · rw [hbefore, hstamp]
    exact hstamps time zone _ (.textual hwords)

end Clause

end VectorQuery
