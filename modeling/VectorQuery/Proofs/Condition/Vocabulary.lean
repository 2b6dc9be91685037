import Mathlib
import VectorQuery.Condition.Clause
import VectorQuery.Proofs.Outcome

/-!
# The vocabulary of clauses

The words and values that clauses are made of, each listed on its own, and beside each list that the
code reads exactly what is listed.

* `Connective.IsWord` — the words of a connective; `Connective.ofWord?_eq_some_iff`,
  `Connective.ofWord?_eq_none_iff`;
* `Operator.HasSymbol` — the symbols of an operator; `Operator.ofSymbol?_eq_some_iff`;
* `Operand.HasMillis` — the values that are points in time; `Operand.epochMillis_eq_ok_iff`;
* `Comparand.IsLiteral` — the values that are compared with by their type;
  `Comparand.ofOperand_eq_ok_iff`;
* `Numeral.ofInt_eq_toString` — the numeral of an integer.
-/

namespace VectorQuery

open Outcome

/-! ### Connectives -/

namespace Text

theorem toNat_toLower (c : Char) :
    c.toLower.toNat = if 65 ≤ c.toNat ∧ c.toNat ≤ 90 then c.toNat + 32 else c.toNat := by
  have hupper : c.val ≥ 'A'.val ∧ c.val ≤ 'Z'.val ↔ 65 ≤ c.toNat ∧ c.toNat ≤ 90 := by
    simp only [ge_iff_le, UInt32.le_iff_toNat_le]
    rfl
  rw [Char.toLower]
  by_cases h : c.val ≥ 'A'.val ∧ c.val ≤ 'Z'.val
  · rw [dif_pos h, if_pos (hupper.1 h)]
    have hle : c.val.toNat ≤ 90 := (hupper.1 h).2
    have hstep : (32 : UInt32).toNat = 32 := rfl
    show (c.val + 32).toNat = c.val.toNat + 32
    rw [UInt32.toNat_add]
    omega
  · rw [dif_neg h, if_neg (mt hupper.2 h)]

/-- A letter is made small from two. -/
theorem toLower_eq_iff {lower upper : Char} (hlower : lower.isLower = true)
    (hupper : upper.toNat + 32 = lower.toNat) (c : Char) :
    c.toLower = lower ↔ c = lower ∨ c = upper := by
  have hrange : 97 ≤ lower.toNat ∧ lower.toNat ≤ 122 := by
    simpa [Char.isLower, UInt32.le_iff_toNat_le] using hlower
  rw [← Char.toNat_inj, ← Char.toNat_inj, ← Char.toNat_inj, toNat_toLower]
  split <;> omega

/-- A text in letters of either case. -/
theorem forall₂_letters {letters : List (Char × Char)}
    (h : ∀ letter ∈ letters, letter.1.isLower = true ∧ letter.2.toNat + 32 = letter.1.toNat)
    {cs : List Char} :
    List.Forall₂ (fun c letter => c = letter.1 ∨ c = letter.2) cs letters
      ↔ cs.map Char.toLower = letters.map (·.1) := by
  induction letters generalizing cs with
  | nil => simp
  | cons letter letters ih =>
    rw [List.forall_mem_cons] at h
    rw [List.forall₂_cons_right_iff, List.map_cons, List.map_eq_cons_iff]
    simp only [ih h.2, toLower_eq_iff h.1.1 h.1.2]
    constructor
    · rintro ⟨c, rest, hc, hrest, rfl⟩
      exact ⟨c, rest, rfl, hc, hrest⟩
    · rintro ⟨c, rest, rfl, hc, hrest⟩
      exact ⟨c, rest, hc, hrest, rfl⟩

end Text

namespace Connective

/-- The letters of a connective, each of them small and capital. -/
def letters : Connective → List (Char × Char)
  | .and => [('a', 'A'), ('n', 'N'), ('d', 'D')]
  | .or => [('o', 'O'), ('r', 'R')]

/-- A word of a connective: its letters in their order, each of them small or capital. -/
def IsWord (connective : Connective) (word : String) : Prop :=
  List.Forall₂ (fun c letter => c = letter.1 ∨ c = letter.2) word.toList connective.letters

theorem isWord_iff {connective : Connective} {word : String} :
    connective.IsWord word ↔ word.toList.map Char.toLower = connective.letters.map (·.1) := by
  refine Text.forall₂_letters ?_
  cases connective <;> decide

/-- **The words that are read as a connective are its words.** -/
theorem ofWord?_eq_some_iff {word : String} {connective : Connective} :
    ofWord? word = some connective ↔ connective.IsWord word := by
  simp only [ofWord?]
  rw [isWord_iff]
  cases connective with
  | and =>
    split
    · simp [*, letters]
    · split <;> simp [*, letters]
  | or =>
    split
    · simp [*, letters]
    · split <;> simp [*, letters]

theorem ofWord?_eq_none_iff {word : String} :
    ofWord? word = none ↔ ∀ connective : Connective, ¬ connective.IsWord word := by
  simp only [← ofWord?_eq_some_iff, Option.eq_none_iff_forall_ne_some, ne_eq]

end Connective

/-! ### Operators -/

namespace Operator

/-- The symbols of an operator. -/
inductive HasSymbol : Operator → String → Prop
  | equal : HasSymbol .equal "="
  | equalTwice : HasSymbol .equal "=="
  | notEqual : HasSymbol .notEqual "!="
  | greaterThan : HasSymbol .greaterThan ">"
  | lessThan : HasSymbol .lessThan "<"
  | greaterThanEqual : HasSymbol .greaterThanEqual ">="
  | lessThanEqual : HasSymbol .lessThanEqual "<="
  | like : HasSymbol .like "LIKE"
  | containsAny : HasSymbol .containsAny "CONTAINS_ANY"
  | containsAll : HasSymbol .containsAll "CONTAINS_ALL"

/-- **The operator of a symbol is the one that has it.** -/
theorem ofSymbol?_eq_some_iff {symbol : String} {operator : Operator} :
    ofSymbol? symbol = some operator ↔ operator.HasSymbol symbol := by
  constructor
  · intro h
    have hall : ∀ pair ∈ symbols, pair.2.HasSymbol pair.1 := by
      simp only [symbols, List.forall_mem_cons]
      exact ⟨.equal, .equalTwice, .notEqual, .greaterThan, .lessThan, .greaterThanEqual,
        .lessThanEqual, .like, .containsAny, .containsAll, List.forall_mem_nil _⟩
    obtain ⟨before, after, hsplit, -⟩ := List.lookup_eq_some_iff.1 h
    exact hall (symbol, operator) (hsplit ▸ List.mem_append_cons_self)
  · intro h
    cases h <;> rfl

end Operator

/-! ### Values -/

namespace Operand

/-- The milliseconds of a value that is a point in time: an instant, the start of a date, a text of
either, or a number of milliseconds. -/
inductive HasMillis : Operand → ℤ → Prop
  | instant (value : Instant) : HasMillis (.instant value) value.epochMillis
  | date (value : Date) : HasMillis (.date value) value.epochMillis
  | text {value : String} {millis : ℤ} (h : Calendar.epochMillis? value = some millis) :
      HasMillis (.text value) millis
  | integer (value : Int64) : HasMillis (.integer value) value.toInt

theorem epochMillis_eq_ok_iff {value : Operand} {millis : ℤ} :
    value.epochMillis = .ok millis ↔ value.HasMillis millis := by
  constructor
  · intro h
    cases value with
    | instant value =>
      cases h
      exact .instant value
    | date value =>
      cases h
      exact .date value
    | integer value =>
      cases h
      exact .integer value
    | text value =>
      rw [epochMillis] at h
      split at h
      · rename_i hmillis
        cases h
        exact .text hmillis
      · cases h
    | _ => cases h
  · intro h
    cases h with
    | text h => rw [epochMillis, h]
    | _ => rfl

theorem HasMillis.ne_null {value : Operand} {millis : ℤ} (h : value.HasMillis millis) :
    value ≠ .null := by
  cases h <;> exact nofun

end Operand

namespace Comparand

/-- The values that are compared with by their type; of the lists, those that hold texts only. -/
inductive IsLiteral : Comparand → Operand → Prop
  | integer (value : Int64) : IsLiteral (.integer value) (.integer value)
  | number (negative : Bool) (size : Magnitude .double) :
      IsLiteral (.number (.finite negative size)) (.float (.finite negative size))
  | text (value : String) : IsLiteral (.text value) (.text value)
  | texts (values : List String) : IsLiteral (.texts values) (.list (values.map .text))
  | boolean (value : Bool) : IsLiteral (.boolean value) (.boolean value)

theorem mapM_itemText_eq_ok_iff {items : List Operand} {texts : List String} :
    items.mapM itemText = .ok texts ↔ items = texts.map .text := by
  have hitem : ∀ item text, itemText item = .ok text ↔ item = .text text := by
    intro item text
    cases item <;> simp [itemText]
  simp only [mapM_eq_ok_iff, hitem]
  rw [← List.forall₂_eq_eq_eq, List.forall₂_map_right_iff]

theorem ofOperand_eq_ok_iff {value : Operand} {comparand : Comparand} :
    ofOperand value = .ok comparand ↔ comparand.IsLiteral value := by
  constructor
  · intro h
    cases value with
    | integer value =>
      cases h
      exact .integer value
    | float value =>
      cases value with
      | finite negative size =>
        cases h
        exact .number negative size
      | _ => cases h
    | boolean value =>
      cases h
      exact .boolean value
    | text value =>
      cases h
      exact .text value
    | list items =>
      obtain ⟨texts, htexts, rfl⟩ := map_eq_ok_iff.1 h
      rw [mapM_itemText_eq_ok_iff.1 htexts]
      exact .texts texts
    | _ => cases h
  · intro h
    cases h with
    | texts values => exact map_eq_ok_iff.2 ⟨values, mapM_itemText_eq_ok_iff.2 rfl, rfl⟩
    | _ => rfl

theorem IsLiteral.ne_null {comparand : Comparand} {value : Operand} (h : comparand.IsLiteral value) :
    value ≠ .null := by
  cases h <;> exact nofun

end Comparand

/-- The numeral of an integer. -/
theorem Numeral.ofInt_eq_toString (n : ℤ) : Numeral.ofInt n = toString n := by
  cases n with
  | ofNat n => rfl
  | negSucc n =>
    rw [Numeral.ofInt, if_pos (Int.negSucc_lt_zero n)]
    rfl

end VectorQuery
