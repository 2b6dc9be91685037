import Mathlib
import VectorQuery.Proofs.Binary64.Forms
import VectorQuery.Proofs.Json.NumberText
import VectorQuery.Proofs.Wire.Denotation

/-!
# Floats of the query grammar read back

A float is written in one of three forms, and each of them must stay a number of the grammar of
documents, keep a mark that tells it from an integer, and keep its value.

* `marked_wireFloat` — a point or an exponent is written in every form;
* `ofText?_wireFloat` — the reader of documents gives the float back;
* `wireFloat_reads_back` — **every finite float is written as a number text from which it is read
  back**.
-/

namespace VectorQuery.Wire

open Json

/-- A point or an exponent tells a written float from an integer. -/
theorem marked_wireFloat (negative : Bool) (size : Magnitude .double) :
    '.' ∈ (wireFloat.write (.finite negative size)).toList
    ∨ 'e' ∈ (wireFloat.write (.finite negative size)).toList := by
  rw [wireFloat_finite]
  rcases wireFloat_decimal (Decimal.shortest .up size) with hlayout | hlayout
  · obtain ⟨whole, fraction, htext, -⟩ := positional_pointed _ (@shortest_exponent .up size)
    rw [hlayout, htext]
    exact Or.inl (by simp)
  · rw [hlayout, scientific_toList]
    exact Or.inr (by simp)

/-- The reader of documents gives a float back. -/
theorem ofText?_wireFloat {x : Binary64} (hx : x.isFinite = true) :
    ofText? (wireFloat.write x) = some (.float x) := by
  let phrase : Phrase readValue := .number _ (.float x) (signed_wireFloat hx) fun _ hrest =>
    readNumber_wireFloat hx hrest
  exact (ofChars?_spelling phrase.toSpelling maxDepth).trans (if_pos (Nat.zero_le _))

/-- **A float of the query grammar reads back.**  Every finite number, subnormal or not, with either
sign of zero, is written in the form that its value calls for.  The text is a number of the grammar of
documents with a point or an exponent in it, and both the reader of documents and the reader of wire
text take it for the same float, with the sign of a zero. -/
theorem wireFloat_reads_back (negative : Bool) (size : Magnitude .double) :
    let x : Binary64 := .finite negative size
    let text := wireFloat.write x
    Form negative size text
    ∧ NumberText text.toList ∧ ('.' ∈ text.toList ∨ 'e' ∈ text.toList)
    ∧ ofText? text = some (.float x) ∧ document? text = .ok (.float x) := by
  intro x text
  have hx : x.isFinite = true := rfl
  have hread : readNumber (text.toList ++ []) = some (.float x, []) :=
    readNumber_wireFloat hx Text.stopsAt_nil
  obtain ⟨number, hnumber, htext⟩ := numberText_of_readNumber hread
  rw [List.append_nil, List.append_nil] at hnumber
  exact ⟨form_wireFloat negative size, hnumber ▸ htext, marked_wireFloat negative size,
    ofText?_wireFloat hx, (denotes_float 0 hx).document? (Nat.zero_le _)⟩

/-- At `10 ^ 16` an exponent is written. -/
example : wireFloat.write (.finite true ⟨5000000000000000, 1, by decide⟩) = "-1e16" := by
  decide +kernel

end VectorQuery.Wire
