import Mathlib

/-!
# Maximal runs of characters

Readers take the longest run of characters of one kind and leave the rest.  What they take is known
as soon as the text is given as a run and a rest that does not go on with it.

* `StopsAt` — a text that does not begin with a character of the given kind;
* `takeWhile_run`, `dropWhile_run` — the longest run of `run ++ rest` is `run`;
* `run_append_inj` — a run is told from what follows it;
* `toDigits_head_ne_zero` — a positive numeral has no leading zero.
-/

namespace VectorQuery.Text

variable {p q : Char → Bool}

/-! ### Runs and what follows them -/

/-- A text that does not begin with a character of the given kind: it is empty, or begins with
another one. -/
def StopsAt (p : Char → Bool) (rest : List Char) : Prop := ∀ c ∈ rest.head?, p c = false

theorem stopsAt_nil : StopsAt p [] := by
  intro c hc
  cases hc

theorem stopsAt_cons {c : Char} {rest : List Char} : StopsAt p (c :: rest) ↔ p c = false := by
  simp [StopsAt]

theorem StopsAt.mono {rest : List Char} (h : StopsAt q rest) (hpq : ∀ c, p c = true → q c = true) :
    StopsAt p rest := by
  intro c hc
  have hq := h c hc
  cases hp : p c with
  | false => rfl
  | true => rw [hpq c hp] at hq; cases hq

theorem StopsAt.ne {rest : List Char} (h : StopsAt p rest) {c : Char} (hc : p c = true)
    (cs : List Char) :
    rest ≠ c :: cs := by
  intro heq
  subst heq
  rw [stopsAt_cons.1 h] at hc
  cases hc

/-- Characters of different kinds are different. -/
theorem ne_of_kind {c d : Char} (hc : p c = true) (hd : p d = false) : c ≠ d := by
  intro h
  rw [h, hd] at hc
  cases hc

theorem takeWhile_stop {rest : List Char} (h : StopsAt p rest) : rest.takeWhile p = [] := by
  cases rest with
  | nil => rfl
  | cons c cs => exact List.takeWhile_cons_of_neg (by rw [stopsAt_cons.1 h]; decide)

theorem dropWhile_stop {rest : List Char} (h : StopsAt p rest) : rest.dropWhile p = rest := by
  cases rest with
  | nil => rfl
  | cons c cs => exact List.dropWhile_cons_of_neg (by rw [stopsAt_cons.1 h]; decide)

/-- The longest run at the start of `run ++ rest` is `run`. -/
theorem takeWhile_run {run rest : List Char} (hrun : ∀ c ∈ run, p c = true)
    (hrest : StopsAt p rest) :
    (run ++ rest).takeWhile p = run := by
  rw [List.takeWhile_append_of_pos hrun, takeWhile_stop hrest, List.append_nil]

/-- What stands after the longest run of `run ++ rest` is `rest`. -/
theorem dropWhile_run {run rest : List Char} (hrun : ∀ c ∈ run, p c = true)
    (hrest : StopsAt p rest) :
    (run ++ rest).dropWhile p = rest := by
  rw [List.dropWhile_append_of_pos hrun, dropWhile_stop hrest]

/-- A run is told from what follows it. -/
theorem run_append_inj {run other rest tail : List Char} (hrun : ∀ c ∈ run, p c = true)
    (hother : ∀ c ∈ other, p c = true) (hrest : StopsAt p rest) (htail : StopsAt p tail)
    (h : run ++ rest = other ++ tail) :
    run = other ∧ rest = tail := by
  constructor
  · rw [← takeWhile_run hrun hrest, h, takeWhile_run hother htail]
  · rw [← dropWhile_run hrun hrest, h, dropWhile_run hother htail]

/-- What stands after a longest run does not go on with it. -/
theorem stopsAt_dropWhile (p : Char → Bool) (cs : List Char) : StopsAt p (cs.dropWhile p) := by
  intro c hc
  have h := List.head?_dropWhile_not p cs
  rw [Option.mem_def] at hc
  rw [hc] at h
  exact h

/-! ### Numerals -/

theorem isDigit_of_mem_toDigits {n : ℕ} {c : Char} (h : c ∈ Nat.toDigits 10 n) : c.isDigit = true :=
  Nat.isDigit_of_mem_toDigits (by decide) (by decide) h

/-- A positive numeral has no leading zero. -/
theorem toDigits_head_ne_zero {n : ℕ} (hn : 0 < n) : (Nat.toDigits 10 n).head? ≠ some '0' := by
  induction n using Nat.strong_induction_on with
  | _ n ih =>
    rcases Nat.lt_or_ge n 10 with hlt | hge
    · rw [Nat.toDigits_of_lt_base hlt]
      have hdigit : ∀ d < 10, 0 < d → Nat.digitChar d ≠ '0' := by decide
      simpa using hdigit n hlt hn
    · rw [Nat.toDigits_of_base_le (by decide) hge,
        List.head?_append_of_ne_nil _ Nat.toDigits_ne_nil]
      exact ih (n / 10) (by omega) (by omega)

end VectorQuery.Text
