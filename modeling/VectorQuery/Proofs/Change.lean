import Mathlib
import VectorQuery.Change

/-!
# Changes one after another

* `Change.onAll` — what changes answer one after another, and the state after them;
* `Change.succeeded` — the changes among them that have not failed;
* `Change.on_within`, `Change.isOk_check_modify` — a change of a part of a state, and a write after a
  test.
-/

namespace VectorQuery.Change

variable {σ τ α κ : Type}

/-- What changes answer one after another, each beside what it was made for, and the state after
them. -/
def onAll (change : κ → Change σ α) (state : σ) : List κ → List (κ × Except Fault α) × σ
  | [] => ([], state)
  | item :: items =>
    let (answer, next) := (change item).on state
    let (answers, last) := onAll change next items
    ((item, answer) :: answers, last)

/-- Changes in two stretches. -/
theorem onAll_append (change : κ → Change σ α) (state : σ) (items others : List κ) :
    (onAll change state (items ++ others)).2
      = (onAll change (onAll change state items).2 others).2 := by
  induction items generalizing state with
  | nil => rfl
  | cons item items ih => exact ih ((change item).on state).2

theorem on_within (part : σ → τ) (put : τ → σ → σ) (change : Change τ α) (state : σ) :
    (within part put change).on state
      = ((change.on (part state)).1, put (change.on (part state)).2 state) := by
  simp only [within, on]
  cases change (part state) <;> rfl

/-- A test before a write decides whether the change succeeds. -/
theorem isOk_check_modify (x : Except Fault α) (write : α → σ → σ) (state : σ) :
    (on (check x >>= fun a => modify (write a)) state).1.isOk = x.isOk := by
  cases x <;> rfl

/-- What changes were made for, of those that have not failed. -/
def succeeded (answers : List (κ × Except Fault α)) : List κ :=
  (answers.filter (·.2.isOk)).map (·.1)

@[simp] theorem succeeded_nil : succeeded ([] : List (κ × Except Fault α)) = [] := rfl

@[simp] theorem succeeded_ok (item : κ) (value : α) (answers : List (κ × Except Fault α)) :
    succeeded ((item, .ok value) :: answers) = item :: succeeded answers := rfl

@[simp] theorem succeeded_error (item : κ) (fault : Fault) (answers : List (κ × Except Fault α)) :
    succeeded ((item, .error fault) :: answers) = succeeded answers := rfl

end VectorQuery.Change
