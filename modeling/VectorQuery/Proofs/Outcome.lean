import Mathlib
import VectorQuery.Fault

/-!
# Computations that may fail

A computation gives a result iff each of its steps does.  The lemmas open a computation one step at
a time.

* `bind_eq_ok_iff`, `map_eq_ok_iff` — a step and what follows it;
* `mapM_eq_ok_iff`, `mapM_eq_ok_iff_map`, `mapM_of_isOk` — the same step for every item of a list;
* `bind_eq_error_iff`, `mapM_eq_error_iff` — a computation fails with its first fault;
* `mapM_eq_some_iff` — the same step for every item where a failure has no cause;
* `isSome_toOption` — whether there is a result.
-/

namespace VectorQuery.Outcome

variable {α β : Type}

theorem bind_eq_ok_iff {x : Except Fault α} {f : α → Except Fault β} {b : β} :
    x >>= f = .ok b ↔ ∃ a, x = .ok a ∧ f a = .ok b := by
  constructor
  · intro h
    cases x with
    | error fault => cases h
    | ok a => exact ⟨a, rfl, h⟩
  · intro h
    obtain ⟨a, rfl, hf⟩ := h
    exact hf

theorem map_eq_ok_iff {x : Except Fault α} {f : α → β} {b : β} :
    x.map f = .ok b ↔ ∃ a, x = .ok a ∧ f a = b := by
  constructor
  · intro h
    cases x with
    | error fault => cases h
    | ok a => exact ⟨a, rfl, Except.ok.inj h⟩
  · intro h
    obtain ⟨a, rfl, rfl⟩ := h
    rfl

/-- A list of steps gives a list of results iff each step gives its own. -/
theorem mapM_eq_ok_iff {f : α → Except Fault β} {xs : List α} {ys : List β} :
    xs.mapM f = .ok ys ↔ List.Forall₂ (fun x y => f x = .ok y) xs ys := by
  induction xs generalizing ys with
  | nil =>
    rw [List.mapM_nil, List.forall₂_nil_left_iff]
    exact ⟨fun h => (Except.ok.inj h).symm, fun h => congrArg _ h.symm⟩
  | cons x xs ih =>
    rw [List.mapM_cons, bind_eq_ok_iff, List.forall₂_cons_left_iff]
    constructor
    · intro h
      obtain ⟨y, hy, hrest⟩ := h
      obtain ⟨zs, hzs, hsame⟩ := bind_eq_ok_iff.1 hrest
      cases hsame
      exact ⟨y, zs, hy, ih.1 hzs, rfl⟩
    · intro h
      obtain ⟨y, zs, hy, hzs, rfl⟩ := h
      exact ⟨y, hy, bind_eq_ok_iff.2 ⟨zs, ih.2 hzs, rfl⟩⟩

/-- A list of steps, each of which gives a known result under a condition. -/
theorem mapM_eq_ok_iff_map {f : α → Except Fault β} {p : α → Prop} {g : α → β}
    (h : ∀ x y, f x = .ok y ↔ p x ∧ y = g x) {xs : List α} {ys : List β} :
    xs.mapM f = .ok ys ↔ (∀ x ∈ xs, p x) ∧ ys = xs.map g := by
  have hmap : List.Forall₂ (fun x y => y = g x) xs ys ↔ ys = xs.map g := by
    rw [eq_comm, ← List.forall₂_eq_eq_eq, List.forall₂_map_left_iff]
    simp only [eq_comm]
  rw [mapM_eq_ok_iff]
  simp only [h]
  rw [List.forall₂_and_left, hmap]

/-- A list of steps that fail without a cause gives a list of results iff each step gives its own. -/
theorem mapM_eq_some_iff {f : α → Option β} {xs : List α} {ys : List β} :
    xs.mapM f = some ys ↔ List.Forall₂ (fun x y => f x = some y) xs ys := by
  induction xs generalizing ys with
  | nil => simp [eq_comm]
  | cons x xs ih =>
    simp only [List.mapM_cons, Option.bind_eq_bind, Option.bind_eq_some_iff, Option.pure_def,
      Option.some.injEq, List.forall₂_cons_left_iff, ih]
    constructor
    · intro h
      obtain ⟨y, hy, ys, hys, rfl⟩ := h
      exact ⟨y, ys, hy, hys, rfl⟩
    · intro h
      obtain ⟨y, ys, hy, hys, rfl⟩ := h
      exact ⟨y, hy, ys, hys, rfl⟩

theorem isSome_toOption (x : Except Fault α) : x.toOption.isSome = x.isOk := by
  cases x <;> rfl

/-- If no step fails, a list of steps gives the list of what they give. -/
theorem mapM_of_isOk {f : α → Except Fault β} {xs : List α} (h : ∀ x ∈ xs, (f x).isOk = true) :
    xs.mapM f = .ok (xs.filterMap fun x => (f x).toOption) := by
  induction xs with
  | nil => rfl
  | cons x xs ih =>
    rw [List.forall_mem_cons] at h
    cases hx : f x with
    | error fault =>
      rw [hx] at h
      cases h.1
    | ok y =>
      rw [List.mapM_cons, hx, ih h.2, List.filterMap_cons, hx]
      rfl

/-! ### Faults -/

/-- A step and what follows it fail with the fault of the step, or of what follows. -/
theorem bind_eq_error_iff {x : Except Fault α} {f : α → Except Fault β} {fault : Fault} :
    x >>= f = .error fault ↔ x = .error fault ∨ ∃ a, x = .ok a ∧ f a = .error fault := by
  cases x with
  | error found =>
    show Except.error found = Except.error fault ↔ _
    simp
  | ok a =>
    show f a = .error fault ↔ _
    simp

/-- **A list of steps fails with the fault of the first step that fails.** -/
theorem mapM_eq_error_iff {f : α → Except Fault β} {xs : List α} {fault : Fault} :
    xs.mapM f = .error fault
      ↔ ∃ before x after, xs = before ++ x :: after ∧ (∀ y ∈ before, ∃ b, f y = .ok b)
        ∧ f x = .error fault := by
  induction xs with
  | nil =>
    rw [List.mapM_nil]
    constructor
    · intro h
      cases h
    · rintro ⟨before, x, after, hsplit, -, -⟩
      exact absurd hsplit.symm (by simp)
  | cons x xs ih =>
    rw [List.mapM_cons, bind_eq_error_iff]
    constructor
    · rintro (hfirst | ⟨a, hfirst, hrest⟩)
      · exact ⟨[], x, xs, rfl, List.forall_mem_nil _, hfirst⟩
      · rcases bind_eq_error_iff.1 hrest with hmore | ⟨_, _, hdone⟩
        · obtain ⟨before, y, after, rfl, hbefore, hfault⟩ := ih.1 hmore
          exact ⟨x :: before, y, after, rfl, List.forall_mem_cons.2 ⟨⟨a, hfirst⟩, hbefore⟩, hfault⟩
        · cases hdone
    · rintro ⟨before, y, after, hsplit, hbefore, hfault⟩
      cases before with
      | nil =>
        obtain ⟨rfl, rfl⟩ := List.cons.inj hsplit
        exact Or.inl hfault
      | cons z before =>
        obtain ⟨rfl, rfl⟩ := List.cons.inj hsplit
        obtain ⟨⟨a, hfirst⟩, hbefore⟩ := List.forall_mem_cons.1 hbefore
        have hmore := ih.2 ⟨before, y, after, rfl, hbefore, hfault⟩
        exact Or.inr ⟨a, hfirst, bind_eq_error_iff.2 (Or.inl hmore)⟩

end VectorQuery.Outcome
