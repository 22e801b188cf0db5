import Mathlib.Data.List.Basic

/-!
# Noninterference by unwinding

A machine takes items one after the other, some of which are removed.  The removed items
do not interfere with a view of the states when the view of a run is the view of the run
without them.

`Projection.view_run` is the unwinding theorem: it is enough that a removed item leaves
the view as it is, and that every other item does to the view what it does to the state.
Both may use what is known of a state with the items that are still to come.
-/

namespace Unwinding

variable {σ ι : Type*} (step : σ → ι → σ) (removed : ι → Bool)

def run (s : σ) (items : List ι) : σ := items.foldl step s

def purge (items : List ι) : List ι := items.filter fun i => !removed i

@[simp] theorem run_cons (s : σ) (i : ι) (items : List ι) :
    run step s (i :: items) = run step (step s i) items := rfl

theorem purge_cons_removed {i : ι} {items : List ι} (h : removed i = true) :
    purge removed (i :: items) = purge removed items := by
  simp [purge, h]

theorem purge_cons_kept {i : ι} {items : List ι} (h : removed i = false) :
    purge removed (i :: items) = i :: purge removed items := by
  simp [purge, h]

/-- The view is a state itself, the one that would be there without the removed items. -/
structure Projection where
  inv : σ → List ι → Prop
  view : σ → σ
  inv_step : ∀ s i rest, inv s (i :: rest) → inv (step s i) rest
  respects : ∀ s i rest, removed i = true → inv s (i :: rest) → view (step s i) = view s
  commutes : ∀ s i rest, removed i = false → inv s (i :: rest) →
    view (step s i) = step (view s) i

namespace Projection

variable {step removed} (P : Projection step removed)

theorem inv_run {s : σ} {first rest : List ι} (h : P.inv s (first ++ rest)) :
    P.inv (run step s first) rest := by
  induction first generalizing s with
  | nil => exact h
  | cons i first ih => exact ih (P.inv_step s i (first ++ rest) h)

/-- **Unwinding.** -/
theorem view_run {s : σ} {items : List ι} (h : P.inv s items) :
    P.view (run step s items) = run step (P.view s) (purge removed items) := by
  induction items generalizing s with
  | nil => rfl
  | cons i rest ih =>
    have hrest := ih (P.inv_step s i rest h)
    rw [run_cons, hrest]
    rcases hi : removed i with _ | _
    · rw [P.commutes s i rest hi h, purge_cons_kept removed hi, run_cons]
    · rw [P.respects s i rest hi h, purge_cons_removed removed hi]

end Projection

end Unwinding
