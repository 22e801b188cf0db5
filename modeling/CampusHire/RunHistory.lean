import CampusHire.Schedule
import Mathlib.Data.List.Induction

/-!
# Assertions about the past of a run

What a thread knows at its next step may be about a configuration that is over: an answer
that it has received was right when it was given.  A `PastAnnotation` is an annotation
whose assertions may speak of the configurations that the run has visited.  They must stay
true as more are visited (`inv_mono`, `own_mono`); a step may use that the configuration
it starts in has been visited.
-/

namespace Schedule

variable {σ τ ε ι : Type*}

section Visited

variable [DecidableEq ι] (P : Program σ τ ε)

/-- A configuration that the run has been in. -/
def Visited (c : Config σ τ ι) (schedule : List (ι × ε)) (visited : Config σ τ ι) : Prop :=
  ∃ first second, schedule = first ++ second ∧ run P c first = visited

theorem visited_run (c : Config σ τ ι) (schedule : List (ι × ε)) :
    Visited P c schedule (run P c schedule) :=
  ⟨schedule, [], (List.append_nil schedule).symm, rfl⟩

theorem Visited.append {c visited : Config σ τ ι} {schedule : List (ι × ε)}
    (h : Visited P c schedule visited) (rest : List (ι × ε)) :
    Visited P c (schedule ++ rest) visited := by
  obtain ⟨first, second, rfl, hrun⟩ := h
  exact ⟨first, second ++ rest, List.append_assoc .., hrun⟩

end Visited

/-- An annotation whose assertions may speak of the configurations visited so far. -/
structure PastAnnotation (P : Program σ τ ε) (ι : Type*) where
  inv : (Config σ τ ι → Prop) → σ → Prop
  own : (Config σ τ ι → Prop) → ι → σ → τ → Prop
  inv_mono : ∀ {past past' s}, (∀ c, past c → past' c) → inv past s → inv past' s
  own_mono : ∀ {past past' i s t}, (∀ c, past c → past' c) → own past i s t → own past' i s t
  step_inv : ∀ past c i e, past c → inv past c.store → own past i c.store (c.task i) →
    inv past (P.step e c.store (c.task i)).1
  step_own : ∀ past c i e, past c → inv past c.store → own past i c.store (c.task i) →
    own past i (P.step e c.store (c.task i)).1 (P.step e c.store (c.task i)).2
  stable : ∀ past c i j e, past c → inv past c.store → own past i c.store (c.task i) → j ≠ i →
    own past j c.store (c.task j) → own past j (P.step e c.store (c.task i)).1 (c.task j)

namespace PastAnnotation

variable {P : Program σ τ ε} (A : PastAnnotation P ι)

structure Holds (past : Config σ τ ι → Prop) (c : Config σ τ ι) : Prop where
  inv : A.inv past c.store
  own : ∀ i, A.own past i c.store (c.task i)

theorem Holds.mono {past past' : Config σ τ ι → Prop} {c : Config σ τ ι}
    (hpast : ∀ c, past c → past' c) (h : A.Holds past c) : A.Holds past' c :=
  ⟨A.inv_mono hpast h.inv, fun i => A.own_mono hpast (h.own i)⟩

variable [DecidableEq ι]

theorem holds_fire {past : Config σ τ ι → Prop} {c : Config σ τ ι} {i : ι} (e : ε) (hpast : past c)
    (h : A.Holds past c) : A.Holds past (fire P c i e) := by
  refine ⟨A.step_inv past c i e hpast h.inv (h.own i), ?_⟩
  intro j
  by_cases hne : j = i
  · subst hne
    rw [fire_task_same, fire_store]
    exact A.step_own past c j e hpast h.inv (h.own j)
  · rw [fire_task_other P c e hne, fire_store]
    exact A.stable past c i j e hpast h.inv (h.own i) hne (h.own j)

/-- **History rule.**  What holds when only the start has been visited holds along every
    run, of all that the run has visited. -/
theorem holds_run {c : Config σ τ ι} (h : A.Holds (Visited P c []) c) (schedule : List (ι × ε)) :
    A.Holds (Visited P c schedule) (run P c schedule) := by
  induction schedule using List.reverseRecOn with
  | nil => exact h
  | append_singleton schedule choice ih =>
    obtain ⟨i, e⟩ := choice
    have hnext : A.Holds (Visited P c schedule) (advance P (run P c schedule) (i, e)) := by
      by_cases hr : ready P (run P c schedule) i = true
      · rw [advance_of_ready P e hr]
        exact A.holds_fire e (visited_run P c schedule) ih
      · rw [advance_of_not_ready P e (Bool.not_eq_true _ ▸ hr)]
        exact ih
    rw [run_append, run_cons, run_nil]
    exact hnext.mono A fun c' hc' => hc'.append P [(i, e)]

end PastAnnotation

end Schedule
