import Mathlib.Data.List.Induction

/-!
# Assertions about all states of a run

A machine takes inputs one after the other.  `Throughout` says that an assertion holds in
every state of the run, `EveryStep` that every input meets a condition in the state in
which it is taken.  When a step keeps the assertion exactly when it meets the condition,
the two say the same of every run (`throughout_iff_everyStep`).

`Took` says that the run takes some input of a kind, given the inputs before it.  What holds
at the end of a run and not at its start was brought about by such an input (`took_of_new`).
-/

namespace SerialRun

variable {σ α : Type*} (step : σ → α → σ)

def Throughout (P : σ → Prop) : σ → List α → Prop
  | s, [] => P s
  | s, a :: rest => P s ∧ Throughout P (step s a) rest

def EveryStep (G : σ → α → Prop) : σ → List α → Prop
  | _, [] => True
  | s, a :: rest => G s a ∧ EveryStep G (step s a) rest

variable {step} {P Q : σ → Prop} {G : σ → α → Prop} {s : σ} {run : List α}

theorem Throughout.first (h : Throughout step P s run) : P s := by
  cases run with
  | nil => exact h
  | cons a rest => exact h.1

theorem Throughout.mono (h : Throughout step P s run) (himp : ∀ t, P t → Q t) :
    Throughout step Q s run := by
  induction run generalizing s with
  | nil => exact himp s h
  | cons a rest ih => exact ⟨himp s h.1, ih h.2⟩

/-- What every step keeps holds throughout. -/
theorem throughout_of_step (hstep : ∀ s a, P s → P (step s a)) (h : P s) (run : List α) :
    Throughout step P s run := by
  induction run generalizing s with
  | nil => exact h
  | cons a rest ih => exact ⟨h, ih (hstep s a h)⟩

/-- What every step under the condition keeps, a run of such steps keeps. -/
theorem foldl_of_everyStep (hstep : ∀ s a, P s → G s a → P (step s a)) (h : P s)
    (hrun : EveryStep step G s run) : P (run.foldl step s) := by
  induction run generalizing s with
  | nil => exact h
  | cons a rest ih => exact ih (hstep s a h hrun.1) hrun.2

theorem Throughout.last (h : Throughout step P s run) : P (run.foldl step s) := by
  induction run generalizing s with
  | nil => exact h
  | cons a rest ih => exact ih h.2

theorem everyStep_of_forall (h : ∀ s a, G s a) : EveryStep step G s run := by
  induction run generalizing s with
  | nil => trivial
  | cons a rest ih => exact ⟨h s a, ih⟩

theorem throughout_iff_everyStep (hstep : ∀ s a, P s → (P (step s a) ↔ G s a)) (h : P s)
    (run : List α) : Throughout step P s run ↔ EveryStep step G s run := by
  induction run generalizing s with
  | nil => exact iff_of_true h trivial
  | cons a rest ih =>
    constructor
    · rintro ⟨-, hrest⟩
      have hnext := hrest.first
      exact ⟨(hstep s a h).mp hnext, (ih hnext).mp hrest⟩
    · rintro ⟨ha, hrest⟩
      have hnext := (hstep s a h).mpr ha
      exact ⟨h, (ih hnext).mpr hrest⟩

theorem EveryStep.mono (h : EveryStep step G s run) {G' : σ → α → Prop}
    (himp : ∀ t a, G t a → G' t a) : EveryStep step G' s run := by
  induction run generalizing s with
  | nil => trivial
  | cons a rest ih => exact ⟨himp s a h.1, ih h.2⟩

theorem EveryStep.and {G' : σ → α → Prop} (h : EveryStep step G s run)
    (h' : EveryStep step G' s run) : EveryStep step (fun t a => G t a ∧ G' t a) s run := by
  induction run generalizing s with
  | nil => trivial
  | cons a rest ih => exact ⟨⟨h.1, h'.1⟩, ih h.2 h'.2⟩

theorem everyStep_append {first second : List α} :
    EveryStep step G s (first ++ second) ↔
      EveryStep step G s first ∧ EveryStep step G (first.foldl step s) second := by
  induction first generalizing s with
  | nil => exact (iff_of_eq (true_and _)).symm
  | cons a rest ih =>
    simp only [List.cons_append, EveryStep, List.foldl_cons, ih]
    exact and_assoc.symm

/-! ## Where things come from -/

/-- The run takes an input that does `W` after the inputs before it. -/
def Took (W : List α → α → Prop) (run : List α) : Prop :=
  ∃ past a rest, run = past ++ a :: rest ∧ W past a

variable {W W' : List α → α → Prop}

theorem Took.append (h : Took W run) (more : List α) : Took W (run ++ more) := by
  obtain ⟨past, a, rest, rfl, hW⟩ := h
  exact ⟨past, a, rest ++ more, by simp, hW⟩

theorem Took.mono (h : Took W run) (himp : ∀ past a, W past a → W' past a) : Took W' run := by
  obtain ⟨past, a, rest, rfl, hW⟩ := h
  exact ⟨past, a, rest, rfl, himp past a hW⟩

/-- **Origin rule.**  What holds at the end of a run and not at its start was brought about by
    one of its steps.  The invariant `P`, which the steps keep under the condition `G`, may be
    used to find out which. -/
theorem took_of_new {R : σ → Prop} (hkeep : ∀ s a, P s → G s a → P (step s a))
    (hstep : ∀ past a, P (past.foldl step s) → EveryStep step G s past →
      G (past.foldl step s) a → R (step (past.foldl step s) a) →
      R (past.foldl step s) ∨ W past a)
    (hs : P s) (hnot : ¬ R s) (hrun : EveryStep step G s run) (h : R (run.foldl step s)) :
    Took W run := by
  induction run using List.reverseRecOn with
  | nil => exact absurd h hnot
  | append_singleton past a ih =>
    obtain ⟨hpast, ha, -⟩ := everyStep_append.mp hrun
    rw [List.foldl_append] at h
    rcases hstep past a (foldl_of_everyStep hkeep hs hpast) hpast ha h with hR | hW
    · exact (ih hpast hR).append [a]
    · exact ⟨past, a, [], rfl, hW⟩

end SerialRun
