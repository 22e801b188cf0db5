import CampusHire.Schedule
import Mathlib.Data.Nat.Find
import Mathlib.Order.WellFounded

/-!
# Threads that end

A thread takes its steps when it is chosen, and while a coroutine holds the loop the other
coroutines wait.  An endless schedule is `Fair` if it does not pass over a thread for ever
that may step again and again.  These are two assumptions: one about who chooses, that
threads get their turn (`Turns`), and one about what the threads wait for, that an await
returns (`AwaitsReturn`).

Where every step of a thread that has not ended lowers its rank (`Progress`), the loop is
always freed again (`loop_freed`), so that every thread gets its turn, and every thread ends
(`ends_of_fair`).
-/

namespace Schedule

variable {σ τ ε ι : Type*} [DecidableEq ι] (P : Program σ τ ε)

/-- The configuration before the `n`-th choice. -/
def trace (c : Config σ τ ι) (schedule : Nat → ι × ε) : Nat → Config σ τ ι
  | 0 => c
  | n + 1 => advance P (trace c schedule n) (schedule n)

/-- The choices so far are a schedule of their own. -/
theorem trace_eq_run (c : Config σ τ ι) (schedule : Nat → ι × ε) (n : Nat) :
    trace P c schedule n = run P c ((List.range n).map schedule) := by
  induction n with
  | zero => rfl
  | succ n ih => rw [trace, ih, List.range_succ, List.map_append, run_append]; rfl

/-- The choice lets the thread take a step. -/
def Steps (c : Config σ τ ι) (schedule : Nat → ι × ε) (i : ι) (n : Nat) : Prop :=
  (schedule n).1 = i ∧ ready P (trace P c schedule n) i = true

/-- A thread that may step again and again does. -/
def Fair (c : Config σ τ ι) (schedule : Nat → ι × ε) : Prop :=
  ∀ i n, (∀ m ≥ n, ∃ k ≥ m, ready P (trace P c schedule k) i = true) →
    ∃ m ≥ n, Steps P c schedule i m

section Assumptions

-- `awaits` is of the threads whose next step is the return of an await
variable (awaits : τ → Bool) (c : Config σ τ ι) (schedule : Nat → ι × ε)

/-- A thread that awaits nothing and may step again and again does. -/
def Turns : Prop :=
  ∀ i n, awaits ((trace P c schedule n).task i) = false →
    (∀ m ≥ n, ∃ k ≥ m, ready P (trace P c schedule k) i = true) →
      ∃ m ≥ n, Steps P c schedule i m

/-- A thread that awaits something and may go on again and again does. -/
def AwaitsReturn : Prop :=
  ∀ i n, awaits ((trace P c schedule n).task i) = true →
    (∀ m ≥ n, ∃ k ≥ m, ready P (trace P c schedule k) i = true) →
      ∃ m ≥ n, Steps P c schedule i m

variable {P awaits c schedule}

theorem fair_iff : Fair P c schedule ↔
    Turns P awaits c schedule ∧ AwaitsReturn P awaits c schedule := by
  constructor
  · intro hfair
    exact ⟨fun i n _ => hfair i n, fun i n _ => hfair i n⟩
  · rintro ⟨hturns, hreturns⟩ i n hready
    rcases hawaits : awaits ((trace P c schedule n).task i) with _ | _
    · exact hturns i n hawaits hready
    · exact hreturns i n hawaits hready

end Assumptions

/-- The coroutine that holds the loop is between two suspension points. -/
def Held (c : Config σ τ ι) : Prop := ∀ i, c.loop = some i → P.running (c.task i) = true

omit [DecidableEq ι] in
theorem held_start (s : σ) (task : ι → τ) : Held P (start s task) := by
  intro i hi
  cases hi

theorem held_fire {c : Config σ τ ι} (i : ι) (e : ε) (h : Held P c) : Held P (fire P c i e) := by
  intro j hj
  by_cases hon : P.onLoop (c.task i) = true
  · by_cases hrun : P.running (P.step e c.store (c.task i)).2 = true
    · simp only [fire, hon, hrun, if_true, Option.some.injEq] at hj
      rw [← hj, fire_task_same]
      exact hrun
    · simp [fire, hon, hrun] at hj
  · have hloop : c.loop = some j := by simpa [fire, hon] using hj
    have hne : j ≠ i := by
      intro heq
      exact hon (heq ▸ P.running_onLoop _ (h j hloop))
    rw [fire_task_other P c e hne]
    exact h j hloop

section Traces

variable {P} {c : Config σ τ ι} {schedule : Nat → ι × ε}

theorem trace_of_steps {i : ι} {n : Nat} (h : Steps P c schedule i n) :
    trace P c schedule (n + 1) = fire P (trace P c schedule n) i (schedule n).2 := by
  obtain ⟨rfl, hready⟩ := h
  exact advance_of_ready P _ hready

theorem trace_of_not_steps {i : ι} {n : Nat} (h : ¬ Steps P c schedule i n) :
    trace P c schedule (n + 1) = trace P c schedule n ∨
      ∃ j, j ≠ i ∧ Steps P c schedule j n := by
  by_cases hready : ready P (trace P c schedule n) (schedule n).1 = true
  · exact Or.inr ⟨(schedule n).1, fun heq => h ⟨heq, heq ▸ hready⟩, rfl, hready⟩
  · exact Or.inl (advance_of_not_ready P (schedule n).2 (Bool.not_eq_true _ ▸ hready))

theorem held_trace (h : Held P c) (n : Nat) : Held P (trace P c schedule n) := by
  rw [trace_eq_run]
  exact run_invariant P (fun _ i e hc _ => held_fire P i e hc) h _

/-- Only its own steps change what a thread is about to do. -/
theorem task_of_not_steps {i : ι} {n m : Nat} (hle : n ≤ m)
    (h : ∀ k, n ≤ k → k < m → ¬ Steps P c schedule i k) :
    (trace P c schedule m).task i = (trace P c schedule n).task i := by
  induction m, hle using Nat.le_induction with
  | base => rfl
  | succ m hle ih =>
    rw [← ih fun k hk hlt => h k hk (Nat.lt_succ_of_lt hlt)]
    rcases trace_of_not_steps (h m hle (Nat.lt_succ_self m)) with heq | ⟨j, hne, hsteps⟩
    · rw [heq]
    · rw [trace_of_steps hsteps, fire_task_other P _ _ hne.symm]

/-- The loop is freed by the coroutine that holds it. -/
theorem loop_of_not_steps {i : ι} {n m : Nat} (hle : n ≤ m)
    (hloop : (trace P c schedule n).loop = some i)
    (h : ∀ k, n ≤ k → k < m → ¬ Steps P c schedule i k) :
    (trace P c schedule m).loop = some i := by
  induction m, hle using Nat.le_induction with
  | base => exact hloop
  | succ m hle ih =>
    have hheld := ih fun k hk hlt => h k hk (Nat.lt_succ_of_lt hlt)
    rcases trace_of_not_steps (h m hle (Nat.lt_succ_self m)) with heq | ⟨j, hne, hsteps⟩
    · rw [heq]
      exact hheld
    · -- the other thread is no coroutine, or it would have to wait
      have hoff : P.onLoop ((trace P c schedule m).task j) = false := by
        have hready := hsteps.2
        rw [ready, hheld, Option.all_some, decide_eq_false hne.symm, Bool.or_false] at hready
        simpa using hready
      rw [trace_of_steps hsteps, fire, hoff]
      exact hheld

/-- A thread that may step as long as it has not, does: there is a next step. -/
theorem next_step (hfair : Fair P c schedule) {i : ι} {n : Nat}
    (hready : ∀ m ≥ n, (∀ k, n ≤ k → k < m → ¬ Steps P c schedule i k) →
      ∃ k ≥ m, ready P (trace P c schedule k) i = true) :
    ∃ m ≥ n, Steps P c schedule i m ∧ ∀ k, n ≤ k → k < m → ¬ Steps P c schedule i k := by
  classical
  have hsome : ∃ m, n ≤ m ∧ Steps P c schedule i m := by
    by_contra hnone
    have hnever : ∀ k, n ≤ k → ¬ Steps P c schedule i k := fun k hk hsteps =>
      hnone ⟨k, hk, hsteps⟩
    obtain ⟨m, hm, hsteps⟩ := hfair i n fun m hm => hready m hm fun k hk _ => hnever k hk
    exact hnever m hm hsteps
  obtain ⟨hle, hsteps⟩ := Nat.find_spec hsome
  exact ⟨Nat.find hsome, hle, hsteps, fun k hk hlt hstep => Nat.find_min hsome hlt ⟨hk, hstep⟩⟩

end Traces

/-- Every step of a thread that has not ended lowers its rank.  `own` is what a thread knows
    of its local state. -/
structure Progress (P : Program σ τ ε) (α : Type*) [Preorder α] where
  rank : τ → α
  ended : τ → Bool
  own : τ → Prop
  step_own : ∀ e s t, own t → own (P.step e s t).2
  step_lt : ∀ e s t, own t → ended t = false → rank (P.step e s t).2 < rank t
  step_ended : ∀ e s t, ended t = true → (P.step e s t).2 = t
  running_ended : ∀ t, ended t = true → P.running t = false

namespace Progress

variable {P} {α : Type*} [Preorder α] {c : Config σ τ ι} {schedule : Nat → ι × ε}

theorem ended_trace (A : Progress P α) {i : ι} {n m : Nat} (hle : n ≤ m)
    (h : A.ended ((trace P c schedule n).task i) = true) :
    (trace P c schedule m).task i = (trace P c schedule n).task i := by
  induction m, hle using Nat.le_induction with
  | base => rfl
  | succ m hle ih =>
    rw [← ih]
    by_cases hsteps : Steps P c schedule i m
    · rw [trace_of_steps hsteps, fire_task_same]
      exact A.step_ended _ _ _ (ih ▸ h)
    · apply task_of_not_steps (Nat.le_succ m)
      intro k hk hlt
      rwa [Nat.le_antisymm (Nat.le_of_lt_succ hlt) hk]

theorem own_trace (A : Progress P α) (hown : ∀ i, A.own (c.task i)) (n : Nat) :
    ∀ i, A.own ((trace P c schedule n).task i) := by
  rw [trace_eq_run]
  refine run_invariant P (I := fun c => ∀ i, A.own (c.task i)) ?_ hown _
  intro c i e hc _ j
  by_cases hne : j = i
  · subst hne
    rw [fire_task_same]
    exact A.step_own e c.store (c.task j) (hc j)
  · rw [fire_task_other P c e hne]
    exact hc j

variable [WellFoundedLT α]

/-- **The loop is freed again and again.** -/
theorem loop_freed (A : Progress P α) (hown : ∀ i, A.own (c.task i)) (hheld : Held P c)
    (hfair : Fair P c schedule) (n : Nat) : ∃ m ≥ n, (trace P c schedule m).loop = none := by
  suffices hrank : ∀ rank i n, A.rank ((trace P c schedule n).task i) = rank →
      (trace P c schedule n).loop = some i → ∃ m ≥ n, (trace P c schedule m).loop = none by
    rcases hloop : (trace P c schedule n).loop with _ | i
    · exact ⟨n, le_rfl, hloop⟩
    · exact hrank _ i n rfl hloop
  intro rank
  -- by induction on the rank of the coroutine that holds the loop
  induction rank using WellFoundedLT.induction with
  | ind rank ih =>
    intro i n hrank hloop
    obtain ⟨m, hm, hsteps, hfirst⟩ := next_step hfair (i := i) (n := n) (by
      intro m hm hnone
      refine ⟨m, le_rfl, ?_⟩
      rw [ready, loop_of_not_steps hm hloop hnone, Option.all_some, decide_eq_true rfl,
        Bool.or_true])
    have hloop' := loop_of_not_steps hm hloop hfirst
    have htask := task_of_not_steps hm hfirst
    have hrun : P.running ((trace P c schedule m).task i) = true := held_trace hheld m i hloop'
    have hnot : A.ended ((trace P c schedule m).task i) = false := by
      by_contra hended
      rw [A.running_ended _ (Bool.not_eq_false _ ▸ hended)] at hrun
      cases hrun
    have hlt := A.step_lt (schedule m).2 (trace P c schedule m).store _ (A.own_trace hown m i) hnot
    rw [← fire_task_same P _ i, ← trace_of_steps hsteps, htask, hrank] at hlt
    rcases hnext : (trace P c schedule (m + 1)).loop with _ | j
    · exact ⟨m + 1, Nat.le_succ_of_le hm, hnext⟩
    · -- the loop is still held, and by the same coroutine
      have hj : j = i := by
        rw [trace_of_steps hsteps, fire, P.running_onLoop _ hrun, if_pos rfl] at hnext
        split at hnext
        · exact (Option.some.inj hnext).symm
        · cases hnext
      subst hj
      obtain ⟨k, hk, hfree⟩ := ih _ hlt j (m + 1) rfl hnext
      exact ⟨k, le_trans (Nat.le_succ_of_le hm) hk, hfree⟩

/-- Every thread may step again and again, and does. -/
theorem steps_again (A : Progress P α) (hown : ∀ i, A.own (c.task i)) (hheld : Held P c)
    (hfair : Fair P c schedule) (i : ι) (n : Nat) :
    ∃ m ≥ n, Steps P c schedule i m ∧ ∀ k, n ≤ k → k < m → ¬ Steps P c schedule i k := by
  apply next_step hfair
  intro m _ _
  obtain ⟨k, hk, hfree⟩ := A.loop_freed hown hheld hfair m
  exact ⟨k, hk, by rw [ready, hfree, Option.all_none, Bool.or_true]⟩

/-- **Progress rule.**  In a fair run every thread ends. -/
theorem ends_of_fair (A : Progress P α) (hown : ∀ i, A.own (c.task i)) (hheld : Held P c)
    (hfair : Fair P c schedule) (i : ι) :
    ∃ n t, A.ended t = true ∧ ∀ m ≥ n, (trace P c schedule m).task i = t := by
  suffices hrank : ∀ rank n, A.rank ((trace P c schedule n).task i) = rank →
      ∃ m, A.ended ((trace P c schedule m).task i) = true by
    obtain ⟨n, hended⟩ := hrank _ 0 rfl
    exact ⟨n, _, hended, fun m hm => A.ended_trace hm hended⟩
  intro rank
  induction rank using WellFoundedLT.induction with
  | ind rank ih =>
    intro n hrank
    by_cases hended : A.ended ((trace P c schedule n).task i) = true
    · exact ⟨n, hended⟩
    · obtain ⟨m, hm, hsteps, hfirst⟩ := A.steps_again hown hheld hfair i n
      have htask := task_of_not_steps hm hfirst
      have hlt := A.step_lt (schedule m).2 (trace P c schedule m).store
        ((trace P c schedule m).task i) (A.own_trace hown m i)
        (by rw [htask]; exact Bool.not_eq_true _ ▸ hended)
      rw [← fire_task_same P _ i, ← trace_of_steps hsteps, htask, hrank] at hlt
      exact ih _ hlt (m + 1) rfl

end Progress

/-- A thread that is alone is never passed over. -/
theorem fair_of_subsingleton [Subsingleton ι] (c : Config σ τ ι) (schedule : Nat → ι × ε) :
    Fair P c schedule := by
  intro i n hready
  obtain ⟨k, hk, hnow⟩ := hready n le_rfl
  exact ⟨k, hk, Subsingleton.elim _ _, hnow⟩

theorem turns_of_subsingleton [Subsingleton ι] (awaits : τ → Bool) (c : Config σ τ ι)
    (schedule : Nat → ι × ε) : Turns P awaits c schedule :=
  (fair_iff.mp (fair_of_subsingleton P c schedule)).1

theorem awaitsReturn_of_subsingleton [Subsingleton ι] (awaits : τ → Bool) (c : Config σ τ ι)
    (schedule : Nat → ι × ε) : AwaitsReturn P awaits c schedule :=
  (fair_iff.mp (fair_of_subsingleton P c schedule)).2

end Schedule
