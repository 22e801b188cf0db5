import Mathlib.Logic.Function.Basic

/-!
# Threads and coroutines over a shared store

A store is shared by any number of threads, each with a local state of its own.
A schedule is a list of choices: which thread takes its next step, and on which
input from outside (an answer of another service, a clock reading, a fresh
identifier).  Every step is atomic, so a schedule is one interleaving and a
property of all schedules is a property of all interleavings.

Some threads are coroutines of one event loop.  A coroutine that is between two
suspension points holds the loop: no other coroutine can step until it suspends
or ends, while ordinary threads step at any moment.  A choice that the loop does
not allow leaves the configuration unchanged.

Three proof rules follow: `run_invariant` (one step preserves, hence every run),
`run_guarded` (the same for runs whose steps all meet a condition), and
`Annotation.holds_run`, the rely/guarantee rule, which asks for what a step does
to its own thread's assertion and to the assertions of the threads it may
overtake.
-/

namespace Schedule

variable {σ τ ε ι : Type*}

/-- The code of the threads: one atomic step of a thread in local state `t`, on
    the store `s` and the input `e`.  `onLoop` marks the coroutines, `running`
    the local states in which a coroutine holds the loop. -/
structure Program (σ τ ε : Type*) where
  step : ε → σ → τ → σ × τ
  onLoop : τ → Bool
  running : τ → Bool
  running_onLoop : ∀ t, running t = true → onLoop t = true
  offLoop_step : ∀ e s t, onLoop t = false → onLoop (step e s t).2 = false

/-- The shared store, every thread's local state, and the coroutine that holds
    the event loop. -/
structure Config (σ τ ι : Type*) where
  store : σ
  task : ι → τ
  loop : Option ι

def start (s : σ) (task : ι → τ) : Config σ τ ι := ⟨s, task, none⟩

/-- A coroutine between two suspension points holds the loop. -/
def Exclusive (P : Program σ τ ε) (c : Config σ τ ι) : Prop :=
  ∀ i, P.running (c.task i) = true → c.loop = some i

theorem exclusive_start (P : Program σ τ ε) {s : σ} {task : ι → τ}
    (h : ∀ i, P.running (task i) = false) : Exclusive P (start s task) := by
  intro i hi
  rw [show (start s task).task i = task i from rfl, h i] at hi
  cases hi

section Run

variable [DecidableEq ι] (P : Program σ τ ε)

/-- Thread `i` may step: it is an ordinary thread, or the loop is free or its own. -/
def ready (c : Config σ τ ι) (i : ι) : Bool :=
  !P.onLoop (c.task i) || c.loop.all (fun j => decide (j = i))

/-- The step of thread `i` on input `e`, taken. -/
def fire (c : Config σ τ ι) (i : ι) (e : ε) : Config σ τ ι :=
  let next := P.step e c.store (c.task i)
  { store := next.1
    task := Function.update c.task i next.2
    loop := if P.onLoop (c.task i) then (if P.running next.2 then some i else none)
            else c.loop }

def advance (c : Config σ τ ι) (choice : ι × ε) : Config σ τ ι :=
  if ready P c choice.1 then fire P c choice.1 choice.2 else c

def run (c : Config σ τ ι) (schedule : List (ι × ε)) : Config σ τ ι :=
  schedule.foldl (advance P) c

@[simp] theorem run_nil (c : Config σ τ ι) : run P c [] = c := rfl

@[simp] theorem run_cons (c : Config σ τ ι) (choice : ι × ε) (schedule : List (ι × ε)) :
    run P c (choice :: schedule) = run P (advance P c choice) schedule := rfl

theorem run_append (c : Config σ τ ι) (first second : List (ι × ε)) :
    run P c (first ++ second) = run P (run P c first) second :=
  List.foldl_append

@[simp] theorem fire_store (c : Config σ τ ι) (i : ι) (e : ε) :
    (fire P c i e).store = (P.step e c.store (c.task i)).1 := rfl

@[simp] theorem fire_task_same (c : Config σ τ ι) (i : ι) (e : ε) :
    (fire P c i e).task i = (P.step e c.store (c.task i)).2 := by
  simp [fire]

theorem fire_task_other (c : Config σ τ ι) {i j : ι} (e : ε) (hne : j ≠ i) :
    (fire P c i e).task j = c.task j := by
  simp [fire, Function.update_of_ne hne]

theorem advance_of_ready {c : Config σ τ ι} {i : ι} (e : ε) (h : ready P c i = true) :
    advance P c (i, e) = fire P c i e := by
  simp [advance, h]

theorem advance_of_not_ready {c : Config σ τ ι} {i : ι} (e : ε) (h : ready P c i = false) :
    advance P c (i, e) = c := by
  simp [advance, h]

/-! ## A thread alone -/

/-- `n` steps of one thread on one input, with nothing in between. -/
def alone (e : ε) : Nat → σ × τ → σ × τ
  | 0, c => c
  | n + 1, c => alone e n (P.step e c.1 c.2)

theorem alone_succ (e : ε) (n : Nat) (s : σ) (t : τ) :
    alone P e (n + 1) (s, t) = alone P e n (P.step e s t) := rfl

theorem alone_of_step_eq {e : ε} {s : σ} {t : τ} (h : P.step e s t = (s, t)) (n : Nat) :
    alone P e n (s, t) = (s, t) := by
  induction n with
  | zero => rfl
  | succ n ih => rw [alone_succ, h, ih]

/-! ## Invariants of all runs -/

/-- **Run rule.**  What every choice preserves, every run preserves. -/
theorem run_invariant {I : Config σ τ ι → Prop}
    (hstep : ∀ c i e, I c → ready P c i = true → I (fire P c i e))
    {c : Config σ τ ι} (h0 : I c) (schedule : List (ι × ε)) :
    I (run P c schedule) := by
  induction schedule generalizing c with
  | nil => exact h0
  | cons choice rest ih =>
    rw [run_cons]
    apply ih
    obtain ⟨i, e⟩ := choice
    by_cases hr : ready P c i = true
    · rw [advance_of_ready P e hr]
      exact hstep c i e h0 hr
    · rw [advance_of_not_ready P e (Bool.not_eq_true _ ▸ hr)]
      exact h0

/-- The same for a property of the store. -/
theorem run_store_invariant {I : σ → Prop} (hstep : ∀ e s t, I s → I (P.step e s t).1)
    {c : Config σ τ ι} (h0 : I c.store) (schedule : List (ι × ε)) :
    I (run P c schedule).store := by
  refine run_invariant P (I := fun c => I c.store) ?_ h0 schedule
  intro c i e hc _
  rw [fire_store]
  exact hstep e c.store (c.task i) hc

/-- Every step that the schedule takes meets the condition `G` in the
    configuration in which it is taken. -/
def Guarded (G : Config σ τ ι → ι → ε → Prop) : Config σ τ ι → List (ι × ε) → Prop
  | _, [] => True
  | c, (i, e) :: rest => (ready P c i = true → G c i e) ∧ Guarded G (advance P c (i, e)) rest

instance decidableGuarded {G : Config σ τ ι → ι → ε → Prop} [∀ c i e, Decidable (G c i e)] :
    ∀ (c : Config σ τ ι) (schedule : List (ι × ε)), Decidable (Guarded P G c schedule)
  | _, [] => inferInstanceAs (Decidable True)
  | c, (i, e) :: rest =>
    have : Decidable (Guarded P G (advance P c (i, e)) rest) := decidableGuarded _ rest
    inferInstanceAs (Decidable (_ ∧ _))

theorem guarded_append {G : Config σ τ ι → ι → ε → Prop} {c : Config σ τ ι}
    {first second : List (ι × ε)} :
    Guarded P G c (first ++ second) ↔ Guarded P G c first ∧ Guarded P G (run P c first) second := by
  induction first generalizing c with
  | nil => simp [Guarded]
  | cons choice rest ih =>
    obtain ⟨i, e⟩ := choice
    simp only [List.cons_append, Guarded, run_cons, ih, and_assoc]

/-- What follows from a condition and an invariant holds of every step of a run that meets
    the condition.  The invariant has to survive only steps under the condition. -/
theorem guarded_imp {G G' : Config σ τ ι → ι → ε → Prop} {I : Config σ τ ι → Prop}
    (hstep : ∀ c i e, I c → ready P c i = true → G c i e → I (fire P c i e))
    (himp : ∀ c i e, I c → ready P c i = true → G c i e → G' c i e) {c : Config σ τ ι}
    (h0 : I c) (schedule : List (ι × ε)) (h : Guarded P G c schedule) :
    Guarded P G' c schedule := by
  induction schedule generalizing c with
  | nil => trivial
  | cons choice rest ih =>
    obtain ⟨i, e⟩ := choice
    refine ⟨fun hr => himp c i e h0 hr (h.1 hr), ih ?_ h.2⟩
    by_cases hr : ready P c i = true
    · rw [advance_of_ready P e hr]
      exact hstep c i e h0 hr (h.1 hr)
    · rw [advance_of_not_ready P e (Bool.not_eq_true _ ▸ hr)]
      exact h0

/-- **Guarded run rule.**  What every step under the condition preserves, every
    run whose steps all meet the condition preserves. -/
theorem run_guarded {G : Config σ τ ι → ι → ε → Prop} {I : Config σ τ ι → Prop}
    (hstep : ∀ c i e, I c → ready P c i = true → G c i e → I (fire P c i e)) :
    ∀ {c : Config σ τ ι} (schedule : List (ι × ε)), I c → Guarded P G c schedule →
      I (run P c schedule) := by
  intro c schedule
  induction schedule generalizing c with
  | nil => intro h0 _; exact h0
  | cons choice rest ih =>
    obtain ⟨i, e⟩ := choice
    intro h0 hguard
    obtain ⟨hG, hrest⟩ := hguard
    rw [run_cons]
    refine ih ?_ hrest
    by_cases hr : ready P c i = true
    · rw [advance_of_ready P e hr]
      exact hstep c i e h0 hr (hG hr)
    · rw [advance_of_not_ready P e (Bool.not_eq_true _ ▸ hr)]
      exact h0

/-! ## The event loop is exclusive -/

/-- Of two different threads, a coroutine that is ready finds the other one
    suspended. -/
theorem not_running_of_ready {c : Config σ τ ι} (hex : Exclusive P c) {i j : ι}
    (hr : ready P c i = true) (hne : j ≠ i) (hon : P.onLoop (c.task i) = true) :
    P.running (c.task j) = false := by
  by_contra hrun
  have hloop := hex j (by simpa using hrun)
  simp only [ready, hon, hloop, Bool.not_true, Bool.false_or, Option.all_some,
    decide_eq_true_eq] at hr
  exact hne hr

theorem exclusive_fire {c : Config σ τ ι} {i : ι} (e : ε) (hex : Exclusive P c)
    (hr : ready P c i = true) : Exclusive P (fire P c i e) := by
  intro j hj
  by_cases hne : j = i
  · subst hne
    rw [fire_task_same] at hj
    have hon : P.onLoop (c.task j) = true := by
      by_contra hoff
      have hoff' := P.offLoop_step e c.store (c.task j) (by simpa using hoff)
      rw [P.running_onLoop _ hj] at hoff'
      cases hoff'
    simp [fire, hon, hj]
  · rw [fire_task_other P c e hne] at hj
    have hloop := hex j hj
    have hoff : P.onLoop (c.task i) = false := by
      by_contra hon
      have hsusp := not_running_of_ready P hex hr hne (by simpa using hon)
      rw [hj] at hsusp
      cases hsusp
    simp [fire, hoff, hloop]

end Run

/-! ## Rely and guarantee -/

/-- An annotation of a program: an invariant `inv` of the store and an assertion
    `own` of each thread about the store and its own local state.  A step
    restores both (`step_inv`, `step_own`) and leaves the assertion of any
    thread it may overtake true (`stable`); a coroutine overtakes only suspended
    coroutines. -/
structure Annotation (P : Program σ τ ε) where
  inv : σ → Prop
  own : σ → τ → Prop
  step_inv : ∀ e s t, inv s → own s t → inv (P.step e s t).1
  step_own : ∀ e s t, inv s → own s t → own (P.step e s t).1 (P.step e s t).2
  stable : ∀ e s t u, inv s → own s t → own s u →
    (P.onLoop t = true → P.running u = false) → own (P.step e s t).1 u

namespace Annotation

variable {P : Program σ τ ε} (A : Annotation P)

structure Holds (c : Config σ τ ι) : Prop where
  exclusive : Exclusive P c
  inv : A.inv c.store
  own : ∀ i, A.own c.store (c.task i)

theorem holds_start {s : σ} {task : ι → τ} (hrun : ∀ i, P.running (task i) = false)
    (hinv : A.inv s) (hown : ∀ i, A.own s (task i)) : A.Holds (start s task) :=
  ⟨exclusive_start P hrun, hinv, hown⟩

variable [DecidableEq ι]

theorem holds_fire {c : Config σ τ ι} {i : ι} (e : ε) (h : A.Holds c)
    (hr : ready P c i = true) : A.Holds (fire P c i e) := by
  refine ⟨exclusive_fire P e h.exclusive hr, A.step_inv e _ _ h.inv (h.own i), ?_⟩
  intro j
  by_cases hne : j = i
  · subst hne
    rw [fire_task_same, fire_store]
    exact A.step_own e _ _ h.inv (h.own j)
  · rw [fire_task_other P c e hne, fire_store]
    exact A.stable e _ _ _ h.inv (h.own i) (h.own j)
      (not_running_of_ready P h.exclusive hr hne)

/-- **Rely/guarantee rule.**  An annotation that holds at the start holds in
    every configuration that any schedule reaches. -/
theorem holds_run {c : Config σ τ ι} (h : A.Holds c) (schedule : List (ι × ε)) :
    A.Holds (run P c schedule) :=
  run_invariant P (fun _ _ e h' hr => A.holds_fire e h' hr) h schedule

/-- A reflexive and transitive relation that every annotated step satisfies
    relates the store at the start of a run to the store at its end. -/
theorem run_relates {R : σ → σ → Prop} (hrefl : ∀ s, R s s)
    (htrans : ∀ s₁ s₂ s₃, R s₁ s₂ → R s₂ s₃ → R s₁ s₃)
    (hstep : ∀ e s t, A.inv s → A.own s t → R s (P.step e s t).1)
    {c : Config σ τ ι} (h : A.Holds c) (schedule : List (ι × ε)) :
    R c.store (run P c schedule).store := by
  have key : A.Holds (run P c schedule) ∧ R c.store (run P c schedule).store := by
    refine run_invariant P (I := fun d => A.Holds d ∧ R c.store d.store) ?_
      ⟨h, hrefl _⟩ schedule
    intro d i e ⟨hd, hR⟩ hr
    exact ⟨A.holds_fire e hd hr, htrans _ _ _ hR (hstep e _ _ hd.inv (hd.own i))⟩
  exact key.2

/-- Two programs that take the same steps where the annotation holds have the same runs. -/
theorem run_congr {Q : Program σ τ ε} (honLoop : Q.onLoop = P.onLoop)
    (hrunning : Q.running = P.running)
    (hstep : ∀ e s t, A.inv s → A.own s t → Q.step e s t = P.step e s t)
    {c : Config σ τ ι} (h : A.Holds c) (schedule : List (ι × ε)) :
    run Q c schedule = run P c schedule := by
  induction schedule generalizing c with
  | nil => rfl
  | cons choice rest ih =>
    obtain ⟨i, e⟩ := choice
    have hready : ready Q c i = ready P c i := by rw [ready, ready, honLoop]
    have hfire : fire Q c i e = fire P c i e := by
      rw [fire, fire, hstep e _ _ h.inv (h.own i), honLoop, hrunning]
    rw [run_cons, run_cons]
    by_cases hr : ready P c i = true
    · rw [advance_of_ready Q e (hready.trans hr), advance_of_ready P e hr, hfire]
      exact ih (A.holds_fire e h hr)
    · have hr' : ready P c i = false := Bool.not_eq_true _ ▸ hr
      rw [advance_of_not_ready Q e (hready.trans hr'), advance_of_not_ready P e hr']
      exact ih h

end Annotation

end Schedule
