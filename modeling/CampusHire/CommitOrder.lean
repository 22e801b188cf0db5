import CampusHire.Schedule
import Mathlib.Data.List.Induction
import Mathlib.Data.List.Nodup

/-!
# Serial order by commits

Every thread of a program is at work on a request of its own and commits at most once.  All
that the others see of it is that commit.  If what it commits is what the request would do if
it was run alone in that moment, the whole run does to the visible part of the store what the
requests do one after the other, in the order of their commits (`view_run`): a request that
was answered before another one began also commits before it.

`Answers` adds what the threads answer after their commits: the answers of the serial run
(`answers_run`).
-/

namespace CommitOrder

open Schedule

variable {σ τ ε ι ν ρ : Type*}

/-- The threads of a program accounted for as requests that are run one after the other.
    `exec` is a request run alone on the visible part of the store.  `may` marks the threads
    that can still commit, and `won` those that have committed and not failed since. -/
structure Account (P : Program σ τ ε) (ι ν ρ : Type*) where
  view : σ → ν
  exec : ι → ε → ν → ν × ρ
  commits : ε → σ → τ → Bool
  stage : ι → τ → Prop
  may : τ → Bool
  won : τ → Bool
  fresh : ε → σ → τ → Prop
  step_stage : ∀ i e s t, stage i t → stage i (P.step e s t).2
  step_silent : ∀ e s t, commits e s t = false → view (P.step e s t).1 = view s
  step_commit : ∀ i e s t, stage i t → commits e s t = true → fresh e s t →
    view (P.step e s t).1 = (exec i e (view s)).1
  may_of_commits : ∀ e s t, commits e s t = true → may t = true
  spent_of_commits : ∀ e s t, commits e s t = true → may (P.step e s t).2 = false
  step_may : ∀ e s t, may t = false → may (P.step e s t).2 = false
  step_won : ∀ e s t, commits e s t = false → won (P.step e s t).2 = true → won t = true

/-- The answer that a thread owes once it has committed.  Its own steps keep it, and so do the
    steps of the threads that may overtake it. -/
structure Answers {P : Program σ τ ε} (A : Account P ι ν ρ) where
  owes : σ → τ → ρ → Prop
  commit_owes : ∀ i e s t, A.stage i t → A.commits e s t = true → A.fresh e s t →
    owes (P.step e s t).1 (P.step e s t).2 (A.exec i e (A.view s)).2
  step_owes : ∀ e s t r, A.commits e s t = false → owes s t r →
    owes (P.step e s t).1 (P.step e s t).2 r
  stable : ∀ i e s t u r, A.stage i t → (P.onLoop t = true → P.running u = false) →
    owes s u r → owes (P.step e s t).1 u r

section Run

variable [DecidableEq ι] {P : Program σ τ ε} (A : Account P ι ν ρ)

/-- The choices of a schedule that are commits. -/
def order : Config σ τ ι → List (ι × ε) → List (ι × ε)
  | _, [] => []
  | c, (i, e) :: rest =>
    if ready P c i && A.commits e c.store (c.task i) then
      (i, e) :: order (advance P c (i, e)) rest
    else order (advance P c (i, e)) rest

/-- The requests run one after the other. -/
def serially (v : ν) (log : List (ι × ε)) : ν := log.foldl (fun v x => (A.exec x.1 x.2 v).1) v

/-- The step is no commit, or what it commits is up to date. -/
def UpToDate (c : Config σ τ ι) (i : ι) (e : ε) : Prop :=
  A.commits e c.store (c.task i) = true → A.fresh e c.store (c.task i)

theorem order_concat (c : Config σ τ ι) (schedule : List (ι × ε)) (i : ι) (e : ε) :
    order A c (schedule ++ [(i, e)]) = order A c schedule ++
      (if ready P (run P c schedule) i &&
          A.commits e (run P c schedule).store ((run P c schedule).task i) then [(i, e)]
        else []) := by
  induction schedule generalizing c with
  | nil =>
    simp only [List.nil_append, order, run_nil]
    rfl
  | cons choice rest ih =>
    obtain ⟨j, e'⟩ := choice
    simp only [List.cons_append, order, run_cons, ih]
    split
    · exact (List.cons_append ..).symm
    · rfl

/-- How the last choice of a schedule adds to the order. -/
theorem order_concat_cases (c : Config σ τ ι) (schedule : List (ι × ε)) (i : ι) (e : ε) :
    (run P c (schedule ++ [(i, e)]) = run P c schedule ∧
      order A c (schedule ++ [(i, e)]) = order A c schedule) ∨
    (ready P (run P c schedule) i = true ∧
      run P c (schedule ++ [(i, e)]) = fire P (run P c schedule) i e ∧
      (A.commits e (run P c schedule).store ((run P c schedule).task i) = false ∧
          order A c (schedule ++ [(i, e)]) = order A c schedule ∨
        A.commits e (run P c schedule).store ((run P c schedule).task i) = true ∧
          order A c (schedule ++ [(i, e)]) = order A c schedule ++ [(i, e)])) := by
  rw [run_append, order_concat, run_cons, run_nil]
  rcases hr : ready P (run P c schedule) i with _ | _
  · left
    rw [advance_of_not_ready P e hr, Bool.false_and, if_neg Bool.false_ne_true, List.append_nil]
    exact ⟨rfl, rfl⟩
  · right
    rw [advance_of_ready P e hr, Bool.true_and]
    refine ⟨rfl, rfl, ?_⟩
    rcases A.commits e (run P c schedule).store ((run P c schedule).task i) with _ | _
    · exact Or.inl ⟨rfl, by rw [if_neg Bool.false_ne_true, List.append_nil]⟩
    · exact Or.inr ⟨rfl, by rw [if_pos rfl]⟩

/-- What holds of a run and the commits in it so far. -/
structure Served (c : Config σ τ ι) (v : ν) (log : List (ι × ε)) : Prop where
  stage : ∀ i, A.stage i (c.task i)
  view : A.view c.store = serially A v log
  nodup : (log.map Prod.fst).Nodup
  spent : ∀ i ∈ log.map Prod.fst, A.may (c.task i) = false
  won : ∀ i, A.won (c.task i) = true → i ∈ log.map Prod.fst

variable {A}

theorem Served.silent {c : Config σ τ ι} {v : ν} {log : List (ι × ε)} (h : Served A c v log)
    {i : ι} {e : ε} (hsilent : A.commits e c.store (c.task i) = false) :
    Served A (fire P c i e) v log := by
  refine ⟨?_, (A.step_silent e _ _ hsilent).trans h.view, h.nodup, ?_, ?_⟩
  · intro j
    by_cases hne : j = i
    · subst hne
      rw [fire_task_same]
      exact A.step_stage j e _ _ (h.stage j)
    · rw [fire_task_other P c e hne]
      exact h.stage j
  · intro j hj
    by_cases hne : j = i
    · subst hne
      rw [fire_task_same]
      exact A.step_may e _ _ (h.spent j hj)
    · rw [fire_task_other P c e hne]
      exact h.spent j hj
  · intro j hwon
    by_cases hne : j = i
    · subst hne
      rw [fire_task_same] at hwon
      exact h.won j (A.step_won e _ _ hsilent hwon)
    · rw [fire_task_other P c e hne] at hwon
      exact h.won j hwon

theorem Served.commit {c : Config σ τ ι} {v : ν} {log : List (ι × ε)} (h : Served A c v log)
    {i : ι} {e : ε} (hcommits : A.commits e c.store (c.task i) = true)
    (hfresh : A.fresh e c.store (c.task i)) :
    Served A (fire P c i e) v (log ++ [(i, e)]) := by
  refine ⟨?_, ?_, ?_, ?_, ?_⟩
  · intro j
    by_cases hne : j = i
    · subst hne
      rw [fire_task_same]
      exact A.step_stage j e _ _ (h.stage j)
    · rw [fire_task_other P c e hne]
      exact h.stage j
  · rw [fire_store, A.step_commit i e _ _ (h.stage i) hcommits hfresh, h.view, serially, serially,
      List.foldl_append]
    rfl
  · -- a thread that has committed before may not commit again
    rw [List.map_append]
    refine List.Nodup.append h.nodup (List.nodup_singleton _) (List.disjoint_singleton.mpr ?_)
    intro hi
    have hmay := A.may_of_commits e _ _ hcommits
    rw [h.spent i hi] at hmay
    cases hmay
  · intro j hj
    rw [List.map_append, List.mem_append] at hj
    by_cases hne : j = i
    · subst hne
      rw [fire_task_same]
      exact A.spent_of_commits e _ _ hcommits
    · rw [fire_task_other P c e hne]
      exact h.spent j (hj.resolve_right fun hlast => hne (by simpa using hlast))
  · intro j hwon
    rw [List.map_append, List.mem_append]
    by_cases hne : j = i
    · exact Or.inr (by simp [hne])
    · rw [fire_task_other P c e hne] at hwon
      exact Or.inl (h.won j hwon)

theorem served_run {c : Config σ τ ι} (hstage : ∀ i, A.stage i (c.task i))
    (hwon : ∀ i, A.won (c.task i) = false) (schedule : List (ι × ε))
    (h : Guarded P (UpToDate A) c schedule) :
    Served A (run P c schedule) (A.view c.store) (order A c schedule) := by
  induction schedule using List.reverseRecOn with
  | nil =>
    refine ⟨hstage, rfl, List.nodup_nil, nofun, ?_⟩
    intro i hi
    rw [run_nil, hwon i] at hi
    cases hi
  | append_singleton schedule choice ih =>
    obtain ⟨i, e⟩ := choice
    obtain ⟨hbefore, hlast, -⟩ := (guarded_append P).mp h
    have hserved := ih hbefore
    rcases order_concat_cases A c schedule i e with ⟨hrun, horder⟩ |
      ⟨hr, hrun, ⟨hcommits, horder⟩ | ⟨hcommits, horder⟩⟩
    · rw [hrun, horder]
      exact hserved
    · rw [hrun, horder]
      exact hserved.silent hcommits
    · rw [hrun, horder]
      exact hserved.commit hcommits (hlast hr hcommits)

/-- **A run of up to date commits is a serial run**, in the order of the commits. -/
theorem view_run {c : Config σ τ ι} (hstage : ∀ i, A.stage i (c.task i))
    (hwon : ∀ i, A.won (c.task i) = false) (schedule : List (ι × ε))
    (h : Guarded P (UpToDate A) c schedule) :
    A.view (run P c schedule).store = serially A (A.view c.store) (order A c schedule) :=
  (served_run hstage hwon schedule h).view

/-! ## The answers -/

/-- Thread `i` owes what its request answers at its place in the log. -/
def Due (B : Answers A) (v : ν) (log : List (ι × ε)) (s : σ) (i : ι) (t : τ) : Prop :=
  ∃ before e after, log = before ++ (i, e) :: after ∧
    B.owes s t (A.exec i e (serially A v before)).2

omit [DecidableEq ι] in
theorem Due.later {B : Answers A} {v : ν} {log : List (ι × ε)} {s s' : σ} {i : ι} {t t' : τ}
    (h : Due B v log s i t) (more : List (ι × ε))
    (howes : ∀ r, B.owes s t r → B.owes s' t' r) : Due B v (log ++ more) s' i t' := by
  obtain ⟨before, e, after, rfl, hr⟩ := h
  exact ⟨before, e, after ++ more, by simp, howes _ hr⟩

/-- **The threads answer as in the serial run.** -/
theorem answers_run (B : Answers A) {c : Config σ τ ι} (hexclusive : Exclusive P c)
    (hstage : ∀ i, A.stage i (c.task i)) (hwon : ∀ i, A.won (c.task i) = false)
    (schedule : List (ι × ε)) (h : Guarded P (UpToDate A) c schedule) (i : ι)
    (hi : i ∈ (order A c schedule).map Prod.fst) :
    Due B (A.view c.store) (order A c schedule) (run P c schedule).store i
      ((run P c schedule).task i) := by
  induction schedule using List.reverseRecOn generalizing i with
  | nil => cases hi
  | append_singleton schedule choice ih =>
    obtain ⟨j, e⟩ := choice
    obtain ⟨hbefore, hlast, -⟩ := (guarded_append P).mp h
    have hserved := served_run hstage hwon schedule hbefore
    have hex : Exclusive P (run P c schedule) :=
      run_invariant P (fun _ _ e' hex hr => exclusive_fire P e' hex hr) hexclusive schedule
    have hdue := ih hbefore
    have hother : ready P (run P c schedule) j = true → i ≠ j → ∀ r,
        B.owes (run P c schedule).store ((run P c schedule).task i) r →
          B.owes (fire P (run P c schedule) j e).store ((fire P (run P c schedule) j e).task i)
            r := by
      intro hr hne r howes
      rw [fire_task_other P _ e hne, fire_store]
      exact B.stable j e _ _ _ r (hserved.stage j) (not_running_of_ready P hex hr hne) howes
    rcases order_concat_cases A c schedule j e with ⟨hrun, horder⟩ |
      ⟨hr, hrun, ⟨hcommits, horder⟩ | ⟨hcommits, horder⟩⟩
    · rw [horder] at hi
      rw [hrun, horder]
      exact hdue i hi
    · rw [horder] at hi
      rw [hrun, horder, ← List.append_nil (order A c schedule)]
      refine (hdue i hi).later [] ?_
      by_cases hne : i = j
      · subst hne
        intro r howes
        rw [fire_task_same, fire_store]
        exact B.step_owes e _ _ r hcommits howes
      · exact hother hr hne
    · rw [horder] at hi
      rw [hrun, horder]
      by_cases hne : i = j
      · subst hne
        refine ⟨order A c schedule, e, [], rfl, ?_⟩
        rw [fire_task_same, fire_store, ← hserved.view]
        exact B.commit_owes i e _ _ (hserved.stage i) hcommits (hlast hr hcommits)
      · rw [List.map_append, List.mem_append] at hi
        have hold := hi.resolve_right fun hmem => hne (by simpa using hmem)
        exact (hdue i hold).later [(j, e)] (hother hr hne)

end Run

end CommitOrder
