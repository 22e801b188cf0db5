import CampusHire.Schedule

/-!
# Two transactions that each read and then commit

Two threads run one transaction each: it loads the data at one moment and commits
at a later one, computing what it writes from what it loaded.  Between the two
moments the other transaction may commit.

`run_outcome` says what an interleaving of the two can end in.  Either every
commit was *fresh*, that is, it wrote what it would have written had it loaded
the data at the moment of the commit, and then the result is that of running the
two one after the other; or the second commit was not, and the result is that of
the second transaction committing over the first one from the data it loaded
before.  A program takes part by an `Account` of its steps in these terms.
-/

namespace TwoPhase

open Schedule

variable {σ τ ε δ : Type*}

inductive Phase (δ : Type*) where
  | waiting
  | loaded (version : δ)
  | past

/-- The steps of a program accounted for as two transactions, `e i` being the input
    that transaction `i` meets in all of its steps.  `commit i v d` is what
    transaction `i` makes of the data `d` when it has loaded `v`. -/
structure Account (P : Program σ τ ε) (e : Bool → ε) (δ : Type*) where
  data : σ → δ
  commit : Bool → δ → δ → δ
  stands : Bool → Phase δ → σ → τ → Prop
  finished : τ → Prop
  fresh : ε → σ → τ → Prop
  past_of_finished : ∀ i ph s t, stands i ph s t → finished t → ph = .past
  waiting_step : ∀ i s t, stands i .waiting s t →
    fresh (e i) s t ∧ data (P.step (e i) s t).1 = data s ∧
    (stands i (.loaded (data s)) (P.step (e i) s t).1 (P.step (e i) s t).2 ∨
      stands i .past (P.step (e i) s t).1 (P.step (e i) s t).2 ∧ ∀ d, commit i (data s) d = d)
  loaded_step : ∀ i v s t, stands i (.loaded v) s t →
    (fresh (e i) s t ∧ data (P.step (e i) s t).1 = data s ∧
      stands i (.loaded v) (P.step (e i) s t).1 (P.step (e i) s t).2) ∨
    ((fresh (e i) s t ↔ commit i v (data s) = commit i (data s) (data s)) ∧
      data (P.step (e i) s t).1 = commit i v (data s) ∧
      stands i .past (P.step (e i) s t).1 (P.step (e i) s t).2)
  past_step : ∀ i s t, stands i .past s t →
    fresh (e i) s t ∧ data (P.step (e i) s t).1 = data s ∧
    stands i .past (P.step (e i) s t).1 (P.step (e i) s t).2
  stable : ∀ i ph ph' s t u, stands i ph s t → stands (!i) ph' s u →
    stands (!i) ph' (P.step (e i) s t).1 u

/-- The schedule in which the transactions take their steps in the given order. -/
def interleave (e : Bool → ε) (order : List Bool) : List (Bool × ε) :=
  order.map fun i => (i, e i)

namespace Account

variable {P : Program σ τ ε} {e : Bool → ε} (A : Account P e δ)

/-- Transaction `i`, then the other one. -/
def serial (i : Bool) (d : δ) : δ :=
  A.commit (!i) (A.commit i d d) (A.commit i d d)

/-- Transaction `i`, then the other one from what it had loaded before. -/
def stale (i : Bool) (d : δ) : δ :=
  A.commit (!i) d (A.commit i d d)

def AllPast (c : Config σ τ Bool) : Prop := ∀ i, A.stands i .past c.store (c.task i)

/-- How far a run has come in which every commit so far was fresh: none has
    committed, one has, or both have. -/
inductive Progress (d₀ : δ) (c : Config σ τ Bool) : Prop where
  | early (hdata : A.data c.store = d₀)
      (hphase : ∀ i, A.stands i .waiting c.store (c.task i) ∨
        A.stands i (.loaded d₀) c.store (c.task i))
  | half (i : Bool) (hdata : A.data c.store = A.commit i d₀ d₀)
      (hpast : A.stands i .past c.store (c.task i))
      (hphase : A.stands (!i) .waiting c.store (c.task (!i)) ∨
        A.stands (!i) (.loaded d₀) c.store (c.task (!i)) ∨
        A.stands (!i) (.loaded (A.data c.store)) c.store (c.task (!i)))
  | ended (i : Bool) (hdata : A.data c.store = A.serial i d₀) (hpast : A.AllPast c)

/-- The step of one transaction leaves the other one where it stands. -/
theorem other_stands {c : Config σ τ Bool} {i : Bool} {ph ph' : Phase δ}
    (h : A.stands i ph c.store (c.task i)) (h' : A.stands (!i) ph' c.store (c.task (!i))) :
    A.stands (!i) ph' (fire P c i (e i)).store ((fire P c i (e i)).task (!i)) := by
  rw [fire_task_other P c (e i) (by simp), fire_store]
  exact A.stable i ph ph' _ _ _ h h'

theorem allPast_of {c : Config σ τ Bool} {i : Bool} (h : A.stands i .past c.store (c.task i))
    (h' : A.stands (!i) .past c.store (c.task (!i))) : A.AllPast c := by
  intro j
  by_cases hj : j = i
  · exact hj ▸ h
  · rw [show j = !i from Bool.eq_not.mpr hj]
    exact h'

theorem allPast_fire {c : Config σ τ Bool} {j : Bool} (h : A.AllPast c) :
    A.fresh (e j) c.store (c.task j) ∧
      A.data (fire P c j (e j)).store = A.data c.store ∧ A.AllPast (fire P c j (e j)) := by
  obtain ⟨hfresh, hdata, hpast⟩ := A.past_step j _ _ (h j)
  refine ⟨hfresh, hdata, A.allPast_of (i := j) ?_ (A.other_stands (h j) (h !j))⟩
  rw [fire_task_same]
  exact hpast

theorem allPast_run {c : Config σ τ Bool} (h : A.AllPast c) (order : List Bool) :
    A.data (run P c (interleave e order)).store = A.data c.store := by
  induction order generalizing c with
  | nil => rfl
  | cons j rest ih =>
    rw [interleave, List.map_cons, run_cons, ← interleave]
    by_cases hr : ready P c j = true
    · obtain ⟨-, hdata, hpast⟩ := A.allPast_fire (j := j) h
      rw [advance_of_ready P _ hr, ih hpast, hdata]
    · rw [advance_of_not_ready P _ (Bool.not_eq_true _ ▸ hr)]
      exact ih h

/-- The run ended in the second commit overwriting the first one. -/
def Overwritten (d₀ : δ) (s : σ) : Prop :=
  ∃ i, A.data s = A.stale i d₀ ∧ A.stale i d₀ ≠ A.serial i d₀

/-- Transaction `j` commits what it makes of the data that the other one has replaced. -/
structure StaleCommit (d₀ : δ) (c : Config σ τ Bool) (j : Bool) : Prop where
  not_fresh : ¬ A.fresh (e j) c.store (c.task j)
  loaded : A.stands j (.loaded d₀) c.store (c.task j)
  data_before : A.data c.store = A.commit (!j) d₀ d₀
  data_after : A.data (fire P c j (e j)).store = A.stale (!j) d₀
  allPast : A.AllPast (fire P c j (e j))

variable {A} in
theorem StaleCommit.stale_ne {d₀ : δ} {c : Config σ τ Bool} {j : Bool}
    (h : A.StaleCommit d₀ c j) : A.stale (!j) d₀ ≠ A.serial (!j) d₀ := by
  rcases A.loaded_step j _ _ _ h.loaded with ⟨hfresh, -, -⟩ | ⟨hiff, -, -⟩
  · exact absurd hfresh h.not_fresh
  · intro heq
    apply h.not_fresh
    rw [hiff, h.data_before]
    rwa [stale, serial, Bool.not_not] at heq

/-- A step before any commit. -/
theorem early_fire {d₀ : δ} {c : Config σ τ Bool} {j : Bool} (hdata : A.data c.store = d₀)
    (hphase : ∀ i, A.stands i .waiting c.store (c.task i) ∨
      A.stands i (.loaded d₀) c.store (c.task i)) :
    A.fresh (e j) c.store (c.task j) ∧ A.Progress d₀ (fire P c j (e j)) := by
  have hsame := fire_task_same P c j (e j)
  have hother : A.stands (!j) .waiting (fire P c j (e j)).store ((fire P c j (e j)).task (!j)) ∨
      A.stands (!j) (.loaded d₀) (fire P c j (e j)).store ((fire P c j (e j)).task (!j)) := by
    rcases hphase j with hj | hj
    · exact (hphase !j).imp (A.other_stands hj) (A.other_stands hj)
    · exact (hphase !j).imp (A.other_stands hj) (A.other_stands hj)
  have hearly : A.data (fire P c j (e j)).store = d₀ →
      A.stands j (.loaded d₀) (fire P c j (e j)).store ((fire P c j (e j)).task j) →
      A.Progress d₀ (fire P c j (e j)) := by
    intro hd hj
    apply Progress.early hd
    intro i
    by_cases hi : i = j
    · exact Or.inr (hi ▸ hj)
    · rw [show i = !j from Bool.eq_not.mpr hi]
      exact hother
  rcases hphase j with hj | hj
  · obtain ⟨hfresh, hd, hnext⟩ := A.waiting_step j _ _ hj
    refine ⟨hfresh, ?_⟩
    rcases hnext with hloaded | ⟨hpast, hnoop⟩
    · exact hearly (hd.trans hdata) (by rw [hsame]; exact hdata ▸ hloaded)
    · refine .half j ?_ (by rw [hsame]; exact hpast) (hother.imp id Or.inl)
      rw [fire_store, hd, hdata]
      exact (hdata ▸ hnoop d₀).symm
  · rcases A.loaded_step j _ _ _ hj with ⟨hfresh, hd, hloaded⟩ | ⟨hiff, hd, hpast⟩
    · exact ⟨hfresh, hearly (hd.trans hdata) (by rw [hsame]; exact hloaded)⟩
    · refine ⟨hiff.mpr (by rw [hdata]), .half j ?_ (by rw [hsame]; exact hpast)
        (hother.imp id Or.inl)⟩
      rw [fire_store, hd, hdata]

/-- A step of the transaction that has committed. -/
theorem committed_fire {d₀ : δ} {c : Config σ τ Bool} {j : Bool}
    (hdata : A.data c.store = A.commit j d₀ d₀) (hpast : A.stands j .past c.store (c.task j))
    (hphase : A.stands (!j) .waiting c.store (c.task (!j)) ∨
      A.stands (!j) (.loaded d₀) c.store (c.task (!j)) ∨
      A.stands (!j) (.loaded (A.data c.store)) c.store (c.task (!j))) :
    A.fresh (e j) c.store (c.task j) ∧ A.Progress d₀ (fire P c j (e j)) := by
  obtain ⟨hfresh, hd, hpast'⟩ := A.past_step j _ _ hpast
  refine ⟨hfresh, .half j (hd.trans hdata) (by rw [fire_task_same]; exact hpast') ?_⟩
  rw [fire_store, hd, ← fire_store P c j (e j)]
  exact hphase.imp (A.other_stands hpast)
    (Or.imp (A.other_stands hpast) (A.other_stands hpast))

/-- The transaction commits after the other one. -/
theorem ended_of_commit {d₀ : δ} {c : Config σ τ Bool} {j : Bool} {ph : Phase δ}
    (hother : A.stands (!j) .past c.store (c.task (!j))) (h : A.stands j ph c.store (c.task j))
    (hdata : A.data (fire P c j (e j)).store = A.serial (!j) d₀)
    (hpast : A.stands j .past (P.step (e j) c.store (c.task j)).1
      (P.step (e j) c.store (c.task j)).2) : A.Progress d₀ (fire P c j (e j)) := by
  refine .ended (!j) hdata (A.allPast_of (i := j) ?_ (A.other_stands h hother))
  rw [fire_task_same]
  exact hpast

/-- A step of the transaction that has not committed, when the other one has. -/
theorem second_fire {d₀ : δ} {c : Config σ τ Bool} {j : Bool}
    (hdata : A.data c.store = A.commit (!j) d₀ d₀)
    (hpast : A.stands (!j) .past c.store (c.task (!j)))
    (hphase : A.stands j .waiting c.store (c.task j) ∨
      A.stands j (.loaded d₀) c.store (c.task j) ∨
      A.stands j (.loaded (A.data c.store)) c.store (c.task j)) :
    (A.fresh (e j) c.store (c.task j) ∧ A.Progress d₀ (fire P c j (e j))) ∨
      A.StaleCommit d₀ c j := by
  have hsame := fire_task_same P c j (e j)
  rcases hphase with h | h | h
  · obtain ⟨hfresh, hd, hnext⟩ := A.waiting_step j _ _ h
    refine Or.inl ⟨hfresh, ?_⟩
    rcases hnext with hloaded | ⟨hpast', hnoop⟩
    · refine .half (!j) (hd.trans hdata) (A.other_stands h hpast) ?_
      rw [Bool.not_not, hsame, fire_store, hd]
      exact Or.inr (Or.inr hloaded)
    · refine A.ended_of_commit hpast h ?_ hpast'
      rw [fire_store, hd, serial, Bool.not_not, ← hdata, hnoop]
  · rcases A.loaded_step j _ _ _ h with ⟨hfresh, hd, hloaded⟩ | ⟨hiff, hd, hpast'⟩
    · refine Or.inl ⟨hfresh, .half (!j) (hd.trans hdata) (A.other_stands h hpast) ?_⟩
      rw [Bool.not_not, hsame]
      exact Or.inr (Or.inl hloaded)
    · -- it commits from what it loaded before the other one committed
      by_cases heq : A.commit j d₀ (A.data c.store) =
          A.commit j (A.data c.store) (A.data c.store)
      · refine Or.inl ⟨hiff.mpr heq, A.ended_of_commit hpast h ?_ hpast'⟩
        rw [fire_store, hd, heq, serial, Bool.not_not, hdata]
      · refine Or.inr ⟨fun hfresh => heq (hiff.mp hfresh), h, hdata, ?_,
          A.allPast_of (i := j) (by rw [hsame]; exact hpast') (A.other_stands h hpast)⟩
        rw [fire_store, hd, stale, Bool.not_not, hdata]
  · rcases A.loaded_step j _ _ _ h with ⟨hfresh, hd, hloaded⟩ | ⟨hiff, hd, hpast'⟩
    · refine Or.inl ⟨hfresh, .half (!j) (hd.trans hdata) (A.other_stands h hpast) ?_⟩
      rw [Bool.not_not, hsame, fire_store, hd]
      exact Or.inr (Or.inr hloaded)
    · refine Or.inl ⟨hiff.mpr rfl, A.ended_of_commit hpast h ?_ hpast'⟩
      rw [fire_store, hd, serial, Bool.not_not, hdata]

/-- One step: it is fresh and the run goes on, or it is the second commit and not
    fresh. -/
theorem progress_fire {d₀ : δ} {c : Config σ τ Bool} {j : Bool} (h : A.Progress d₀ c) :
    (A.fresh (e j) c.store (c.task j) ∧ A.Progress d₀ (fire P c j (e j))) ∨
      A.StaleCommit d₀ c j := by
  cases h with
  | early hdata hphase => exact Or.inl (A.early_fire hdata hphase)
  | half i hdata hpast hphase =>
    by_cases hj : j = i
    · subst hj
      exact Or.inl (A.committed_fire hdata hpast hphase)
    · obtain rfl : i = !j := Bool.eq_not.mpr (Ne.symm hj)
      rw [Bool.not_not] at hphase
      exact A.second_fire hdata hpast hphase
  | ended i hdata hpast =>
    obtain ⟨hfresh, hd, hpast'⟩ := A.allPast_fire (j := j) hpast
    exact Or.inl ⟨hfresh, .ended i (hd.trans hdata) hpast'⟩

def AllFresh (c : Config σ τ Bool) (order : List Bool) : Prop :=
  Guarded P (fun c i env => A.fresh env c.store (c.task i)) c (interleave e order)

theorem allFresh_of_allPast {c : Config σ τ Bool} (h : A.AllPast c) (order : List Bool) :
    A.AllFresh c order := by
  induction order generalizing c with
  | nil => trivial
  | cons j rest ih =>
    refine ⟨fun _ => (A.allPast_fire h).1, ih ?_⟩
    by_cases hr : ready P c j = true
    · rw [advance_of_ready P _ hr]
      exact (A.allPast_fire h).2.2
    · rw [advance_of_not_ready P _ (Bool.not_eq_true _ ▸ hr)]
      exact h

/-- A condition that fresh steps meet. -/
theorem guarded_of_allFresh {G : Config σ τ Bool → Bool → ε → Prop}
    (hG : ∀ c i, A.fresh (e i) c.store (c.task i) → G c i (e i)) {c : Config σ τ Bool}
    {order : List Bool} (h : A.AllFresh c order) : Guarded P G c (interleave e order) := by
  induction order generalizing c with
  | nil => trivial
  | cons i rest ih => exact ⟨fun hr => hG c i (h.1 hr), ih h.2⟩

/-- A run in which one commit was not fresh, taken apart at it. -/
structure OneStale (d₀ : δ) (c : Config σ τ Bool) (order before : List Bool) (j : Bool)
    (after : List Bool) : Prop where
  order_eq : order = before ++ j :: after
  fresh_before : A.AllFresh c before
  ready : ready P (run P c (interleave e before)) j = true
  commit : A.StaleCommit d₀ (run P c (interleave e before)) j

theorem progress_run {d₀ : δ} {c : Config σ τ Bool} (h : A.Progress d₀ c) (order : List Bool)
    (hdone : ∀ i, A.finished ((run P c (interleave e order)).task i)) :
    (A.AllFresh c order ∧
      ∃ i, A.data (run P c (interleave e order)).store = A.serial i d₀) ∨
    ∃ before j after, A.OneStale d₀ c order before j after := by
  induction order generalizing c with
  | nil =>
    left
    refine ⟨trivial, ?_⟩
    cases h with
    | early hdata hphase =>
      rcases hphase true with h | h
      · exact nomatch A.past_of_finished _ _ _ _ h (hdone true)
      · exact nomatch A.past_of_finished _ _ _ _ h (hdone true)
    | half i hdata hpast hphase =>
      rcases hphase with h | h | h
      · exact nomatch A.past_of_finished _ _ _ _ h (hdone !i)
      · exact nomatch A.past_of_finished _ _ _ _ h (hdone !i)
      · exact nomatch A.past_of_finished _ _ _ _ h (hdone !i)
    | ended i hdata hpast => exact ⟨i, hdata⟩
  | cons j rest ih =>
    -- what the step has done, and what is known of the rest of the run
    have hgoes : ∀ c', advance P c (j, e j) = c' →
        (ready P c j = true → A.fresh (e j) c.store (c.task j)) → A.Progress d₀ c' →
        (A.AllFresh c (j :: rest) ∧
          ∃ i, A.data (run P c (interleave e (j :: rest))).store = A.serial i d₀) ∨
        ∃ before k after, A.OneStale d₀ c (j :: rest) before k after := by
      rintro _ rfl hfresh hnext
      rcases ih hnext hdone with ⟨hrest, hserial⟩ | ⟨before, k, after, hstale⟩
      · exact Or.inl ⟨⟨hfresh, hrest⟩, hserial⟩
      · exact Or.inr ⟨j :: before, k, after, congrArg (j :: ·) hstale.order_eq,
          ⟨hfresh, hstale.fresh_before⟩, hstale.ready, hstale.commit⟩
    by_cases hr : ready P c j = true
    · rcases A.progress_fire (j := j) h with ⟨hfresh, hnext⟩ | hcommit
      · exact hgoes _ (advance_of_ready P _ hr) (fun _ => hfresh) hnext
      · exact Or.inr ⟨[], j, rest, rfl, trivial, hr, hcommit⟩
    · exact hgoes _ (advance_of_not_ready P _ (Bool.not_eq_true _ ▸ hr)) (fun h => absurd h hr) h

section OneStale

variable {A} {d₀ : δ} {c : Config σ τ Bool} {order before after : List Bool} {j : Bool}

/-- The run goes on from the commit with what is past. -/
theorem OneStale.run_eq (h : A.OneStale d₀ c order before j after) :
    run P c (interleave e order) =
      run P (fire P (run P c (interleave e before)) j (e j)) (interleave e after) := by
  rw [h.order_eq, interleave, List.map_append, run_append, List.map_cons, run_cons]
  congr 1
  exact advance_of_ready P _ h.ready

theorem OneStale.data_end (h : A.OneStale d₀ c order before j after) :
    A.data (run P c (interleave e order)).store = A.stale (!j) d₀ := by
  rw [h.run_eq, A.allPast_run h.commit.allPast, h.commit.data_after]

/-- The run meets a condition that fresh steps meet when its stale commit meets it. -/
theorem OneStale.guarded_iff (h : A.OneStale d₀ c order before j after)
    {G : Config σ τ Bool → Bool → ε → Prop}
    (hG : ∀ c i, A.fresh (e i) c.store (c.task i) → G c i (e i)) :
    Guarded P G c (interleave e order) ↔ G (run P c (interleave e before)) j (e j) := by
  rw [h.order_eq, interleave, List.map_append, guarded_append, List.map_cons, Guarded]
  constructor
  · intro hall
    exact hall.2.1 h.ready
  · intro hj
    refine ⟨A.guarded_of_allFresh hG h.fresh_before, fun _ => hj, ?_⟩
    have hnext : advance P (run P c (interleave e before)) (j, e j) = _ :=
      advance_of_ready P _ h.ready
    rw [← interleave, hnext]
    exact A.guarded_of_allFresh hG (A.allFresh_of_allPast h.commit.allPast after)

end OneStale

/-- **What two transactions can end in.**  Started together and run to their end in
    any order, every commit was fresh and the result is that of one serial order,
    or the second commit was not and wrote from data that the first one had
    replaced. -/
theorem run_outcome {s : σ} {task : Bool → τ} (hstart : ∀ i, A.stands i .waiting s (task i))
    (order : List Bool)
    (hdone : ∀ i, A.finished ((run P (start s task) (interleave e order)).task i)) :
    (A.AllFresh (start s task) order ∧
      ∃ i, A.data (run P (start s task) (interleave e order)).store = A.serial i (A.data s)) ∨
    (¬ A.AllFresh (start s task) order ∧
      A.Overwritten (A.data s) (run P (start s task) (interleave e order)).store) := by
  rcases A.progress_run (.early rfl fun i => Or.inl (hstart i)) order hdone with
    hserial | ⟨before, j, after, h⟩
  · exact Or.inl hserial
  · refine Or.inr ⟨fun hall => ?_, !j, h.data_end, h.commit.stale_ne⟩
    exact h.commit.not_fresh ((h.guarded_iff fun _ _ hfresh => hfresh).mp hall)

end Account

end TwoPhase
