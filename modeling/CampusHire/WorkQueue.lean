import Mathlib.Algebra.BigOperators.Group.List.Basic
import Mathlib.Tactic.Abel

/-!
# A durable queue with acknowledgements

A queue keeps its messages until a consumer has acknowledged or rejected them, so each
is delivered at least once: a message whose consumer crashes goes back to the queue.
Consumers work in small steps on a store that they share with the rest of the system,
which also sends the messages.  Which message is delivered to whom, when a handler
steps and when a consumer crashes is a list of choices, and a property of all lists of
choices is a property of all interleavings.

Two proof rules follow.  An `Annotation` is an invariant of the store with an assertion
for each message, kept by every step that a condition permits.  A `Balance` says that two
quantities of the store differ by the shares of the messages, each of which depends on
how far its handler has come; since a settled message has its final share, a queue that
has run empty determines the difference.
-/

namespace WorkQueue

variable {σ μ τ κ ε ω : Type*}

/-- A message waits, is with a consumer that has not settled it yet, or is gone. -/
inductive Place (κ τ : Type*) where
  | queued
  | unacknowledged (consumer : κ) (handler : τ)
  | settled

instance decidableSettled : ∀ place : Place κ τ, Decidable (place = .settled)
  | .settled => isTrue rfl
  | .queued | .unacknowledged .. => isFalse nofun

/-- The code of the handlers, and of the rest of the system.  A handler that has ended
    waits for its message to be acknowledged or rejected. -/
structure Service (σ μ τ ε ω : Type*) where
  begin : τ
  step : ε → μ → σ → τ → σ × τ
  ended : τ → Bool
  elsewhere : ω → σ → σ × List μ

inductive Choice (κ ε ω : Type*) where
  | elsewhere (w : ω)
  | deliver (n : Nat) (consumer : κ)
  | handle (n : Nat) (e : ε)
  | settle (n : Nat)
  | crash (consumer : κ)

/-- The store, and every message that has been sent with the place where it is. -/
structure Config (σ μ τ κ : Type*) where
  store : σ
  messages : List (μ × Place κ τ)

/-- The consumer's messages go back to the queue. -/
def requeue [DecidableEq κ] (consumer : κ) : Place κ τ → Place κ τ
  | .unacknowledged k t => if k = consumer then .queued else .unacknowledged k t
  | place => place

/-- No message is queued or unacknowledged. -/
def Quiet (c : Config σ μ τ κ) : Prop := ∀ entry ∈ c.messages, entry.2 = .settled

instance decidableQuiet (c : Config σ μ τ κ) : Decidable (Quiet c) :=
  inferInstanceAs (Decidable (∀ entry ∈ c.messages, entry.2 = .settled))

section Run

variable [DecidableEq κ] (S : Service σ μ τ ε ω)

/-- A choice that is not there to be taken leaves everything as it is. -/
def advance (c : Config σ μ τ κ) : Choice κ ε ω → Config σ μ τ κ
  | .elsewhere w =>
      { store := (S.elsewhere w c.store).1
        messages := c.messages ++ (S.elsewhere w c.store).2.map fun m => (m, .queued) }
  | .deliver n consumer =>
      match c.messages[n]? with
      | some (m, .queued) =>
        { c with messages := c.messages.set n (m, .unacknowledged consumer S.begin) }
      | _ => c
  | .handle n e =>
      match c.messages[n]? with
      | some (m, .unacknowledged consumer t) =>
        { store := (S.step e m c.store t).1
          messages := c.messages.set n (m, .unacknowledged consumer (S.step e m c.store t).2) }
      | _ => c
  | .settle n =>
      match c.messages[n]? with
      | some (m, .unacknowledged _ t) =>
        if S.ended t then { c with messages := c.messages.set n (m, .settled) } else c
      | _ => c
  | .crash consumer =>
      { c with messages := c.messages.map fun entry => (entry.1, requeue consumer entry.2) }

def run (c : Config σ μ τ κ) (choices : List (Choice κ ε ω)) : Config σ μ τ κ :=
  choices.foldl (advance S) c

@[simp] theorem run_cons (c : Config σ μ τ κ) (choice : Choice κ ε ω)
    (choices : List (Choice κ ε ω)) :
    run S c (choice :: choices) = run S (advance S c choice) choices := rfl

/-! ## Conditions on steps -/

/-- What is asked of the steps of a run: of a handler's step, and of a message whose
    consumer crashes. -/
structure Condition (σ μ τ ε : Type*) where
  handle : ε → μ → σ → τ → Prop
  crash : μ → τ → Prop

def Condition.Unharmed (C : Condition σ μ τ ε) (consumer : κ) (m : μ) : Place κ τ → Prop
  | .unacknowledged k t => k = consumer → C.crash m t
  | _ => True

/-- The choice meets the condition. -/
def Condition.Permits (C : Condition σ μ τ ε) (c : Config σ μ τ κ) : Choice κ ε ω → Prop
  | .handle n e =>
      match c.messages[n]? with
      | some (m, .unacknowledged _ t) => C.handle e m c.store t
      | _ => True
  | .crash consumer => ∀ entry ∈ c.messages, C.Unharmed consumer entry.1 entry.2
  | _ => True

section Decide

variable {C : Condition σ μ τ ε} [∀ e m s t, Decidable (C.handle e m s t)]
  [∀ m t, Decidable (C.crash m t)]

instance decidableUnharmed (consumer : κ) (m : μ) :
    ∀ place : Place κ τ, Decidable (C.Unharmed consumer m place)
  | .unacknowledged k t => inferInstanceAs (Decidable (k = consumer → C.crash m t))
  | .queued | .settled => inferInstanceAs (Decidable True)

instance decidablePermits (c : Config σ μ τ κ) :
    ∀ choice : Choice κ ε ω, Decidable (C.Permits c choice)
  | .handle n e =>
      match h : c.messages[n]? with
      | some (m, .unacknowledged _ t) =>
          decidable_of_iff (C.handle e m c.store t) (by simp only [Condition.Permits, h])
      | some (_, .queued) | some (_, .settled) | none =>
          isTrue (by simp only [Condition.Permits, h])
  | .crash consumer =>
      inferInstanceAs (Decidable (∀ entry ∈ c.messages, C.Unharmed consumer entry.1 entry.2))
  | .elsewhere _ | .deliver .. | .settle _ => inferInstanceAs (Decidable True)

end Decide

/-- Every choice of the run meets the condition when it is taken. -/
def Guarded (C : Condition σ μ τ ε) : Config σ μ τ κ → List (Choice κ ε ω) → Prop
  | _, [] => True
  | c, choice :: choices => C.Permits c choice ∧ Guarded C (advance S c choice) choices

omit [DecidableEq κ] in
theorem Condition.Permits.handle {C : Condition σ μ τ ε} {c : Config σ μ τ κ} {n : Nat} {e : ε}
    {m : μ} {consumer : κ} {t : τ} (h : C.Permits c (.handle n e : Choice κ ε ω))
    (hn : c.messages[n]? = some (m, .unacknowledged consumer t)) : C.handle e m c.store t := by
  simpa only [Permits, hn] using h

instance decidableGuarded {C : Condition σ μ τ ε} [∀ e m s t, Decidable (C.handle e m s t)]
    [∀ m t, Decidable (C.crash m t)] :
    ∀ (c : Config σ μ τ κ) (choices : List (Choice κ ε ω)), Decidable (Guarded S C c choices)
  | _, [] => inferInstanceAs (Decidable True)
  | c, choice :: choices =>
    have : Decidable (Guarded S C (advance S c choice) choices) := decidableGuarded _ choices
    inferInstanceAs (Decidable (_ ∧ _))

/-- **Guarded run rule.** -/
theorem run_guarded {C : Condition σ μ τ ε} {I : Config σ μ τ κ → Prop}
    (hstep : ∀ c choice, I c → C.Permits c choice → I (advance S c choice)) :
    ∀ {c : Config σ μ τ κ} (choices : List (Choice κ ε ω)), I c → Guarded S C c choices →
      I (run S c choices) := by
  intro c choices
  induction choices generalizing c with
  | nil =>
    intro h0 _
    exact h0
  | cons choice rest ih =>
    intro h0 hguard
    rw [run_cons]
    exact ih (hstep c choice h0 hguard.1) hguard.2

end Run

/-! ## Assertions about messages -/

/-- An invariant of the store, and what is known of each message in the place where it is.
    A step keeps what is known of the other messages (`step_other`). -/
structure Annotation (S : Service σ μ τ ε ω) (κ : Type*) (C : Condition σ μ τ ε) where
  inv : σ → Prop
  own : μ → Place κ τ → σ → Prop
  elsewhere_inv : ∀ w s, inv s → inv (S.elsewhere w s).1
  elsewhere_new : ∀ w s, inv s → ∀ m ∈ (S.elsewhere w s).2, own m .queued (S.elsewhere w s).1
  elsewhere_other : ∀ w s m place, inv s → own m place s → own m place (S.elsewhere w s).1
  deliver_own : ∀ s m k, own m .queued s → own m (.unacknowledged k S.begin) s
  step_inv : ∀ e m s k t, inv s → own m (.unacknowledged k t) s → C.handle e m s t →
    inv (S.step e m s t).1
  step_own : ∀ e m s k t, inv s → own m (.unacknowledged k t) s → C.handle e m s t →
    own m (.unacknowledged k (S.step e m s t).2) (S.step e m s t).1
  step_other : ∀ e m s k t m' place, inv s → own m (.unacknowledged k t) s → C.handle e m s t →
    own m' place s → own m' place (S.step e m s t).1
  settle_own : ∀ s m k t, S.ended t = true → own m (.unacknowledged k t) s → own m .settled s
  crash_own : ∀ s m k t, C.crash m t → own m (.unacknowledged k t) s → own m .queued s

namespace Annotation

variable {S : Service σ μ τ ε ω} {C : Condition σ μ τ ε} (A : Annotation S κ C)

structure Holds (c : Config σ μ τ κ) : Prop where
  inv : A.inv c.store
  own : ∀ entry ∈ c.messages, A.own entry.1 entry.2 c.store

theorem own_at {c : Config σ μ τ κ} (h : A.Holds c) {n : Nat} {m : μ} {place : Place κ τ}
    (hn : c.messages[n]? = some (m, place)) : A.own m place c.store :=
  h.own (m, place) (List.mem_of_getElem? hn)

/-- One message in a new place. -/
theorem own_set {s : σ} {messages : List (μ × Place κ τ)} {n : Nat} {m : μ} {place : Place κ τ}
    (h : ∀ entry ∈ messages, A.own entry.1 entry.2 s) (hnew : A.own m place s) :
    ∀ entry ∈ messages.set n (m, place), A.own entry.1 entry.2 s := by
  intro entry hentry
  rcases List.mem_or_eq_of_mem_set hentry with hold | rfl
  · exact h entry hold
  · exact hnew

variable [DecidableEq κ]

theorem own_requeue {s : σ} {m : μ} {place : Place κ τ} {consumer : κ}
    (h : A.own m place s) (hcrash : C.Unharmed consumer m place) :
    A.own m (requeue consumer place) s := by
  cases place with
  | unacknowledged k t =>
    by_cases hk : k = consumer
    · subst hk
      rw [requeue, if_pos rfl]
      exact A.crash_own s m k t (hcrash rfl) h
    · rw [requeue, if_neg hk]
      exact h
  | queued => exact h
  | settled => exact h

theorem holds_advance {c : Config σ μ τ κ} (choice : Choice κ ε ω) (h : A.Holds c)
    (hpermits : C.Permits c choice) : A.Holds (advance S c choice) := by
  cases choice with
  | elsewhere w =>
    refine ⟨A.elsewhere_inv w _ h.inv, ?_⟩
    intro entry hentry
    rcases List.mem_append.mp hentry with hold | hnew
    · exact A.elsewhere_other w _ _ _ h.inv (h.own entry hold)
    · obtain ⟨m, hm, rfl⟩ := List.mem_map.mp hnew
      exact A.elsewhere_new w _ h.inv m hm
  | deliver n consumer =>
    simp only [advance]
    split
    · rename_i m hn
      exact ⟨h.inv, A.own_set h.own (A.deliver_own _ _ _ (A.own_at h hn))⟩
    · exact h
  | handle n e =>
    simp only [advance]
    split
    · rename_i m consumer t hn
      have hown := A.own_at h hn
      have hcond := hpermits.handle hn
      refine ⟨A.step_inv e m _ consumer t h.inv hown hcond, A.own_set ?_ ?_⟩
      · intro entry hentry
        exact A.step_other e m _ consumer t _ _ h.inv hown hcond (h.own entry hentry)
      · exact A.step_own e m _ consumer t h.inv hown hcond
    · exact h
  | settle n =>
    simp only [advance]
    split
    · rename_i m consumer t hn
      split
      · rename_i hended
        exact ⟨h.inv, A.own_set h.own (A.settle_own _ _ _ _ hended (A.own_at h hn))⟩
      · exact h
    · exact h
  | crash consumer =>
    refine ⟨h.inv, ?_⟩
    intro entry hentry
    obtain ⟨old, hold, rfl⟩ := List.mem_map.mp hentry
    exact A.own_requeue (h.own old hold) (hpermits old hold)

theorem holds_run {c : Config σ μ τ κ} (h : A.Holds c) (choices : List (Choice κ ε ω))
    (hguard : Guarded S C c choices) : A.Holds (run S c choices) :=
  run_guarded S (fun _ choice h' hpermits => A.holds_advance choice h' hpermits) choices h hguard

end Annotation

/-! ## Balances -/

theorem sum_set {M : Type*} [AddCommMonoid M] {α : Type*} (f : α → M) {entries : List α} {n : Nat}
    {old : α} (new : α) (h : entries[n]? = some old) :
    ((entries.set n new).map f).sum + f old = (entries.map f).sum + f new := by
  induction entries generalizing n with
  | nil => simp at h
  | cons head rest ih =>
    cases n with
    | zero =>
      have hhead : head = old := by simpa using h
      subst hhead
      simp only [List.set_cons_zero, List.map_cons, List.sum_cons]
      abel
    | succ n =>
      simp only [List.set_cons_succ, List.map_cons, List.sum_cons, add_assoc]
      rw [ih (by simpa using h)]

/-- `due` is what the store has `paid`, and the shares of the messages on top of it. -/
structure Balance {S : Service σ μ τ ε ω} {C : Condition σ μ τ ε} (A : Annotation S κ C)
    (M : Type*) [AddCancelCommMonoid M] where
  due : σ → M
  paid : σ → M
  share : μ → Place κ τ → M
  elsewhere_due : ∀ w s, due (S.elsewhere w s).1 = due s
  elsewhere_paid : ∀ w s, paid (S.elsewhere w s).1 = paid s
  queued_share : ∀ m, share m .queued = 0
  deliver_share : ∀ m k, share m (.unacknowledged k S.begin) = 0
  step_share : ∀ e m s k t, A.inv s → A.own m (.unacknowledged k t) s → C.handle e m s t →
    due (S.step e m s t).1 + paid s + share m (.unacknowledged k t) =
      due s + paid (S.step e m s t).1 + share m (.unacknowledged k (S.step e m s t).2)
  settle_share : ∀ s m k t, S.ended t = true → A.own m (.unacknowledged k t) s →
    share m .settled = share m (.unacknowledged k t)
  crash_share : ∀ m k t, C.crash m t → share m (.unacknowledged k t) = 0

namespace Balance

variable {S : Service σ μ τ ε ω} {C : Condition σ μ τ ε} {A : Annotation S κ C} {M : Type*}
  [AddCancelCommMonoid M] (B : Balance A M)

def shares (messages : List (μ × Place κ τ)) : M :=
  (messages.map fun entry => B.share entry.1 entry.2).sum

def Balanced (c : Config σ μ τ κ) : Prop := B.due c.store = B.paid c.store + B.shares c.messages

/-- A message with the same share in its new place. -/
theorem shares_set {messages : List (μ × Place κ τ)} {n : Nat} {m : μ} {old new : Place κ τ}
    (hn : messages[n]? = some (m, old)) (hshare : B.share m new = B.share m old) :
    B.shares (messages.set n (m, new)) = B.shares messages := by
  have hsum := sum_set (fun entry : μ × Place κ τ => B.share entry.1 entry.2) (m, new) hn
  rw [hshare] at hsum
  exact add_right_cancel hsum

theorem shares_queued (messages : List μ) :
    B.shares (messages.map fun m => (m, (.queued : Place κ τ))) = 0 := by
  induction messages with
  | nil => rfl
  | cons m rest ih =>
    rw [shares] at ih ⊢
    rw [List.map_cons, List.map_cons, List.sum_cons, ih, B.queued_share, add_zero]

theorem shares_append_queued (messages : List (μ × Place κ τ)) (new : List μ) :
    B.shares (messages ++ new.map fun m => (m, (.queued : Place κ τ))) = B.shares messages := by
  have hnew := B.shares_queued (κ := κ) new
  rw [shares] at hnew
  rw [shares, List.map_append, List.sum_append, hnew, add_zero, ← shares]

/-- A step of a handler pays what it makes due, or leaves it in the message's share. -/
theorem balanced_step {c : Config σ μ τ κ} {n : Nat} {e : ε} {m : μ} {consumer : κ} {t : τ}
    (hn : c.messages[n]? = some (m, .unacknowledged consumer t)) (hbalanced : B.Balanced c)
    (hstep : B.due (S.step e m c.store t).1 + B.paid c.store +
        B.share m (.unacknowledged consumer t) =
      B.due c.store + B.paid (S.step e m c.store t).1 +
        B.share m (.unacknowledged consumer (S.step e m c.store t).2)) :
    B.due (S.step e m c.store t).1 = B.paid (S.step e m c.store t).1 +
      B.shares (c.messages.set n (m, .unacknowledged consumer (S.step e m c.store t).2)) := by
  have hsum := sum_set (fun entry : μ × Place κ τ => B.share entry.1 entry.2)
    (m, .unacknowledged consumer (S.step e m c.store t).2) hn
  rw [← shares, ← shares] at hsum
  rw [Balanced] at hbalanced
  apply add_right_cancel (b := B.paid c.store + B.share m (.unacknowledged consumer t))
  calc B.due (S.step e m c.store t).1 + (B.paid c.store + B.share m (.unacknowledged consumer t))
      = B.due c.store + B.paid (S.step e m c.store t).1 +
          B.share m (.unacknowledged consumer (S.step e m c.store t).2) := by
        rw [← add_assoc, hstep]
    _ = B.paid c.store + B.paid (S.step e m c.store t).1 +
          (B.shares c.messages +
            B.share m (.unacknowledged consumer (S.step e m c.store t).2)) := by
        rw [hbalanced]
        abel
    _ = _ := by
        rw [← hsum]
        abel

variable [DecidableEq κ]

theorem share_requeue {m : μ} {place : Place κ τ} {consumer : κ}
    (hcrash : C.Unharmed consumer m place) :
    B.share m (requeue consumer place) = B.share m place := by
  cases place with
  | unacknowledged k t =>
    by_cases hk : k = consumer
    · subst hk
      rw [requeue, if_pos rfl, B.queued_share, B.crash_share m k t (hcrash rfl)]
    · rw [requeue, if_neg hk]
  | queued => rfl
  | settled => rfl

theorem shares_requeue {messages : List (μ × Place κ τ)} {consumer : κ}
    (hcrash : ∀ entry ∈ messages, C.Unharmed consumer entry.1 entry.2) :
    B.shares (messages.map fun entry => (entry.1, requeue consumer entry.2)) =
      B.shares messages := by
  rw [shares, shares, List.map_map]
  apply congrArg List.sum
  apply List.map_congr_left
  intro entry hentry
  exact B.share_requeue (hcrash entry hentry)

theorem balanced_advance {c : Config σ μ τ κ} (choice : Choice κ ε ω) (h : A.Holds c)
    (hbalanced : B.Balanced c) (hpermits : C.Permits c choice) :
    B.Balanced (advance S c choice) := by
  cases choice with
  | elsewhere w =>
    simp only [Balanced, advance, B.elsewhere_due, B.elsewhere_paid, B.shares_append_queued]
    exact hbalanced
  | deliver n consumer =>
    simp only [advance]
    split
    · rename_i m hn
      have hshare : B.share m (.unacknowledged consumer S.begin) = B.share m .queued := by
        rw [B.deliver_share, B.queued_share]
      rw [Balanced, B.shares_set hn hshare]
      exact hbalanced
    · exact hbalanced
  | handle n e =>
    simp only [advance]
    split
    · rename_i m consumer t hn
      exact B.balanced_step hn hbalanced
        (B.step_share e m _ consumer t h.inv (A.own_at h hn) (hpermits.handle hn))
    · exact hbalanced
  | settle n =>
    simp only [advance]
    split
    · rename_i m consumer t hn
      split
      · rename_i hended
        rw [Balanced, B.shares_set hn (B.settle_share _ m consumer t hended (A.own_at h hn))]
        exact hbalanced
      · exact hbalanced
    · exact hbalanced
  | crash consumer =>
    rw [Balanced, advance, B.shares_requeue hpermits]
    exact hbalanced

theorem balanced_run {c : Config σ μ τ κ} (h : A.Holds c) (hbalanced : B.Balanced c)
    (choices : List (Choice κ ε ω)) (hguard : Guarded S C c choices) :
    B.Balanced (run S c choices) := by
  refine (run_guarded S (I := fun c => A.Holds c ∧ B.Balanced c) ?_ choices ⟨h, hbalanced⟩
    hguard).2
  rintro c' choice ⟨hholds, hbal⟩ hpermits
  exact ⟨A.holds_advance choice hholds hpermits, B.balanced_advance choice hholds hbal hpermits⟩

omit [DecidableEq κ] in
/-- **An empty queue settles the balance.** -/
theorem balanced_quiet {c : Config σ μ τ κ} (hbalanced : B.Balanced c) (hquiet : Quiet c) :
    B.due c.store =
      B.paid c.store + ((c.messages.map Prod.fst).map fun m => B.share m .settled).sum := by
  rw [Balanced, shares] at hbalanced
  rw [hbalanced, List.map_map]
  congr 2
  apply List.map_congr_left
  intro entry hentry
  rw [Function.comp_apply, hquiet entry hentry]

end Balance

end WorkQueue
