import CampusHire.WorkQueue

/-!
# A consumer that takes one message at a time

The loop of a consumer takes the first message of the queue, runs its handler to the end and
settles the message before it takes the next.  A handler that raises has its message settled
too, but the exception ends the loop.  A crash ends it as well, and puts the message in hand
back to the front.  Then nothing is handled until the consumer is started again.

Such a loop does only what `WorkQueue` allows (`refines_run`), and it keeps the order in which
the messages came (`messages_run`).  A `Story` is what the handlers write into a log; the log of
the whole run tells the messages one after the other (`told_run`).
-/

namespace SequentialConsumer

open WorkQueue (Service Place)

variable {σ μ τ ε ω : Type*}

inductive Loop (μ τ : Type*) where
  | waiting
  | handling (m : μ) (t : τ)
  | ended

/-- The message in hand. -/
def Loop.hand : Loop μ τ → List μ
  | .handling m _ => [m]
  | .waiting | .ended => []

/-- The settled messages, each with how its handler ended, the loop, and the queue. -/
structure Config (σ μ τ : Type*) where
  store : σ
  settled : List (μ × τ)
  loop : Loop μ τ
  queue : List μ

inductive Choice (ε ω : Type*) where
  | elsewhere (w : ω)
  | deliver
  | handle (e : ε)
  | settle
  | crash
  | restart

section Run

variable (S : Service σ μ τ ε ω) (raises : τ → Bool)

/-- A choice that is not there to be taken leaves everything as it is. -/
def advance (c : Config σ μ τ) : Choice ε ω → Config σ μ τ
  | .elsewhere w =>
      { c with store := (S.elsewhere w c.store).1, queue := c.queue ++ (S.elsewhere w c.store).2 }
  | .deliver =>
      match c.loop, c.queue with
      | .waiting, m :: rest => { c with loop := .handling m S.begin, queue := rest }
      | _, _ => c
  | .handle e =>
      match c.loop with
      | .handling m t =>
        { c with store := (S.step e m c.store t).1, loop := .handling m (S.step e m c.store t).2 }
      | _ => c
  | .settle =>
      match c.loop with
      | .handling m t =>
        if S.ended t then
          { c with settled := c.settled ++ [(m, t)], loop := if raises t then .ended else .waiting }
        else c
      | _ => c
  | .crash => { c with loop := .ended, queue := c.loop.hand ++ c.queue }
  | .restart =>
      match c.loop with
      | .ended => { c with loop := .waiting }
      | _ => c

def run (c : Config σ μ τ) (choices : List (Choice ε ω)) : Config σ μ τ :=
  choices.foldl (advance S raises) c

@[simp] theorem run_cons (c : Config σ μ τ) (choice : Choice ε ω) (choices : List (Choice ε ω)) :
    run S raises c (choice :: choices) = run S raises (advance S raises c choice) choices := rfl

/-- What every choice keeps, a run keeps. -/
theorem run_preserves (I : Config σ μ τ → Prop) (permitted : Choice ε ω → Prop)
    (hstep : ∀ c choice, permitted choice → I c → I (advance S raises c choice))
    {c : Config σ μ τ} {choices : List (Choice ε ω)} (hpermitted : ∀ choice ∈ choices,
      permitted choice) (h : I c) : I (run S raises c choices) := by
  induction choices generalizing c with
  | nil => exact h
  | cons choice rest ih =>
    rw [run_cons]
    apply ih
    · intro later hlater
      exact hpermitted later (List.mem_cons_of_mem _ hlater)
    · exact hstep c choice (hpermitted choice List.mem_cons_self) h

/-! ## The order of the messages -/

/-- The messages that the handlers have not settled. -/
def Config.pending (c : Config σ μ τ) : List μ := c.loop.hand ++ c.queue

theorem Config.pending_of_handling {c : Config σ μ τ} {m : μ} {t : τ}
    (hloop : c.loop = .handling m t) : c.pending = m :: c.queue := by
  rw [Config.pending, hloop, Loop.hand, List.singleton_append]

/-- All messages, in the order in which they came. -/
def Config.messages (c : Config σ μ τ) : List μ := c.settled.map Prod.fst ++ c.pending

/-- The messages that a choice sends. -/
def sent (c : Config σ μ τ) : Choice ε ω → List μ
  | .elsewhere w => (S.elsewhere w c.store).2
  | _ => []

theorem messages_advance (c : Config σ μ τ) (choice : Choice ε ω) :
    (advance S raises c choice).messages = c.messages ++ sent S c choice := by
  cases choice with
  | elsewhere w => simp [advance, Config.messages, Config.pending, sent]
  | deliver =>
    simp only [advance, sent, List.append_nil]
    split
    · rename_i m rest hloop hqueue
      simp [Config.messages, Config.pending, hloop, hqueue, Loop.hand]
    · rfl
  | handle e =>
    simp only [advance, sent, List.append_nil]
    split
    · rename_i m t hloop
      simp [Config.messages, Config.pending, hloop, Loop.hand]
    · rfl
  | settle =>
    simp only [advance, sent, List.append_nil]
    split
    · rename_i m t hloop
      split
      · split <;> simp [Config.messages, Config.pending, hloop, Loop.hand]
      · rfl
    · rfl
  | crash => simp [advance, Config.messages, Config.pending, sent, Loop.hand]
  | restart =>
    simp only [advance, sent, List.append_nil]
    split
    · rename_i hloop
      simp [Config.messages, Config.pending, hloop, Loop.hand]
    · rfl

/-! ## The loop as a queue -/

def Loop.entries : Loop μ τ → List (μ × Place Unit τ)
  | .handling m t => [(m, .unacknowledged () t)]
  | .waiting | .ended => []

/-- The places of the messages, in their order. -/
def Config.toQueue (c : Config σ μ τ) : WorkQueue.Config σ μ τ Unit where
  store := c.store
  messages := c.settled.map (fun entry => (entry.1, .settled)) ++ c.loop.entries ++
    c.queue.map fun m => (m, .queued)

/-- The message that the loop is at. -/
theorem toQueue_current (c : Config σ μ τ) (entry : μ × Place Unit τ)
    (entries : List (μ × Place Unit τ)) (h : c.loop.entries ++ c.queue.map (fun m => (m, .queued)) =
      entry :: entries) : c.toQueue.messages[c.settled.length]? = some entry ∧
      ∀ new, c.toQueue.messages.set c.settled.length new =
        c.settled.map (fun entry => (entry.1, .settled)) ++ new :: entries := by
  have hlength : (c.settled.map fun entry => (entry.1, (.settled : Place Unit τ))).length =
      c.settled.length := List.length_map _
  simp only [Config.toQueue, List.append_assoc, h]
  constructor
  · rw [List.getElem?_append_right (by rw [hlength]), hlength, Nat.sub_self]
    rfl
  · intro new
    rw [List.set_append_right _ _ (by rw [hlength]), hlength, Nat.sub_self]
    rfl

theorem refines_advance (c : Config σ μ τ) (choice : Choice ε ω) :
    ∃ choices, (advance S raises c choice).toQueue = WorkQueue.run S c.toQueue choices := by
  cases choice with
  | elsewhere w =>
    refine ⟨[.elsewhere w], ?_⟩
    simp [advance, Config.toQueue, WorkQueue.run, WorkQueue.advance]
  | deliver =>
    simp only [advance]
    split
    · rename_i m rest hloop hqueue
      refine ⟨[.deliver c.settled.length ()], ?_⟩
      obtain ⟨hget, hset⟩ := toQueue_current c (m, .queued)
        (rest.map fun m => (m, .queued)) (by rw [hloop, hqueue]; rfl)
      simp only [WorkQueue.run, List.foldl_cons, List.foldl_nil, WorkQueue.advance, hget, hset]
      simp [Config.toQueue, Loop.entries]
    · exact ⟨[], rfl⟩
  | handle e =>
    simp only [advance]
    split
    · rename_i m t hloop
      refine ⟨[.handle c.settled.length e], ?_⟩
      obtain ⟨hget, hset⟩ := toQueue_current c (m, .unacknowledged () t)
        (c.queue.map fun m => (m, .queued)) (by rw [hloop]; rfl)
      simp only [WorkQueue.run, List.foldl_cons, List.foldl_nil, WorkQueue.advance, hget, hset]
      simp [Config.toQueue, Loop.entries]
    · exact ⟨[], rfl⟩
  | settle =>
    simp only [advance]
    split
    · rename_i m t hloop
      split
      · rename_i hended
        refine ⟨[.settle c.settled.length], ?_⟩
        obtain ⟨hget, hset⟩ := toQueue_current c (m, .unacknowledged () t)
          (c.queue.map fun m => (m, .queued)) (by rw [hloop]; rfl)
        simp only [WorkQueue.run, List.foldl_cons, List.foldl_nil, WorkQueue.advance, hget,
          hended, if_true, hset]
        split <;> simp [Config.toQueue, Loop.entries]
      · exact ⟨[], rfl⟩
    · exact ⟨[], rfl⟩
  | crash =>
    refine ⟨[.crash ()], ?_⟩
    rcases hloop : c.loop with _ | ⟨m, t⟩ | _ <;>
      simp [advance, Config.toQueue, WorkQueue.run, WorkQueue.advance, hloop, Loop.entries,
        Loop.hand, WorkQueue.requeue, Function.comp_def]
  | restart =>
    refine ⟨[], ?_⟩
    simp only [advance]
    split
    · rename_i hloop
      simp [Config.toQueue, WorkQueue.run, hloop, Loop.entries]
    · rfl

/-- **The loop is one of the schedules of the queue.** -/
theorem refines_run (c : Config σ μ τ) (choices : List (Choice ε ω)) :
    ∃ choices', (run S raises c choices).toQueue = WorkQueue.run S c.toQueue choices' := by
  induction choices generalizing c with
  | nil => exact ⟨[], rfl⟩
  | cons choice rest ih =>
    obtain ⟨first, hfirst⟩ := refines_advance S raises c choice
    obtain ⟨others, hothers⟩ := ih (advance S raises c choice)
    refine ⟨first ++ others, ?_⟩
    rw [run_cons, hothers, hfirst, WorkQueue.run, WorkQueue.run, WorkQueue.run, List.foldl_append]

/-! ## Exceptions -/

/-- No message before the last settled one has raised, and if that one has, the loop has
    ended. -/
structure Orderly (c : Config σ μ τ) : Prop where
  before : ∀ entry ∈ c.settled.dropLast, raises entry.2 = false
  last : ∀ entry ∈ c.settled.getLast?, raises entry.2 = true → c.loop = .ended

theorem orderly_of_unsettled {c : Config σ μ τ} (h : c.settled = []) : Orderly raises c := by
  constructor
  · intro entry hentry
    rw [h] at hentry
    cases hentry
  · intro entry hentry
    rw [h] at hentry
    cases hentry

/-- An exception has ended the loop. -/
theorem Orderly.ended_of_raised {c : Config σ μ τ} (h : Orderly raises c) {entry : μ × τ}
    (hentry : entry ∈ c.settled) (hraised : raises entry.2 = true) : c.loop = .ended := by
  rcases List.eq_nil_or_concat c.settled with hnil | ⟨past, last, hsettled⟩
  · rw [hnil] at hentry
    cases hentry
  have hbefore := h.before
  have hlast := h.last
  rw [hsettled, List.concat_eq_append, List.dropLast_concat] at hbefore
  rw [hsettled, List.concat_eq_append, List.getLast?_concat] at hlast
  rw [hsettled, List.concat_eq_append, List.mem_append, List.mem_singleton] at hentry
  rcases hentry with hold | rfl
  · rw [hbefore entry hold] at hraised
    cases hraised
  · exact hlast entry rfl hraised

/-- Until it is started again, a loop gets past no exception. -/
theorem orderly_advance {c : Config σ μ τ} (h : Orderly raises c) {choice : Choice ε ω}
    (hchoice : choice ≠ .restart) : Orderly raises (advance S raises c choice) := by
  cases choice with
  | elsewhere w => exact ⟨h.before, h.last⟩
  | deliver =>
    simp only [advance]
    split
    · rename_i m rest hloop hqueue
      refine ⟨h.before, ?_⟩
      intro entry hentry hraises
      rw [h.last entry hentry hraises] at hloop
      cases hloop
    · exact h
  | handle e =>
    simp only [advance]
    split
    · rename_i m t hloop
      refine ⟨h.before, ?_⟩
      intro entry hentry hraises
      rw [h.last entry hentry hraises] at hloop
      cases hloop
    · exact h
  | settle =>
    simp only [advance]
    split
    · rename_i m t hloop
      split
      · constructor
        · -- the loop was going, so none of the messages before has raised
          intro entry hentry
          rw [List.dropLast_concat] at hentry
          by_contra hraises
          rw [h.ended_of_raised raises hentry (Bool.not_eq_false _ ▸ hraises)] at hloop
          cases hloop
        · intro entry hentry hraises
          rw [List.getLast?_concat, Option.mem_some_iff] at hentry
          subst hentry
          exact if_pos hraises
      · exact h
    · exact h
  | crash => exact ⟨h.before, fun _ _ _ => rfl⟩
  | restart => exact absurd rfl hchoice

/-- In a run without a restart. -/
theorem orderly_run {c : Config σ μ τ} (h : Orderly raises c) {choices : List (Choice ε ω)}
    (hchoices : ∀ choice ∈ choices, choice ≠ .restart) :
    Orderly raises (run S raises c choices) :=
  run_preserves S raises (Orderly raises) (fun choice => choice ≠ .restart)
    (fun _ _ hchoice h' => orderly_advance S raises h' hchoice) hchoices h

end Run

/-! ## What the handlers tell -/

/-- The messages told one after the other: each by rows that show it, and by one at least if
    its handler has not raised. -/
inductive Chronicle {ρ : Type*} (shows : μ → ρ → Prop) (raises : τ → Bool) :
    List (μ × τ) → List ρ → Prop
  | nil : Chronicle shows raises [] []
  | snoc {past : List (μ × τ)} {told more : List ρ} (m : μ) (t : τ)
      (htold : Chronicle shows raises past told) (hshows : ∀ row ∈ more, shows m row)
      (hmore : raises t = false → more ≠ []) :
      Chronicle shows raises (past ++ [(m, t)]) (told ++ more)

/-- An invariant of the store, what is known of a message and of the handler at work on it, and
    the log to which the handlers append what shows their message.  A handler that has not
    raised when it ends has `stored` something. -/
structure Story (S : Service σ μ τ ε ω) (raises : τ → Bool) (ρ : Type*) where
  inv : σ → Prop
  own : μ → Prop
  knows : μ → τ → σ → Prop
  rows : σ → List ρ
  shows : μ → ρ → Prop
  stored : τ → Bool
  elsewhere_inv : ∀ w s, inv s → inv (S.elsewhere w s).1
  elsewhere_own : ∀ w s, inv s → ∀ m ∈ (S.elsewhere w s).2, own m
  elsewhere_knows : ∀ w s m t, knows m t s → knows m t (S.elsewhere w s).1
  elsewhere_rows : ∀ w s, rows (S.elsewhere w s).1 = rows s
  begin_knows : ∀ m s, knows m S.begin s
  begin_stored : stored S.begin = false
  step_inv : ∀ e m s t, inv s → inv (S.step e m s t).1
  step_knows : ∀ e m s t, own m → knows m t s → knows m (S.step e m s t).2 (S.step e m s t).1
  step_rows : ∀ e m s t, own m → knows m t s → ∃ new, rows (S.step e m s t).1 = rows s ++ new ∧
    (∀ row ∈ new, shows m row) ∧
    (stored (S.step e m s t).2 = true → stored t = true ∨ new ≠ [])
  ended_stored : ∀ m s t, S.ended t = true → raises t = false → knows m t s → stored t = true

namespace Story

variable {S : Service σ μ τ ε ω} {raises : τ → Bool} {ρ : Type*} (A : Story S raises ρ)

/-- The log tells the settled messages, and then what handlers have stored of the first of the
    others. -/
structure Told (c : Config σ μ τ) (told more : List ρ) : Prop where
  rows : A.rows c.store = told ++ more
  settled : Chronicle A.shows raises c.settled told
  pending : more ≠ [] → c.pending ≠ []
  shows : ∀ m ∈ c.pending.head?, ∀ row ∈ more, A.shows m row
  stored : ∀ m t, c.loop = .handling m t → A.stored t = true → more ≠ []

structure Holds (c : Config σ μ τ) : Prop where
  inv : A.inv c.store
  own : ∀ m ∈ c.pending, A.own m
  knows : ∀ m t, c.loop = .handling m t → A.knows m t c.store
  told : ∃ told more, A.Told c told more

/-- A choice that neither runs a handler nor settles a message only moves messages. -/
theorem Holds.of_pending {A : Story S raises ρ} {c c' : Config σ μ τ} (h : A.Holds c)
    (hstore : c'.store = c.store) (hsettled : c'.settled = c.settled)
    (hpending : c'.pending = c.pending) (hloop : ∀ m t, c'.loop = .handling m t → t = S.begin) :
    A.Holds c' := by
  obtain ⟨told, more, htold⟩ := h.told
  refine ⟨?_, ?_, ?_, told, more, ?_, ?_, ?_, ?_, ?_⟩
  · rw [hstore]
    exact h.inv
  · rw [hpending]
    exact h.own
  · intro m t hhandling
    rw [hloop m t hhandling]
    exact A.begin_knows m c'.store
  · rw [hstore]
    exact htold.rows
  · rw [hsettled]
    exact htold.settled
  · rw [hpending]
    exact htold.pending
  · rw [hpending]
    exact htold.shows
  · intro m t hhandling hstored
    rw [hloop m t hhandling, A.begin_stored] at hstored
    cases hstored

theorem holds_elsewhere {c : Config σ μ τ} (w : ω) (h : A.Holds c) :
    A.Holds (advance S raises c (.elsewhere w)) := by
  obtain ⟨told, more, htold⟩ := h.told
  have hpending : (advance S raises c (.elsewhere w)).pending =
      c.pending ++ (S.elsewhere w c.store).2 := (List.append_assoc ..).symm
  refine ⟨A.elsewhere_inv w _ h.inv, ?_, ?_, told, more,
    (A.elsewhere_rows w _).trans htold.rows, htold.settled, ?_, ?_, htold.stored⟩
  · intro m hm
    rw [hpending] at hm
    rcases List.mem_append.mp hm with hold | hnew
    · exact h.own m hold
    · exact A.elsewhere_own w _ h.inv m hnew
  · intro m t hloop
    exact A.elsewhere_knows w _ m t (h.knows m t hloop)
  · intro hmore
    rw [hpending]
    exact List.append_ne_nil_of_left_ne_nil (htold.pending hmore) _
  · intro m hm row hrow
    rw [hpending, List.head?_append_of_ne_nil _ (htold.pending (List.ne_nil_of_mem hrow))] at hm
    exact htold.shows m hm row hrow

/-- What the handler has stored of its message goes to the end of the log. -/
theorem holds_handle {c : Config σ μ τ} (e : ε) {m : μ} {t : τ} (hloop : c.loop = .handling m t)
    (h : A.Holds c) :
    A.Holds { c with
      store := (S.step e m c.store t).1, loop := .handling m (S.step e m c.store t).2 } := by
  obtain ⟨told, more, htold⟩ := h.told
  have hpending := Config.pending_of_handling hloop
  have hown : A.own m := h.own m (hpending ▸ List.mem_cons_self)
  have hknows := h.knows m t hloop
  obtain ⟨new, hrows, hshows, hstored⟩ := A.step_rows e m c.store t hown hknows
  refine ⟨A.step_inv e m _ t h.inv, ?_, ?_, told, more ++ new, ?_, htold.settled, ?_, ?_, ?_⟩
  · exact fun m' hm' => h.own m' (hpending ▸ hm')
  · rintro m' t' ⟨⟩
    exact A.step_knows e m _ t hown hknows
  · rw [hrows, htold.rows, List.append_assoc]
  · exact fun _ hnil => by cases hnil
  · rintro m' ⟨⟩ row hrow
    rcases List.mem_append.mp hrow with hold | hnew
    · exact htold.shows m (hpending ▸ rfl) row hold
    · exact hshows row hnew
  · rintro m' t' ⟨⟩ hstored'
    rcases hstored hstored' with hbefore | hnew
    · exact List.append_ne_nil_of_left_ne_nil (htold.stored m t hloop hbefore) _
    · exact List.append_ne_nil_of_right_ne_nil _ hnew

/-- A settled message has been told: the loop holds none, whether it goes on or ends. -/
theorem holds_settle {c : Config σ μ τ} {m : μ} {t : τ} (hloop : c.loop = .handling m t)
    (hended : S.ended t = true) (h : A.Holds c) {loop : Loop μ τ} (hhand : loop.hand = []) :
    A.Holds { c with settled := c.settled ++ [(m, t)], loop } := by
  obtain ⟨told, more, htold⟩ := h.told
  have hpending := Config.pending_of_handling hloop
  have hidle : ∀ m' t', loop ≠ .handling m' t' := by
    rintro m' t' rfl
    cases hhand
  refine ⟨h.inv, ?_, ?_, told ++ more, [], ?_, ?_, ?_, ?_, ?_⟩
  · intro m' hm'
    simp only [Config.pending, hhand, List.nil_append] at hm'
    exact h.own m' (hpending ▸ List.mem_cons_of_mem _ hm')
  · exact fun m' t' heq => absurd heq (hidle m' t')
  · rw [htold.rows, List.append_nil]
  · refine .snoc m t htold.settled (htold.shows m (hpending ▸ rfl)) ?_
    intro hraises
    exact htold.stored m t hloop
      (A.ended_stored m c.store t hended hraises (h.knows m t hloop))
  · exact fun hnil => absurd rfl hnil
  · intro m' _ row hrow
    cases hrow
  · exact fun m' t' heq => absurd heq (hidle m' t')

theorem holds_advance {c : Config σ μ τ} (choice : Choice ε ω) (h : A.Holds c) :
    A.Holds (advance S raises c choice) := by
  cases choice with
  | elsewhere w => exact A.holds_elsewhere w h
  | deliver =>
    simp only [advance]
    split
    · rename_i m rest hloop hqueue
      refine h.of_pending rfl rfl ?_ ?_
      · simp [Config.pending, hloop, hqueue, Loop.hand]
      · rintro m' t' ⟨⟩
        rfl
    · exact h
  | handle e =>
    simp only [advance]
    split
    · rename_i m t hloop
      exact A.holds_handle e hloop h
    · exact h
  | settle =>
    simp only [advance]
    split
    · rename_i m t hloop
      split
      · rename_i hended
        exact A.holds_settle hloop hended h (by split <;> rfl)
      · exact h
    · exact h
  | crash =>
    refine h.of_pending rfl rfl rfl ?_
    intro m t hhandling
    cases hhandling
  | restart =>
    simp only [advance]
    split
    · rename_i hloop
      refine h.of_pending rfl rfl ?_ ?_
      · simp [Config.pending, hloop, Loop.hand]
      · intro m t hhandling
        cases hhandling
    · exact h

/-- **Whatever happens to the consumer, the log tells the messages in their order.** -/
theorem told_run {c : Config σ μ τ} (h : A.Holds c) (choices : List (Choice ε ω)) :
    A.Holds (run S raises c choices) := by
  induction choices generalizing c with
  | nil => exact h
  | cons choice rest ih => exact ih (A.holds_advance choice h)

/-- **An ended loop tells nothing** until it is started again: the messages wait. -/
theorem silent_of_ended {c : Config σ μ τ} (h : c.loop = .ended) {choices : List (Choice ε ω)}
    (hchoices : ∀ choice ∈ choices, choice ≠ .restart) :
    (run S raises c choices).loop = .ended ∧
      (run S raises c choices).settled = c.settled ∧
      A.rows (run S raises c choices).store = A.rows c.store ∧
      c.queue <+: (run S raises c choices).queue := by
  refine run_preserves S raises (fun c' => c'.loop = .ended ∧ c'.settled = c.settled ∧
    A.rows c'.store = A.rows c.store ∧ c.queue <+: c'.queue) (fun choice => choice ≠ .restart) ?_
    hchoices ⟨h, rfl, rfl, List.prefix_rfl⟩
  rintro c' choice hchoice ⟨hloop, hsettled, hrows, hqueue⟩
  cases choice with
  | restart => exact absurd rfl hchoice
  | elsewhere w =>
    exact ⟨hloop, hsettled, (A.elsewhere_rows w _).trans hrows,
      hqueue.trans (List.prefix_append _ _)⟩
  | crash =>
    simp only [advance, hloop, Loop.hand, List.nil_append]
    exact ⟨trivial, hsettled, hrows, hqueue⟩
  | deliver | handle | settle =>
    simp only [advance, hloop]
    exact ⟨trivial, hsettled, hrows, hqueue⟩

end Story

end SequentialConsumer
