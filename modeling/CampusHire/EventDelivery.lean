import CampusHire.ApplicationTasks
import CampusHire.CommunicationsService

/-!
# Two services and a broker

The application service with its requests, and the communications service with any
number of runs of the consumer's loop body, each on a message of the broker's
choice.  The exchange is the only thing the two share.

A run of the loop body is taken as a thread of its own, and the process may end
before any of its steps, so what holds here does not depend on how many messages
the consumer handles at a time or on where it crashes.
-/

namespace CampusHire.EventDelivery

open CampusHire Schedule CommunicationsService
open CampusHire.ApplicationService (Application)

structure State where
  application : ApplicationService.State
  communications : CommunicationsService.State

structure Env where
  application : ApplicationService.Env
  communications : CommunicationsService.Env

inductive Handler where
  -- the consumer and `handle_domain_event`
  | consume
  | notify (note : Note)
  | notificationRefresh (id : UUID)
  | logDelivery (notificationId : UUID)
  -- `mark_read`
  | readNotification (notificationId userId : UUID)
  | readCommit (note : Notification)
  | readRefresh (id : UUID)
  -- the handler has ended, or its process has
  | handled (result : Except ServiceError Unit)
  | marked (result : Except ServiceError Notification)
  | crashed

inductive Task where
  | application (task : ApplicationService.Task)
  | communications (handler : Handler)

/-- What the two services are given to do. -/
inductive Job where
  | request (user : CurrentUser) (request : ApplicationService.Request)
  | message
  | markRead (user : CurrentUser) (notificationId : UUID)

def Task.start : Job → Task
  | .request user request => .application (ApplicationService.Task.start user request)
  | .message => .communications .consume
  | .markRead user notificationId => .communications (.readNotification notificationId user.id)

section Delivery

variable {Body : Type} (codec : Codec Body)

/-- The next step of a handler whose process is up. -/
def handlerStep (exchange : List DomainEvent) (env : CommunicationsService.Env)
    (s : CommunicationsService.State) : Handler → CommunicationsService.State × Handler
  | .consume =>
      match receive codec exchange env.message with
      | .error e => (s, .handled (.error e))
      | .ok none => (s, .handled (.ok ()))
      | .ok (some event) =>
        match noteOf event with
        | .error e => (s, .handled (.error e))
        | .ok none => (s, .handled (.ok ()))
        | .ok (some note) => (s, .notify note)
  | .notify note =>
      match insertNotification s env note with
      | .error e => (s, .handled (.error e))
      | .ok s' => (s', .notificationRefresh env.notificationId)
  | .notificationRefresh id =>
      match refresh s env id with
      | .error e => (s, .handled (.error e))
      | .ok note => (s, .logDelivery note.id)
  | .logDelivery notificationId =>
      match insertDeliveryLog s env notificationId with
      | .error e => (s, .handled (.error e))
      | .ok s' => (s', .handled (.ok ()))
  | .readNotification notificationId userId =>
      match findOwn s notificationId userId with
      | none => (s, .marked (.error (.http 404 "Not found")))
      | some note => (s, .readCommit note)
  | .readCommit note =>
      match commitRead s env note with
      | .error e => (s, .marked (.error e))
      | .ok s' => (s', .readRefresh note.id)
  | .readRefresh id => (s, .marked (refresh s env id))
  | .handled result => (s, .handled result)
  | .marked result => (s, .marked result)
  | .crashed => (s, .crashed)

def taskStep (env : Env) (s : State) : Task → State × Task
  | .application t =>
      let next := ApplicationService.taskStep env.application s.application t
      ({ s with application := next.1 }, .application next.2)
  | .communications handler =>
      if env.communications.crashes then (s, .communications .crashed)
      else
        let next := handlerStep codec s.application.published env.communications
          s.communications handler
        ({ s with communications := next.1 }, .communications next.2)

/-- The coroutines are those of the application service. -/
def Task.onLoop : Task → Bool
  | .application t => t.onLoop
  | .communications _ => false

def Task.running : Task → Bool
  | .application t => t.running
  | .communications _ => false

def program : Program State Task Env where
  step := taskStep codec
  onLoop := Task.onLoop
  running := Task.running
  running_onLoop := by
    intro t h
    cases t with
    | application t => exact ApplicationService.program.running_onLoop t h
    | communications handler => cases h
  offLoop_step := by
    intro env s t h
    cases t with
    | application t => exact ApplicationService.Task.offLoop_step env.application s.application t h
    | communications handler =>
      simp only [taskStep]
      split <;> rfl

theorem Task.start_not_running (job : Job) : (Task.start job).running = false := by
  cases job with
  | request user request => exact ApplicationService.Task.start_not_running user request
  | message => rfl
  | markRead user notificationId => rfl

/-- Any number of jobs, none of which has begun, on freshly created tables and an
    exchange that has received nothing. -/
def arrive {ι : Type*} (jobs : ι → Job) : Config State Task ι :=
  start ⟨.empty, .empty⟩ fun i => Task.start (jobs i)

/-- **What a handler's step can do.**  It touches no table, or it is one of the three
    commits. -/
theorem handlerStep_cases (exchange : List DomainEvent) (env : CommunicationsService.Env)
    (s : CommunicationsService.State) (handler : Handler) :
    (handlerStep codec exchange env s handler).1 = s ∨
    (∃ note s', handler = .notify note ∧ insertNotification s env note = .ok s' ∧
      (handlerStep codec exchange env s handler).1 = s') ∨
    (∃ id s', handler = .logDelivery id ∧ insertDeliveryLog s env id = .ok s' ∧
      (handlerStep codec exchange env s handler).1 = s') ∨
    (∃ note s', handler = .readCommit note ∧ commitRead s env note = .ok s' ∧
      (handlerStep codec exchange env s handler).1 = s') := by
  cases handler with
  | notify note =>
    simp only [handlerStep]
    split
    · exact Or.inl rfl
    · rename_i s' hins
      exact Or.inr (Or.inl ⟨note, s', rfl, hins, rfl⟩)
  | logDelivery id =>
    simp only [handlerStep]
    split
    · exact Or.inl rfl
    · rename_i s' hins
      exact Or.inr (Or.inr (Or.inl ⟨id, s', rfl, hins, rfl⟩))
  | readCommit note =>
    simp only [handlerStep]
    split
    · exact Or.inl rfl
    · rename_i s' hcommit
      exact Or.inr (Or.inr (Or.inr ⟨note, s', rfl, hcommit, rfl⟩))
  | _ =>
    -- a query, or nothing
    apply Or.inl
    simp only [handlerStep]
    repeat' split
    all_goals rfl

/-- A handler becomes a notification about to be stored only from a message. -/
theorem handlerStep_notify {exchange : List DomainEvent} {env : CommunicationsService.Env}
    {s : CommunicationsService.State} {handler : Handler} {note : Note}
    (h : (handlerStep codec exchange env s handler).2 = .notify note) :
    ∃ event, receive codec exchange env.message = .ok (some event) ∧
      noteOf event = .ok (some note) := by
  cases handler with
  | consume =>
    simp only [handlerStep] at h
    split at h
    · cases h
    · cases h
    · rename_i event hreceive
      split at h
      · cases h
      · cases h
      · rename_i hnote
        cases h
        exact ⟨event, hreceive, hnote⟩
  | _ =>
    exfalso
    revert h
    simp only [handlerStep]
    repeat' split
    all_goals
      intro h
      cases h

/-! ## A handler alone -/

theorem alone_handler {env : Env} (hup : env.communications.crashes = false) (n : Nat)
    (s : State) (handler : Handler) :
    alone (program codec) env (n + 1) (s, .communications handler) =
      alone (program codec) env n
        ({ s with communications := (handlerStep codec s.application.published
            env.communications s.communications handler).1 },
          .communications (handlerStep codec s.application.published env.communications
            s.communications handler).2) := by
  rw [alone_succ]
  simp only [program, taskStep, hup, Bool.false_eq_true, if_false]

theorem alone_handled {env : Env} (hup : env.communications.crashes = false) (n : Nat) (s : State)
    (result : Except ServiceError Unit) :
    alone (program codec) env n (s, .communications (.handled result)) =
      (s, .communications (.handled result)) := by
  refine alone_of_step_eq (program codec) ?_ n
  simp only [program, taskStep, hup, Bool.false_eq_true, if_false]
  rfl

/-- **The loop body is the handler run alone**, on a process that stays up. -/
theorem consume_eq_alone (env : Env) (s : State) (hup : env.communications.crashes = false) :
    alone (program codec) env 4 (s, .communications .consume) =
      ({ s with communications :=
          (consume codec s.application.published s.communications env.communications).1 },
        .communications (.handled
          (consume codec s.application.published s.communications env.communications).2)) := by
  rw [alone_handler codec hup, handlerStep, consume]
  rcases receive codec s.application.published env.communications.message with e | _ | event
  · exact alone_handled codec hup ..
  · exact alone_handled codec hup ..
  dsimp only
  rw [handleDomainEvent]
  rcases noteOf event with e | _ | note
  · exact alone_handled codec hup ..
  · exact alone_handled codec hup ..
  dsimp only
  rw [alone_handler codec hup, handlerStep]
  rcases insertNotification s.communications env.communications note with e | s'
  · exact alone_handled codec hup ..
  dsimp only
  rw [alone_handler codec hup, handlerStep]
  rcases refresh s' env.communications env.communications.notificationId with e | stored
  · exact alone_handled codec hup ..
  dsimp only
  rw [alone_handler codec hup, handlerStep]
  rcases insertDeliveryLog s' env.communications stored.id with e | s''
  · exact alone_handled codec hup ..
  · exact alone_handled codec hup ..

end Delivery

end CampusHire.EventDelivery
