import CampusHire.NotificationProvenance
import CampusHire.WorkQueue
import Mathlib.Algebra.Order.Group.Multiset

/-!
# One notification for each event

The application service publishes to the exchange, the queue `campushire.notifications`
keeps what its bindings route to it, and consumers handle the messages, each of which is
acknowledged when the handler returns and rejected for good when it raises.

`handle_domain_event` commits twice and keeps no record of the messages it has handled.
So an exception loses a notification or its delivery log, and a crash after the first
commit brings the message back to a handler that starts over (`notifies_twice`).  Where
neither happens, the two balances of `WorkQueue` come out even (`notified_once`).
-/

namespace CampusHire.NotificationDelivery

open CampusHire CommunicationsService WorkQueue
open CampusHire.EventDelivery (Handler handlerStep)

/-! ## The services and the queue -/

structure Store (ι : Type*) where
  application : Schedule.Config ApplicationService.State ApplicationService.Task ι
  communications : CommunicationsService.State

/-- What a step of a handler meets.  `raises` is an exception that comes before the step's
    effect: a query that fails, a cancelled task. -/
structure Env where
  communications : CommunicationsService.Env
  raises : Bool

/-- Steps that are none of the consumers'. -/
inductive Other (ι : Type*) where
  | application (request : ι) (env : ApplicationService.Env)
  | markRead (user : CurrentUser) (notificationId : UUID) (env : CommunicationsService.Env)

def ended : Handler → Bool
  | .handled _ => true
  | _ => false

/-- The handler has committed its notification. -/
def committed : Handler → Bool
  | .notificationRefresh _ | .logDelivery _ | .handled _ => true
  | _ => false

section Services

variable {Body : Type} (codec : Codec Body) {ι : Type*} [DecidableEq ι]

/-- A step of the consumer at work on a message: the message is all it sees of the
    exchange. -/
def consumerStep (env : Env) (message : DomainEvent) (s : Store ι) (handler : Handler) :
    Store ι × Handler :=
  if ended handler then (s, handler)
  else if env.raises then (s, .handled (.error .database))
  else
    let next := handlerStep codec [message] { env.communications with message := 0 }
      s.communications handler
    ({ s with communications := next.1 }, next.2)

/-- The queue gets the new events whose type it is bound to. -/
def otherStep : Other ι → Store ι → Store ι × List DomainEvent
  | .application request env, s =>
      let next := Schedule.advance ApplicationService.program s.application (request, env)
      ({ s with application := next },
        (next.store.published.drop s.application.store.published.length).filter
          fun event => decide (event.eventType ∈ registered))
  | .markRead user notificationId env, s =>
      ({ s with communications := (markRead s.communications env notificationId user.id).1 }, [])

def service : Service (Store ι) DomainEvent Handler Env (Other ι) where
  begin := .consume
  step := consumerStep codec
  ended := ended
  elsewhere := otherStep

/-- Any requests, none of which has begun, freshly created tables and an empty queue. -/
def arrive (κ : Type*) (requests : ι → CurrentUser × ApplicationService.Request) :
    Config (Store ι) DomainEvent Handler κ :=
  ⟨⟨Schedule.start .empty fun i => ApplicationService.Task.start (requests i).1 (requests i).2,
    .empty⟩, []⟩

/-! ## What should hold, and when -/

/-- What a notification shows to its user. -/
def shown (row : Notification) : Note := ⟨row.userId, row.type, row.title, .str row.body⟩

def Shows (event : DomainEvent) (row : Notification) : Prop := noteOf event = .ok (some (shown row))

/-- The notifications are one for each event that was published to the queue, and each has
    one delivery log. -/
def NotifiedOnce {κ : Type*} (c : Config (Store ι) DomainEvent Handler κ) : Prop :=
  ∃ rows : List Notification, rows.Perm c.store.communications.notifications ∧
    List.Forall₂ Shows (c.messages.map Prod.fst) rows ∧
    ∀ row ∈ rows, c.store.communications.deliveryLogs.countP
      (fun log => decide (log.notificationId = row.id)) = 1

/-- The database takes the commit, or answers the reload, that the handler is about to ask
    for. -/
def Accepted (env : CommunicationsService.Env) (s : CommunicationsService.State) :
    Handler → Prop
  | .notify _ =>
      env.databaseFails = false ∧ env.notificationId ∉ s.notifications.map Notification.id
  | .notificationRefresh _ => env.reloadFails = false
  | .logDelivery _ =>
      env.databaseFails = false ∧ env.deliveryLogId ∉ s.deliveryLogs.map NotificationDeliveryLog.id
  | _ => True

instance decidableAccepted (env : CommunicationsService.Env) (s : CommunicationsService.State) :
    ∀ handler, Decidable (Accepted env s handler)
  | .notify _ | .logDelivery _ => inferInstanceAs (Decidable (_ ∧ _))
  | .notificationRefresh _ => inferInstanceAs (Decidable (_ = _))
  | .consume | .readNotification .. | .readCommit _ | .readRefresh _
  | .handled _ | .marked _ | .crashed => inferInstanceAs (Decidable True)

/-- No handler meets an exception, and no consumer crashes after the first commit of a
    message that it has not acknowledged. -/
def Undisturbed : Condition (Store ι) DomainEvent Handler Env where
  handle env _ s handler := env.raises = false ∧ Accepted env.communications s.communications handler
  crash _ handler := committed handler = false

instance (env : Env) (event : DomainEvent) (s : Store ι) (handler : Handler) :
    Decidable (Undisturbed.handle env event s handler) :=
  inferInstanceAs (Decidable (_ ∧ _))

instance (event : DomainEvent) (handler : Handler) :
    Decidable ((Undisturbed (ι := ι)).crash event handler) :=
  inferInstanceAs (Decidable (committed handler = false))

/-! ## What is in the queue -/

/-- What `apply` and `update_status` publish. -/
structure Sent (event : DomainEvent) : Prop where
  textPayload : event.HasTextPayload
  type : event.eventType = .applicationSubmitted ∨ event.eventType = .applicationShortlisted ∨
    event.eventType = .applicationRejected
  student : ∃ studentId : UUID, event.payload.get "student_id" = some (.str studentId.str)

theorem sent_status {eventType : EventType} {status : ApplicationStatus}
    {app : ApplicationService.Application} {actorId : UUID}
    (h : ApplicationService.eventOfStatus status = some eventType) :
    Sent (ApplicationService.statusEvent eventType app actorId) := by
  refine ⟨ApplicationService.statusEvent_textPayload eventType app actorId, ?_, app.studentId, rfl⟩
  cases status with
  | shortlisted =>
    cases h
    exact Or.inr (Or.inl rfl)
  | rejected =>
    cases h
    exact Or.inr (Or.inr rfl)
  | _ => cases h

theorem sent_step {env : ApplicationService.Env} {s : ApplicationService.State}
    {t : ApplicationService.Task} (h : ∀ app event, t = .publishing app event → Sent event) :
    ∀ app event, (ApplicationService.taskStep env s t).2 = .publishing app event →
      Sent event := by
  intro app event
  cases t with
  | applyRefresh studentId data id =>
    simp only [ApplicationService.taskStep]
    split
    · intro heq
      cases heq
    · intro heq
      cases heq
      exact ⟨ApplicationService.submittedEvent_textPayload _ _ _, Or.inl rfl, studentId, rfl⟩
  | statusRefresh id actorId status =>
    simp only [ApplicationService.taskStep]
    split
    · intro heq
      cases heq
    split
    · rename_i hevent
      intro heq
      cases heq
      exact sent_status hevent
    · intro heq
      cases heq
  | publishing app event =>
    intro heq
    cases heq
  | _ =>
    simp only [ApplicationService.taskStep]
    repeat' split
    all_goals
      intro heq
      cases heq

theorem start_not_publishing (user : CurrentUser) (request : ApplicationService.Request)
    (app : ApplicationService.Application) (event : DomainEvent) :
    ApplicationService.Task.start user request ≠ .publishing app event := by
  cases request <;>
    · simp only [ApplicationService.Task.start]
      split <;> exact fun heq => by cases heq

/-- Whatever the application service does, its events are of these. -/
def sending : Schedule.Annotation ApplicationService.program where
  inv s := ∀ event ∈ s.published, Sent event
  own _ t := ∀ app event, t = .publishing app event → Sent event
  step_inv env s t hinv hown := by
    intro event hevent
    rcases NotificationProvenance.mem_published_step hevent with hold | ⟨app, rfl⟩
    · exact hinv event hold
    · exact hown app event rfl
  step_own _ _ _ _ hown := sent_step hown
  stable _ _ _ _ _ _ hown _ := hown

theorem Sent.note {event : DomainEvent} (h : Sent event) :
    ∃ note body, noteOf event = .ok (some note) ∧ note.body = .str body := by
  obtain ⟨studentId, hstudent⟩ := h.student
  obtain ⟨title, body, hnote⟩ := noteOf_application h.type hstudent
  exact ⟨_, body, hnote, rfl⟩

theorem Sent.receive (hcodec : codec.RoundTrips) {event : DomainEvent} (h : Sent event) :
    receive codec [event] 0 = .ok (some event) := by
  have hregistered : event.eventType ∈ registered := by
    rcases h.type with htype | htype | htype <;> rw [htype] <;> decide
  simp only [CommunicationsService.receive, List.getElem?_cons_zero, hregistered, not_true,
    if_false, if_true, hcodec event h.textPayload]

/-! ## What a handler knows -/

/-- A handler at work on the event has prepared the notification of it, or has stored it. -/
def Knows (event : DomainEvent) (s : CommunicationsService.State) : Handler → Prop
  | .consume | .logDelivery _ | .handled (.ok _) => True
  | .notify note => noteOf event = .ok (some note)
  | .notificationRefresh id => id ∈ s.notifications.map Notification.id
  | _ => False

theorem Knows.mono {event : DomainEvent} {s s' : CommunicationsService.State} {handler : Handler}
    (hids : s.notifications.map Notification.id ⊆ s'.notifications.map Notification.id)
    (h : Knows event s handler) : Knows event s' handler := by
  cases handler with
  | notificationRefresh id => exact hids h
  | notify note => exact h
  | handled result =>
    cases result with
    | ok => trivial
    | error => exact h
  | consume => trivial
  | logDelivery id => trivial
  | _ => exact h

/-- How an undisturbed handler proceeds. -/
inductive Proceeds (event : DomainEvent) (s : CommunicationsService.State) :
    Handler → CommunicationsService.State → Handler → Prop
  | consumed {note : Note} (hnote : noteOf event = .ok (some note)) :
      Proceeds event s .consume s (.notify note)
  | notified {note : Note} (row : Notification) (hnote : noteOf event = .ok (some note))
      (hrow : note = shown row) (hfresh : row.id ∉ s.notifications.map Notification.id) :
      Proceeds event s (.notify note) { s with notifications := s.notifications ++ [row] }
        (.notificationRefresh row.id)
  | refreshed (id : UUID) : Proceeds event s (.notificationRefresh id) s (.logDelivery id)
  | logged (log : NotificationDeliveryLog) :
      Proceeds event s (.logDelivery log.notificationId)
        { s with deliveryLogs := s.deliveryLogs ++ [log] } (.handled (.ok ()))
  | ended : Proceeds event s (.handled (.ok ())) s (.handled (.ok ()))

omit [DecidableEq ι] in
/-- **What an undisturbed step does.** -/
theorem proceeds_consumerStep (hcodec : codec.RoundTrips) {env : Env} {event : DomainEvent}
    {s : Store ι} {handler : Handler} (hsent : Sent event)
    (hknows : Knows event s.communications handler)
    (hundisturbed : Undisturbed.handle env event s handler) :
    Proceeds event s.communications handler
      (consumerStep codec env event s handler).1.communications
      (consumerStep codec env event s handler).2 := by
  obtain ⟨hraises, haccepted⟩ := hundisturbed
  obtain ⟨note, body, hnote, hbody⟩ := hsent.note
  cases handler with
  | consume =>
    simp only [consumerStep, ended, hraises, Bool.false_eq_true, if_false, handlerStep,
      hsent.receive codec hcodec, hnote]
    exact .consumed hnote
  | notify prepared =>
    have hsame : prepared = note := by
      rw [Knows, hnote] at hknows
      cases hknows
      rfl
    subst hsame
    have hinsert := insertNotification_of_fresh { env.communications with message := 0 }
      hbody haccepted.1 haccepted.2
    simp only [consumerStep, ended, hraises, Bool.false_eq_true, if_false, handlerStep, hinsert]
    refine .notified ⟨_, prepared.userId, prepared.type, prepared.title, body, none, _⟩ hnote ?_
      haccepted.2
    rw [shown, ← hbody]
  | notificationRefresh id =>
    have hreload : ({ env.communications with message := 0 } : CommunicationsService.Env).reloadFails
      = false := haccepted
    obtain ⟨stored, hrefresh, rfl⟩ := exists_refresh hreload hknows
    simp only [consumerStep, ended, hraises, Bool.false_eq_true, if_false, handlerStep, hrefresh]
    exact .refreshed stored.id
  | logDelivery id =>
    have hinsert := insertDeliveryLog_of_fresh { env.communications with message := 0 } id
      haccepted.1 haccepted.2
    simp only [consumerStep, ended, hraises, Bool.false_eq_true, if_false, handlerStep, hinsert]
    exact .logged ⟨_, id, "email", "pending"⟩
  | handled result =>
    cases result with
    | ok => exact .ended
    | error => exact hknows.elim
  | _ => exact hknows.elim

theorem Proceeds.ids {event : DomainEvent} {s s' : CommunicationsService.State}
    {handler handler' : Handler} (h : Proceeds event s handler s' handler') :
    s.notifications.map Notification.id ⊆ s'.notifications.map Notification.id := by
  cases h with
  | notified =>
    rw [List.map_append]
    exact List.subset_append_left _ _
  | _ => exact List.Subset.refl _

theorem Proceeds.nodup {event : DomainEvent} {s s' : CommunicationsService.State}
    {handler handler' : Handler} (h : Proceeds event s handler s' handler')
    (hnodup : (s.notifications.map Notification.id).Nodup) :
    (s'.notifications.map Notification.id).Nodup := by
  cases h with
  | notified _ _ _ hfresh =>
    apply Table.nodup_append_fresh hnodup
    intro r hr heq
    exact hfresh (heq ▸ List.mem_map_of_mem hr)
  | _ => exact hnodup

theorem Proceeds.knows {event : DomainEvent} {s s' : CommunicationsService.State}
    {handler handler' : Handler} (h : Proceeds event s handler s' handler') :
    Knows event s' handler' := by
  cases h with
  | consumed hnote => exact hnote
  | notified => simp [Knows]
  | refreshed | logged | ended => trivial

omit [DecidableEq ι] in
theorem consumerStep_application (env : Env) (event : DomainEvent) (s : Store ι)
    (handler : Handler) : (consumerStep codec env event s handler).1.application =
      s.application := by
  simp only [consumerStep]
  split
  · rfl
  split <;> rfl

/-! ## The queue and the tables -/

structure Sound (s : Store ι) : Prop where
  application : sending.Holds s.application
  nodup : (s.communications.notifications.map Notification.id).Nodup

/-- What is known of a message and of the handler at work on it. -/
structure Known {κ : Type*} (event : DomainEvent) (place : Place κ Handler) (s : Store ι) :
    Prop where
  sent : Sent event
  knows : ∀ consumer handler, place = .unacknowledged consumer handler →
    Knows event s.communications handler

theorem sound_otherStep {other : Other ι} {s : Store ι} (h : Sound s) :
    Sound (otherStep other s).1 := by
  cases other with
  | application request env =>
    exact ⟨sending.holds_run h.application [(request, env)], h.nodup⟩
  | markRead user notificationId env =>
    refine ⟨h.application, ?_⟩
    rw [otherStep, (map_markRead (g := Notification.id) (fun _ _ => rfl) ..).1]
    exact h.nodup

theorem sent_otherStep {other : Other ι} {s : Store ι} (h : Sound s) :
    ∀ event ∈ (otherStep other s).2, Sent event := by
  intro event hevent
  cases other with
  | application request env =>
    have hmem := List.mem_of_mem_drop (List.mem_filter.mp hevent).1
    exact (sending.holds_run h.application [(request, env)]).inv event hmem
  | markRead user notificationId env => cases hevent

theorem ids_otherStep (other : Other ι) (s : Store ι) :
    (otherStep other s).1.communications.notifications.map Notification.id =
      s.communications.notifications.map Notification.id := by
  cases other with
  | application request env => rfl
  | markRead user notificationId env => exact (map_markRead (fun _ _ => rfl) ..).1

def handling (hcodec : codec.RoundTrips) (κ : Type*) :
    Annotation (service codec (ι := ι)) κ Undisturbed where
  inv := Sound
  own := Known
  elsewhere_inv _ _ := sound_otherStep
  elsewhere_new other s h event hevent := by
    refine ⟨sent_otherStep h event hevent, ?_⟩
    intro consumer handler heq
    cases heq
  elsewhere_other other s event place _ hknown := by
    refine ⟨hknown.sent, fun consumer handler heq => (hknown.knows consumer handler heq).mono ?_⟩
    rw [service, ids_otherStep]
    exact List.Subset.refl _
  deliver_own s event consumer hknown := by
    refine ⟨hknown.sent, ?_⟩
    intro consumer' handler heq
    cases heq
    trivial
  step_inv env event s consumer handler h hknown hundisturbed := by
    have hproceeds := proceeds_consumerStep codec hcodec hknown.sent (hknown.knows _ _ rfl)
      hundisturbed
    refine ⟨?_, hproceeds.nodup h.nodup⟩
    rw [service, consumerStep_application]
    exact h.application
  step_own env event s consumer handler h hknown hundisturbed := by
    have hproceeds := proceeds_consumerStep codec hcodec hknown.sent (hknown.knows _ _ rfl)
      hundisturbed
    refine ⟨hknown.sent, ?_⟩
    intro consumer' handler' heq
    cases heq
    exact hproceeds.knows
  step_other env event s consumer handler event' place h hknown hundisturbed hother := by
    have hproceeds := proceeds_consumerStep codec hcodec hknown.sent (hknown.knows _ _ rfl)
      hundisturbed
    exact ⟨hother.sent, fun consumer' handler' heq =>
      (hother.knows consumer' handler' heq).mono hproceeds.ids⟩
  settle_own s event consumer handler _ hknown := by
    refine ⟨hknown.sent, ?_⟩
    intro consumer' handler' heq
    cases heq
  crash_own s event consumer handler _ hknown := by
    refine ⟨hknown.sent, ?_⟩
    intro consumer' handler' heq
    cases heq

omit [DecidableEq ι] in
theorem sound_arrive (κ : Type*) (requests : ι → CurrentUser × ApplicationService.Request) :
    Sound (arrive κ requests).store := by
  refine ⟨Schedule.Annotation.holds_start sending ?_ ?_ ?_, List.nodup_nil⟩
  · intro i
    exact ApplicationService.Task.start_not_running (requests i).1 (requests i).2
  · intro event hevent
    cases hevent
  · intro i app event heq
    exact absurd heq (start_not_publishing (requests i).1 (requests i).2 app event)

/-! ## The two balances -/

def notes (event : DomainEvent) : Multiset Note :=
  match noteOf event with
  | .ok (some note) => {note}
  | _ => 0

/-- What the handler has stored. -/
def noted (event : DomainEvent) (handler : Handler) : Multiset Note :=
  if committed handler then notes event else 0

/-- The notification that the handler has stored and not yet logged. -/
def unlogged : Handler → Multiset UUID
  | .notificationRefresh id | .logDelivery id => {id}
  | _ => 0

theorem Proceeds.noted {event : DomainEvent} {s s' : CommunicationsService.State}
    {handler handler' : Handler} (h : Proceeds event s handler s' handler') :
    ((s'.notifications.map shown : List Note) : Multiset Note) + noted event handler =
      (s.notifications.map shown : List Note) + noted event handler' := by
  cases h with
  | notified row hnote hrow hfresh =>
    have hnotes : notes event = {shown row} := by rw [notes, hnote, hrow]
    rw [List.map_append, List.map_singleton, ← Multiset.coe_add, Multiset.coe_singleton]
    simp only [NotificationDelivery.noted, committed, hnotes, if_true, Bool.false_eq_true, if_false,
      add_zero]
  | _ => rfl

theorem Proceeds.unlogged {event : DomainEvent} {s s' : CommunicationsService.State}
    {handler handler' : Handler} (h : Proceeds event s handler s' handler') :
    ((s'.notifications.map Notification.id : List UUID) : Multiset UUID) +
        (s.deliveryLogs.map NotificationDeliveryLog.notificationId : List UUID) +
          unlogged handler =
      (s.notifications.map Notification.id : List UUID) +
        (s'.deliveryLogs.map NotificationDeliveryLog.notificationId : List UUID) +
          unlogged handler' := by
  cases h with
  | notified =>
    rw [List.map_append, List.map_singleton, ← Multiset.coe_add, Multiset.coe_singleton]
    simp only [NotificationDelivery.unlogged]
    abel
  | logged =>
    rw [List.map_append, List.map_singleton, ← Multiset.coe_add, Multiset.coe_singleton]
    simp only [NotificationDelivery.unlogged]
    abel
  | _ => rfl

/-- The notifications are those of the events whose handlers have made their first commit. -/
def notified (hcodec : codec.RoundTrips) (κ : Type*) :
    Balance (handling (ι := ι) codec hcodec κ) (Multiset Note) where
  due s := (s.communications.notifications.map shown : List Note)
  paid _ := 0
  share event
    | .queued => 0
    | .unacknowledged _ handler => noted event handler
    | .settled => notes event
  elsewhere_due other s := by
    cases other with
    | application request env => rfl
    | markRead user notificationId env =>
      exact congrArg _ (map_markRead (g := shown) (fun _ _ => rfl) ..).1
  elsewhere_paid _ _ := rfl
  queued_share _ := rfl
  deliver_share _ _ := rfl
  step_share env event s consumer handler h hknown hundisturbed := by
    rw [add_zero, add_zero]
    exact (proceeds_consumerStep codec hcodec hknown.sent (hknown.knows _ _ rfl)
      hundisturbed).noted
  settle_share s event consumer handler hended _ := by
    cases handler with
    | handled result => rfl
    | _ => cases hended
  crash_share event consumer handler hcrash := if_neg (by rw [hcrash]; decide)

/-- The notifications have their delivery logs, but for those that handlers are about to
    log. -/
def logged (hcodec : codec.RoundTrips) (κ : Type*) :
    Balance (handling (ι := ι) codec hcodec κ) (Multiset UUID) where
  due s := (s.communications.notifications.map Notification.id : List UUID)
  paid s := (s.communications.deliveryLogs.map NotificationDeliveryLog.notificationId : List UUID)
  share _
    | .unacknowledged _ handler => unlogged handler
    | _ => 0
  elsewhere_due other s := congrArg _ (ids_otherStep other s)
  elsewhere_paid other s := by
    cases other with
    | application request env => rfl
    | markRead user notificationId env =>
      exact congrArg _ (congrArg _ (map_markRead (g := Notification.id) (fun _ _ => rfl) ..).2)
  queued_share _ := rfl
  deliver_share _ _ := rfl
  step_share env event s consumer handler h hknown hundisturbed :=
    (proceeds_consumerStep codec hcodec hknown.sent (hknown.knows _ _ rfl) hundisturbed).unlogged
  settle_share s event consumer handler hended _ := by
    cases handler with
    | handled result => rfl
    | _ => cases hended
  crash_share event consumer handler hcrash := by
    cases handler with
    | notificationRefresh id => cases hcrash
    | logDelivery id => cases hcrash
    | _ => rfl

/-- Rows that show what a list of events announces can be matched with the events. -/
theorem matched {events : List DomainEvent} (hsent : ∀ event ∈ events, Sent event)
    {rows : List Notification}
    (h : ((rows.map shown : List Note) : Multiset Note) = (events.map notes).sum) :
    ∃ rows' : List Notification, rows'.Perm rows ∧ List.Forall₂ Shows events rows' := by
  induction events generalizing rows with
  | nil =>
    have hempty : rows = [] := by simpa using h
    exact ⟨[], hempty ▸ .refl _, .nil⟩
  | cons event rest ih =>
    obtain ⟨note, body, hnote, -⟩ := (hsent event List.mem_cons_self).note
    have hnotes : notes event = {note} := by rw [notes, hnote]
    rw [List.map_cons, List.sum_cons, hnotes] at h
    have hmem : note ∈ rows.map shown := by
      rw [← Multiset.mem_coe, h]
      exact Multiset.mem_add.mpr (Or.inl (Multiset.mem_singleton_self note))
    obtain ⟨row, hrow, rfl⟩ := List.mem_map.mp hmem
    have hperm : rows.Perm (row :: rows.erase row) := List.perm_cons_erase hrow
    have hrest : (((rows.erase row).map shown : List Note) : Multiset Note) =
        (rest.map notes).sum := by
      rw [Multiset.coe_eq_coe.mpr (hperm.map shown), List.map_cons, ← Multiset.cons_coe,
        ← Multiset.singleton_add] at h
      exact add_left_cancel h
    obtain ⟨rows', hperm', hshows⟩ :=
      ih (fun e he => hsent e (List.mem_cons_of_mem event he)) hrest
    exact ⟨row :: rows', (hperm'.cons row).trans hperm.symm, .cons hnote hshows⟩

/-- A notification is logged once when the delivery logs are those of the notifications. -/
theorem logged_once {s : CommunicationsService.State}
    (hnodup : (s.notifications.map Notification.id).Nodup)
    (h : ((s.notifications.map Notification.id : List UUID) : Multiset UUID) =
      (s.deliveryLogs.map NotificationDeliveryLog.notificationId : List UUID))
    {row : Notification} (hrow : row ∈ s.notifications) :
    s.deliveryLogs.countP (fun log => decide (log.notificationId = row.id)) = 1 := by
  have hone := List.count_eq_one_of_mem hnodup (List.mem_map_of_mem hrow)
  rw [(Multiset.coe_eq_coe.mp h).count_eq, List.count, List.countP_map] at hone
  exact hone

/-- **Every event of a quiet queue is notified once**, where no handler is disturbed. -/
theorem notified_once (hcodec : codec.RoundTrips) {κ : Type*} [DecidableEq κ]
    (requests : ι → CurrentUser × ApplicationService.Request)
    (choices : List (Choice κ Env (Other ι)))
    (hguard : Guarded (service codec) Undisturbed (arrive κ requests) choices)
    (hquiet : Quiet (run (service codec) (arrive κ requests) choices)) :
    NotifiedOnce (run (service codec) (arrive κ requests) choices) := by
  have hstart : (handling codec hcodec κ).Holds (arrive κ requests) := by
    refine ⟨sound_arrive κ requests, ?_⟩
    intro entry hentry
    cases hentry
  have hholds := (handling codec hcodec κ).holds_run hstart choices hguard
  have hnotified := (notified codec hcodec κ).balanced_quiet
    ((notified codec hcodec κ).balanced_run hstart rfl choices hguard) hquiet
  have hlogged := (logged codec hcodec κ).balanced_quiet
    ((logged codec hcodec κ).balanced_run hstart rfl choices hguard) hquiet
  revert hholds hnotified hlogged
  generalize run (service codec) (arrive κ requests) choices = c
  intro hholds hnotified hlogged
  have hsent : ∀ event ∈ c.messages.map Prod.fst, Sent event := by
    intro event hevent
    obtain ⟨entry, hentry, rfl⟩ := List.mem_map.mp hevent
    exact (hholds.own entry hentry).sent
  obtain ⟨rows, hperm, hshows⟩ := matched hsent (hnotified.trans (zero_add _))
  have hzero : ((c.messages.map Prod.fst).map fun _ => (0 : Multiset UUID)).sum = 0 := by
    rw [List.map_const', List.sum_replicate, nsmul_zero]
  have hlogs := hlogged.trans ((congrArg _ hzero).trans (add_zero _))
  exact ⟨rows, hperm, hshows, fun row hrow =>
    logged_once hholds.inv.nodup hlogs (hperm.mem_iff.mp hrow)⟩

end Services

/-! ## One event -/

/-- A student applies. -/
def applying : Unit → CurrentUser × ApplicationService.Request := fun _ =>
  (⟨.ofNat 1, .student⟩, .create ⟨.ofNat 3, [], none⟩)

def fresh (id : UUID) : Env where
  communications :=
    { message := 0, notificationId := id, deliveryLogId := id, txnStart := 0, clock := 0
      databaseFails := false, reloadFails := false, crashes := false }
  raises := false

/-- The application is committed and its event published. -/
def submission : List (Choice Unit Env (Other Unit)) :=
  List.replicate 4 (.elsewhere (.application () (.untroubled (.ofNat 10) (.ofNat 20) 0)))

/-- The message is delivered, handled and acknowledged. -/
def delivery (id : UUID) : List (Choice Unit Env (Other Unit)) :=
  [.deliver 0 (), .handle 0 (fresh id), .handle 0 (fresh id), .handle 0 (fresh id),
    .handle 0 (fresh id), .settle 0]

theorem submission_notified_once :
    NotifiedOnce (run (service Codec.tree) (arrive Unit applying)
      (submission ++ delivery (.ofNat 30))) :=
  notified_once Codec.tree Codec.tree_roundTrips applying _ (by decide +kernel) (by decide +kernel)

/-- The consumer crashes between the two commits, and the message is delivered again. -/
def crashAndRedeliver : List (Choice Unit Env (Other Unit)) :=
  submission ++ [.deliver 0 (), .handle 0 (fresh (.ofNat 30)), .handle 0 (fresh (.ofNat 30)),
    .crash ()] ++ delivery (.ofNat 31)

theorem notifies_twice :
    ¬ ∀ choices : List (Choice Unit Env (Other Unit)),
      Quiet (run (service Codec.tree) (arrive Unit applying) choices) →
        NotifiedOnce (run (service Codec.tree) (arrive Unit applying) choices) := by
  intro h
  obtain ⟨rows, hperm, hshows, -⟩ := h crashAndRedeliver (by decide +kernel)
  have hlength := hshows.length_eq.trans hperm.length_eq
  -- one event, two notifications
  exact absurd hlength (by decide +kernel)

end CampusHire.NotificationDelivery
