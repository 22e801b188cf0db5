import CampusHire.ApplicationErasure
import CampusHire.NotificationDelivery
import CampusHire.SequentialConsumer

/-!
# The loop of the consumer

`EventConsumer.start` handles the messages of the queue one at a time.  `message.process()`
acknowledges a message whose handler returns; when it raises, the message is rejected for good
and the exception leaves the loop, whose task nobody watches: the service goes on without a
consumer until its process is started again.

So the notifications are those of the events in the order in which they were published
(`notifications_in_order`), and the first exception is the end of them (`silent_after_exception`).
The ten messages that the channel may prefetch are still in the queue here: they go back to it
when the loop ends.
-/

namespace CampusHire.ConsumerLoop

open CampusHire SequentialConsumer
open CampusHire.CommunicationsService (Note insertNotification noteOf registered)
open CampusHire.EventDelivery (Handler handlerStep)
open CampusHire.NotificationDelivery (Env Other Sent Store consumerStep ended otherStep sending
  service shown)

/-- An exception leaves `handle_domain_event`. -/
def raises : Handler → Bool
  | .handled (.error _) => true
  | _ => false

/-- The notifications show the event. -/
def Shows (event : DomainEvent) (note : Note) : Prop := noteOf event = .ok (some note)

/-! ## What the application service publishes -/

theorem published_step (env : ApplicationService.Env) (s : ApplicationService.State)
    (t : ApplicationService.Task) :
    s.published <+: (ApplicationService.taskStep env s t).1.published := by
  cases t with
  | fetchProfile studentId data =>
    simp only [ApplicationService.taskStep]
    split
    · exact List.prefix_rfl
    split
    · exact List.prefix_rfl
    · rename_i hins
      exact (ApplicationService.insertApplication_ok hins).2.2.2.2.2 ▸ List.prefix_rfl
  | withdrawCommit row =>
    simp only [ApplicationService.taskStep]
    split
    · exact List.prefix_rfl
    · rename_i hcommit
      rw [ApplicationService.commitWithdrawal_ok hcommit]
      simp
  | statusCommit row current actorId status =>
    simp only [ApplicationService.taskStep]
    split
    · exact List.prefix_rfl
    · rename_i hcommit
      exact (ApplicationService.commitStatus_ok hcommit).2.2.2.2 ▸ List.prefix_rfl
  | publishing app event =>
    rcases ApplicationErasure.published_publishFor (s := s) env app event with hsame | hnew
    · exact hsame ▸ List.prefix_rfl
    · exact hnew ▸ List.prefix_append _ _
  | _ =>
    -- no other step touches the exchange
    simp only [ApplicationService.taskStep]
    repeat' split
    all_goals exact List.prefix_rfl

theorem published_advance {ι : Type*} [DecidableEq ι]
    (c : Schedule.Config ApplicationService.State ApplicationService.Task ι)
    (choice : ι × ApplicationService.Env) :
    c.store.published <+:
      (Schedule.advance ApplicationService.program c choice).store.published := by
  rw [Schedule.advance]
  split
  · exact published_step choice.2 c.store (c.task choice.1)
  · exact List.prefix_rfl

section Loop

variable {Body : Type} (codec : Codec Body) {ι : Type*} [DecidableEq ι]

/-- Any requests, none of which has begun, freshly created tables, an empty queue, and the
    consumer waiting for its first message. -/
def arrive (requests : ι → CurrentUser × ApplicationService.Request) :
    Config (Store ι) DomainEvent Handler where
  store := (NotificationDelivery.arrive Unit requests).store
  settled := []
  loop := .waiting
  queue := []

/-- A run of the two services with one consumer. -/
def after (requests : ι → CurrentUser × ApplicationService.Request)
    (choices : List (Choice Env (Other ι))) : Config (Store ι) DomainEvent Handler :=
  run (service codec) raises (arrive requests) choices

/-- What the bindings of the queue route to it. -/
def routed (s : Store ι) : List DomainEvent :=
  s.application.store.published.filter fun event => decide (event.eventType ∈ registered)

/-! ## The queue keeps the order of publication -/

theorem routed_otherStep (other : Other ι) (s : Store ι) :
    routed (otherStep other s).1 = routed s ++ (otherStep other s).2 := by
  cases other with
  | application request env =>
    obtain ⟨new, hnew⟩ := published_advance s.application (request, env)
    simp only [routed, otherStep, ← hnew, List.drop_left, List.filter_append]
  | markRead user notificationId env => exact (List.append_nil _).symm

theorem messages_step (c : Config (Store ι) DomainEvent Handler) (choice : Choice Env (Other ι))
    (h : c.messages = routed c.store) :
    (advance (service codec) raises c choice).messages =
      routed (advance (service codec) raises c choice).store := by
  rw [messages_advance, h]
  cases choice with
  | elsewhere other => exact (routed_otherStep other c.store).symm
  | handle env =>
    simp only [sent, advance, List.append_nil]
    split
    · simp only [routed, service, NotificationDelivery.consumerStep_application]
    · rfl
  | deliver | settle | restart =>
    simp only [sent, advance, List.append_nil]
    repeat' split
    all_goals rfl
  | crash => exact List.append_nil _

theorem messages_after (requests : ι → CurrentUser × ApplicationService.Request)
    (choices : List (Choice Env (Other ι))) :
    (after codec requests choices).messages = routed (after codec requests choices).store :=
  run_preserves (service codec) raises (fun c => c.messages = routed c.store) (fun _ => True)
    (fun c choice _ h => messages_step codec c choice h) (fun _ _ => trivial) rfl

end Loop

/-! ## The handlers tell their event -/

/-- A handler of the consumer has prepared the notification of its event, if any. -/
def Prepared (event : DomainEvent) : Handler → Prop
  | .notify note => noteOf event = .ok (some note)
  | .consume | .notificationRefresh _ | .logDelivery _ | .handled _ => True
  | .readNotification .. | .readCommit _ | .readRefresh _ | .marked _ | .crashed => False

/-- The handler has committed its notification and has not raised. -/
def storedNote : Handler → Bool
  | .notificationRefresh _ | .logDelivery _ | .handled (.ok _) => true
  | _ => false

theorem shown_insertNotification {s s' : CommunicationsService.State}
    {env : CommunicationsService.Env} {note : Note} (h : insertNotification s env note = .ok s') :
    s'.notifications.map shown = s.notifications.map shown ++ [note] := by
  unfold insertNotification at h
  split at h
  · rename_i body hbody
    split at h
    · cases h
    split at h
    · rename_i notifications hins
      cases h
      rw [(Table.insertRow_eq_some.mp hins).2, List.map_append, List.map_singleton, shown, ← hbody]
    · cases h
  · cases h

section Telling

variable {Body : Type} {codec : Codec Body}

/-- What a step of a handler writes, whatever fails. -/
theorem handlerStep_tells (hcodec : codec.RoundTrips) {event : DomainEvent} (hsent : Sent event)
    (env : CommunicationsService.Env) (hmessage : env.message = 0)
    (s : CommunicationsService.State) {handler : Handler} (hprepared : Prepared event handler) :
    Prepared event (handlerStep codec [event] env s handler).2 ∧
      ∃ new, (handlerStep codec [event] env s handler).1.notifications.map shown =
          s.notifications.map shown ++ new ∧ (∀ note ∈ new, Shows event note) ∧
        (storedNote (handlerStep codec [event] env s handler).2 = true →
          storedNote handler = true ∨ new ≠ []) := by
  have hnothing : s.notifications.map shown = s.notifications.map shown ++ [] :=
    (List.append_nil _).symm
  have hnone : ∀ note ∈ ([] : List Note), Shows event note := by simp
  cases handler with
  | consume =>
    obtain ⟨note, body, hnote, -⟩ := hsent.note
    simp only [handlerStep, hmessage, hsent.receive codec hcodec, hnote]
    exact ⟨hnote, [], hnothing, hnone, Bool.noConfusion⟩
  | notify note =>
    simp only [handlerStep]
    split
    · exact ⟨trivial, [], hnothing, hnone, Bool.noConfusion⟩
    · rename_i s' hins
      refine ⟨trivial, [note], shown_insertNotification hins, ?_, fun _ => Or.inr (by simp)⟩
      intro note' hnote'
      rw [List.mem_singleton.mp hnote']
      exact hprepared
  | notificationRefresh id =>
    simp only [handlerStep]
    split
    · exact ⟨trivial, [], hnothing, hnone, Bool.noConfusion⟩
    · exact ⟨trivial, [], hnothing, hnone, fun _ => Or.inl rfl⟩
  | logDelivery id =>
    simp only [handlerStep]
    split
    · exact ⟨trivial, [], hnothing, hnone, Bool.noConfusion⟩
    · rename_i s' hins
      rw [CommunicationsService.insertDeliveryLog_ok hins]
      exact ⟨trivial, [], hnothing, hnone, fun _ => Or.inl rfl⟩
  | handled result => exact ⟨trivial, [], hnothing, hnone, fun hstored => Or.inl hstored⟩
  | _ => exact hprepared.elim

theorem consumerStep_tells (hcodec : codec.RoundTrips) {ι : Type*} {event : DomainEvent}
    (hsent : Sent event) (env : Env) (s : Store ι) {handler : Handler}
    (hprepared : Prepared event handler) :
    Prepared event (consumerStep codec env event s handler).2 ∧
      ∃ new, (consumerStep codec env event s handler).1.communications.notifications.map shown =
          s.communications.notifications.map shown ++ new ∧ (∀ note ∈ new, Shows event note) ∧
        (storedNote (consumerStep codec env event s handler).2 = true →
          storedNote handler = true ∨ new ≠ []) := by
  have hnone : ∀ note ∈ ([] : List Note), Shows event note := by simp
  rw [consumerStep]
  split
  · exact ⟨hprepared, [], (List.append_nil _).symm, hnone, Or.inl⟩
  split
  · exact ⟨trivial, [], (List.append_nil _).symm, hnone, Bool.noConfusion⟩
  · exact handlerStep_tells hcodec hsent _ rfl s.communications hprepared

/-- The notifications as the log of the consumer. -/
def telling (hcodec : codec.RoundTrips) (ι : Type*) [DecidableEq ι] :
    Story (service codec (ι := ι)) raises Note where
  inv s := sending.Holds s.application
  own := Sent
  knows event handler _ := Prepared event handler
  rows s := s.communications.notifications.map shown
  shows := Shows
  stored := storedNote
  elsewhere_inv other s h := by
    cases other with
    | application request env => exact sending.holds_run h [(request, env)]
    | markRead user notificationId env => exact h
  elsewhere_own other s h event hevent := by
    cases other with
    | application request env =>
      have hmem := List.mem_of_mem_drop (List.mem_filter.mp hevent).1
      exact (sending.holds_run h [(request, env)]).inv event hmem
    | markRead user notificationId env => cases hevent
  elsewhere_knows _ _ _ _ h := h
  elsewhere_rows other s := by
    cases other with
    | application request env => rfl
    | markRead user notificationId env =>
      exact (CommunicationsService.map_markRead (g := shown) (fun _ _ => rfl) ..).1
  begin_knows _ _ := trivial
  begin_stored := rfl
  step_inv env event s handler h := by
    rw [service, NotificationDelivery.consumerStep_application]
    exact h
  step_knows env event s handler hsent hprepared :=
    (consumerStep_tells hcodec hsent env s hprepared).1
  step_rows env event s handler hsent hprepared :=
    (consumerStep_tells hcodec hsent env s hprepared).2
  ended_stored event s handler hended hraises hprepared := by
    cases handler with
    | handled result =>
      cases result with
      | ok => rfl
      | error => cases hraises
    | _ => cases hended

theorem telling_arrive (hcodec : codec.RoundTrips) {ι : Type*} [DecidableEq ι]
    (requests : ι → CurrentUser × ApplicationService.Request) :
    (telling hcodec ι).Holds (arrive requests) := by
  refine ⟨(NotificationDelivery.sound_arrive Unit requests).application, ?_, ?_, [], [], rfl, .nil,
    fun hnil => absurd rfl hnil, ?_, ?_⟩
  · intro event hevent
    cases hevent
  · intro event handler hloop
    cases hloop
  · intro event hevent
    cases hevent
  · intro event handler hloop
    cases hloop

end Telling

/-! ## All runs -/

section Runs

variable {Body : Type} (codec : Codec Body) {ι : Type*} [DecidableEq ι]

/-- **Students are notified in the order of publication.**  In every run of the two services,
    with any exceptions, crashes and restarts of the consumer: the published events are those
    that are settled, then the one in hand and those in the queue; and the notifications tell
    the settled ones one after the other, at least one notification for each whose handler has
    not raised, and then at most the first of the others. -/
theorem notifications_in_order (hcodec : codec.RoundTrips)
    (requests : ι → CurrentUser × ApplicationService.Request)
    (choices : List (Choice Env (Other ι))) :
    routed (after codec requests choices).store =
        (after codec requests choices).settled.map Prod.fst ++
          (after codec requests choices).pending ∧
      ∃ told more : List Note,
        (after codec requests choices).store.communications.notifications.map shown =
          told ++ more ∧
        Chronicle Shows raises (after codec requests choices).settled told ∧
        (more ≠ [] → (after codec requests choices).pending ≠ []) ∧
        ∀ event ∈ (after codec requests choices).pending.head?, ∀ note ∈ more,
          Shows event note := by
  refine ⟨(messages_after codec requests choices).symm, ?_⟩
  obtain ⟨told, more, htold⟩ :=
    ((telling hcodec ι).told_run (telling_arrive hcodec requests) choices).told
  exact ⟨told, more, htold.rows, htold.settled, htold.pending, htold.shows⟩

/-- **The first exception is the last notification.**  In a run without a restart no event but
    the last settled one has raised; and once one has, nothing more is notified, however the
    run goes on: what was published waits in the queue, and so does what is published later. -/
theorem silent_after_exception (hcodec : codec.RoundTrips)
    (requests : ι → CurrentUser × ApplicationService.Request)
    (choices : List (Choice Env (Other ι))) (hchoices : ∀ choice ∈ choices, choice ≠ .restart) :
    (∀ entry ∈ (after codec requests choices).settled.dropLast, raises entry.2 = false) ∧
      ∀ entry ∈ (after codec requests choices).settled, raises entry.2 = true →
        ∀ later : List (Choice Env (Other ι)), (∀ choice ∈ later, choice ≠ .restart) →
          (after codec requests (choices ++ later)).settled =
              (after codec requests choices).settled ∧
            (after codec requests (choices ++ later)).store.communications.notifications.map
                shown =
              (after codec requests choices).store.communications.notifications.map shown ∧
            (after codec requests choices).pending <+:
              (after codec requests (choices ++ later)).pending ∧
            routed (after codec requests (choices ++ later)).store =
              (after codec requests choices).settled.map Prod.fst ++
                (after codec requests (choices ++ later)).pending := by
  have horderly : Orderly raises (after codec requests choices) :=
    orderly_run (service codec) raises (orderly_of_unsettled raises rfl) hchoices
  refine ⟨horderly.before, ?_⟩
  intro entry hentry hraised later hlater
  have hended := horderly.ended_of_raised raises hentry hraised
  have happend : after codec requests (choices ++ later) =
      run (service codec) raises (after codec requests choices) later := List.foldl_append
  obtain ⟨hloop, hsettled, hrows, hqueue⟩ :=
    (telling hcodec ι).silent_of_ended hended hlater
  have hmessages := messages_after codec requests (choices ++ later)
  rw [happend] at hmessages ⊢
  refine ⟨hsettled, hrows, ?_, ?_⟩
  · rw [Config.pending, Config.pending, hended, hloop]
    exact hqueue
  · rw [← hsettled]
    exact hmessages.symm

end Runs

/-! ## Two applications -/

/-- Two students apply. -/
def applying : Bool → CurrentUser × ApplicationService.Request := fun second =>
  (⟨.ofNat (if second then 2 else 1), .student⟩, .create ⟨.ofNat 3, [], none⟩)

/-- Both applications are committed and their events published. -/
def submissions : List (Choice Env (Other Bool)) :=
  List.replicate 4 (.elsewhere (.application false (.untroubled (.ofNat 10) (.ofNat 20) 0))) ++
    List.replicate 4 (.elsewhere (.application true (.untroubled (.ofNat 11) (.ofNat 21) 0)))

def handling (id : UUID) : List (Choice Env (Other Bool)) :=
  [.deliver, .handle (NotificationDelivery.fresh id), .handle (NotificationDelivery.fresh id),
    .handle (NotificationDelivery.fresh id), .handle (NotificationDelivery.fresh id), .settle]

/-- A query of the first handler fails. -/
def failing : List (Choice Env (Other Bool)) :=
  submissions ++ [.deliver, .handle { NotificationDelivery.fresh (.ofNat 30) with raises := true },
    .settle]

/-- The consumer crashes before it acknowledges the first message. -/
def crashing : List (Choice Env (Other Bool)) :=
  submissions ++ (handling (.ofNat 30)).dropLast ++ [.crash, .restart] ++ handling (.ofNat 31) ++
    handling (.ofNat 32)

/-- The first student is notified twice, and then the second. -/
theorem crashing_in_order :
    ∃ told more : List Note,
      (after Codec.tree applying crashing).store.communications.notifications.map shown =
        told ++ more ∧
      Chronicle Shows raises (after Codec.tree applying crashing).settled told :=
  (notifications_in_order Codec.tree Codec.tree_roundTrips applying crashing).2.imp
    fun _ h => h.imp fun _ htold => ⟨htold.1, htold.2.1⟩

theorem no_restart {choices : List (Choice Env (Other Bool))}
    (h : choices.all fun | .restart => false | _ => true) :
    ∀ choice ∈ choices, choice ≠ .restart := by
  rintro choice hchoice rfl
  cases List.all_eq_true.mp h _ hchoice

theorem failing_settled : ∃ event, (after Codec.tree applying failing).settled =
    [(event, .handled (.error .database))] :=
  ⟨_, rfl⟩

/-- The second student is not notified either. -/
theorem failing_silences :
    (after Codec.tree applying (failing ++
      handling (.ofNat 31))).store.communications.notifications.map shown = [] := by
  obtain ⟨event, hsettled⟩ := failing_settled
  have hsilent := (silent_after_exception Codec.tree Codec.tree_roundTrips applying failing
    (no_restart rfl)).2 (event, .handled (.error .database)) (by rw [hsettled]; simp) rfl
    (handling (.ofNat 31)) (no_restart rfl)
  exact hsilent.2.1

end CampusHire.ConsumerLoop
