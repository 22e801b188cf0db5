import CampusHire.ApplicationErasure
import CampusHire.NotificationErasure
import CampusHire.QueryErasure
import CampusHire.Unwinding

/-!
# Students do not interfere

The application service and the communications service serve one request after another,
and the events that the first publishes are handled by the second.  What a student sees
does not depend on what another student has done (`students_isolated`).

The proof compares the tables with what is left of them without the other student
(`without`).  The other student's requests leave that as it is, and everything else does
to it what it does to the tables.  So a run without these requests ends in what is left,
and that has the first student's rows.
-/

namespace CampusHire.StudentIsolation

open CampusHire Ownership Unwinding
open CampusHire.ApplicationService (Application WorkflowStage AuditLog)
open CampusHire.QueryService (Query QueryMessage)
open CampusHire.CommunicationsService (Notification NotificationDeliveryLog)

/-! ## Two services -/

/-- `sent` are the events that have been published, each under the id of its message. -/
structure State where
  application : ApplicationService.State
  queries : QueryService.State
  communications : CommunicationsService.State
  sent : List (UUID × DomainEvent)

def State.empty : State := ⟨.empty, .empty, .empty, []⟩

inductive Read where
  | listApplications
  | getApplication (applicationId : UUID)
  | timeline (applicationId : UUID)
  | listQueries
  | listNotifications

/-- A request, or the handling of a message, with what it meets.  Messages may be handled at
    any time and in any order; one that has not been sent is not there to be handled. -/
inductive Item where
  | application (user : CurrentUser) (request : ApplicationService.Request)
      (env : ApplicationService.Env) (message : UUID)
  | query (user : CurrentUser) (request : QueryService.Request) (env : QueryService.Env)
  | markRead (user : CurrentUser) (notificationId : UUID) (env : CommunicationsService.Env)
  | read (user : CurrentUser) (read : Read)
  | handle (message : UUID) (env : CommunicationsService.Env)

def Item.user : Item → Option CurrentUser
  | .application user .. | .query user .. | .markRead user .. | .read user _ => some user
  | .handle .. => none

def step (s : State) : Item → State
  | .application user request env message =>
      let next := (ApplicationService.serve s.application env user request).1
      let published := next.published.drop s.application.published.length
      { s with
        application := next
        sent := s.sent ++ published.map fun event => (message, event) }
  | .query user request env =>
      { s with queries := (QueryService.serve s.queries env user request).1 }
  | .markRead user notificationId env =>
      { s with communications :=
          (CommunicationsService.markRead s.communications env notificationId user.id).1 }
  | .read .. => s
  | .handle message env =>
      match Table.lookup Prod.fst message s.sent with
      | some (_, event) =>
        { s with communications :=
            (CommunicationsService.handleDomainEvent s.communications env event).1 }
      | none => s

/-- What a read answers. -/
inductive Response where
  | applications (applications : List Application)
  | application (result : Except ServiceError Application)
  | timeline (result : Except ServiceError ApplicationService.TimelineResponse)
  | queries (queries : List QueryService.QueryResponse)
  | notifications (notifications : List Notification)

def respond (s : State) (user : CurrentUser) : Read → Response
  | .listApplications => .applications (ApplicationService.listApplications s.application user)
  | .getApplication id => .application (ApplicationService.getApplication s.application user id)
  | .timeline id => .timeline (ApplicationService.timeline s.application user id)
  | .listQueries =>
      .queries ((QueryService.listQueries s.queries user.id user.role).map
        (QueryService.respond s.queries))
  | .listNotifications =>
      .notifications (CommunicationsService.listNotifications s.communications user.id)

/-! ## Generated ids -/

inductive Kind where
  | application
  | stage
  | query
  | queryMessage
  | notification
  | deliveryLog
  | message

def stored (s : State) : Kind → List UUID
  | .application => s.application.applications.map Application.id
  | .stage => s.application.stages.map WorkflowStage.id
  | .query => s.queries.queries.map Query.id
  | .queryMessage => s.queries.messages.map QueryMessage.id
  | .notification => s.communications.notifications.map Notification.id
  | .deliveryLog => s.communications.deliveryLogs.map NotificationDeliveryLog.id
  | .message => s.sent.map Prod.fst

/-- The id of the kind that the item comes with, if it may need one. -/
def Item.generated (kind : Kind) : Item → List UUID
  | .application _ request env message =>
      match request, kind with
      | .create _, .application => [env.applicationId]
      | .create _, .stage | .patchStatus .., .stage => [env.stageId]
      | _, .message => [message]
      | _, _ => []
  | .query _ request env =>
      match request, kind with
      | .postQuery _, .query => [env.queryId]
      | .postQuery _, .queryMessage | .postReply .., .queryMessage => [env.messageId]
      | _, _ => []
  | .handle _ env =>
      match kind with
      | .notification => [env.notificationId]
      | .deliveryLog => [env.deliveryLogId]
      | _ => []
  | .markRead .. | .read .. => []

/-- The ids of one kind are pairwise distinct. -/
def Distinct (history : List Item) : Prop :=
  ∀ kind, (history.flatMap (Item.generated kind)).Nodup

/-! ## What belongs to a student -/

structure Belongings where
  applications : List Application
  stages : List WorkflowStage
  auditLogs : List AuditLog
  queries : List Query
  messages : List QueryMessage
  notifications : List Notification

def belongings (a : UUID) (s : State) : Belongings where
  applications := s.application.applications.filter (ApplicationErasure.isOf a)
  stages := s.application.stages.filter fun st =>
    ApplicationErasure.ownsApplication s.application a st.applicationId
  auditLogs := s.application.auditLogs.filter fun e =>
    ApplicationErasure.ownsApplication s.application a e.applicationId
  queries := s.queries.queries.filter (QueryErasure.isOf a)
  messages := s.queries.messages.filter fun m => QueryErasure.ownsQuery s.queries a m.queryId
  notifications := s.communications.notifications.filter (NotificationErasure.isOf a)

/-- A read of an application is of one of the student's. -/
def Concerns (a : UUID) (s : State) : Read → Prop
  | .getApplication id | .timeline id =>
      ApplicationErasure.ownsApplication s.application a id = true
  | _ => True

/-- The item is a request of the student. -/
def isBy (b : UUID) (item : Item) : Bool := decide (item.user = some ⟨b, .student⟩)

/-! ## Without a student -/

def without (b : UUID) (s : State) : State where
  application := ApplicationErasure.without b s.application
  queries := QueryErasure.without b s.queries
  communications := NotificationErasure.without b s.communications
  sent := others (fun entry => ApplicationErasure.isAbout b entry.2) s.sent

/-- What is known of a state with the items that are still to come. -/
structure Sound (s : State) (rest : List Item) : Prop where
  application : AuditTrail.Audited s.application
  queries : QueryErasure.Sound s.queries
  communications : NotificationErasure.Sound s.communications
  addressed : ∀ entry ∈ s.sent, ApplicationErasure.Addressed entry.2
  distinct : ∀ kind, (stored s kind ++ rest.flatMap (Item.generated kind)).Nodup

/-! ## Ids stay distinct -/

theorem drop_published (s : ApplicationService.State) (env : ApplicationService.Env)
    (user : CurrentUser) (request : ApplicationService.Request) :
    ∃ new : List DomainEvent, new.length ≤ 1 ∧ (∀ event ∈ new, ApplicationErasure.Addressed event) ∧
      (ApplicationService.serve s env user request).1.published = s.published ++ new := by
  rcases ApplicationErasure.published_serve s env user request with hsame |
    ⟨event, haddressed, hnew⟩
  · exact ⟨[], by decide, by simp, by rw [hsame, List.append_nil]⟩
  · exact ⟨[event], by simp, by simpa using haddressed, hnew⟩

/-- The step stores the id of the kind that it comes with, or none. -/
def StoresGenerated (s : State) (item : Item) (kind : Kind) : Prop :=
  stored (step s item) kind = stored s kind ∨
    stored (step s item) kind = stored s kind ++ item.generated kind

theorem stores_message (s : State) (user : CurrentUser) (request : ApplicationService.Request)
    (env : ApplicationService.Env) (message : UUID) :
    StoresGenerated s (.application user request env message) .message := by
  obtain ⟨new, hlength, -, hpublished⟩ := drop_published s.application env user request
  have hgenerated : (Item.application user request env message).generated .message =
      [message] := by cases request <;> rfl
  simp only [StoresGenerated, stored, step, hpublished, List.drop_left, List.map_append,
    List.map_map, hgenerated]
  match new, hlength with
  | [], _ => exact Or.inl (by simp)
  | [event], _ => exact Or.inr rfl

theorem stores_application (s : State) (user : CurrentUser)
    (request : ApplicationService.Request) (env : ApplicationService.Env) (message : UUID) :
    StoresGenerated s (.application user request env message) .application := by
  rcases ApplicationService.serve_cases s.application env user request with hsame |
    ⟨data, profile, t, published, rfl, -, -, -, hins, heq⟩ | ⟨id, row, -, -, -, -, hcommit⟩ |
    ⟨id, status, row, t, published, -, -, -, hcommit, heq⟩
  · exact Or.inl (by simp only [stored, step, hsame])
  · right
    simp only [stored, step, heq, ApplicationService.ids_insertApplication hins]
    rfl
  · left
    simp only [stored, step, ApplicationService.commitWithdrawal_ok hcommit]
    exact AuditTrail.ids_writeStatus s.application row "Withdrawn"
  · left
    simp only [stored, step, heq, (ApplicationService.commitStatus_ok hcommit).2.1]
    exact AuditTrail.ids_writeStatus s.application row status.value

theorem stores_stage (s : State) (user : CurrentUser) (request : ApplicationService.Request)
    (env : ApplicationService.Env) (message : UUID) :
    StoresGenerated s (.application user request env message) .stage := by
  rcases ApplicationService.serve_cases s.application env user request with hsame |
    ⟨data, profile, t, published, rfl, -, -, -, hins, heq⟩ | ⟨id, row, -, -, -, -, hcommit⟩ |
    ⟨id, status, row, t, published, rfl, -, -, hcommit, heq⟩
  · exact Or.inl (by simp only [stored, step, hsame])
  · right
    simp only [stored, step, heq, (ApplicationService.insertApplication_ok hins).2.2.2.1,
      List.map_append]
    rfl
  · left
    simp only [stored, step, ApplicationService.commitWithdrawal_ok hcommit,
      ApplicationService.logAudit_stages, ApplicationService.writeStatus_stages]
  · right
    simp only [stored, step, heq, (ApplicationService.commitStatus_ok hcommit).2.2.1,
      List.map_append, ApplicationService.map_closeStage (g := WorkflowStage.id) (fun _ _ => rfl)]
    rfl

theorem stores_query (s : State) (user : CurrentUser) (request : QueryService.Request)
    (env : QueryService.Env) (kind : Kind) : StoresGenerated s (.query user request env) kind := by
  rcases QueryService.serve_cases s.queries env user request with hsame | ⟨data, rfl, -, hins⟩ |
    ⟨id, body, q, rfl, -, -, hcommit⟩ | ⟨id, status, q, -, -, -, -, hcommit⟩
  · exact Or.inl (by cases kind <;> simp only [stored, step, hsame])
  · have hqueries := (QueryService.insertQuery_ok hins).2.2
    cases kind with
    | query | queryMessage =>
      right
      simp only [stored, step, hqueries, List.map_append]
      rfl
    | _ => exact Or.inl rfl
  · obtain ⟨-, hqueries, hmessages⟩ := QueryService.commitReply_ok hcommit
    cases kind with
    | query =>
      left
      simp only [stored, step, hqueries, QueryService.ids_updateQuery]
    | queryMessage =>
      right
      simp only [stored, step, hmessages, List.map_append]
      rfl
    | _ => exact Or.inl rfl
  · have hqueries := QueryService.commitStatus_ok hcommit
    left
    cases kind with
    | query => simp only [stored, step, hqueries, QueryService.ids_updateQuery]
    | queryMessage => simp only [stored, step, hqueries, QueryService.updateQuery]
    | _ => rfl

theorem stores_markRead (s : State) (user : CurrentUser) (notificationId : UUID)
    (env : CommunicationsService.Env) (kind : Kind) :
    StoresGenerated s (.markRead user notificationId env) kind := by
  obtain ⟨hids, hlogs⟩ := CommunicationsService.map_markRead (g := Notification.id)
    (fun _ _ => rfl) s.communications env notificationId user.id
  left
  cases kind with
  | notification => exact hids
  | deliveryLog => simp only [stored, step, hlogs]
  | _ => rfl

theorem stores_handle (s : State) (message : UUID) (env : CommunicationsService.Env)
    (kind : Kind) : StoresGenerated s (.handle message env) kind := by
  rcases hsent : Table.lookup Prod.fst message s.sent with _ | ⟨sent, event⟩
  · exact Or.inl (by simp only [step, hsent])
  rcases NotificationErasure.handleDomainEvent_cases s.communications env event with hsame |
    ⟨note, t, -, hins, hrest⟩
  · exact Or.inl (by cases kind <;> simp only [stored, step, hsent, hsame])
  obtain ⟨row, hid, -, -, rfl⟩ := NotificationErasure.insertNotification_row hins
  cases kind with
  | notification =>
    right
    rcases hrest with heq | hlog
    · simp only [stored, step, hsent, heq, List.map_append, List.map_singleton, hid]
      rfl
    · simp only [stored, step, hsent, CommunicationsService.insertDeliveryLog_ok hlog,
        List.map_append, List.map_singleton, hid]
      rfl
  | deliveryLog =>
    rcases hrest with heq | hlog
    · exact Or.inl (by simp only [stored, step, hsent, heq])
    · right
      simp only [stored, step, hsent, CommunicationsService.insertDeliveryLog_ok hlog,
        List.map_append]
      rfl
  | _ => exact Or.inl (by simp only [stored, step, hsent])

theorem stored_step (s : State) (item : Item) (kind : Kind) : StoresGenerated s item kind := by
  cases item with
  | application user request env message =>
    cases kind with
    | message => exact stores_message s user request env message
    | application => exact stores_application s user request env message
    | stage => exact stores_stage s user request env message
    | _ => exact Or.inl rfl
  | query user request env => exact stores_query s user request env kind
  | markRead user notificationId env => exact stores_markRead s user notificationId env kind
  | read user read => exact Or.inl rfl
  | handle message env => exact stores_handle s message env kind

theorem Sound.stored_nodup {s : State} {rest : List Item} (h : Sound s rest) (kind : Kind) :
    (stored s kind).Nodup :=
  (List.nodup_append.mp (h.distinct kind)).1

/-- The ids of the next item are new. -/
theorem Sound.fresh {s : State} {item : Item} {rest : List Item} (h : Sound s (item :: rest))
    (kind : Kind) {id : UUID} (hid : id ∈ item.generated kind) : id ∉ stored s kind := by
  intro hstored
  refine (List.nodup_append.mp (h.distinct kind)).2.2 id hstored id ?_ rfl
  rw [List.flatMap_cons]
  exact List.mem_append_left _ hid

theorem distinct_step {s : State} {item : Item} {rest : List Item} (h : Sound s (item :: rest))
    (kind : Kind) : (stored (step s item) kind ++ rest.flatMap (Item.generated kind)).Nodup := by
  have hdistinct := h.distinct kind
  rw [List.flatMap_cons, ← List.append_assoc] at hdistinct
  rcases stored_step s item kind with hsame | hnew
  · rw [hsame]
    exact hdistinct.sublist ((List.sublist_append_left _ _).append_right _)
  · rw [hnew]
    exact hdistinct

theorem addressed_step {s : State} {item : Item} {rest : List Item} (h : Sound s (item :: rest)) :
    ∀ entry ∈ (step s item).sent, ApplicationErasure.Addressed entry.2 := by
  cases item with
  | application user request env message =>
    obtain ⟨new, -, haddressed, hpublished⟩ := drop_published s.application env user request
    intro entry hentry
    simp only [step, hpublished, List.drop_left] at hentry
    rcases List.mem_append.mp hentry with hold | hnew
    · exact h.addressed entry hold
    · obtain ⟨event, hevent, rfl⟩ := List.mem_map.mp hnew
      exact haddressed event hevent
  | handle message env =>
    simp only [step]
    split <;> exact h.addressed
  | _ => exact h.addressed

theorem sound_step {s : State} {item : Item} {rest : List Item} (h : Sound s (item :: rest)) :
    Sound (step s item) rest := by
  refine ⟨?_, ?_, ?_, addressed_step h, distinct_step h⟩
  · cases item with
    | application user request env message =>
      exact AuditTrail.audited_handle h.application ⟨user, request, env⟩
    | handle message env =>
      simp only [step]
      split <;> exact h.application
    | _ => exact h.application
  · cases item with
    | query user request env => exact QueryErasure.sound_serve h.queries env user request
    | handle message env =>
      simp only [step]
      split <;> exact h.queries
    | _ => exact h.queries
  · cases item with
    | markRead user notificationId env =>
      exact NotificationErasure.sound_markRead h.communications env notificationId user.id
    | handle message env =>
      simp only [step]
      split
      · exact NotificationErasure.sound_handle h.communications env _
      · exact h.communications
    | _ => exact h.communications

theorem sound_empty {history : List Item} (h : Distinct history) : Sound .empty history where
  application := AuditTrail.audited_empty
  queries := ⟨List.nodup_nil, nofun⟩
  communications := ⟨List.nodup_nil, nofun⟩
  addressed := nofun
  distinct kind := by cases kind <;> exact h _

/-! ## The student's requests, and the others' -/

section Student

variable {b : UUID} {s : State} {item : Item} {rest : List Item}

/-- Messages of a request, without those about the student. -/
theorem others_sent (new : List DomainEvent) (message : UUID) :
    others (fun entry => ApplicationErasure.isAbout b entry.2)
        (s.sent ++ new.map fun event => (message, event)) =
      (without b s).sent ++
        (new.filter fun event => !ApplicationErasure.isAbout b event).map
          fun event => (message, event) := by
  rw [others, List.filter_append, List.filter_map]
  rfl

theorem isBy_eq_true (hby : isBy b item = true) : item.user = some ⟨b, .student⟩ :=
  of_decide_eq_true hby

theorem without_step_own (hby : isBy b item = true) (h : Sound s (item :: rest)) :
    without b (step s item) = without b s := by
  have huser := isBy_eq_true hby
  cases item with
  | application user request env message =>
    obtain rfl : user = ⟨b, .student⟩ := Option.some.inj huser
    obtain ⟨new, -, -, hpublished⟩ := drop_published s.application env ⟨b, .student⟩ request
    have hserve := ApplicationErasure.serve_own h.application env request (b := b)
    -- its events are about the student
    have hnew : new.filter (fun event => !ApplicationErasure.isAbout b event) = [] := by
      have hfilter := congrArg ApplicationService.State.published hserve
      simp only [ApplicationErasure.without, hpublished, List.filter_append] at hfilter
      exact List.append_right_eq_self.mp hfilter
    have hsent := others_sent (b := b) (s := s) new message
    rw [hnew, List.map_nil, List.append_nil] at hsent
    simp only [step, hpublished, List.drop_left]
    rw [without, hserve, hsent]
    rfl
  | query user request env =>
    obtain rfl : user = ⟨b, .student⟩ := Option.some.inj huser
    have hserve := QueryErasure.serve_own h.queries env request (b := b)
    rw [step, without, hserve]
    rfl
  | markRead user notificationId env =>
    obtain rfl : user = ⟨b, .student⟩ := Option.some.inj huser
    have hread := NotificationErasure.markRead_own h.communications env notificationId (b := b)
    rw [step, without, hread]
    rfl
  | read user read => rfl
  | handle message env => cases huser

theorem Sound.fresh_application {user : CurrentUser} {request : ApplicationService.Request}
    {env : ApplicationService.Env} {message : UUID}
    (h : Sound s (.application user request env message :: rest)) :
    ApplicationErasure.Fresh s.application env request := by
  cases request with
  | create data =>
    exact ⟨h.fresh .application List.mem_cons_self, h.fresh .stage List.mem_cons_self⟩
  | withdraw id => trivial
  | patchStatus id status => exact h.fresh .stage List.mem_cons_self

theorem Sound.fresh_query {user : CurrentUser} {request : QueryService.Request}
    {env : QueryService.Env} (h : Sound s (.query user request env :: rest)) :
    QueryErasure.Fresh s.queries env request := by
  cases request with
  | postQuery data =>
    exact ⟨h.fresh .query List.mem_cons_self, h.fresh .queryMessage List.mem_cons_self⟩
  | postReply id body => exact h.fresh .queryMessage List.mem_cons_self
  | getQueries => trivial
  | patchQueryStatus id status => trivial

theorem application_step_other {user : CurrentUser} {request : ApplicationService.Request}
    {env : ApplicationService.Env} {message : UUID} (hne : user ≠ ⟨b, .student⟩)
    (h : Sound s (.application user request env message :: rest)) :
    without b (step s (.application user request env message)) =
      step (without b s) (.application user request env message) := by
  obtain ⟨new, -, -, hpublished⟩ := drop_published s.application env user request
  have hserve := ApplicationErasure.serve_other h.application (h.stored_nodup .stage) hne
    h.fresh_application
  have hdrop : (ApplicationErasure.without b (ApplicationService.serve s.application env user
      request).1).published.drop (ApplicationErasure.without b s.application).published.length =
        new.filter fun event => !ApplicationErasure.isAbout b event := by
    simp only [ApplicationErasure.without, hpublished, List.filter_append, List.drop_left]
  have hsent := others_sent (b := b) (s := s) new message
  simp only [step, hpublished, List.drop_left]
  rw [without, hsent, show (without b s).application = ApplicationErasure.without b s.application
    from rfl, hserve, hdrop]
  rfl

/-- Without the student, the messages about them are not there to be handled. -/
theorem lookup_sent (h : Sound s rest) (message : UUID) :
    Table.lookup Prod.fst message (without b s).sent =
      (Table.lookup Prod.fst message s.sent).filter fun entry =>
        !ApplicationErasure.isAbout b entry.2 :=
  lookup_others (h.stored_nodup .message) message

theorem handle_step_other {message : UUID} {env : CommunicationsService.Env}
    (h : Sound s (.handle message env :: rest)) :
    without b (step s (.handle message env)) = step (without b s) (.handle message env) := by
  rw [step, step, lookup_sent h]
  rcases hsent : Table.lookup Prod.fst message s.sent with _ | ⟨sent, event⟩
  · rfl
  obtain ⟨studentId, hstudent⟩ := h.addressed _ (Table.mem_of_lookup hsent)
  have hnote : ∀ note, CommunicationsService.noteOf event = .ok (some note) →
      note.userId = studentId := fun note hnote =>
    (CommunicationsService.noteOf_eq_some hstudent hnote).1
  have habout := ApplicationErasure.isAbout_of_student (b := b) studentId hstudent
  by_cases hid : studentId = b
  · -- not sent without the student
    have hhidden := NotificationErasure.handle_own h.communications (b := b) env
      fun note hnote' => (hnote note hnote').trans hid
    simp only [Option.filter, habout, hid, decide_true, Bool.not_true, Bool.false_eq_true,
      if_false]
    rw [without, hhidden]
    rfl
  · have hhandle := NotificationErasure.handle_other h.communications (b := b) env
      (fun note hnote' heq => hid ((hnote note hnote').symm.trans heq))
      (h.fresh .notification List.mem_cons_self) (h.fresh .deliveryLog List.mem_cons_self)
    simp only [Option.filter, habout, hid, decide_false, Bool.not_false, if_true]
    rw [without, ← hhandle]
    rfl

theorem without_step_other (hby : isBy b item = false) (h : Sound s (item :: rest)) :
    without b (step s item) = step (without b s) item := by
  have huser : item.user ≠ some ⟨b, .student⟩ := of_decide_eq_false hby
  cases item with
  | application user request env message =>
    exact application_step_other (fun heq => huser (congrArg some heq)) h
  | query user request env =>
    have hne : user ≠ ⟨b, .student⟩ := fun heq => huser (congrArg some heq)
    have hserve := QueryErasure.serve_other h.queries hne h.fresh_query
    rw [step, step, without, ← hserve]
    rfl
  | markRead user notificationId env =>
    have hread := NotificationErasure.markRead_without h.communications env notificationId user.id
      (b := b)
    rw [step, step, without, ← hread]
    rfl
  | read user read => rfl
  | handle message env => exact handle_step_other h

end Student

/-- The unwinding of the two services. -/
def forgetting (b : UUID) : Projection step (isBy b) where
  inv := Sound
  view := without b
  inv_step _ _ _ := sound_step
  respects _ _ _ := without_step_own
  commutes _ _ _ := without_step_other

/-! ## What the other students see -/

section View

variable {a b : UUID} (hne : a ≠ b) {s : State} {rest : List Item}

include hne

theorem applications_disjoint (r : Application) (h : ApplicationErasure.isOf a r = true) :
    ApplicationErasure.isOf b r = false :=
  decide_eq_false fun heq => hne ((of_decide_eq_true h).symm.trans heq)

theorem queries_disjoint (q : Query) (h : QueryErasure.isOf a q = true) :
    QueryErasure.isOf b q = false :=
  decide_eq_false fun heq => hne ((of_decide_eq_true h).symm.trans heq)

theorem notifications_disjoint (n : Notification) (h : NotificationErasure.isOf a n = true) :
    NotificationErasure.isOf b n = false :=
  decide_eq_false fun heq => hne ((of_decide_eq_true h).symm.trans heq)

theorem belongings_without (h : Sound s rest) : belongings a (without b s) = belongings a s := by
  have happlications := filter_others (applications_disjoint hne) s.application.applications
  have hstages := filter_othersOf (applications_disjoint hne) h.application.ids
    WorkflowStage.applicationId s.application.stages
  have haudits := filter_othersOf (applications_disjoint hne) h.application.ids
    AuditLog.applicationId s.application.auditLogs
  have hqueries := filter_others (queries_disjoint hne) s.queries.queries
  have hmessages := filter_othersOf (queries_disjoint hne) h.queries.ids QueryMessage.queryId
    s.queries.messages
  have hnotifications := filter_others (notifications_disjoint hne) s.communications.notifications
  simp only [belongings, without, ApplicationErasure.without, ApplicationErasure.ownsApplication,
    QueryErasure.without, QueryErasure.ownsQuery, NotificationErasure.without, happlications,
    hstages, haudits, hqueries, hmessages, hnotifications]

theorem getApplication_without (h : Sound s rest) {id : UUID}
    (howner : ApplicationErasure.ownsApplication s.application a id = true) (user : CurrentUser) :
    ApplicationService.getApplication (ApplicationErasure.without b s.application) user id =
      ApplicationService.getApplication s.application user id := by
  have hother := not_owns_of_owns (applications_disjoint hne) h.application.ids howner
  rw [ApplicationService.getApplication, ApplicationErasure.find_without h.application,
    ApplicationService.getApplication]
  rcases hfound : ApplicationService.findApplication s.application id with _ | app
  · rfl
  · have hown := ApplicationErasure.ownsApplication_of_find (b := b) h.application hfound
    rw [Table.key_of_lookup hfound] at hown
    have happ : ApplicationErasure.isOf b app = false := hown.symm.trans hother
    simp only [Option.filter, happ, Bool.not_false, if_true]

theorem respond_without (h : Sound s rest) {read : Read} (hconcerns : Concerns a s read) :
    respond (without b s) ⟨a, .student⟩ read = respond s ⟨a, .student⟩ read := by
  cases read with
  | listApplications =>
    have happlications := filter_others (applications_disjoint hne) s.application.applications
    exact congrArg
      (fun rows => Response.applications (Table.orderByDesc Application.createdAt rows))
      happlications
  | getApplication id =>
    exact congrArg Response.application (getApplication_without hne h hconcerns _)
  | timeline id =>
    have hother := not_owns_of_owns (applications_disjoint hne) h.application.ids hconcerns
    have hstages : (ApplicationErasure.without b s.application).stages.filter
        (fun st => decide (st.applicationId = id) && true) =
          s.application.stages.filter fun st => decide (st.applicationId = id) && true :=
      filter_ref_othersOf hother fun _ => true
    simp only [Bool.and_true] at hstages
    simp only [respond, ApplicationService.timeline, show (without b s).application =
      ApplicationErasure.without b s.application from rfl, getApplication_without hne h hconcerns]
    rcases happ : ApplicationService.getApplication s.application ⟨a, .student⟩ id with e | app
    · rfl
    · have hid := ApplicationService.id_of_getApplication happ
      simp only [Except.map, hid, hstages]
  | listQueries =>
    have hqueries := filter_others (queries_disjoint hne) s.queries.queries
    have hlist : QueryService.listQueries (QueryErasure.without b s.queries) a .student =
        QueryService.listQueries s.queries a .student :=
      congrArg (Table.orderByDesc Query.createdAt) hqueries
    simp only [respond, show (without b s).queries = QueryErasure.without b s.queries from rfl,
      hlist]
    congr 1
    apply List.map_congr_left
    intro q hq
    obtain ⟨hmem, hown⟩ := List.mem_filter.mp (Table.mem_orderByDesc.mp hq)
    have hother : QueryErasure.ownsQuery s.queries b q.id = false :=
      (owns_of_mem h.queries.ids hmem).trans (queries_disjoint hne q hown)
    rw [QueryService.respond, QueryErasure.messagesOf_without hother, QueryService.respond]
  | listNotifications =>
    have hnotifications := filter_others (notifications_disjoint hne) s.communications.notifications
    exact congrArg
      (fun rows => Response.notifications (Table.orderByDesc Notification.createdAt rows))
      hnotifications

end View

/-- **Students do not interfere.**  At any point of a history, a student reads what they would
    read without the requests of another student, and a request of the other student leaves
    all that belongs to the first as it is. -/
theorem students_isolated {a b : UUID} (hne : a ≠ b) {history : List Item}
    (hdistinct : Distinct history) :
    (∀ before, before <+: history → ∀ read, Concerns a (run step .empty before) read →
      respond (run step .empty (purge (isBy b) before)) ⟨a, .student⟩ read =
        respond (run step .empty before) ⟨a, .student⟩ read) ∧
    ∀ before item, before ++ [item] <+: history → isBy b item = true →
      belongings a (step (run step .empty before) item) =
        belongings a (run step .empty before) := by
  have hsound : ∀ before after, history = before ++ after →
      Sound (run step .empty before) after := by
    rintro before after rfl
    exact (forgetting b).inv_run (sound_empty hdistinct)
  constructor
  · rintro before ⟨after, rfl⟩ read hconcerns
    have hbefore : Distinct before := fun kind => by
      have hkind := hdistinct kind
      rw [List.flatMap_append] at hkind
      exact (List.nodup_append.mp hkind).1
    have hview : without b (run step .empty before) =
        run step .empty (purge (isBy b) before) :=
      (forgetting b).view_run (sound_empty hbefore)
    rw [← hview, respond_without hne (hsound before after rfl) hconcerns]
  · rintro before item ⟨after, rfl⟩ hby
    have hbefore := hsound before (item :: after) (by simp)
    rw [← belongings_without hne hbefore, ← belongings_without hne (sound_step hbefore),
      without_step_own hby hbefore]

/-! ## Two students and a coordinator -/

def student : CurrentUser := ⟨.ofNat 1, .student⟩

def otherStudent : CurrentUser := ⟨.ofNat 2, .student⟩

def coordinator : CurrentUser := ⟨.ofNat 3, .coordinator⟩

def notifying (id : UUID) : CommunicationsService.Env where
  message := 0
  notificationId := id
  deliveryLogId := id
  txnStart := 0
  clock := 0
  databaseFails := false
  reloadFails := false
  crashes := false

/-- Both students apply, the coordinator rejects one and shortlists the other, three of the
    events are handled, and the rejected student tries to read the other's notification. -/
def season : List Item :=
  [.application student (.create ⟨.ofNat 5, [], none⟩) (.untroubled (.ofNat 10) (.ofNat 20) 0)
      (.ofNat 30),
    .application otherStudent (.create ⟨.ofNat 5, [], none⟩)
      (.untroubled (.ofNat 11) (.ofNat 21) 1) (.ofNat 31),
    .application coordinator (.patchStatus (.ofNat 11) .rejected)
      (.untroubled (.ofNat 12) (.ofNat 22) 2) (.ofNat 32),
    .application coordinator (.patchStatus (.ofNat 10) .shortlisted)
      (.untroubled (.ofNat 13) (.ofNat 23) 3) (.ofNat 33),
    .handle (.ofNat 31) (notifying (.ofNat 40)), .handle (.ofNat 32) (notifying (.ofNat 41)),
    .handle (.ofNat 33) (notifying (.ofNat 42)),
    .markRead otherStudent (.ofNat 42) (notifying (.ofNat 43))]

/-- The student's timeline and the student's notification. -/
theorem season_isolated :
    respond (run step .empty (purge (isBy otherStudent.id) season)) student
        (.timeline (.ofNat 10)) =
      respond (run step .empty season) student (.timeline (.ofNat 10)) ∧
    belongings student.id (run step .empty season) =
      belongings student.id (run step .empty (season.take 7)) := by
  have hdistinct : Distinct season := fun kind => by cases kind <;> decide
  have hisolated := students_isolated (a := student.id) (b := otherStudent.id) (by decide) hdistinct
  have howner : ApplicationErasure.ownsApplication (run step .empty season).application student.id
      (.ofNat 10) = true := by decide +kernel
  refine ⟨hisolated.1 season (List.prefix_refl _) (.timeline (.ofNat 10)) howner, ?_⟩
  exact hisolated.2 (season.take 7) (.markRead otherStudent (.ofNat 42) (notifying (.ofNat 43)))
    (List.prefix_refl _) (by decide)

end CampusHire.StudentIsolation
