import CampusHire.Events
import CampusHire.Table

/-!
# The communications service

The consumer of domain events, the handler that turns an event into a notification,
and `mark_read`, over the tables of `models.py`.

The exchange holds the events that it has received.  Which of them the broker
delivers next is part of the consumer's `Env`: an event may arrive late, out of
order, more than once or not at all.
-/

namespace CampusHire.CommunicationsService

open CampusHire

/-! ## Tables -/

structure Notification where
  id : UUID
  userId : UUID
  type : String
  title : String
  body : String
  readAt : Option Time
  createdAt : Time
deriving DecidableEq

structure NotificationDeliveryLog where
  id : UUID
  notificationId : UUID
  channel : String
  status : String
deriving DecidableEq

structure State where
  notifications : List Notification
  deliveryLogs : List NotificationDeliveryLog

def State.empty : State := ⟨[], []⟩

/-- What a handler meets while it runs.  `message` is the event that the broker
    delivers, by its position in the exchange; `crashes` ends the process before the
    step.  The database may refuse a commit, and it may fail in the `SELECT` that reloads
    the row after it. -/
structure Env where
  message : Nat
  notificationId : UUID
  deliveryLogId : UUID
  txnStart : Time
  clock : Time
  databaseFails : Bool
  reloadFails : Bool
  crashes : Bool

/-! ## Notifications -/

def findOwn (s : State) (notificationId userId : UUID) : Option Notification :=
  s.notifications.find? fun n => decide (n.id = notificationId) && decide (n.userId = userId)

def commitRead (s : State) (env : Env) (note : Notification) : Except ServiceError State :=
  if env.databaseFails then .error .database
  else .ok { s with
    notifications := Table.modify Notification.id note.id
      (fun n => { n with readAt := some env.clock }) s.notifications }

def refresh (s : State) (env : Env) (id : UUID) : Except ServiceError Notification :=
  if env.reloadFails then .error .database
  else
    match Table.lookup Notification.id id s.notifications with
    | some note => .ok note
    | none => .error .database

def markRead (s : State) (env : Env) (notificationId userId : UUID) :
    State × Except ServiceError Notification :=
  match findOwn s notificationId userId with
  | none => (s, .error (.http 404 "Not found"))
  | some note =>
    match commitRead s env note with
    | .error e => (s, .error e)
    | .ok s' => (s', refresh s' env note.id)

def listNotifications (s : State) (userId : UUID) : List Notification :=
  Table.orderByDesc Notification.createdAt
    (s.notifications.filter fun n => decide (n.userId = userId))

/-! ## From an event to a notification -/

/-- `titles.get(event.event_type)`. -/
def titles (event : DomainEvent) : Option (String × Json) :=
  match event.eventType with
  | .applicationSubmitted =>
      some ("Application Submitted", .str "Your application was submitted successfully.")
  | .applicationShortlisted => some ("Shortlisted", .str "You have been shortlisted.")
  | .applicationRejected =>
      some ("Application Update", .str "Your application status was updated to rejected.")
  | .queryResponded =>
      some ("Query Response", (event.payload.get "body").getD (.str "You received a reply."))
  | _ => none

structure Note where
  userId : UUID
  type : String
  title : String
  body : Json

def userIdOf : Json → Except ServiceError UUID
  | .str text =>
    match UUID.parse text with
    | some id => .ok id
    | none => .error .value
  | _ => .error .value

/-- What `handle_domain_event` does before its first commit: `none` when it returns
    without a notification. -/
def noteOf (event : DomainEvent) : Except ServiceError (Option Note) :=
  match event.payload.get "student_id" with
  | none => .ok none
  | some userId =>
    if !userId.truthy then .ok none
    else
      match titles event with
      | none => .ok none
      | some (title, body) =>
        match userIdOf userId with
        | .error e => .error e
        | .ok userId => .ok (some ⟨userId, event.eventType.value, title, body⟩)

/-- The commit of `create_notification`.  The body must be a text. -/
def insertNotification (s : State) (env : Env) (note : Note) : Except ServiceError State :=
  match note.body with
  | .str body =>
    if env.databaseFails then .error .database
    else
      match Table.insertRow Notification.id
          ⟨env.notificationId, note.userId, note.type, note.title, body, none, env.txnStart⟩
          s.notifications with
      | some notifications => .ok { s with notifications := notifications }
      | none => .error .database
  | _ => .error .database

/-- The second commit of `handle_domain_event`. -/
def insertDeliveryLog (s : State) (env : Env) (notificationId : UUID) :
    Except ServiceError State :=
  if env.databaseFails then .error .database
  else
    match Table.insertRow NotificationDeliveryLog.id
        ⟨env.deliveryLogId, notificationId, "email", "pending"⟩ s.deliveryLogs with
    | some deliveryLogs => .ok { s with deliveryLogs := deliveryLogs }
    | none => .error .database

def handleDomainEvent (s : State) (env : Env) (event : DomainEvent) :
    State × Except ServiceError Unit :=
  match noteOf event with
  | .error e => (s, .error e)
  | .ok none => (s, .ok ())
  | .ok (some note) =>
    match insertNotification s env note with
    | .error e => (s, .error e)
    | .ok s' =>
      match refresh s' env env.notificationId with
      | .error e => (s', .error e)
      | .ok stored =>
        match insertDeliveryLog s' env stored.id with
        | .error e => (s', .error e)
        | .ok s'' => (s'', .ok ())

/-! ## The consumer -/

/-- The event types that `run_consumer` registers: the queue is bound to these. -/
def registered : List EventType :=
  [.applicationSubmitted, .applicationShortlisted, .applicationRejected, .queryResponded,
    .driveCreated, .driveUpdated]

section Consumer

variable {Body : Type} (codec : Codec Body)

/-- The event that a message of the queue is read as, `none` when there is no such
    message. -/
def receive (exchange : List DomainEvent) (message : Nat) :
    Except ServiceError (Option DomainEvent) :=
  match exchange[message]? with
  | none => .ok none
  | some sent =>
    if sent.eventType ∉ registered then .ok none
    else
      match codec.decode (codec.encode sent) with
      | .error e => .error e
      | .ok event => .ok (if event.eventType ∈ registered then some event else none)

def consume (exchange : List DomainEvent) (s : State) (env : Env) :
    State × Except ServiceError Unit :=
  match receive codec exchange env.message with
  | .error e => (s, .error e)
  | .ok none => (s, .ok ())
  | .ok (some event) => handleDomainEvent s env event

end Consumer

/-! ## What a commit does -/

theorem insertNotification_of_fresh {s : State} (env : Env) {note : Note} {body : String}
    (hbody : note.body = .str body) (hdatabase : env.databaseFails = false)
    (hfresh : env.notificationId ∉ s.notifications.map Notification.id) :
    insertNotification s env note = .ok { s with
      notifications := s.notifications ++
        [⟨env.notificationId, note.userId, note.type, note.title, body, none, env.txnStart⟩] } := by
  let row : Notification :=
    ⟨env.notificationId, note.userId, note.type, note.title, body, none, env.txnStart⟩
  have hinsert : Table.insertRow Notification.id row s.notifications =
      some (s.notifications ++ [row]) := Table.insertRow_of_fresh hfresh
  simp only [insertNotification, hbody, hdatabase, row, hinsert, Bool.false_eq_true, if_false]

theorem insertDeliveryLog_of_fresh {s : State} (env : Env) (notificationId : UUID)
    (hdatabase : env.databaseFails = false)
    (hfresh : env.deliveryLogId ∉ s.deliveryLogs.map NotificationDeliveryLog.id) :
    insertDeliveryLog s env notificationId = .ok { s with
      deliveryLogs :=
        s.deliveryLogs ++ [⟨env.deliveryLogId, notificationId, "email", "pending"⟩] } := by
  let log : NotificationDeliveryLog := ⟨env.deliveryLogId, notificationId, "email", "pending"⟩
  have hinsert : Table.insertRow NotificationDeliveryLog.id log s.deliveryLogs =
      some (s.deliveryLogs ++ [log]) := Table.insertRow_of_fresh hfresh
  simp only [insertDeliveryLog, hdatabase, log, hinsert, Bool.false_eq_true, if_false]

theorem mem_of_refresh {s : State} {env : Env} {id : UUID} {note : Notification}
    (h : refresh s env id = .ok note) : note ∈ s.notifications ∧ note.id = id := by
  unfold refresh at h
  split at h
  · cases h
  split at h
  · rename_i hfound
    cases h
    exact ⟨Table.mem_of_lookup hfound, Table.key_of_lookup hfound⟩
  · cases h

theorem exists_refresh {s : State} {env : Env} {id : UUID} (hreload : env.reloadFails = false)
    (h : id ∈ s.notifications.map Notification.id) :
    ∃ note, refresh s env id = .ok note ∧ note.id = id := by
  obtain ⟨row, hrow, hid⟩ := List.mem_map.mp h
  rcases hfound : Table.lookup Notification.id id s.notifications with _ | note
  · exact absurd hid (Table.lookup_eq_none.mp hfound row hrow)
  · exact ⟨note, by rw [refresh, hreload, if_neg Bool.false_ne_true, hfound],
      Table.key_of_lookup hfound⟩

theorem insertNotification_ok {s s' : State} {env : Env} {note : Note}
    (h : insertNotification s env note = .ok s') :
    ∃ body, s' = { s with
      notifications := s.notifications ++
        [⟨env.notificationId, note.userId, note.type, note.title, body, none, env.txnStart⟩] } := by
  unfold insertNotification at h
  split at h
  · rename_i body hbody
    split at h
    · cases h
    split at h
    · rename_i notifications hins
      cases h
      exact ⟨body, by rw [(Table.insertRow_eq_some.mp hins).2]⟩
    · cases h
  · cases h

theorem insertDeliveryLog_ok {s s' : State} {env : Env} {notificationId : UUID}
    (h : insertDeliveryLog s env notificationId = .ok s') :
    s' = { s with
      deliveryLogs :=
        s.deliveryLogs ++ [⟨env.deliveryLogId, notificationId, "email", "pending"⟩] } := by
  unfold insertDeliveryLog at h
  split at h
  · cases h
  split at h
  · rename_i deliveryLogs hins
    cases h
    rw [(Table.insertRow_eq_some.mp hins).2]
  · cases h

theorem commitRead_ok {s s' : State} {env : Env} {note : Notification}
    (h : commitRead s env note = .ok s') :
    s' = { s with
      notifications := Table.modify Notification.id note.id
        (fun n => { n with readAt := some env.clock }) s.notifications } := by
  unfold commitRead at h
  split at h
  · cases h
  · cases h
    rfl

/-- The notification of an event goes to its `student_id`, under the event's type. -/
theorem noteOf_eq_some {event : DomainEvent} {note : Note} {studentId : UUID}
    (hpayload : event.payload.get "student_id" = some (.str studentId.str))
    (h : noteOf event = .ok (some note)) :
    note.userId = studentId ∧ note.type = event.eventType.value := by
  simp only [noteOf, hpayload, userIdOf, UUID.parse_str] at h
  split at h
  · cases h
  split at h
  · cases h
  · cases h
    exact ⟨rfl, rfl⟩

/-- An application event that names its student becomes a notification. -/
theorem noteOf_application {event : DomainEvent} {studentId : UUID}
    (htype : event.eventType = .applicationSubmitted ∨ event.eventType = .applicationShortlisted ∨
      event.eventType = .applicationRejected)
    (hpayload : event.payload.get "student_id" = some (.str studentId.str)) :
    ∃ title body,
      noteOf event = .ok (some ⟨studentId, event.eventType.value, title, .str body⟩) := by
  have htruthy : (Json.str studentId.str).truthy = true := by
    simp [Json.truthy, UUID.str_ne_empty]
  rcases htype with h | h | h
  all_goals
    simp only [noteOf, hpayload, titles, h, htruthy, userIdOf, UUID.parse_str, Bool.not_true,
      Bool.false_eq_true, if_false]
    exact ⟨_, _, rfl⟩

/-- `mark_read` writes no column but `read_at`, and no other table. -/
theorem map_markRead {α : Type*} {g : Notification → α}
    (hg : ∀ n readAt, g { n with readAt := readAt } = g n) (s : State) (env : Env)
    (notificationId userId : UUID) :
    (markRead s env notificationId userId).1.notifications.map g = s.notifications.map g ∧
      (markRead s env notificationId userId).1.deliveryLogs = s.deliveryLogs := by
  unfold markRead
  split
  · exact ⟨rfl, rfl⟩
  split
  · exact ⟨rfl, rfl⟩
  · rename_i hcommit
    rw [commitRead_ok hcommit]
    exact ⟨Table.map_modify (fun n => hg n _) s.notifications, rfl⟩

end CampusHire.CommunicationsService
