import CampusHire.AuditTrail
import CampusHire.EventDelivery

/-!
# Where notifications come from

A notification of an application event goes to a student whose application has
been committed, and one of a decision to a student whose application's audit log has
the decision, however the requests, the broker and the consumer interleave
(`notifications_justified`).

The reason is passed along.  A request publishes only after its commit, so the event
is `Announced`: it names a student for whom the tables already hold what the event
says.  The tables only grow, so this stays true while the event is under way, and the
notification that a handler makes of it is `Warranted`.
-/

namespace CampusHire.NotificationProvenance

open CampusHire Schedule EventDelivery
open CampusHire.ApplicationService (Application AuditLog commitStatus_ok commitWithdrawal_ok
  insertApplication_ok taskStep_cases)
open CampusHire.CommunicationsService (Notification)

/-! ## What the application service has committed -/

def Applied (s : ApplicationService.State) (studentId : UUID) : Prop :=
  ∃ a ∈ s.applications, a.studentId = studentId

/-- The audit log of the application has an entry that changed the status to this one. -/
def ChangedTo (s : ApplicationService.State) (id : UUID) (status : ApplicationStatus) : Prop :=
  ∃ e ∈ s.auditLogs, e.applicationId = id ∧ AuditTrail.changedTo e = some status.value

/-- The student has an application whose status has been changed to this one. -/
def Decided (s : ApplicationService.State) (studentId : UUID) (status : ApplicationStatus) : Prop :=
  ∃ a ∈ s.applications, a.studentId = studentId ∧ ChangedTo s a.id status

/-- What an event about a student says has been committed. -/
def Justified (s : ApplicationService.State) (eventType : EventType) (studentId : UUID) : Prop :=
  match eventType with
  | .applicationSubmitted => Applied s studentId
  | .applicationShortlisted => Decided s studentId .shortlisted
  | .applicationRejected => Decided s studentId .rejected
  | _ => True

/-- The event names its student as a text, and is justified. -/
structure Announced (s : ApplicationService.State) (event : DomainEvent) : Prop where
  textPayload : event.HasTextPayload
  justified : ∃ studentId, event.payload.get "student_id" = some (.str studentId.str) ∧
    Justified s event.eventType studentId

/-- Whatever event type a notification shows, it is justified for the user. -/
def Warranted (s : ApplicationService.State) (type : String) (userId : UUID) : Prop :=
  ∀ eventType : EventType, type = eventType.value → Justified s eventType userId

/-! ## The tables only grow -/

/-- Applications keep their id and student, and audit entries stay. -/
structure Grows (s t : ApplicationService.State) : Prop where
  applications : ∀ a ∈ s.applications, ∃ b ∈ t.applications, b.id = a.id ∧ b.studentId = a.studentId
  auditLogs : ∀ e ∈ s.auditLogs, e ∈ t.auditLogs

theorem Grows.refl (s : ApplicationService.State) : Grows s s :=
  ⟨fun a ha => ⟨a, ha, rfl, rfl⟩, fun _ he => he⟩

theorem Grows.changedTo {s t : ApplicationService.State} (h : Grows s t) {id : UUID}
    {status : ApplicationStatus} (hchanged : ChangedTo s id status) : ChangedTo t id status := by
  obtain ⟨e, he, hid, hto⟩ := hchanged
  exact ⟨e, h.auditLogs e he, hid, hto⟩

theorem Grows.applied {s t : ApplicationService.State} (h : Grows s t) {studentId : UUID}
    (happlied : Applied s studentId) : Applied t studentId := by
  obtain ⟨a, ha, rfl⟩ := happlied
  obtain ⟨b, hb, -, hstudent⟩ := h.applications a ha
  exact ⟨b, hb, hstudent⟩

theorem Grows.decided {s t : ApplicationService.State} (h : Grows s t) {studentId : UUID}
    {status : ApplicationStatus} (hdecided : Decided s studentId status) :
    Decided t studentId status := by
  obtain ⟨a, ha, rfl, hchanged⟩ := hdecided
  obtain ⟨b, hb, hid, hstudent⟩ := h.applications a ha
  exact ⟨b, hb, hstudent, hid ▸ h.changedTo hchanged⟩

theorem Grows.justified {s t : ApplicationService.State} (h : Grows s t) {eventType : EventType}
    {studentId : UUID} (hjust : Justified s eventType studentId) :
    Justified t eventType studentId := by
  cases eventType with
  | applicationSubmitted => exact h.applied hjust
  | applicationShortlisted => exact h.decided hjust
  | applicationRejected => exact h.decided hjust
  | _ => trivial

theorem Grows.announced {s t : ApplicationService.State} (h : Grows s t) {event : DomainEvent}
    (hann : Announced s event) : Announced t event := by
  obtain ⟨htext, studentId, hpayload, hjust⟩ := hann
  exact ⟨htext, studentId, hpayload, h.justified hjust⟩

theorem Grows.warranted {s t : ApplicationService.State} (h : Grows s t) {type : String}
    {userId : UUID} (hwarr : Warranted s type userId) : Warranted t type userId :=
  fun eventType heq => h.justified (hwarr eventType heq)

theorem exists_mem_writeStatus {s : ApplicationService.State} {a : Application}
    (row : Application) (status : String) (ha : a ∈ s.applications) :
    ∃ b ∈ (ApplicationService.writeStatus s row status).applications,
      b.id = a.id ∧ b.studentId = a.studentId := by
  have hcolumns := ApplicationService.map_writeStatus (g := fun a => (a.id, a.studentId))
    (fun _ _ => rfl) s row status
  have hmem : (a.id, a.studentId) ∈ s.applications.map fun a => (a.id, a.studentId) :=
    List.mem_map_of_mem ha
  rw [← hcolumns] at hmem
  obtain ⟨b, hb, heq⟩ := List.mem_map.mp hmem
  exact ⟨b, hb, congrArg Prod.fst heq, congrArg Prod.snd heq⟩

theorem grows_step (env : ApplicationService.Env) (s : ApplicationService.State)
    (t : ApplicationService.Task) : Grows s (ApplicationService.taskStep env s t).1 := by
  rcases taskStep_cases env s t with ⟨published, heq⟩ |
    ⟨studentId, data, profile, s', -, -, hins, heq⟩ | ⟨row, s', -, hcommit, heq⟩ |
    ⟨row, current, actorId, status, s', -, hcommit, heq⟩
  · rw [heq]
    exact ⟨fun a ha => ⟨a, ha, rfl, rfl⟩, fun _ he => he⟩
  · obtain ⟨-, -, happs, -, haudits, -⟩ := insertApplication_ok hins
    rw [heq]
    constructor
    · intro a ha
      refine ⟨a, ?_, rfl, rfl⟩
      rw [happs]
      exact List.mem_append_left _ ha
    · intro e he
      rw [haudits]
      exact List.mem_append_left _ he
  · rw [heq, commitWithdrawal_ok hcommit]
    constructor
    · intro a ha
      exact exists_mem_writeStatus row "Withdrawn" ha
    · intro e he
      simp [he]
  · obtain ⟨-, happs, -, haudits, -⟩ := commitStatus_ok hcommit
    rw [heq]
    constructor
    · intro a ha
      rw [happs]
      exact exists_mem_writeStatus row status.value ha
    · intro e he
      rw [haudits]
      exact List.mem_append_left _ he

/-! ## What a request knows when it publishes -/

/-- What a request that has committed knows of the tables. -/
def Committed (s : ApplicationService.State) : ApplicationService.Task → Prop
  | .applyRefresh studentId _ _ => Applied s studentId
  | .statusRefresh id _ status => ChangedTo s id status
  | .publishing _ event => Announced s event
  | _ => True

theorem Grows.committed {s t : ApplicationService.State} (h : Grows s t)
    {task : ApplicationService.Task} (hcommitted : Committed s task) : Committed t task := by
  cases task with
  | applyRefresh => exact h.applied hcommitted
  | statusRefresh => exact h.changedTo hcommitted
  | publishing => exact h.announced hcommitted
  | _ => trivial

theorem announced_submitted {s : ApplicationService.State} {app : Application} {studentId : UUID}
    {data : ApplicationService.ApplicationCreate} (h : Applied s studentId) :
    Announced s (ApplicationService.submittedEvent app studentId data) :=
  ⟨ApplicationService.submittedEvent_textPayload app studentId data, studentId, rfl, h⟩

theorem announced_status {s : ApplicationService.State} {app : Application} {actorId : UUID}
    {status : ApplicationStatus} {eventType : EventType} (happ : app ∈ s.applications)
    (hchanged : ChangedTo s app.id status)
    (hevent : ApplicationService.eventOfStatus status = some eventType) :
    Announced s (ApplicationService.statusEvent eventType app actorId) := by
  refine ⟨ApplicationService.statusEvent_textPayload eventType app actorId, app.studentId, rfl, ?_⟩
  · have hdecided : Decided s app.studentId status := ⟨app, happ, rfl, hchanged⟩
    -- only two statuses have an event
    cases status with
    | shortlisted => cases hevent; exact hdecided
    | rejected => cases hevent; exact hdecided
    | _ => cases hevent

theorem committed_step (env : ApplicationService.Env) {s : ApplicationService.State}
    {t : ApplicationService.Task} (h : Committed s t) :
    Committed (ApplicationService.taskStep env s t).1 (ApplicationService.taskStep env s t).2 := by
  cases t with
  | fetchProfile studentId data =>
    simp only [ApplicationService.taskStep]
    split
    · trivial
    split
    · trivial
    · rename_i hins
      obtain ⟨-, -, happs, -⟩ := insertApplication_ok hins
      exact ⟨_, by rw [happs]; exact List.mem_concat_self, rfl⟩
  | applyRefresh studentId data id =>
    simp only [ApplicationService.taskStep]
    split
    · trivial
    · exact announced_submitted h
  | statusCommit row current actorId status =>
    simp only [ApplicationService.taskStep]
    split
    · trivial
    · rename_i hcommit
      obtain ⟨-, -, -, haudits, -⟩ := commitStatus_ok hcommit
      exact ⟨_, by rw [haudits]; exact List.mem_concat_self, rfl, rfl⟩
  | statusRefresh id actorId status =>
    simp only [ApplicationService.taskStep]
    split
    · trivial
    · rename_i app hrefresh
      obtain ⟨happ, hid⟩ := ApplicationService.mem_of_refresh hrefresh
      split
      · rename_i hevent
        exact announced_status happ (hid ▸ h) hevent
      · trivial
  | _ =>
    -- the other steps end before a commit, or after the publication
    simp only [ApplicationService.taskStep]
    repeat' split
    all_goals trivial

/-- An event is in the exchange after a step only if it was there before or the step
    published it. -/
theorem mem_published_step {env : ApplicationService.Env} {s : ApplicationService.State}
    {t : ApplicationService.Task} {event : DomainEvent}
    (h : event ∈ (ApplicationService.taskStep env s t).1.published) :
    event ∈ s.published ∨ ∃ app, t = .publishing app event := by
  cases t with
  | fetchProfile studentId data =>
    simp only [ApplicationService.taskStep] at h
    split at h
    · exact Or.inl h
    split at h
    · exact Or.inl h
    · rename_i hins
      exact Or.inl ((insertApplication_ok hins).2.2.2.2.2 ▸ h)
  | withdrawCommit row =>
    simp only [ApplicationService.taskStep] at h
    split at h
    · exact Or.inl h
    · rename_i hcommit
      rw [commitWithdrawal_ok hcommit] at h
      exact Or.inl (by simpa using h)
  | statusCommit row current actorId status =>
    simp only [ApplicationService.taskStep] at h
    split at h
    · exact Or.inl h
    · rename_i hcommit
      exact Or.inl ((commitStatus_ok hcommit).2.2.2.2 ▸ h)
  | publishing app sent =>
    rcases mem_publish h with hold | rfl
    · exact Or.inl hold
    · exact Or.inr ⟨app, rfl⟩
  | _ =>
    -- no other step touches the exchange
    left
    revert h
    simp only [ApplicationService.taskStep]
    repeat' split
    all_goals exact id

/-! ## What a handler knows when it stores a notification -/

section Delivery

variable {Body : Type} (codec : Codec Body)

theorem receive_eq_some (hcodec : codec.RoundTrips) {s : ApplicationService.State}
    {message : Nat} {event : DomainEvent}
    (hall : ∀ e ∈ s.published, Announced s e)
    (h : CommunicationsService.receive codec s.published message = .ok (some event)) :
    Announced s event := by
  unfold CommunicationsService.receive at h
  split at h
  · cases h
  rename_i sent hsent
  have hann := hall sent (List.mem_of_getElem? hsent)
  rw [hcodec sent hann.textPayload] at h
  split at h
  · cases h
  · dsimp only at h
    split at h
    · cases h
      exact hann
    · cases h

theorem warranted_of_announced {s : ApplicationService.State} {event : DomainEvent}
    {note : CommunicationsService.Note} (h : Announced s event)
    (hnote : CommunicationsService.noteOf event = .ok (some note)) :
    Warranted s note.type note.userId := by
  obtain ⟨-, studentId, hpayload, hjust⟩ := h
  obtain ⟨rfl, htype⟩ := CommunicationsService.noteOf_eq_some hpayload hnote
  intro eventType heq
  rw [htype] at heq
  exact EventType.value_injective heq ▸ hjust

structure Provenance (s : State) : Prop where
  announced : ∀ event ∈ s.application.published, Announced s.application event
  warranted : ∀ note ∈ s.communications.notifications,
    Warranted s.application note.type note.userId

def Knows (s : State) : Task → Prop
  | .application t => Committed s.application t
  | .communications (.notify note) => Warranted s.application note.type note.userId
  | .communications _ => True

theorem knows_communications {s : State} {handler : Handler}
    (h : ∀ note, handler = .notify note → Warranted s.application note.type note.userId) :
    Knows s (.communications handler) := by
  cases handler with
  | notify note => exact h note rfl
  | _ => trivial

theorem grows_taskStep (env : Env) (s : State) (t : Task) :
    Grows s.application (taskStep codec env s t).1.application := by
  cases t with
  | application t => exact grows_step env.application s.application t
  | communications handler =>
    simp only [taskStep]
    split <;> exact Grows.refl _

/-- A notification is stored after a step only if it was before, perhaps unread, or the
    step stored the one its handler had prepared. -/
theorem mem_notifications_step {exchange : List DomainEvent}
    {env : CommunicationsService.Env} {s : CommunicationsService.State} {handler : Handler}
    {note : Notification}
    (h : note ∈ (handlerStep codec exchange env s handler).1.notifications) :
    (∃ old ∈ s.notifications, old.type = note.type ∧ old.userId = note.userId) ∨
      ∃ prepared, handler = .notify prepared ∧ prepared.type = note.type ∧
        prepared.userId = note.userId := by
  rcases handlerStep_cases codec exchange env s handler with heq | ⟨prepared, s', rfl, hins, heq⟩ |
    ⟨id, s', -, hins, heq⟩ | ⟨read, s', -, hcommit, heq⟩
  · rw [heq] at h
    exact Or.inl ⟨note, h, rfl, rfl⟩
  · obtain ⟨body, hadded⟩ := CommunicationsService.insertNotification_ok hins
    rw [heq, hadded] at h
    rcases List.mem_append.mp h with hold | hnew
    · exact Or.inl ⟨note, hold, rfl, rfl⟩
    · cases List.mem_singleton.mp hnew
      exact Or.inr ⟨prepared, rfl, rfl, rfl⟩
  · rw [heq, CommunicationsService.insertDeliveryLog_ok hins] at h
    exact Or.inl ⟨note, h, rfl, rfl⟩
  · rw [heq, CommunicationsService.commitRead_ok hcommit] at h
    rcases Table.mem_modify.mp h with ⟨hold, -⟩ | ⟨old, hold, -, rfl⟩
    · exact Or.inl ⟨note, hold, rfl, rfl⟩
    · exact Or.inl ⟨old, hold, rfl, rfl⟩

theorem provenance_step {env : Env} {s : State} {t : Task} (hinv : Provenance s)
    (hown : Knows s t) : Provenance (taskStep codec env s t).1 := by
  have hgrows := grows_taskStep codec env s t
  cases t with
  | application t =>
    constructor
    · intro event hevent
      rcases mem_published_step hevent with hold | ⟨app, rfl⟩
      · exact hgrows.announced (hinv.announced event hold)
      · exact hgrows.announced hown
    · intro note hnote
      exact hgrows.warranted (hinv.warranted note hnote)
  | communications handler =>
    simp only [taskStep]
    split
    · -- the process has crashed
      exact hinv
    refine ⟨hinv.announced, ?_⟩
    intro note hnote
    rcases mem_notifications_step codec hnote with ⟨old, hold, htype, huser⟩ |
      ⟨prepared, rfl, htype, huser⟩
    · rw [← htype, ← huser]
      exact hinv.warranted old hold
    · rw [← htype, ← huser]
      exact hown

theorem knows_step (hcodec : codec.RoundTrips) {env : Env} {s : State} {t : Task}
    (hinv : Provenance s) (hown : Knows s t) :
    Knows (taskStep codec env s t).1 (taskStep codec env s t).2 := by
  cases t with
  | application t => exact committed_step env.application hown
  | communications handler =>
    simp only [taskStep]
    split
    · trivial
    apply knows_communications
    intro note hnotify
    obtain ⟨event, hreceive, hnote⟩ := handlerStep_notify codec hnotify
    exact warranted_of_announced (receive_eq_some codec hcodec hinv.announced hreceive) hnote

/-- Each task passes its reason on; nobody can take it away. -/
def provenance (hcodec : codec.RoundTrips) : Annotation (program codec) where
  inv := Provenance
  own := Knows
  step_inv := fun _ _ _ hinv hown => provenance_step codec hinv hown
  step_own := fun _ _ _ hinv hown => knows_step codec hcodec hinv hown
  stable := by
    intro env s t u _ _ hu _
    have hgrows := grows_taskStep codec env s t
    cases u with
    | application u => exact hgrows.committed hu
    | communications handler =>
      apply knows_communications
      rintro note rfl
      exact hgrows.warranted hu

/-! ## All runs -/

theorem provenance_arrive (hcodec : codec.RoundTrips) {ι : Type*} (jobs : ι → Job) :
    (provenance codec hcodec).Holds (arrive jobs) := by
  refine (provenance codec hcodec).holds_start (fun i => Task.start_not_running (jobs i)) ?_ ?_
  · exact ⟨nofun, nofun⟩
  · intro i
    cases jobs i with
    | request user request =>
      cases request <;> simp only [Task.start, ApplicationService.Task.start] <;> split <;> trivial
    | message => trivial
    | markRead user notificationId => trivial

/-- **No notification is spurious or misaddressed.**  Whatever the requests, whatever
    the broker delivers and wherever handlers fail or crash: in every state reached, a
    notification of a submission belongs to a student with an application, and one of
    a decision to a student with an application whose audit log has it. -/
theorem notifications_justified (hcodec : codec.RoundTrips) {ι : Type*} [DecidableEq ι]
    (jobs : ι → Job) (schedule : List (ι × Env)) :
    ∀ note ∈ (run (program codec) (arrive jobs) schedule).store.communications.notifications,
      (note.type = EventType.applicationSubmitted.value →
        Applied (run (program codec) (arrive jobs) schedule).store.application note.userId) ∧
      (note.type = EventType.applicationShortlisted.value →
        Decided (run (program codec) (arrive jobs) schedule).store.application note.userId
          .shortlisted) ∧
      (note.type = EventType.applicationRejected.value →
        Decided (run (program codec) (arrive jobs) schedule).store.application note.userId
          .rejected) := by
  intro note hnote
  have hwarranted := ((provenance codec hcodec).holds_run
    (provenance_arrive codec hcodec jobs) schedule).inv.warranted note hnote
  exact ⟨hwarranted .applicationSubmitted, hwarranted .applicationShortlisted,
    hwarranted .applicationRejected⟩

end Delivery

/-- A student applies, a coordinator shortlists the application, and the second event is
    delivered twice: the first handler crashes between its two commits. -/
def shortlistAndRedeliver : Nat → Job
  | 0 => .request ⟨.ofNat 1, .student⟩ (.create ⟨.ofNat 3, [], none⟩)
  | 1 => .request ⟨.ofNat 2, .coordinator⟩ (.patchStatus (.ofNat 10) .shortlisted)
  | _ => .message

def deliveryEnv (id : UUID) (crashes : Bool) : Env where
  application := .untroubled (.ofNat 10) id 0
  communications :=
    { message := 1, notificationId := id, deliveryLogId := id, txnStart := 0, clock := 0
      databaseFails := false, reloadFails := false, crashes := crashes }

def redelivery : List (Nat × Env) :=
  [(0, deliveryEnv (.ofNat 20) false), (0, deliveryEnv (.ofNat 20) false),
    (0, deliveryEnv (.ofNat 20) false), (0, deliveryEnv (.ofNat 20) false),
    (1, deliveryEnv (.ofNat 21) false), (1, deliveryEnv (.ofNat 21) false),
    (1, deliveryEnv (.ofNat 21) false), (1, deliveryEnv (.ofNat 21) false),
    (1, deliveryEnv (.ofNat 21) false), (2, deliveryEnv (.ofNat 30) false),
    (2, deliveryEnv (.ofNat 30) false), (2, deliveryEnv (.ofNat 30) true),
    (3, deliveryEnv (.ofNat 31) false), (3, deliveryEnv (.ofNat 31) false),
    (3, deliveryEnv (.ofNat 31) false), (3, deliveryEnv (.ofNat 31) false)]

/-- Two notifications of one decision, both to the student who was shortlisted. -/
theorem redelivery_justified :
    (run (program Codec.tree) (arrive shortlistAndRedeliver)
      redelivery).store.communications.notifications.map (fun n => (n.type, n.userId)) =
        [("APPLICATION_SHORTLISTED", .ofNat 1), ("APPLICATION_SHORTLISTED", .ofNat 1)] ∧
    Decided (run (program Codec.tree) (arrive shortlistAndRedeliver) redelivery).store.application
      (.ofNat 1) .shortlisted := by
  have hrun : (run (program Codec.tree) (arrive shortlistAndRedeliver)
      redelivery).store.communications.notifications.map (fun n => (n.type, n.userId)) =
        [("APPLICATION_SHORTLISTED", .ofNat 1), ("APPLICATION_SHORTLISTED", .ofNat 1)] := by
    decide +kernel
  refine ⟨hrun, ?_⟩
  obtain ⟨note, hnote, heq⟩ := List.mem_map.mp (hrun ▸ List.mem_cons_self)
  obtain ⟨htype, huser⟩ := Prod.mk.inj heq
  exact huser ▸ (notifications_justified Codec.tree Codec.tree_roundTrips shortlistAndRedeliver
    redelivery note hnote).2.1 htype

end CampusHire.NotificationProvenance
