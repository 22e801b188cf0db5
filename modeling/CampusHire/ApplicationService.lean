import CampusHire.Events
import CampusHire.Table

/-!
# The application service

`application_service.py` and its routes: `apply`, `withdraw` and `update_status`
over the tables of `models.py`.  A table is a list of rows in the order of their
commits.  Everything a handler receives from outside while it runs (the answers
of the other services, fresh `uuid4` values, clock readings, whether the database
or the broker refuses) is its `Env`.
-/

namespace CampusHire.ApplicationService

open CampusHire

/-! ## Tables -/

structure Application where
  id : UUID
  opportunityId : UUID
  studentId : UUID
  status : String
  resumeUrl : Option String
  profileSnapshot : Json
  overrides : Dict
  createdAt : Time

structure WorkflowStage where
  id : UUID
  applicationId : UUID
  stageName : String
  enteredAt : Time
  exitedAt : Option Time
  actorId : Option UUID

structure AuditLog where
  applicationId : UUID
  entity : String
  action : String
  payload : Option Dict

/-- The committed tables, and the events the exchange has received. -/
structure State where
  applications : List Application
  stages : List WorkflowStage
  auditLogs : List AuditLog
  published : List DomainEvent

def State.empty : State := ⟨[], [], [], []⟩

/-! ## Requests -/

structure ApplicationCreate where
  opportunityId : UUID
  overrides : Dict
  resumeUrl : Option String

/-- What a request meets while it is handled.  `txnStart` is PostgreSQL's `now()`,
    `clock` is `datetime.now` in the handler.  The database may refuse the commit, and it
    may fail in the `SELECT` that reloads the row after it. -/
structure Env where
  opportunity : HttpAnswer
  profile : HttpAnswer
  applicationId : UUID
  stageId : UUID
  txnStart : Time
  clock : Time
  databaseFails : Bool
  reloadFails : Bool
  publishing : PublishOutcome

/-- Every service answers, the database accepts and the broker confirms. -/
def Env.untroubled (applicationId stageId : UUID) (time : Time) : Env where
  opportunity := .answered 200 (some (.obj []))
  profile := .answered 200 (some (.obj []))
  applicationId := applicationId
  stageId := stageId
  txnStart := time
  clock := time
  databaseFails := false
  reloadFails := false
  publishing := .confirmed

inductive Request where
  | create (data : ApplicationCreate)
  | withdraw (applicationId : UUID)
  | patchStatus (applicationId : UUID) (status : ApplicationStatus)

/-! ## Answers of the other services -/

def fetchOpportunity : HttpAnswer → Except ServiceError Json
  | .unreachable => .error .upstream
  | .answered code body =>
      if code ≠ 200 then .error (.http 404 "Opportunity not found") else HttpAnswer.json body

def fetchProfile : HttpAnswer → Except ServiceError Json
  | .unreachable => .error .upstream
  | .answered code body => if code = 200 then HttpAnswer.json body else .ok (.obj [])

/-! ## Queries -/

def findApplication (s : State) (id : UUID) : Option Application :=
  Table.lookup Application.id id s.applications

/-- The duplicate check of `apply`. -/
def findExisting (s : State) (opportunityId studentId : UUID) : Option Application :=
  s.applications.find? fun a =>
    decide (a.opportunityId = opportunityId) && decide (a.studentId = studentId)

/-- The stage `update_status` closes: the first one without `exited_at`. -/
def findOpenStage (s : State) (applicationId : UUID) : Option WorkflowStage :=
  s.stages.find? fun st => decide (st.applicationId = applicationId) && st.exitedAt.isNone

/-! ## Commits -/

def logAudit (s : State) (applicationId : UUID) (entity action : String)
    (payload : Option Dict) : State :=
  { s with auditLogs := s.auditLogs ++ [⟨applicationId, entity, action, payload⟩] }

/-- The `UPDATE` of the status column: written only when the new value differs
    from the one the session loaded. -/
def writeStatus (s : State) (row : Application) (status : String) : State :=
  if row.status = status then s
  else { s with
    applications := Table.modify Application.id row.id (fun a => { a with status := status })
      s.applications }

/-- `resume_url` is a `VARCHAR(500)`. -/
def fitsResumeUrl (url : Option String) : Bool := fits 500 url

def newApplication (env : Env) (studentId : UUID) (data : ApplicationCreate) (profile : Json) :
    Application where
  id := env.applicationId
  opportunityId := data.opportunityId
  studentId := studentId
  status := ApplicationStatus.applied.value
  resumeUrl := data.resumeUrl.map (varchar 500)
  profileSnapshot := profile
  overrides := data.overrides
  createdAt := env.txnStart

/-- The flush and the commit of `apply`: the application, its first stage and the
    audit entry, or nothing. -/
def insertApplication (s : State) (env : Env) (studentId : UUID) (data : ApplicationCreate)
    (profile : Json) : Except ServiceError State :=
  let app := newApplication env studentId data profile
  let stage : WorkflowStage :=
    ⟨env.stageId, app.id, "Registration", env.txnStart, none, none⟩
  if env.databaseFails || !fitsResumeUrl data.resumeUrl then .error .database
  else
    match Table.insertRow Application.id app s.applications,
        Table.insertRow WorkflowStage.id stage s.stages with
    | some applications, some stages =>
        .ok (logAudit { s with applications := applications, stages := stages } app.id
          "application" "created" (some [("status", .str app.status)]))
    | _, _ => .error .database

/-- The commit of `withdraw`, on the row the session loaded. -/
def commitWithdrawal (s : State) (env : Env) (row : Application) : Except ServiceError State :=
  if env.databaseFails then .error .database
  else .ok (logAudit (writeStatus s row "Withdrawn") row.id "application" "withdrawn" none)

/-- `current_stage.exited_at = now`, when there is a current stage. -/
def closeStage (stages : List WorkflowStage) (clock : Time) :
    Option WorkflowStage → List WorkflowStage
  | some current => Table.modify WorkflowStage.id current.id
      (fun r => { r with exitedAt := some clock }) stages
  | none => stages

/-- The commit of `update_status`, on the row and the stage the session loaded. -/
def commitStatus (s : State) (env : Env) (row : Application) (current : Option WorkflowStage)
    (actorId : UUID) (status : ApplicationStatus) : Except ServiceError State :=
  let next : WorkflowStage :=
    ⟨env.stageId, row.id, status.value, env.txnStart, none, some actorId⟩
  if env.databaseFails then .error .database
  else
    match Table.insertRow WorkflowStage.id next (closeStage s.stages env.clock current) with
    | some stages =>
        .ok (logAudit { writeStatus s row status.value with stages := stages } row.id
          "application" "status_changed"
          (some [("from", .str row.status), ("to", .str status.value)]))
    | none => .error .database

/-- `db.refresh`, and the reload of a row for its answer. -/
def refresh (s : State) (env : Env) (id : UUID) : Except ServiceError Application :=
  if env.reloadFails then .error .database
  else
    match findApplication s id with
    | some app => .ok app
    | none => .error .database

/-! ## Events -/

def submittedEvent (app : Application) (studentId : UUID) (data : ApplicationCreate) :
    DomainEvent where
  eventType := .applicationSubmitted
  payload := [("application_id", .str app.id.str), ("student_id", .str studentId.str),
    ("opportunity_id", .str data.opportunityId.str)]
  actorId := some studentId

/-- `event_map` of `update_status`. -/
def eventOfStatus : ApplicationStatus → Option EventType
  | .shortlisted => some .applicationShortlisted
  | .rejected => some .applicationRejected
  | _ => none

def statusEvent (eventType : EventType) (app : Application) (actorId : UUID) : DomainEvent where
  eventType := eventType
  payload := [("application_id", .str app.id.str), ("student_id", .str app.studentId.str)]
  actorId := some actorId

theorem submittedEvent_textPayload (app : Application) (studentId : UUID)
    (data : ApplicationCreate) : (submittedEvent app studentId data).HasTextPayload := by
  intro entry hentry
  simp only [submittedEvent, List.mem_cons, List.not_mem_nil, or_false] at hentry
  rcases hentry with rfl | rfl | rfl <;> exact ⟨_, rfl⟩

theorem statusEvent_textPayload (eventType : EventType) (app : Application) (actorId : UUID) :
    (statusEvent eventType app actorId).HasTextPayload := by
  intro entry hentry
  simp only [statusEvent, List.mem_cons, List.not_mem_nil, or_false] at hentry
  rcases hentry with rfl | rfl <;> exact ⟨_, rfl⟩

def publishFor (s : State) (env : Env) (app : Application) (event : DomainEvent) :
    State × Except ServiceError Application :=
  let sent := publish s.published env.publishing event
  ({ s with published := sent.1 }, sent.2.map fun _ => app)

/-! ## Handlers, run to their end -/

def apply (s : State) (env : Env) (studentId : UUID) (data : ApplicationCreate) :
    State × Except ServiceError Application :=
  match fetchOpportunity env.opportunity with
  | .error e => (s, .error e)
  | .ok _ =>
    match findExisting s data.opportunityId studentId with
    | some _ => (s, .error (.http 400 "Already applied"))
    | none =>
      match fetchProfile env.profile with
      | .error e => (s, .error e)
      | .ok profile =>
        match insertApplication s env studentId data profile with
        | .error e => (s, .error e)
        | .ok s' =>
          match refresh s' env env.applicationId with
          | .error e => (s', .error e)
          | .ok app => publishFor s' env app (submittedEvent app studentId data)

def withdraw (s : State) (env : Env) (applicationId studentId : UUID) :
    State × Except ServiceError Application :=
  match findApplication s applicationId with
  | none => (s, .error (.http 404 "Application not found"))
  | some row =>
    if row.studentId ≠ studentId then (s, .error (.http 403 "Not your application"))
    else
      match commitWithdrawal s env row with
      | .error e => (s, .error e)
      | .ok s' => (s', refresh s' env row.id)

def updateStatus (s : State) (env : Env) (applicationId actorId : UUID)
    (status : ApplicationStatus) : State × Except ServiceError Application :=
  match findApplication s applicationId with
  | none => (s, .error (.http 404 "Application not found"))
  | some row =>
    match commitStatus s env row (findOpenStage s row.id) actorId status with
    | .error e => (s, .error e)
    | .ok s' =>
      match refresh s' env row.id with
      | .error e => (s', .error e)
      | .ok app =>
        match eventOfStatus status with
        | some eventType => publishFor s' env app (statusEvent eventType app actorId)
        | none => (s', .ok app)

/-- The routes: each checks the caller's role first. -/
def serve (s : State) (env : Env) (user : CurrentUser) :
    Request → State × Except ServiceError Application
  | .create data =>
      if user.role ≠ .student then (s, .error (.http 403 "Student only"))
      else apply s env user.id data
  | .withdraw applicationId =>
      if user.role ≠ .student then (s, .error (.http 403 "Student only"))
      else withdraw s env applicationId user.id
  | .patchStatus applicationId status =>
      if user.role ≠ .coordinator then (s, .error (.http 403 "Coordinator only"))
      else updateStatus s env applicationId user.id status

/-! ## Reads -/

def listApplications (s : State) (user : CurrentUser) : List Application :=
  Table.orderByDesc Application.createdAt
    (match user.role with
    | .student => s.applications.filter fun a => decide (a.studentId = user.id)
    | .coordinator => s.applications)

def getApplication (s : State) (user : CurrentUser) (applicationId : UUID) :
    Except ServiceError Application :=
  match findApplication s applicationId with
  | none => .error (.http 404 "Not found")
  | some app =>
    if user.role = .student ∧ app.studentId ≠ user.id then .error (.http 403 "Forbidden")
    else .ok app

structure StageResponse where
  id : UUID
  stageName : String
  enteredAt : Time
  exitedAt : Option Time
  actorId : Option UUID

structure TimelineResponse where
  application : Application
  stages : List StageResponse

def timeline (s : State) (user : CurrentUser) (applicationId : UUID) :
    Except ServiceError TimelineResponse :=
  (getApplication s user applicationId).map fun app =>
    ⟨app, (s.stages.filter fun st => decide (st.applicationId = app.id)).map fun st =>
      ⟨st.id, st.stageName, st.enteredAt, st.exitedAt, st.actorId⟩⟩

theorem id_of_getApplication {s : State} {user : CurrentUser} {id : UUID} {app : Application}
    (h : getApplication s user id = .ok app) : app.id = id := by
  unfold getApplication at h
  split at h
  · cases h
  · rename_i found hfound
    split at h
    · cases h
    · cases h
      exact Table.key_of_lookup hfound

/-! ## What a commit does

One lemma for each commit, stating all that a successful one changes; later
proofs use these and do not unfold the commits. -/

@[simp] theorem logAudit_applications (s : State) (id : UUID) (entity action : String)
    (payload : Option Dict) : (logAudit s id entity action payload).applications =
      s.applications := rfl

@[simp] theorem logAudit_stages (s : State) (id : UUID) (entity action : String)
    (payload : Option Dict) : (logAudit s id entity action payload).stages = s.stages := rfl

@[simp] theorem logAudit_published (s : State) (id : UUID) (entity action : String)
    (payload : Option Dict) : (logAudit s id entity action payload).published =
      s.published := rfl

@[simp] theorem logAudit_auditLogs (s : State) (id : UUID) (entity action : String)
    (payload : Option Dict) : (logAudit s id entity action payload).auditLogs =
      s.auditLogs ++ [⟨id, entity, action, payload⟩] := rfl

@[simp] theorem writeStatus_stages (s : State) (row : Application) (status : String) :
    (writeStatus s row status).stages = s.stages := by
  unfold writeStatus; split <;> rfl

@[simp] theorem writeStatus_auditLogs (s : State) (row : Application) (status : String) :
    (writeStatus s row status).auditLogs = s.auditLogs := by
  unfold writeStatus; split <;> rfl

@[simp] theorem writeStatus_published (s : State) (row : Application) (status : String) :
    (writeStatus s row status).published = s.published := by
  unfold writeStatus; split <;> rfl

theorem mem_writeStatus {s : State} {row a : Application} {status : String}
    (h : a ∈ (writeStatus s row status).applications) :
    ∃ old ∈ s.applications, a = { old with status := a.status } := by
  unfold writeStatus at h
  split at h
  · exact ⟨a, h, rfl⟩
  · rcases Table.mem_modify.mp h with ⟨ha, -⟩ | ⟨old, hold, -, rfl⟩
    · exact ⟨a, ha, rfl⟩
    · exact ⟨old, hold, rfl⟩

/-- A column other than the status is unchanged. -/
theorem map_writeStatus {α : Type*} {g : Application → α}
    (hg : ∀ (a : Application) (status : String), g { a with status := status } = g a)
    (s : State) (row : Application) (status : String) :
    (writeStatus s row status).applications.map g = s.applications.map g := by
  unfold writeStatus
  split
  · rfl
  · exact Table.map_modify (fun a => hg a status) _

theorem findApplication_writeStatus (s : State) (row : Application) (text : String) :
    findApplication (writeStatus s row text) row.id =
      if row.status = text then findApplication s row.id
      else (findApplication s row.id).map fun a => { a with status := text } := by
  unfold writeStatus
  split
  · rfl
  · exact Table.lookup_modify_same (f := fun a : Application => { a with status := text })
      (fun _ => rfl) s.applications

/-- The row that the session loaded, with the new status. -/
theorem findApplication_writeStatus_of_loaded {s : State} {row : Application} (text : String)
    (h : findApplication s row.id = some row) :
    findApplication (writeStatus s row text) row.id = some { row with status := text } := by
  rw [findApplication_writeStatus, h]
  by_cases hsame : row.status = text
  · rw [if_pos hsame, ← hsame]
  · rw [if_neg hsame, Option.map_some]

theorem map_closeStage {α : Type*} {g : WorkflowStage → α}
    (hg : ∀ (r : WorkflowStage) (exited : Option Time), g { r with exitedAt := exited } = g r)
    (stages : List WorkflowStage) (clock : Time) (current : Option WorkflowStage) :
    (closeStage stages clock current).map g = stages.map g := by
  cases current with
  | none => rfl
  | some current => exact Table.map_modify (fun r => hg r (some clock)) stages

theorem insertApplication_ok {s t : State} {env : Env} {studentId : UUID}
    {data : ApplicationCreate} {profile : Json}
    (h : insertApplication s env studentId data profile = .ok t) :
    (∀ a ∈ s.applications, a.id ≠ env.applicationId) ∧
    (∀ st ∈ s.stages, st.id ≠ env.stageId) ∧
    t.applications = s.applications ++ [newApplication env studentId data profile] ∧
    t.stages = s.stages ++
      [⟨env.stageId, env.applicationId, "Registration", env.txnStart, none, none⟩] ∧
    t.auditLogs = s.auditLogs ++ [⟨env.applicationId, "application", "created",
      some [("status", .str ApplicationStatus.applied.value)]⟩] ∧
    t.published = s.published := by
  simp only [insertApplication] at h
  split at h
  · cases h
  · split at h
    · rename_i applications stages happ hstage
      obtain ⟨hfresh, rfl⟩ := Table.insertRow_eq_some.mp happ
      obtain ⟨hfresh', rfl⟩ := Table.insertRow_eq_some.mp hstage
      cases h
      exact ⟨hfresh, hfresh', rfl, rfl, rfl, rfl⟩
    · cases h

/-- The tables with a new application and its first stage. -/
def withApplication (s : State) (app : Application) (stage : WorkflowStage) : State :=
  { s with applications := s.applications ++ [app], stages := s.stages ++ [stage] }

/-- The tables with a new status of an application and other stages. -/
def withStatus (s : State) (row : Application) (status : String) (stages : List WorkflowStage) :
    State :=
  { writeStatus s row status with stages := stages }

theorem insertApplication_eq {s t : State} {env : Env} {studentId : UUID}
    {data : ApplicationCreate} {profile : Json}
    (h : insertApplication s env studentId data profile = .ok t) :
    t = logAudit (withApplication s (newApplication env studentId data profile)
      ⟨env.stageId, env.applicationId, "Registration", env.txnStart, none, none⟩)
      env.applicationId "application" "created"
      (some [("status", .str ApplicationStatus.applied.value)]) := by
  obtain ⟨-, -, happs, hstages, haudits, hpublished⟩ := insertApplication_ok h
  cases t
  cases happs
  cases hstages
  cases haudits
  cases hpublished
  rfl

/-- With fresh ids, the database decides without looking at the tables. -/
theorem insertApplication_of_fresh {s : State} {env : Env} (studentId : UUID)
    (data : ApplicationCreate) (profile : Json)
    (hid : env.applicationId ∉ s.applications.map Application.id)
    (hstage : env.stageId ∉ s.stages.map WorkflowStage.id) :
    insertApplication s env studentId data profile =
      if env.databaseFails || !fitsResumeUrl data.resumeUrl then .error .database
      else .ok (logAudit (withApplication s (newApplication env studentId data profile)
        ⟨env.stageId, env.applicationId, "Registration", env.txnStart, none, none⟩)
        env.applicationId "application" "created"
        (some [("status", .str ApplicationStatus.applied.value)])) := by
  let stage : WorkflowStage :=
    ⟨env.stageId, env.applicationId, "Registration", env.txnStart, none, none⟩
  have happ : Table.insertRow Application.id (newApplication env studentId data profile)
      s.applications = some (s.applications ++ [newApplication env studentId data profile]) :=
    Table.insertRow_of_fresh hid
  have hnew : Table.insertRow WorkflowStage.id stage s.stages = some (s.stages ++ [stage]) :=
    Table.insertRow_of_fresh hstage
  simp only [insertApplication, happ, show (newApplication env studentId data profile).id =
    env.applicationId from rfl, stage, hnew]
  rfl

theorem ids_insertApplication {s t : State} {env : Env} {studentId : UUID}
    {data : ApplicationCreate} {profile : Json}
    (h : insertApplication s env studentId data profile = .ok t) :
    t.applications.map Application.id =
      s.applications.map Application.id ++ [env.applicationId] := by
  rw [(insertApplication_ok h).2.2.1, List.map_append]
  rfl

theorem databaseFails_of_insert {s t : State} {env : Env} {studentId : UUID}
    {data : ApplicationCreate} {profile : Json}
    (h : insertApplication s env studentId data profile = .ok t) : env.databaseFails = false := by
  by_contra hfails
  simp [insertApplication, Bool.not_eq_false _ ▸ hfails] at h

theorem fitsResumeUrl_of_insert {s t : State} {env : Env} {studentId : UUID}
    {data : ApplicationCreate} {profile : Json}
    (h : insertApplication s env studentId data profile = .ok t) :
    fitsResumeUrl data.resumeUrl = true := by
  by_contra hfits
  simp [insertApplication, Bool.not_eq_true _ ▸ hfits] at h

theorem commitWithdrawal_ok {s t : State} {env : Env} {row : Application}
    (h : commitWithdrawal s env row = .ok t) :
    t = logAudit (writeStatus s row "Withdrawn") row.id "application" "withdrawn" none := by
  unfold commitWithdrawal at h
  split at h
  · cases h
  · cases h
    rfl

theorem commitStatus_ok {s t : State} {env : Env} {row : Application}
    {current : Option WorkflowStage} {actorId : UUID} {status : ApplicationStatus}
    (h : commitStatus s env row current actorId status = .ok t) :
    (∀ st ∈ closeStage s.stages env.clock current, st.id ≠ env.stageId) ∧
    t.applications = (writeStatus s row status.value).applications ∧
    t.stages = closeStage s.stages env.clock current ++
      [⟨env.stageId, row.id, status.value, env.txnStart, none, some actorId⟩] ∧
    t.auditLogs = s.auditLogs ++ [⟨row.id, "application", "status_changed",
      some [("from", .str row.status), ("to", .str status.value)]⟩] ∧
    t.published = s.published := by
  simp only [commitStatus] at h
  split at h
  · cases h
  · split at h
    · rename_i stages hins
      obtain ⟨hfresh, rfl⟩ := Table.insertRow_eq_some.mp hins
      cases h
      exact ⟨hfresh, by simp, rfl, by simp, by simp⟩
    · cases h

theorem commitStatus_eq {s t : State} {env : Env} {row : Application}
    {current : Option WorkflowStage} {actorId : UUID} {status : ApplicationStatus}
    (h : commitStatus s env row current actorId status = .ok t) :
    t = logAudit (withStatus s row status.value (closeStage s.stages env.clock current ++
      [⟨env.stageId, row.id, status.value, env.txnStart, none, some actorId⟩])) row.id
      "application" "status_changed"
      (some [("from", .str row.status), ("to", .str status.value)]) := by
  obtain ⟨-, happs, hstages, haudits, hpublished⟩ := commitStatus_ok h
  cases t
  cases happs
  cases hstages
  cases haudits
  cases hpublished
  simp [withStatus, logAudit]

theorem commitStatus_of_fresh {s : State} {env : Env} (row : Application)
    (current : Option WorkflowStage) (actorId : UUID) (status : ApplicationStatus)
    (hstage : env.stageId ∉ s.stages.map WorkflowStage.id) :
    commitStatus s env row current actorId status =
      if env.databaseFails then .error .database
      else .ok (logAudit (withStatus s row status.value (closeStage s.stages env.clock current ++
        [⟨env.stageId, row.id, status.value, env.txnStart, none, some actorId⟩])) row.id
        "application" "status_changed"
        (some [("from", .str row.status), ("to", .str status.value)])) := by
  rw [← map_closeStage (g := WorkflowStage.id) (fun _ _ => rfl) s.stages env.clock current]
    at hstage
  let next : WorkflowStage :=
    ⟨env.stageId, row.id, status.value, env.txnStart, none, some actorId⟩
  have hnew : Table.insertRow WorkflowStage.id next (closeStage s.stages env.clock current) =
      some (closeStage s.stages env.clock current ++ [next]) :=
    Table.insertRow_of_fresh hstage
  simp only [commitStatus, next, hnew, withStatus]

theorem refresh_eq_ok {s : State} {env : Env} {id : UUID} {app : Application} :
    refresh s env id = .ok app ↔ env.reloadFails = false ∧ findApplication s id = some app := by
  unfold refresh
  rcases env.reloadFails with _ | _
  · rcases findApplication s id with _ | found <;> simp
  · simp

theorem mem_of_refresh {s : State} {env : Env} {id : UUID} {app : Application}
    (h : refresh s env id = .ok app) : app ∈ s.applications ∧ app.id = id := by
  have hfound := (refresh_eq_ok.mp h).2
  exact ⟨Table.mem_of_lookup hfound, Table.key_of_lookup hfound⟩

@[simp] theorem publishFor_tables (s : State) (env : Env) (app : Application)
    (event : DomainEvent) :
    (publishFor s env app event).1 =
      { s with published := (publish s.published env.publishing event).1 } := rfl

/-- **What a request can do.**  It leaves everything as it was, or it commits once:
    an insertion by a student who has no application there yet, a withdrawal of
    the student's own application, or a status change.  Publishing comes after
    the commit and touches no table. -/
theorem serve_cases (s : State) (env : Env) (user : CurrentUser) (request : Request) :
    (serve s env user request).1 = s ∨
    (∃ data profile t published, request = .create data ∧ user.role = .student ∧
      findExisting s data.opportunityId user.id = none ∧
      fetchProfile env.profile = .ok profile ∧
      insertApplication s env user.id data profile = .ok t ∧
      (serve s env user request).1 = { t with published := published }) ∨
    (∃ id row, request = .withdraw id ∧ user.role = .student ∧
      findApplication s id = some row ∧ row.studentId = user.id ∧
      commitWithdrawal s env row = .ok (serve s env user request).1) ∨
    (∃ id status row t published, request = .patchStatus id status ∧
      user.role = .coordinator ∧ findApplication s id = some row ∧
      commitStatus s env row (findOpenStage s row.id) user.id status = .ok t ∧
      (serve s env user request).1 = { t with published := published }) := by
  cases request with
  | create data =>
    by_cases hrole : user.role = .student
    · simp only [serve, hrole, ne_eq, not_true_eq_false, if_false, apply]
      split
      · exact Or.inl rfl
      split
      · exact Or.inl rfl
      rename_i hnone
      split
      · exact Or.inl rfl
      rename_i profile hprofile
      split
      · exact Or.inl rfl
      rename_i t hins
      refine Or.inr (Or.inl ⟨data, profile, t, ?_⟩)
      split
      · exact ⟨t.published, rfl, trivial, hnone, hprofile, hins, rfl⟩
      · exact ⟨_, rfl, trivial, hnone, hprofile, hins, publishFor_tables _ _ _ _⟩
    · exact Or.inl (by simp [serve, hrole])
  | withdraw id =>
    by_cases hrole : user.role = .student
    · simp only [serve, hrole, ne_eq, not_true_eq_false, if_false, withdraw]
      split
      · exact Or.inl rfl
      rename_i row hrow
      split
      · exact Or.inl rfl
      rename_i hown
      split
      · exact Or.inl rfl
      rename_i t hcommit
      exact Or.inr (Or.inr (Or.inl ⟨id, row, rfl, trivial, hrow, by simpa using hown, hcommit⟩))
    · exact Or.inl (by simp [serve, hrole])
  | patchStatus id status =>
    by_cases hrole : user.role = .coordinator
    · simp only [serve, hrole, ne_eq, not_true_eq_false, if_false, updateStatus]
      split
      · exact Or.inl rfl
      rename_i row hrow
      split
      · exact Or.inl rfl
      rename_i t hcommit
      refine Or.inr (Or.inr (Or.inr ⟨id, status, row, t, ?_⟩))
      split
      · exact ⟨t.published, rfl, trivial, hrow, hcommit, rfl⟩
      split
      · exact ⟨_, rfl, trivial, hrow, hcommit, publishFor_tables _ _ _ _⟩
      · exact ⟨t.published, rfl, trivial, hrow, hcommit, rfl⟩
    · exact Or.inl (by simp [serve, hrole])

/-! ## Runs -/

/-- A request as it was handled: its caller, the request, and what it met. -/
structure Handled where
  user : CurrentUser
  request : Request
  env : Env

def handle (s : State) (h : Handled) : State := (serve s h.env h.user h.request).1

/-- Requests handled one at a time. -/
def execute (s : State) (run : List Handled) : State := run.foldl handle s

@[simp] theorem execute_nil (s : State) : execute s [] = s := rfl

@[simp] theorem execute_append_singleton (s : State) (run : List Handled) (h : Handled) :
    execute s (run ++ [h]) = handle (execute s run) h := by
  simp [execute, List.foldl_append]

end CampusHire.ApplicationService
