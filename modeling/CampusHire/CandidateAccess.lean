import CampusHire.AdmissionGate
import CampusHire.CommitThenPublish

/-!
# Who sees and decides candidates

Six handlers of two services give out registrations and applications or change the status of
an application, and each has a check of its own.  `list_registrations` refuses only other
coordinators, so any student gets every registration; the application service knows no
owner of an opportunity, so any coordinator reads and decides every application.

What a call knows when it answers (`Knows`: whose request it is, and that the row it holds
is that student's) settles the other handlers, and `access_iff` says of which requests that
leaves it to depend.
-/

namespace CampusHire.CandidateAccess

open CampusHire Schedule
open CampusHire.AdmissionGate (Store Env kept_taskStep)
open CampusHire.ApplicationService (Application findApplication writeStatus commitWithdrawal
  commitStatus insertApplication)
open CampusHire.OpportunityService (Opportunity Registration findOpportunity)

/-! ## Requests to the two services -/

inductive ApplicationRead where
  | listApplications
  | getApplication (applicationId : UUID)
  | timeline (applicationId : UUID)

inductive Arrival where
  | opportunity (job : OpportunityService.Job)
  | opportunityRead (read : OpportunityService.Read)
  | application (user : CurrentUser) (request : ApplicationService.Request)
  | applicationRead (user : CurrentUser) (read : ApplicationRead)

/-- Who gets the response; two routes and the deadline job know no user. -/
def Arrival.user : Arrival → Option CurrentUser
  | .opportunity (.request user _) => some user
  | .opportunity .processDeadlines => none
  | .opportunityRead (.listRegistrations user _) => some user
  | .opportunityRead (.exportRegistrations user _) => some user
  | .opportunityRead .listOpps => none
  | .opportunityRead (.getOpp _) => none
  | .application user _ => some user
  | .applicationRead user _ => some user

/-- What a read answers.  The workbook is its rows. -/
inductive Page where
  | opportunities (rows : List (Opportunity × List OpportunityService.FormField))
  | registrations (rows : List Registration)
  | workbook (rows : List Registration)
  | applications (rows : List Application)
  | timeline (timeline : ApplicationService.TimelineResponse)

inductive Task where
  | opportunity (task : OpportunityService.Task)
  | opportunityRead (read : OpportunityService.Read)
  | application (task : ApplicationService.Task)
  | applicationRead (user : CurrentUser) (read : ApplicationRead)
  | answered (page : Except ServiceError Page)

/-- The rows of the workbook that `generate_excel_export` writes. -/
def exportedRows (s : OpportunityService.State) : OpportunityService.Read → List Registration
  | .exportRegistrations _ opportunityId =>
      s.registrations.filter fun r => decide (r.opportunityId = opportunityId)
  | _ => []

def readOpportunities (s : OpportunityService.State) (env : OpportunityService.Env)
    (read : OpportunityService.Read) : Except ServiceError Page :=
  (OpportunityService.read s env read).map fun page =>
    match page with
    | .opportunities rows => .opportunities rows
    | .registrations rows => .registrations rows
    | .workbook => .workbook (exportedRows s read)

def readApplications (s : ApplicationService.State) (user : CurrentUser) :
    ApplicationRead → Except ServiceError Page
  | .listApplications => .ok (.applications (ApplicationService.listApplications s user))
  | .getApplication applicationId =>
      (ApplicationService.getApplication s user applicationId).map fun app => .applications [app]
  | .timeline applicationId =>
      (ApplicationService.timeline s user applicationId).map .timeline

/-- A read is one step: the owners that it compares never change. -/
def step (env : Env) (s : Store) : Task → Store × Task
  | .opportunity task =>
      let next := OpportunityService.taskStep env.opportunity s.opportunities task
      ({ s with opportunities := next.1 }, .opportunity next.2)
  | .opportunityRead read =>
      (s, .answered (readOpportunities s.opportunities env.opportunity read))
  | .application task =>
      let next := ApplicationService.taskStep env.application s.applications task
      ({ s with applications := next.1 }, .application next.2)
  | .applicationRead user read => (s, .answered (readApplications s.applications user read))
  | .answered page => (s, .answered page)

def program : Program Store Task Env where
  step := step
  onLoop := fun _ => false
  running := fun _ => false
  running_onLoop := fun _ h => h
  offLoop_step := fun _ _ _ _ => rfl

def Task.start : Arrival → Task
  | .opportunity job => .opportunity (OpportunityService.Task.start job)
  | .opportunityRead read => .opportunityRead read
  | .application user request => .application (ApplicationService.Task.start user request)
  | .applicationRead user read => .applicationRead user read

/-- Any number of jobs and requests, none of which has begun, on freshly created tables. -/
def arrive {ι : Type*} (arrivals : ι → Arrival) : Config Store Task ι :=
  start ⟨.empty, .empty⟩ fun i => Task.start (arrivals i)

/-! ## What a response contains -/

def Task.ended : Task → Bool
  | .opportunity (.finished _) => true
  | .application (.finished _) => true
  | .answered _ => true
  | _ => false

def Task.registrations : Task → List Registration
  | .opportunity (.finished (.ok (.registration registration))) => [registration]
  | .answered (.ok (.registrations rows)) => rows
  | .answered (.ok (.workbook rows)) => rows
  | _ => []

def Task.applications : Task → List Application
  | .application (.finished (.ok app)) => [app]
  | .answered (.ok (.applications rows)) => rows
  | .answered (.ok (.timeline timeline)) => [timeline.application]
  | _ => []

/-- The user is the student of the row, or the coordinator of its opportunity. -/
def Entitled (s : Store) (user : Option CurrentUser) (opportunityId studentId : UUID) : Prop :=
  ∀ o, findOpportunity s.opportunities opportunityId = some o →
    ∃ u, user = some u ∧ (u.id = o.coordinatorId ∨ u.id = studentId)

/-- The request is an `update_status` by the coordinator, or a withdrawal by the student. -/
def Decides (arrival : Arrival) (a : Application) (o : Opportunity) : Prop :=
  (∃ user status, arrival = .application user (.patchStatus a.id status) ∧
    user.role = .coordinator ∧ user.id = o.coordinatorId) ∨
  ∃ user, arrival = .application user (.withdraw a.id) ∧ user.role = .student ∧
    user.id = a.studentId

/-- What only owners should do: a step that answers gives out rows that the user is entitled
    to, and a step changes a status only for the one who decides. -/
structure Confined (arrival : Arrival) (s : Store) (env : Env) (t : Task) : Prop where
  registrations : t.ended = false → ∀ r ∈ (step env s t).2.registrations,
    Entitled s arrival.user r.opportunityId r.studentId
  applications : t.ended = false → ∀ a ∈ (step env s t).2.applications,
    Entitled s arrival.user a.opportunityId a.studentId
  decisions : ∀ a a', findApplication s.applications a.id = some a →
    findApplication (step env s t).1.applications a.id = some a' → a'.status ≠ a.status →
    ∀ o, findOpportunity s.opportunities a.opportunityId = some o → Decides arrival a o

/-! ## The condition on a request -/

/-- The applications that a read is about. -/
def rowsOf (s : ApplicationService.State) : ApplicationRead → List Application
  | .listApplications => s.applications
  | .getApplication applicationId => (findApplication s applicationId).toList
  | .timeline applicationId => (findApplication s applicationId).toList

/-- The step returns the response of `update_status`. -/
def returnsStatus (env : Env) : Task → Bool
  | .application (.statusRefresh _ _ status) =>
      (ApplicationService.eventOfStatus status).isNone && !env.application.reloadFails
  | .application (.publishing _ _) => decide (env.application.publishing = .confirmed)
  | _ => false

/-- The requests that the handlers do not check: a student who lists registrations, a
    coordinator who reads applications, and one who sets a status. -/
structure Owned (arrival : Arrival) (s : Store) (env : Env) (t : Task) : Prop where
  listing : ∀ user opportunityId,
    t = .opportunityRead (.listRegistrations user opportunityId) → user.role = .student →
    ∀ r ∈ s.opportunities.registrations, r.opportunityId = opportunityId →
      Entitled s (some user) opportunityId r.studentId
  reading : ∀ user read, t = .applicationRead user read → user.role = .coordinator →
    ∀ a ∈ rowsOf s.applications read, Entitled s (some user) a.opportunityId a.studentId
  answering : ∀ user id status, arrival = .application user (.patchStatus id status) →
    returnsStatus env t = true → ∀ a, findApplication s.applications id = some a →
      Entitled s (some user) a.opportunityId a.studentId
  deciding : ∀ row current actorId status s',
    t = .application (.statusCommit row current actorId status) →
    commitStatus s.applications env.application row current actorId status = .ok s' →
    row.status ≠ status.value → ∀ a, findApplication s.applications row.id = some a →
      a.status ≠ status.value → ∀ o, findOpportunity s.opportunities a.opportunityId = some o →
        actorId = o.coordinatorId

/-! ## What stays of a row -/

def Candidate (s : ApplicationService.State) (id opportunityId studentId : UUID) : Prop :=
  ∃ a, findApplication s id = some a ∧ a.opportunityId = opportunityId ∧ a.studentId = studentId

theorem find_writeStatus (s : ApplicationService.State) (row : Application) (text : String)
    (id : UUID) : findApplication (writeStatus s row text) id =
      (findApplication s id).map fun a =>
        if row.status ≠ text ∧ a.id = row.id then { a with status := text } else a := by
  unfold writeStatus
  by_cases hsame : row.status = text
  · simp [hsame]
  · rw [if_neg hsame, findApplication,
      Table.lookup_modify_column (f := fun a : Application => { a with status := text })
        (fun _ => rfl), ← findApplication]
    simp [hsame]

/-- A status is changed by one of two commits. -/
theorem find_taskStep (env : ApplicationService.Env) {s : ApplicationService.State}
    (t : ApplicationService.Task) {id : UUID} {a : Application}
    (h : findApplication s id = some a) :
    findApplication (ApplicationService.taskStep env s t).1 id = some a ∨
    (∃ row, t = .withdrawCommit row ∧ row.id = id ∧
      findApplication (ApplicationService.taskStep env s t).1 id =
        some { a with status := "Withdrawn" }) ∨
    ∃ row current actorId status s', t = .statusCommit row current actorId status ∧
      commitStatus s env row current actorId status = .ok s' ∧ row.id = id ∧
      row.status ≠ status.value ∧
      findApplication (ApplicationService.taskStep env s t).1 id =
        some { a with status := status.value } := by
  have hid : a.id = id := Table.key_of_lookup h
  rcases ApplicationService.taskStep_cases env s t with ⟨published, heq⟩ |
    ⟨studentId, data, profile, s', -, -, hins, heq⟩ | ⟨row, s', rfl, hcommit, heq⟩ |
    ⟨row, current, actorId, status, s', rfl, hcommit, heq⟩
  · rw [heq]
    exact Or.inl h
  · left
    rw [heq, findApplication, (ApplicationService.insertApplication_ok hins).2.2.1]
    exact Table.lookup_append_of_some h
  · have hfound : findApplication s' id = findApplication (writeStatus s row "Withdrawn") id := by
      rw [ApplicationService.commitWithdrawal_ok hcommit]
      rfl
    rw [heq, hfound, find_writeStatus, h, Option.map_some]
    by_cases hwritten : row.status ≠ "Withdrawn" ∧ a.id = row.id
    · rw [if_pos hwritten]
      exact Or.inr (Or.inl ⟨row, rfl, hwritten.2.symm.trans hid, rfl⟩)
    · rw [if_neg hwritten]
      exact Or.inl rfl
  · have hfound : findApplication s' id = findApplication (writeStatus s row status.value) id := by
      rw [findApplication, (ApplicationService.commitStatus_ok hcommit).2.1]
      rfl
    rw [heq, hfound, find_writeStatus, h, Option.map_some]
    by_cases hwritten : row.status ≠ status.value ∧ a.id = row.id
    · rw [if_pos hwritten]
      exact Or.inr (Or.inr ⟨row, current, actorId, status, s', rfl, hcommit,
        hwritten.2.symm.trans hid, hwritten.1, rfl⟩)
    · rw [if_neg hwritten]
      exact Or.inl rfl

theorem candidate_taskStep (env : ApplicationService.Env) {s : ApplicationService.State}
    (t : ApplicationService.Task) {id opportunityId studentId : UUID}
    (h : Candidate s id opportunityId studentId) :
    Candidate (ApplicationService.taskStep env s t).1 id opportunityId studentId := by
  obtain ⟨a, hfound, hopportunity, hstudent⟩ := h
  rcases find_taskStep env t hfound with heq | ⟨_, -, -, heq⟩ | ⟨_, _, _, _, _, -, -, -, -, heq⟩
  · exact ⟨_, heq, hopportunity, hstudent⟩
  · exact ⟨_, heq, hopportunity, hstudent⟩
  · exact ⟨_, heq, hopportunity, hstudent⟩

def OwnRegistration (s : OpportunityService.State) (id studentId : UUID) : Prop :=
  ∃ r, Table.lookup Registration.id id s.registrations = some r ∧ r.studentId = studentId

theorem ownRegistration_taskStep {env : OpportunityService.Env} {s : OpportunityService.State}
    (t : OpportunityService.Task) {id studentId : UUID} (h : OwnRegistration s id studentId) :
    OwnRegistration (OpportunityService.taskStep env s t).1 id studentId := by
  obtain ⟨r, hfound, hstudent⟩ := h
  obtain ⟨more, hmore⟩ := (kept_taskStep env s t).registrations
  refine ⟨r, ?_, hstudent⟩
  rw [← hmore]
  exact Table.lookup_append_of_some hfound

/-! ## What a call knows -/

/-- The call is for the student. -/
def IsFor (arrival : Arrival) (studentId : UUID) : Prop :=
  ∃ user, arrival.user = some user ∧ user.id = studentId

def Withdraws (arrival : Arrival) (id studentId : UUID) : Prop :=
  ∃ user, arrival = .application user (.withdraw id) ∧ user.role = .student ∧ user.id = studentId

def Patches (arrival : Arrival) (id actorId : UUID) (status : ApplicationStatus) : Prop :=
  ∃ user, arrival = .application user (.patchStatus id status) ∧ user.role = .coordinator ∧
    user.id = actorId

def IsCreation (arrival : Arrival) (studentId : UUID) : Prop :=
  ∃ user data, arrival = .application user (.create data) ∧ user.id = studentId

def KnowsApplication (arrival : Arrival) (s : ApplicationService.State) :
    ApplicationService.Task → Prop
  | .fetchOpportunity studentId _ => IsCreation arrival studentId
  | .fetchProfile studentId _ => IsCreation arrival studentId
  | .applyRefresh studentId _ id =>
      IsCreation arrival studentId ∧ ∃ opportunityId, Candidate s id opportunityId studentId
  | .withdrawRead id studentId => Withdraws arrival id studentId
  | .withdrawCommit row =>
      Withdraws arrival row.id row.studentId ∧
        Candidate s row.id row.opportunityId row.studentId
  | .withdrawRefresh id => ∃ opportunityId studentId, Withdraws arrival id studentId ∧
      Candidate s id opportunityId studentId
  | .statusRead id actorId status => Patches arrival id actorId status
  | .statusStage row actorId status => Patches arrival row.id actorId status
  | .statusCommit row _ actorId status => Patches arrival row.id actorId status
  | .statusRefresh id actorId status => Patches arrival id actorId status
  | .publishing app _ => Candidate s app.id app.opportunityId app.studentId ∧
      (IsCreation arrival app.studentId ∨
        ∃ actorId status, Patches arrival app.id actorId status)
  | .finished _ => True

def KnowsRegistration (arrival : Arrival) (s : OpportunityService.State) :
    OpportunityService.Task → Prop
  | .registerRead _ studentId _ => IsFor arrival studentId
  | .fetchProfile _ _ studentId _ => IsFor arrival studentId
  | .registerCheck _ studentId _ => IsFor arrival studentId
  | .registerCommit _ studentId _ => IsFor arrival studentId
  | .registrationRefresh id => ∃ studentId, IsFor arrival studentId ∧ OwnRegistration s id studentId
  | _ => True

/-- Whose request the call is, and that the row it is going to return is stored. -/
def Knows (arrival : Arrival) (s : Store) : Task → Prop
  | .opportunity task => KnowsRegistration arrival s.opportunities task
  | .opportunityRead read => arrival = .opportunityRead read
  | .application task => KnowsApplication arrival s.applications task
  | .applicationRead user read => arrival = .applicationRead user read
  | .answered _ => True

theorem knowsApplication_stable {env : ApplicationService.Env} {arrival : Arrival}
    {s : ApplicationService.State} (t : ApplicationService.Task) {u : ApplicationService.Task}
    (h : KnowsApplication arrival s u) :
    KnowsApplication arrival (ApplicationService.taskStep env s t).1 u := by
  cases u with
  | applyRefresh studentId data id =>
    obtain ⟨hcreation, opportunityId, hcandidate⟩ := h
    exact ⟨hcreation, opportunityId, candidate_taskStep _ t hcandidate⟩
  | withdrawCommit row => exact ⟨h.1, candidate_taskStep _ t h.2⟩
  | withdrawRefresh id =>
    obtain ⟨opportunityId, studentId, hwithdraws, hcandidate⟩ := h
    exact ⟨opportunityId, studentId, hwithdraws, candidate_taskStep _ t hcandidate⟩
  | publishing app event => exact ⟨candidate_taskStep _ t h.1, h.2⟩
  | _ => exact h

theorem knowsRegistration_stable {env : OpportunityService.Env} {arrival : Arrival}
    {s : OpportunityService.State} (t : OpportunityService.Task) {u : OpportunityService.Task}
    (h : KnowsRegistration arrival s u) :
    KnowsRegistration arrival (OpportunityService.taskStep env s t).1 u := by
  cases u with
  | registrationRefresh id =>
    obtain ⟨studentId, hfor, hown⟩ := h
    exact ⟨studentId, hfor, ownRegistration_taskStep t hown⟩
  | _ => exact h

theorem knows_stable (env : Env) {arrival : Arrival} {s : Store} (t : Task) {u : Task}
    (h : Knows arrival s u) : Knows arrival (step env s t).1 u := by
  cases t with
  | opportunity task =>
    cases u with
    | opportunity other => exact knowsRegistration_stable task h
    | _ => exact h
  | application task =>
    cases u with
    | application other => exact knowsApplication_stable task h
    | _ => exact h
  | _ => exact h

theorem candidate_of_find {s : ApplicationService.State} {id : UUID} {app : Application}
    (h : findApplication s id = some app) :
    app.id = id ∧ Candidate s app.id app.opportunityId app.studentId := by
  obtain rfl : app.id = id := Table.key_of_lookup h
  exact ⟨rfl, app, h, rfl, rfl⟩

theorem knowsApplication_step {env : ApplicationService.Env} {arrival : Arrival}
    {s : ApplicationService.State} {t : ApplicationService.Task}
    (h : KnowsApplication arrival s t) :
    KnowsApplication arrival (ApplicationService.taskStep env s t).1
      (ApplicationService.taskStep env s t).2 := by
  cases t with
  | fetchOpportunity studentId data =>
    simp only [ApplicationService.taskStep]
    split
    · trivial
    split
    · trivial
    · exact h
  | fetchProfile studentId data =>
    simp only [ApplicationService.taskStep]
    split
    · trivial
    split
    · trivial
    · rename_i s' hins
      exact ⟨h, data.opportunityId, _, CommitThenPublish.findApplication_insert hins, rfl, rfl⟩
  | applyRefresh studentId data id =>
    obtain ⟨hcreation, opportunityId, a, hfound, -, hstudent⟩ := h
    simp only [ApplicationService.taskStep]
    split
    · trivial
    · rename_i app hrefresh
      have hsame := (ApplicationService.refresh_eq_ok.mp hrefresh).2
      rw [hfound] at hsame
      cases hsame
      exact ⟨(candidate_of_find hfound).2, Or.inl (hstudent ▸ hcreation)⟩
  | withdrawRead id studentId =>
    simp only [ApplicationService.taskStep]
    split
    · trivial
    rename_i row hfound
    split
    · trivial
    · rename_i hown
      obtain ⟨hid, hcandidate⟩ := candidate_of_find hfound
      rw [KnowsApplication, hid, not_not.mp hown]
      exact ⟨h, by rwa [hid, not_not.mp hown] at hcandidate⟩
  | withdrawCommit row =>
    have hkept := candidate_taskStep env (.withdrawCommit row) h.2
    simp only [ApplicationService.taskStep] at hkept ⊢
    split at hkept
    · trivial
    · exact ⟨row.opportunityId, row.studentId, h.1, hkept⟩
  | statusRead id actorId status =>
    simp only [ApplicationService.taskStep]
    split
    · trivial
    · rename_i row hfound
      rw [KnowsApplication, (candidate_of_find hfound).1]
      exact h
  | statusCommit row current actorId status =>
    simp only [ApplicationService.taskStep]
    split
    · trivial
    · exact h
  | statusRefresh id actorId status =>
    simp only [ApplicationService.taskStep]
    split
    · trivial
    rename_i app hrefresh
    split
    · obtain ⟨hid, hcandidate⟩ := candidate_of_find (ApplicationService.refresh_eq_ok.mp hrefresh).2
      refine ⟨hcandidate, Or.inr ⟨actorId, status, ?_⟩⟩
      rw [hid]
      exact h
    · trivial
  | statusStage row actorId status => exact h
  | withdrawRefresh | publishing | finished => trivial

theorem knowsRegistration_step {env : OpportunityService.Env} {arrival : Arrival}
    {s : OpportunityService.State} {t : OpportunityService.Task}
    (h : KnowsRegistration arrival s t) :
    KnowsRegistration arrival (OpportunityService.taskStep env s t).1
      (OpportunityService.taskStep env s t).2 := by
  cases t with
  | registerRead id studentId data =>
    simp only [OpportunityService.taskStep]
    split
    · trivial
    · exact h
  | fetchProfile opp id studentId data =>
    simp only [OpportunityService.taskStep]
    split
    · trivial
    · trivial
    · exact h
  | registerCheck id studentId data =>
    simp only [OpportunityService.taskStep]
    split
    · trivial
    · exact h
  | registerCommit id studentId data =>
    simp only [OpportunityService.taskStep]
    split
    · trivial
    · rename_i s' hins
      obtain ⟨hfresh, hadded⟩ := OpportunityService.insertRegistration_ok hins
      refine ⟨studentId, h, OpportunityService.newRegistration env id studentId data, ?_, rfl⟩
      rw [hadded]
      rw [Table.lookup_append, Table.lookup_eq_none.mpr hfresh, Option.none_or]
      simp [Table.lookup, OpportunityService.newRegistration]
  | _ =>
    simp only [OpportunityService.taskStep]
    repeat' split
    all_goals trivial

theorem knows_step (env : Env) {arrival : Arrival} {s : Store} {t : Task}
    (h : Knows arrival s t) : Knows arrival (step env s t).1 (step env s t).2 := by
  cases t with
  | opportunity task => exact knowsRegistration_step h
  | application task => exact knowsApplication_step h
  | opportunityRead | applicationRead | answered => trivial

theorem knows_start (arrival : Arrival) (s : Store) : Knows arrival s (Task.start arrival) := by
  rcases arrival with ⟨user, request⟩ | read | ⟨user, request⟩ | ⟨user, read⟩
  · cases request with
    | createRegistration id data =>
      simp only [Task.start, OpportunityService.Task.start]
      split
      · trivial
      · exact ⟨user, rfl, rfl⟩
    | _ =>
      simp only [Task.start, OpportunityService.Task.start]
      split <;> trivial
  · trivial
  · rfl
  · cases request with
    | create data =>
      simp only [Task.start, ApplicationService.Task.start]
      split
      · trivial
      · exact ⟨user, data, rfl, rfl⟩
    | withdraw id =>
      simp only [Task.start, ApplicationService.Task.start]
      split
      · trivial
      · rename_i hrole
        exact ⟨user, rfl, not_not.mp hrole, rfl⟩
    | patchStatus id status =>
      simp only [Task.start, ApplicationService.Task.start]
      split
      · trivial
      · rename_i hrole
        exact ⟨user, rfl, not_not.mp hrole, rfl⟩
  · rfl

/-! ## What a step gives out -/

theorem mem_registrations_step {env : Env} {s : Store} {task : OpportunityService.Task}
    {r : Registration} (hended : (Task.opportunity task).ended = false)
    (hr : r ∈ (step env s (.opportunity task)).2.registrations) :
    ∃ id, task = .registrationRefresh id ∧
      Table.lookup Registration.id id s.opportunities.registrations = some r := by
  cases task with
  | finished => cases hended
  | registrationRefresh id =>
    refine ⟨id, rfl, ?_⟩
    simp only [step, OpportunityService.taskStep] at hr
    rcases hrefresh : OpportunityService.refreshRegistration s.opportunities env.opportunity id
      with e | found
    · rw [hrefresh] at hr
      cases hr
    · rw [hrefresh] at hr
      rw [List.mem_singleton.mp hr]
      exact (OpportunityService.refreshRegistration_eq_ok.mp hrefresh).2
  | opportunityRefresh id =>
    simp only [step, OpportunityService.taskStep] at hr
    rcases hrefresh : OpportunityService.refreshOpportunity s.opportunities env.opportunity id
      with e | opp
    · rw [hrefresh] at hr
      cases hr
    · rw [hrefresh] at hr
      cases hr
  | _ =>
    simp only [step, OpportunityService.taskStep] at hr
    repeat' split at hr
    all_goals cases hr

theorem mem_applications_step {env : Env} {s : Store} {task : ApplicationService.Task}
    {a : Application} (hended : (Task.application task).ended = false)
    (ha : a ∈ (step env s (.application task)).2.applications) :
    (∃ id, task = .withdrawRefresh id ∧ findApplication s.applications id = some a) ∨
    (∃ id actorId status, task = .statusRefresh id actorId status ∧
      findApplication s.applications id = some a) ∧
        returnsStatus env (.application task) = true ∨
    (∃ event, task = .publishing a event) ∧ returnsStatus env (.application task) = true := by
  cases task with
  | finished => cases hended
  | withdrawRefresh id =>
    refine Or.inl ⟨id, rfl, ?_⟩
    simp only [step, ApplicationService.taskStep] at ha
    rcases hrefresh : ApplicationService.refresh s.applications env.application id with e | app
    · rw [hrefresh] at ha
      cases ha
    · rw [hrefresh] at ha
      rw [List.mem_singleton.mp ha]
      exact (ApplicationService.refresh_eq_ok.mp hrefresh).2
  | statusRefresh id actorId status =>
    refine Or.inr (Or.inl ?_)
    simp only [step, ApplicationService.taskStep] at ha
    rcases hrefresh : ApplicationService.refresh s.applications env.application id with e | app
    · rw [hrefresh] at ha
      cases ha
    obtain ⟨hreload, hfound⟩ := ApplicationService.refresh_eq_ok.mp hrefresh
    rw [hrefresh] at ha
    rcases hevent : ApplicationService.eventOfStatus status with _ | eventType
    · simp only [hevent] at ha
      rw [List.mem_singleton.mp ha]
      refine ⟨⟨id, actorId, status, rfl, hfound⟩, ?_⟩
      rw [returnsStatus, hevent, hreload]
      rfl
    · simp only [hevent] at ha
      cases ha
  | publishing app event =>
    refine Or.inr (Or.inr ?_)
    simp only [step, ApplicationService.taskStep, ApplicationService.publishFor, publish] at ha
    rcases hpublishing : env.application.publishing with _ | _ | _
    · rw [hpublishing] at ha
      rw [List.mem_singleton.mp ha]
      exact ⟨⟨event, rfl⟩, by rw [returnsStatus, hpublishing]; rfl⟩
    · rw [hpublishing] at ha
      cases ha
    · rw [hpublishing] at ha
      cases ha
  | _ =>
    simp only [step, ApplicationService.taskStep] at ha
    repeat' split at ha
    all_goals cases ha

theorem getApplication_eq_ok {s : ApplicationService.State} {user : CurrentUser} {id : UUID}
    {a : Application} : ApplicationService.getApplication s user id = .ok a ↔
      findApplication s id = some a ∧ (user.role = .student → a.studentId = user.id) := by
  unfold ApplicationService.getApplication
  rcases findApplication s id with _ | app
  · simp
  · by_cases hforbidden : user.role = .student ∧ app.studentId ≠ user.id
    · simp only [if_pos hforbidden, reduceCtorEq, Option.some.injEq, false_iff, not_and]
      rintro rfl hown
      exact hforbidden.2 (hown hforbidden.1)
    · simp only [if_neg hforbidden, Except.ok.injEq, Option.some.injEq]
      refine ⟨?_, fun h => h.1⟩
      rintro rfl
      exact ⟨rfl, fun hrole => not_not.mp fun hne => hforbidden ⟨hrole, hne⟩⟩

/-- A coordinator gets what a read is about, a student what is the student's of it. -/
theorem mem_readApplications {s : ApplicationService.State} {user : CurrentUser}
    {read : ApplicationRead} {a : Application} :
    a ∈ (Task.answered (readApplications s user read)).applications ↔
      a ∈ rowsOf s read ∧ (user.role = .student → a.studentId = user.id) := by
  have hone : ∀ id, ApplicationService.getApplication s user id = .ok a ↔
      a ∈ (findApplication s id).toList ∧ (user.role = .student → a.studentId = user.id) := by
    intro id
    rw [Option.mem_toList, getApplication_eq_ok]
  cases read with
  | listApplications =>
    rcases hrole : user.role with _ | _ <;>
      simp [readApplications, Task.applications, ApplicationService.listApplications, rowsOf, hrole]
  | getApplication id =>
    rw [rowsOf, ← hone, readApplications]
    rcases ApplicationService.getApplication s user id with e | app
    · simp [Task.applications, Except.map]
    · simp [Task.applications, Except.map, eq_comm]
  | timeline id =>
    rw [rowsOf, ← hone, readApplications, ApplicationService.timeline]
    rcases ApplicationService.getApplication s user id with e | app
    · simp [Task.applications, Except.map]
    · simp [Task.applications, Except.map, eq_comm]

theorem mem_listRegistrations {s : OpportunityService.State} {env : OpportunityService.Env}
    {user : CurrentUser} {id : UUID} {r : Registration} :
    r ∈ (Task.answered (readOpportunities s env (.listRegistrations user id))).registrations ↔
      ∃ o, findOpportunity s id = some o ∧
        (user.role = .coordinator → o.coordinatorId = user.id) ∧
        r ∈ s.registrations ∧ r.opportunityId = id := by
  rw [readOpportunities, OpportunityService.read, OpportunityService.getOpportunity]
  rcases hfound : findOpportunity s id with _ | o
  · simp [Task.registrations, Except.map]
  obtain rfl : o.id = id := Table.key_of_lookup hfound
  by_cases hrefused : user.role = .coordinator ∧ o.coordinatorId ≠ user.id
  · simp [Task.registrations, Except.map, hrefused]
  · simp only [if_neg hrefused, Except.map, Task.registrations, List.mem_filter, decide_eq_true_eq,
      Option.some.injEq, exists_eq_left']
    exact ⟨fun h => ⟨fun hrole => not_not.mp fun hne => hrefused ⟨hrole, hne⟩, h⟩, fun h => h.2⟩

theorem mem_exportRegistrations {s : OpportunityService.State} {env : OpportunityService.Env}
    {user : CurrentUser} {id : UUID} {r : Registration}
    (h : r ∈ (Task.answered
      (readOpportunities s env (.exportRegistrations user id))).registrations) :
    ∃ o, findOpportunity s id = some o ∧ o.coordinatorId = user.id ∧ r.opportunityId = id := by
  rw [readOpportunities, OpportunityService.read, OpportunityService.getOpportunity] at h
  rcases hfound : findOpportunity s id with _ | o
  · rw [hfound] at h
    cases h
  rw [hfound] at h
  by_cases hrefused : user.role ≠ .coordinator ∨ o.coordinatorId ≠ user.id
  · simp [Task.registrations, Except.map, hrefused] at h
  · obtain ⟨-, howner⟩ := not_or.mp hrefused
    refine ⟨o, rfl, not_not.mp howner, ?_⟩
    simp only [if_neg hrefused, OpportunityService.generateExcelExport,
      OpportunityService.getOpportunity, hfound] at h
    split at h
    · cases h
    · exact of_decide_eq_true (List.mem_filter.mp h).2

/-! ## One step -/

theorem decisions_of_same {arrival : Arrival} {s : Store} {env : Env} {t : Task}
    (hsame : (step env s t).1.applications = s.applications) (a a' : Application)
    (ha : findApplication s.applications a.id = some a)
    (ha' : findApplication (step env s t).1.applications a.id = some a')
    (hchanged : a'.status ≠ a.status) (o : Opportunity)
    (_ : findOpportunity s.opportunities a.opportunityId = some o) : Decides arrival a o := by
  rw [hsame, ha] at ha'
  cases ha'
  exact absurd rfl hchanged

/-- The condition is about four kinds of steps. -/
theorem owned_of_other {arrival : Arrival} {s : Store} {env : Env} {t : Task}
    (hlisting : ∀ user id, t ≠ .opportunityRead (.listRegistrations user id))
    (hreading : ∀ user read, t ≠ .applicationRead user read)
    (hreturns : returnsStatus env t = false)
    (hcommit : ∀ row current actorId status,
      t ≠ .application (.statusCommit row current actorId status)) : Owned arrival s env t where
  listing := fun user id ht => absurd ht (hlisting user id)
  reading := fun user read ht => absurd ht (hreading user read)
  answering := by
    intro user id status _ hanswers
    rw [hreturns] at hanswers
    cases hanswers
  deciding := fun row current actorId status _ ht => absurd ht (hcommit row current actorId status)

/-- The student of a registration gets it. -/
theorem confined_opportunity {arrival : Arrival} {s : Store} {env : Env}
    {task : OpportunityService.Task} (h : KnowsRegistration arrival s.opportunities task) :
    Confined arrival s env (.opportunity task) where
  registrations := by
    intro hended r hr o _
    obtain ⟨id, rfl, hfound⟩ := mem_registrations_step hended hr
    obtain ⟨studentId, ⟨user, huser, hid⟩, r', hfound', hstudent⟩ := h
    rw [hfound] at hfound'
    cases hfound'
    exact ⟨user, huser, Or.inr (hid.trans hstudent.symm)⟩
  applications := by
    intro _ a ha
    cases ha
  decisions := decisions_of_same rfl

/-- A read of the opportunity service gives out registrations only. -/
theorem confined_opportunityRead {s : Store} {env : Env} {read : OpportunityService.Read}
    (h : ∀ r ∈ (Task.answered (readOpportunities s.opportunities env.opportunity
      read)).registrations, Entitled s (Arrival.opportunityRead read).user r.opportunityId
        r.studentId) :
    Confined (.opportunityRead read) s env (.opportunityRead read) := by
  refine ⟨fun _ => h, ?_, decisions_of_same rfl⟩
  intro _ a ha
  simp only [step, readOpportunities] at ha
  rcases hread : OpportunityService.read s.opportunities env.opportunity read with e | page
  · rw [hread] at ha
    cases ha
  · rw [hread] at ha
    cases page <;> cases ha

theorem confined_opportunityRead_iff {s : Store} {env : Env} {read : OpportunityService.Read} :
    Confined (.opportunityRead read) s env (.opportunityRead read) ↔
      Owned (.opportunityRead read) s env (.opportunityRead read) := by
  cases read with
  | listOpps =>
    refine iff_of_true (confined_opportunityRead ?_)
      (owned_of_other (by simp) (by simp) rfl (by simp))
    intro r hr
    cases hr
  | getOpp id =>
    refine iff_of_true (confined_opportunityRead ?_)
      (owned_of_other (by simp) (by simp) rfl (by simp))
    intro r hr
    rw [readOpportunities, OpportunityService.read] at hr
    rcases hopp : OpportunityService.getOpportunity s.opportunities id with e | o
    · rw [hopp] at hr
      cases hr
    · rw [hopp] at hr
      cases hr
  | listRegistrations user id =>
    constructor
    · intro h
      refine ⟨?_, by simp, by simp [returnsStatus], by simp⟩
      rintro _ _ ⟨⟩ hrole r hr hid o hfound
      have hmem : r ∈ (Task.answered (readOpportunities s.opportunities env.opportunity
          (.listRegistrations user id))).registrations :=
        mem_listRegistrations.mpr ⟨o, hfound, by simp [hrole], hr, hid⟩
      exact h.registrations rfl r hmem o (hid ▸ hfound)
    · intro h
      apply confined_opportunityRead
      intro r hr
      obtain ⟨o, hfound, howner, hstored, hid⟩ := mem_listRegistrations.mp hr
      rw [hid]
      rcases hrole : user.role with _ | _
      · exact h.listing user id rfl hrole r hstored hid
      · intro o' hfound'
        rw [hfound] at hfound'
        cases hfound'
        exact ⟨user, rfl, Or.inl (howner hrole).symm⟩
  | exportRegistrations user id =>
    refine iff_of_true (confined_opportunityRead ?_)
      (owned_of_other (by simp) (by simp) rfl (by simp))
    intro r hr o' hfound'
    obtain ⟨o, hfound, howner, hid⟩ := mem_exportRegistrations hr
    rw [hid, hfound] at hfound'
    cases hfound'
    exact ⟨user, rfl, Or.inl howner.symm⟩

theorem confined_applicationRead_iff {s : Store} {env : Env} {user : CurrentUser}
    {read : ApplicationRead} :
    Confined (.applicationRead user read) s env (.applicationRead user read) ↔
      Owned (.applicationRead user read) s env (.applicationRead user read) := by
  constructor
  · intro h
    refine ⟨by simp, ?_, by simp, by simp⟩
    rintro _ _ ⟨⟩ hrole a ha
    exact h.applications rfl a (mem_readApplications.mpr ⟨ha, by simp [hrole]⟩)
  · intro h
    refine ⟨?_, ?_, decisions_of_same rfl⟩
    · intro _ r hr
      cases read with
      | listApplications => cases hr
      | getApplication id =>
        simp only [step, readApplications] at hr
        rcases happ : ApplicationService.getApplication s.applications user id with e | app
        · rw [happ] at hr
          cases hr
        · rw [happ] at hr
          cases hr
      | timeline id =>
        simp only [step, readApplications] at hr
        rcases happ : ApplicationService.timeline s.applications user id with e | page
        · rw [happ] at hr
          cases hr
        · rw [happ] at hr
          cases hr
    · intro _ a ha
      obtain ⟨hrows, hown⟩ := mem_readApplications.mp ha
      rcases hrole : user.role with _ | _
      · intro o _
        exact ⟨user, rfl, Or.inr (hown hrole).symm⟩
      · exact h.reading user read rfl hrole a hrows

/-- What the response of `update_status` gives out is what the step gives out. -/
theorem answering_of_confined {arrival : Arrival} {s : Store} {env : Env}
    {task : ApplicationService.Task} (h : KnowsApplication arrival s.applications task)
    (hconfined : Confined arrival s env (.application task)) {user : CurrentUser} {id : UUID}
    {status : ApplicationStatus} (harrival : arrival = .application user (.patchStatus id status))
    (hreturns : returnsStatus env (.application task) = true) {a : Application}
    (hfound : findApplication s.applications id = some a) :
    Entitled s (some user) a.opportunityId a.studentId := by
  have huser : arrival.user = some user := by rw [harrival]; rfl
  rw [← huser]
  cases task with
  | statusRefresh id' actorId status' =>
    obtain ⟨user', harrival', -, -⟩ := h
    rw [harrival] at harrival'
    cases harrival'
    refine hconfined.applications rfl a ?_
    obtain ⟨hnone, hworks⟩ := Bool.and_eq_true_iff.mp hreturns
    have hevent : ApplicationService.eventOfStatus status = none :=
      Option.isNone_iff_eq_none.mp hnone
    have hrefresh : ApplicationService.refresh s.applications env.application id = .ok a :=
      ApplicationService.refresh_eq_ok.mpr ⟨by simpa using hworks, hfound⟩
    simp only [step, ApplicationService.taskStep, hrefresh, hevent]
    exact List.mem_singleton_self a
  | publishing app event =>
    obtain ⟨⟨a', hfound', hopportunity, hstudent⟩, hcall⟩ := h
    have hid : app.id = id := by
      rcases hcall with ⟨user', data, harrival', -⟩ | ⟨actorId, status', user', harrival', -⟩
      · rw [harrival] at harrival'
        cases harrival'
      · rw [harrival] at harrival'
        cases harrival'
        rfl
    rw [hid, hfound] at hfound'
    cases hfound'
    have hpublishing : env.application.publishing = .confirmed := of_decide_eq_true hreturns
    rw [hopportunity, hstudent]
    refine hconfined.applications rfl app ?_
    simp only [step, ApplicationService.taskStep, ApplicationService.publishFor, publish,
      hpublishing]
    exact List.mem_singleton_self app
  | _ => cases hreturns

theorem owned_of_confined {arrival : Arrival} {s : Store} {env : Env}
    {task : ApplicationService.Task} (h : KnowsApplication arrival s.applications task)
    (hconfined : Confined arrival s env (.application task)) :
    Owned arrival s env (.application task) := by
  refine ⟨by simp, by simp, ?_, ?_⟩
  · intro user id status harrival hreturns a hfound
    exact answering_of_confined h hconfined harrival hreturns hfound
  · intro row current actorId status s' htask hcommit hwritten a hfound hstatus o ho
    cases htask
    obtain ⟨user, harrival, -, rfl⟩ := h
    have hid : a.id = row.id := Table.key_of_lookup hfound
    have hfound' : findApplication s.applications a.id = some a := hid ▸ hfound
    have hnext : findApplication (step env s (.application (.statusCommit row current user.id
        status))).1.applications a.id = some { a with status := status.value } := by
      simp only [step, ApplicationService.taskStep, hcommit]
      rw [findApplication, (ApplicationService.commitStatus_ok hcommit).2.1, ← findApplication,
        find_writeStatus, hfound', Option.map_some, if_pos ⟨hwritten, hid⟩]
    rcases hconfined.decisions a _ hfound' hnext (Ne.symm hstatus) o ho with
      ⟨user', status', harrival', -, howner⟩ | ⟨user', harrival', -⟩
    · rw [harrival, hid] at harrival'
      cases harrival'
      exact howner
    · rw [harrival] at harrival'
      cases harrival'

theorem applications_of_owned {arrival : Arrival} {s : Store} {env : Env}
    {task : ApplicationService.Task} (h : KnowsApplication arrival s.applications task)
    (howned : Owned arrival s env (.application task))
    (hended : (Task.application task).ended = false) {a : Application}
    (ha : a ∈ (step env s (.application task)).2.applications) :
    Entitled s arrival.user a.opportunityId a.studentId := by
  rcases mem_applications_step hended ha with ⟨id, rfl, hfound⟩ |
    ⟨⟨id, actorId, status, rfl, hfound⟩, hreturns⟩ | ⟨⟨event, rfl⟩, hreturns⟩
  · obtain ⟨opportunityId, studentId, ⟨user, harrival, -, hid⟩, a', hfound', -, hstudent⟩ := h
    rw [hfound] at hfound'
    cases hfound'
    intro o _
    exact ⟨user, by rw [harrival]; rfl, Or.inr (hid.trans hstudent.symm)⟩
  · obtain ⟨user, harrival, -, -⟩ := h
    have huser : arrival.user = some user := by rw [harrival]; rfl
    rw [huser]
    exact howned.answering user id status harrival hreturns a hfound
  · obtain ⟨⟨a', hfound', hopportunity, hstudent⟩, hcall⟩ := h
    rcases hcall with ⟨user, data, harrival, hid⟩ | ⟨actorId, status, user, harrival, -, -⟩
    · intro o _
      exact ⟨user, by rw [harrival]; rfl, Or.inr hid⟩
    · have huser : arrival.user = some user := by rw [harrival]; rfl
      rw [huser, ← hopportunity, ← hstudent]
      exact howned.answering user a.id status harrival hreturns a' hfound'

theorem confined_of_owned {arrival : Arrival} {s : Store} {env : Env}
    {task : ApplicationService.Task} (h : KnowsApplication arrival s.applications task)
    (howned : Owned arrival s env (.application task)) :
    Confined arrival s env (.application task) := by
  refine ⟨?_, fun hended a ha => applications_of_owned h howned hended ha, ?_⟩
  · intro _ r hr
    cases hr
  · intro a a' ha ha' hchanged o ho
    simp only [step] at ha'
    rcases find_taskStep env.application task ha with heq | ⟨row, rfl, hid, heq⟩ |
      ⟨row, current, actorId, status, s', rfl, hcommit, hid, hwritten, heq⟩
    · rw [heq] at ha'
      cases ha'
      exact absurd rfl hchanged
    · obtain ⟨⟨user, harrival, hrole, huser⟩, a'', hfound, -, hstudent⟩ := h
      rw [hid, ha] at hfound
      cases hfound
      exact Or.inr ⟨user, hid ▸ harrival, hrole, huser.trans hstudent.symm⟩
    · rw [heq] at ha'
      cases ha'
      obtain ⟨user, harrival, hrole, huser⟩ := h
      refine Or.inl ⟨user, status, hid ▸ harrival, hrole, huser.trans ?_⟩
      exact howned.deciding row current actorId status s' rfl hcommit hwritten a (hid ▸ ha)
        (Ne.symm hchanged) o ho

theorem confined_application_iff {arrival : Arrival} {s : Store} {env : Env}
    {task : ApplicationService.Task} (h : KnowsApplication arrival s.applications task) :
    Confined arrival s env (.application task) ↔ Owned arrival s env (.application task) :=
  ⟨owned_of_confined h, confined_of_owned h⟩

/-- **A step gives out and decides what it should exactly if its request is one that the
    handlers check, or meets the condition.** -/
theorem confined_iff {arrival : Arrival} {s : Store} {env : Env} {t : Task}
    (h : Knows arrival s t) : Confined arrival s env t ↔ Owned arrival s env t := by
  cases t with
  | opportunity task =>
    exact iff_of_true (confined_opportunity h) (owned_of_other (by simp) (by simp) rfl (by simp))
  | opportunityRead read =>
    obtain rfl := h
    exact confined_opportunityRead_iff
  | application task => exact confined_application_iff h
  | applicationRead user read =>
    obtain rfl := h
    exact confined_applicationRead_iff
  | answered page =>
    refine iff_of_true ⟨?_, ?_, decisions_of_same rfl⟩
      (owned_of_other (by simp) (by simp) rfl (by simp))
    · intro hended
      cases hended
    · intro hended
      cases hended

/-! ## All runs -/

section Runs

variable {ι : Type*} [DecidableEq ι] (arrivals : ι → Arrival)

theorem knows_fire {c : Config Store Task ι} {i : ι} {env : Env}
    (h : ∀ j, Knows (arrivals j) c.store (c.task j)) (j : ι) :
    Knows (arrivals j) (fire program c i env).store ((fire program c i env).task j) := by
  by_cases hj : j = i
  · subst hj
    rw [fire_task_same]
    exact knows_step env (h j)
  · rw [fire_task_other program c env hj]
    exact knows_stable env (c.task i) (h j)

/-- **Only owners see and decide candidates exactly if no request does what the handlers do
    not check**: for any requests to the two services, however their steps interleave. -/
theorem access_iff (schedule : List (ι × Env)) :
    Guarded program (fun c i env => Confined (arrivals i) c.store env (c.task i))
        (arrive arrivals) schedule ↔
      Guarded program (fun c i env => Owned (arrivals i) c.store env (c.task i))
        (arrive arrivals) schedule := by
  have hstart : ∀ i, Knows (arrivals i) (arrive arrivals).store ((arrive arrivals).task i) :=
    fun i => knows_start (arrivals i) _
  constructor
  · refine guarded_imp program (I := fun c => ∀ i, Knows (arrivals i) c.store (c.task i))
      (fun _ _ _ h _ _ => knows_fire arrivals h) ?_ hstart schedule
    intro c i env h _ hconfined
    exact (confined_iff (h i)).mp hconfined
  · refine guarded_imp program (I := fun c => ∀ i, Knows (arrivals i) c.store (c.task i))
      (fun _ _ _ h _ _ => knows_fire arrivals h) ?_ hstart schedule
    intro c i env h _ howned
    exact (confined_iff (h i)).mpr howned

end Runs

/-! ## A student who lists registrations -/

inductive Thread where
  | creation
  | registration
  | listing
deriving DecidableEq

/-- Student 2 registers for a drive, and student 3 lists its registrations. -/
def drive : Thread → Arrival
  | .creation =>
      .opportunity (.request ⟨.ofNat 1, .coordinator⟩ (.createOpp { title := "Drive" }))
  | .registration =>
      .opportunity (.request ⟨.ofNat 2, .student⟩ (.createRegistration (.ofNat 7) {}))
  | .listing => .opportunityRead (.listRegistrations ⟨.ofNat 3, .student⟩ (.ofNat 7))

def registered : List (Thread × Env) :=
  let answers := AdmissionGate.answers (.ofNat 7) 0
  [(.creation, answers), (.registration, answers), (.registration, answers),
    (.registration, answers), (.registration, answers)]

theorem student_lists_registrations :
    ¬ Guarded program (fun c i env => Confined (drive i) c.store env (c.task i)) (arrive drive)
      (registered ++ [(.listing, AdmissionGate.answers (.ofNat 7) 1)]) := by
  intro h
  rw [guarded_append] at h
  obtain ⟨u, huser, hentitled⟩ := (h.2.1 rfl).registrations rfl
    ⟨.ofNat 7, .ofNat 7, .ofNat 2, [], none, 0⟩ (List.Mem.head _) _ rfl
  cases huser
  exact absurd hentitled (by decide)

end CampusHire.CandidateAccess
