import CampusHire.ApplicationService
import CampusHire.Schedule

/-!
# The application service under concurrency

The same handlers, one step for each point at which another request can get in
between.  `apply` and `update_status` are coroutines of the one event loop: they
are suspended while they await another service or the broker, and hold the loop
otherwise.  `withdraw` runs in a worker thread.  Each query and each commit is a
step of its own, except that a query directly after an `await` belongs to the
step that resumes the coroutine.

`serve_eq_alone` connects the two views: a task that nothing interrupts does
what the handler does.
-/

namespace CampusHire.ApplicationService

open CampusHire Schedule

inductive Task where
  -- `apply`
  | fetchOpportunity (studentId : UUID) (data : ApplicationCreate)
  | fetchProfile (studentId : UUID) (data : ApplicationCreate)
  | applyRefresh (studentId : UUID) (data : ApplicationCreate) (id : UUID)
  -- `withdraw`
  | withdrawRead (applicationId studentId : UUID)
  | withdrawCommit (row : Application)
  | withdrawRefresh (id : UUID)
  -- `update_status`
  | statusRead (applicationId actorId : UUID) (status : ApplicationStatus)
  | statusStage (row : Application) (actorId : UUID) (status : ApplicationStatus)
  | statusCommit (row : Application) (current : Option WorkflowStage) (actorId : UUID)
      (status : ApplicationStatus)
  | statusRefresh (id actorId : UUID) (status : ApplicationStatus)
  -- both coroutines
  | publishing (app : Application) (event : DomainEvent)
  | finished (result : Except ServiceError Application)

/-- A request as it arrives: the route checks the role. -/
def Task.start (user : CurrentUser) : Request → Task
  | .create data =>
      if user.role ≠ .student then .finished (.error (.http 403 "Student only"))
      else .fetchOpportunity user.id data
  | .withdraw applicationId =>
      if user.role ≠ .student then .finished (.error (.http 403 "Student only"))
      else .withdrawRead applicationId user.id
  | .patchStatus applicationId status =>
      if user.role ≠ .coordinator then .finished (.error (.http 403 "Coordinator only"))
      else .statusRead applicationId user.id status

def taskStep (env : Env) (s : State) : Task → State × Task
  | .fetchOpportunity studentId data =>
      -- resumed with the opportunity service's answer, up to the next `await`
      match ApplicationService.fetchOpportunity env.opportunity with
      | .error e => (s, .finished (.error e))
      | .ok _ =>
        match findExisting s data.opportunityId studentId with
        | some _ => (s, .finished (.error (.http 400 "Already applied")))
        | none => (s, .fetchProfile studentId data)
  | .fetchProfile studentId data =>
      -- resumed with the profile; the flush is not visible before the commit
      match ApplicationService.fetchProfile env.profile with
      | .error e => (s, .finished (.error e))
      | .ok profile =>
        match insertApplication s env studentId data profile with
        | .error e => (s, .finished (.error e))
        | .ok s' => (s', .applyRefresh studentId data env.applicationId)
  | .applyRefresh studentId data id =>
      match refresh s env id with
      | .error e => (s, .finished (.error e))
      | .ok app => (s, .publishing app (submittedEvent app studentId data))
  | .withdrawRead applicationId studentId =>
      match findApplication s applicationId with
      | none => (s, .finished (.error (.http 404 "Application not found")))
      | some row =>
        if row.studentId ≠ studentId then
          (s, .finished (.error (.http 403 "Not your application")))
        else (s, .withdrawCommit row)
  | .withdrawCommit row =>
      match commitWithdrawal s env row with
      | .error e => (s, .finished (.error e))
      | .ok s' => (s', .withdrawRefresh row.id)
  | .withdrawRefresh id => (s, .finished (refresh s env id))
  | .statusRead applicationId actorId status =>
      match findApplication s applicationId with
      | none => (s, .finished (.error (.http 404 "Application not found")))
      | some row => (s, .statusStage row actorId status)
  | .statusStage row actorId status =>
      (s, .statusCommit row (findOpenStage s row.id) actorId status)
  | .statusCommit row current actorId status =>
      match commitStatus s env row current actorId status with
      | .error e => (s, .finished (.error e))
      | .ok s' => (s', .statusRefresh row.id actorId status)
  | .statusRefresh id actorId status =>
      match refresh s env id with
      | .error e => (s, .finished (.error e))
      | .ok app =>
        match eventOfStatus status with
        | some eventType => (s, .publishing app (statusEvent eventType app actorId))
        | none => (s, .finished (.ok app))
  | .publishing app event =>
      ((publishFor s env app event).1, .finished (publishFor s env app event).2)
  | .finished result => (s, .finished result)

def Task.isFinished : Task → Bool
  | .finished _ => true
  | _ => false

/-- `async def` handlers. -/
def Task.onLoop : Task → Bool
  | .fetchOpportunity .. | .fetchProfile .. | .applyRefresh .. | .statusRead ..
  | .statusStage .. | .statusCommit .. | .statusRefresh .. | .publishing .. => true
  | .withdrawRead .. | .withdrawCommit .. | .withdrawRefresh .. | .finished .. => false

/-- Between two `await`s. -/
def Task.running : Task → Bool
  | .applyRefresh .. | .statusStage .. | .statusCommit .. | .statusRefresh .. => true
  | _ => false

theorem Task.offLoop_step (env : Env) (s : State) (t : Task) (h : t.onLoop = false) :
    (taskStep env s t).2.onLoop = false := by
  cases t with
  | withdrawRead id studentId =>
    simp only [taskStep]
    split
    · rfl
    · split <;> rfl
  | withdrawCommit row =>
    simp only [taskStep]
    split <;> rfl
  | withdrawRefresh id => rfl
  | finished result => rfl
  | _ => cases h

/-- The application service as a program of threads and coroutines. -/
def program : Program State Task Env where
  step := taskStep
  onLoop := Task.onLoop
  running := Task.running
  running_onLoop := by intro t h; cases t <;> first | rfl | cases h
  offLoop_step := Task.offLoop_step

theorem Task.start_not_running (user : CurrentUser) (request : Request) :
    (Task.start user request).running = false := by
  cases request <;> simp only [Task.start] <;> split <;> rfl

/-- Any number of requests, none of which has begun, on freshly created tables. -/
def arrive {ι : Type*} (requests : ι → CurrentUser × Request) : Config State Task ι :=
  start State.empty fun i => Task.start (requests i).1 (requests i).2

/-- **What a step can do.**  It touches no table, or it is one of the three commits. -/
theorem taskStep_cases (env : Env) (s : State) (t : Task) :
    (∃ published, (taskStep env s t).1 = { s with published := published }) ∨
    (∃ studentId data profile s', t = .fetchProfile studentId data ∧
      ApplicationService.fetchProfile env.profile = .ok profile ∧
      insertApplication s env studentId data profile = .ok s' ∧
      taskStep env s t = (s', .applyRefresh studentId data env.applicationId)) ∨
    (∃ row s', t = .withdrawCommit row ∧ commitWithdrawal s env row = .ok s' ∧
      taskStep env s t = (s', .withdrawRefresh row.id)) ∨
    (∃ row current actorId status s', t = .statusCommit row current actorId status ∧
      commitStatus s env row current actorId status = .ok s' ∧
      taskStep env s t = (s', .statusRefresh row.id actorId status)) := by
  cases t with
  | fetchOpportunity studentId data =>
    refine Or.inl ⟨s.published, ?_⟩
    simp only [taskStep]
    split
    · rfl
    · split <;> rfl
  | fetchProfile studentId data =>
    simp only [taskStep]
    split
    · exact Or.inl ⟨s.published, rfl⟩
    · rename_i profile hprofile
      split
      · exact Or.inl ⟨s.published, rfl⟩
      · rename_i s' hins
        exact Or.inr (Or.inl ⟨studentId, data, profile, s', rfl, hprofile, hins, rfl⟩)
  | applyRefresh studentId data id =>
    refine Or.inl ⟨s.published, ?_⟩
    simp only [taskStep]
    split <;> rfl
  | withdrawRead id studentId =>
    refine Or.inl ⟨s.published, ?_⟩
    simp only [taskStep]
    split
    · rfl
    · split <;> rfl
  | withdrawCommit row =>
    simp only [taskStep]
    split
    · exact Or.inl ⟨s.published, rfl⟩
    · rename_i s' hcommit
      exact Or.inr (Or.inr (Or.inl ⟨row, s', rfl, hcommit, rfl⟩))
  | withdrawRefresh id => exact Or.inl ⟨s.published, rfl⟩
  | statusRead id actorId status =>
    refine Or.inl ⟨s.published, ?_⟩
    simp only [taskStep]
    split <;> rfl
  | statusStage row actorId status => exact Or.inl ⟨s.published, rfl⟩
  | statusCommit row current actorId status =>
    simp only [taskStep]
    split
    · exact Or.inl ⟨s.published, rfl⟩
    · rename_i s' hcommit
      exact Or.inr (Or.inr (Or.inr ⟨row, current, actorId, status, s', rfl, hcommit, rfl⟩))
  | statusRefresh id actorId status =>
    refine Or.inl ⟨s.published, ?_⟩
    simp only [taskStep]
    split
    · rfl
    · split <;> rfl
  | publishing app event => exact Or.inl ⟨_, rfl⟩
  | finished result => exact Or.inl ⟨s.published, rfl⟩

/-! ## Application ids stay unique -/

theorem nodup_ids_step {s : State} (env : Env) (t : Task)
    (h : (s.applications.map Application.id).Nodup) :
    ((taskStep env s t).1.applications.map Application.id).Nodup := by
  rcases taskStep_cases env s t with ⟨published, heq⟩ |
    ⟨studentId, data, profile, s', rfl, -, hins, heq⟩ | ⟨row, s', rfl, hcommit, heq⟩ |
    ⟨row, current, actorId, status, s', rfl, hcommit, heq⟩
  · rw [heq]
    exact h
  · obtain ⟨hfresh, -, happs, -⟩ := insertApplication_ok hins
    rw [heq, happs]
    exact Table.nodup_append_fresh h hfresh
  · rw [heq, commitWithdrawal_ok hcommit, logAudit_applications, map_writeStatus]
    · exact h
    · exact fun _ _ => rfl
  · rw [heq, (commitStatus_ok hcommit).2.1, map_writeStatus]
    · exact h
    · exact fun _ _ => rfl

theorem nodup_ids_run {ι : Type*} [DecidableEq ι] (requests : ι → CurrentUser × Request)
    (schedule : List (ι × Env)) :
    ((run program (arrive requests) schedule).store.applications.map Application.id).Nodup :=
  run_store_invariant program (I := fun s => (s.applications.map Application.id).Nodup)
    (fun env _ t h => nodup_ids_step env t h) (c := arrive requests) List.nodup_nil schedule

/-! ## A task alone does what the handler does -/

theorem alone_step (env : Env) (n : Nat) (s : State) (t : Task) :
    alone program env (n + 1) (s, t) = alone program env n (taskStep env s t) := rfl

theorem alone_finished (env : Env) (n : Nat) (s : State)
    (result : Except ServiceError Application) :
    alone program env n (s, .finished result) = (s, .finished result) :=
  alone_of_step_eq program rfl n

theorem alone_create (env : Env) (s : State) (studentId : UUID) (data : ApplicationCreate) :
    alone program env 5 (s, .fetchOpportunity studentId data) =
      ((apply s env studentId data).1, .finished (apply s env studentId data).2) := by
  rw [alone_step, taskStep, apply]
  rcases ApplicationService.fetchOpportunity env.opportunity with e | opportunity
  · exact alone_finished ..
  rcases findExisting s data.opportunityId studentId with _ | existing
  · simp only [alone_step, taskStep]
    rcases ApplicationService.fetchProfile env.profile with e | profile
    · exact alone_finished ..
    dsimp only
    rcases insertApplication s env studentId data profile with e | s'
    · exact alone_finished ..
    simp only [alone_step, taskStep]
    rcases refresh s' env env.applicationId with e | app
    · exact alone_finished ..
    · rfl
  · exact alone_finished ..

theorem alone_withdraw (env : Env) (s : State) (applicationId studentId : UUID) :
    alone program env 5 (s, .withdrawRead applicationId studentId) =
      ((withdraw s env applicationId studentId).1,
        .finished (withdraw s env applicationId studentId).2) := by
  rw [alone_step, taskStep, withdraw]
  rcases findApplication s applicationId with _ | row
  · exact alone_finished ..
  by_cases hown : row.studentId ≠ studentId
  · simp only [hown, if_true, not_false_eq_true, ne_eq, alone_finished]
  simp only [hown, if_false, alone_step, taskStep]
  rcases commitWithdrawal s env row with e | s'
  · exact alone_finished ..
  · rfl

theorem alone_patchStatus (env : Env) (s : State) (applicationId actorId : UUID)
    (status : ApplicationStatus) :
    alone program env 5 (s, .statusRead applicationId actorId status) =
      ((updateStatus s env applicationId actorId status).1,
        .finished (updateStatus s env applicationId actorId status).2) := by
  rw [alone_step, taskStep, updateStatus]
  rcases findApplication s applicationId with _ | row
  · exact alone_finished ..
  simp only [alone_step, taskStep]
  rcases commitStatus s env row (findOpenStage s row.id) actorId status with e | s'
  · exact alone_finished ..
  simp only [alone_step, taskStep]
  rcases refresh s' env row.id with e | app
  · exact alone_finished ..
  rcases eventOfStatus status with _ | eventType
  · rfl
  · rfl

/-- **The handler is the task run alone.** -/
theorem serve_eq_alone (env : Env) (s : State) (user : CurrentUser) (request : Request) :
    alone program env 5 (s, Task.start user request) =
      ((serve s env user request).1, .finished (serve s env user request).2) := by
  cases request with
  | create data =>
    by_cases hrole : user.role ≠ .student
    · simp only [Task.start, serve, if_pos hrole, alone_finished]
    · simp only [Task.start, serve, if_neg hrole, alone_create]
  | withdraw id =>
    by_cases hrole : user.role ≠ .student
    · simp only [Task.start, serve, if_pos hrole, alone_finished]
    · simp only [Task.start, serve, if_neg hrole, alone_withdraw]
  | patchStatus id status =>
    by_cases hrole : user.role ≠ .coordinator
    · simp only [Task.start, serve, if_pos hrole, alone_finished]
    · simp only [Task.start, serve, if_neg hrole, alone_patchStatus]

end CampusHire.ApplicationService
