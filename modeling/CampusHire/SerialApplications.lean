import CampusHire.ApplicationTasks
import CampusHire.AuditTrail
import CampusHire.CommitOrder

/-!
# Concurrent applications, one after the other

The handlers of the application service interleave, and the results about requests handled one
at a time are about `serve`.  The two meet where every commit is up to date: nobody has
applied for the same opportunity since the check of `apply`, nobody has written the row or
its open stage since they were read.  Then the tables are those of the committed requests run
one after the other (`upToDate_serializes`).

`apply` and `update_status` are coroutines, and between a read and the commit that uses it only
`apply` awaits something.  So without a `withdraw` all commits are up to date as soon as no
two requests apply for the same student and opportunity, and the answers are those of the
serial run as well (`coroutines_serialize`).  What has been proved of the requests handled one
at a time then holds of the coroutines too: the audit trail determines the status
(`audited_coroutines`).

The events are not part of it: the publications come after the commits, in an order of their
own.
-/

namespace CampusHire.SerialApplications

open CampusHire ApplicationService Schedule CommitOrder AuditTrail

/-! ## The tables -/

/-- The committed tables without the exchange. -/
def tables (s : State) : State := { s with published := [] }

/-- The request alone, where the opportunity is found, the row is reloaded and the broker
    confirms. -/
def serialEnv (env : Env) : Env :=
  { env with
    opportunity := .answered 200 (some (.obj [])), reloadFails := false, publishing := .confirmed }

theorem insertApplication_tables (s : State) (env : Env) (studentId : UUID)
    (data : ApplicationCreate) (profile : Json) :
    insertApplication (tables s) env studentId data profile =
      (insertApplication s env studentId data profile).map tables := by
  unfold insertApplication
  dsimp only [tables]
  split
  · rfl
  · split <;> rfl

theorem writeStatus_tables (s : State) (row : Application) (status : String) :
    writeStatus (tables s) row status = tables (writeStatus s row status) := by
  unfold writeStatus
  split <;> rfl

theorem commitWithdrawal_tables (s : State) (env : Env) (row : Application) :
    commitWithdrawal (tables s) env row = (commitWithdrawal s env row).map tables := by
  unfold commitWithdrawal
  rw [writeStatus_tables]
  split <;> rfl

theorem commitStatus_tables (s : State) (env : Env) (row : Application)
    (current : Option WorkflowStage) (actorId : UUID) (status : ApplicationStatus) :
    commitStatus (tables s) env row current actorId status =
      (commitStatus s env row current actorId status).map tables := by
  unfold commitStatus
  dsimp only
  rw [writeStatus_tables]
  split
  · rfl
  · have hstages : (tables s).stages = s.stages := rfl
    rw [hstages]
    split <;> rfl

/-- What a handler leaves in the tables, and its answer. -/
def seen (outcome : State × Except ServiceError Application) :
    State × Except ServiceError Application :=
  (tables outcome.1, outcome.2)

theorem seen_publishFor (s : State) (env : Env) (app : Application) (event : DomainEvent) :
    seen (publishFor (tables s) env app event) = seen (publishFor s env app event) := by
  simp only [seen, publishFor, publish]
  split <;> rfl

/-- **The handlers do not look at the exchange.** -/
theorem seen_serve (s : State) (env : Env) (user : CurrentUser) (request : Request) :
    seen (serve (tables s) env user request) = seen (serve s env user request) := by
  have hrefresh : ∀ (t : State) id, refresh (tables t) env id = refresh t env id :=
    fun _ _ => rfl
  cases request with
  | create data =>
    have hexisting : findExisting (tables s) data.opportunityId user.id =
      findExisting s data.opportunityId user.id := rfl
    simp only [serve, apply, hexisting, insertApplication_tables]
    split
    · rfl
    split
    · rfl
    split
    · rfl
    split
    · rfl
    rcases insertApplication s env user.id data _ with e | t
    · rfl
    simp only [Except.map, hrefresh]
    split
    · rfl
    · exact seen_publishFor ..
  | withdraw id =>
    have hfound : findApplication (tables s) id = findApplication s id := rfl
    simp only [serve, withdraw, hfound, commitWithdrawal_tables]
    split
    · rfl
    split
    · rfl
    split
    · rfl
    rename_i row _ _
    rcases commitWithdrawal s env row with e | t
    · rfl
    · rfl
  | patchStatus id status =>
    have hfound : findApplication (tables s) id = findApplication s id := rfl
    have hstage : ∀ row : Application,
      findOpenStage (tables s) row.id = findOpenStage s row.id := fun _ => rfl
    simp only [serve, updateStatus, hfound, hstage, commitStatus_tables]
    split
    · rfl
    split
    · rfl
    rename_i row _
    rcases commitStatus s env row (findOpenStage s row.id) user.id status with e | t
    · rfl
    simp only [Except.map, hrefresh]
    split
    · rfl
    split
    · exact seen_publishFor ..
    · rfl

/-! ## A request alone -/

section Requests

variable {ι : Type*} (requests : ι → CurrentUser × Request)

/-- The request of thread `i` on the tables. -/
def exec (i : ι) (env : Env) (s : State) : State × Except ServiceError Application :=
  seen (serve s (serialEnv env) (requests i).1 (requests i).2)

variable {requests} {i : ι} {s t : State} {env : Env}

theorem exec_create {data : ApplicationCreate} {profile : Json}
    (hrole : (requests i).1.role = .student) (hrequest : (requests i).2 = .create data)
    (hfree : findExisting s data.opportunityId (requests i).1.id = none)
    (hprofile : fetchProfile env.profile = .ok profile)
    (hins : insertApplication s env (requests i).1.id data profile = .ok t) :
    exec requests i env (tables s) = (tables t, refresh t (serialEnv env) env.applicationId) := by
  have hopportunity : fetchOpportunity (serialEnv env).opportunity = .ok (.obj []) := rfl
  have hprofile' : fetchProfile (serialEnv env).profile = .ok profile := hprofile
  have hins' : insertApplication s (serialEnv env) (requests i).1.id data profile = .ok t := hins
  have hid : (serialEnv env).applicationId = env.applicationId := rfl
  rw [exec, seen_serve]
  simp only [serve, hrequest, hrole, ne_eq, not_true, if_false, apply, hopportunity, hfree,
    hprofile', hins', hid]
  rcases refresh t (serialEnv env) env.applicationId with e | app
  · rfl
  · rfl

theorem exec_withdraw {row : Application} (hrole : (requests i).1.role = .student)
    (hrequest : (requests i).2 = .withdraw row.id) (hown : row.studentId = (requests i).1.id)
    (hfound : findApplication s row.id = some row) (hcommit : commitWithdrawal s env row = .ok t) :
    exec requests i env (tables s) = (tables t, refresh t (serialEnv env) row.id) := by
  have hcommit' : commitWithdrawal s (serialEnv env) row = .ok t := hcommit
  rw [exec, seen_serve]
  simp only [serve, hrequest, hrole, ne_eq, not_true, if_false, withdraw, hfound, hown, hcommit']
  rfl

theorem exec_status {row : Application} {status : ApplicationStatus}
    (hrole : (requests i).1.role = .coordinator)
    (hrequest : (requests i).2 = .patchStatus row.id status)
    (hfound : findApplication s row.id = some row)
    (hcommit : commitStatus s env row (findOpenStage s row.id) (requests i).1.id status = .ok t) :
    exec requests i env (tables s) = (tables t, refresh t (serialEnv env) row.id) := by
  have hcommit' : commitStatus s (serialEnv env) row (findOpenStage s row.id) (requests i).1.id
    status = .ok t := hcommit
  rw [exec, seen_serve]
  simp only [serve, hrequest, hrole, ne_eq, not_true, if_false, updateStatus, hfound, hcommit']
  rcases refresh t (serialEnv env) row.id with e | app
  · rfl
  · rcases eventOfStatus status with _ | eventType
    · rfl
    · rfl

end Requests

/-! ## The commits -/

theorem program_step (env : Env) (s : State) (t : Task) :
    program.step env s t = taskStep env s t := rfl

/-- The step is a commit that the database takes. -/
def commits (env : Env) (s : State) : Task → Bool
  | .fetchProfile studentId data =>
    match fetchProfile env.profile with
    | .error _ => false
    | .ok profile => (insertApplication s env studentId data profile).toOption.isSome
  | .withdrawCommit row => (commitWithdrawal s env row).toOption.isSome
  | .statusCommit row current actorId status =>
    (commitStatus s env row current actorId status).toOption.isSome
  | _ => false

theorem commits_eq_true {env : Env} {s : State} {t : Task} (h : commits env s t = true) :
    (∃ studentId data profile s', t = .fetchProfile studentId data ∧
      fetchProfile env.profile = .ok profile ∧
      insertApplication s env studentId data profile = .ok s' ∧
      taskStep env s t = (s', .applyRefresh studentId data env.applicationId)) ∨
    (∃ row s', t = .withdrawCommit row ∧ commitWithdrawal s env row = .ok s' ∧
      taskStep env s t = (s', .withdrawRefresh row.id)) ∨
    (∃ row current actorId status s', t = .statusCommit row current actorId status ∧
      commitStatus s env row current actorId status = .ok s' ∧
      taskStep env s t = (s', .statusRefresh row.id actorId status)) := by
  cases t with
  | fetchProfile studentId data =>
    rcases hprofile : fetchProfile env.profile with e | profile
    · simp only [commits, hprofile] at h
      cases h
    rcases hins : insertApplication s env studentId data profile with e | s'
    · simp only [commits, hprofile, hins] at h
      cases h
    · exact Or.inl ⟨studentId, data, profile, s', rfl, rfl, hins,
        by simp only [taskStep, hprofile, hins]⟩
  | withdrawCommit row =>
    rcases hcommit : commitWithdrawal s env row with e | s'
    · simp only [commits, hcommit] at h
      cases h
    · exact Or.inr (Or.inl ⟨row, s', rfl, hcommit, by simp only [taskStep, hcommit]⟩)
  | statusCommit row current actorId status =>
    rcases hcommit : commitStatus s env row current actorId status with e | s'
    · simp only [commits, hcommit] at h
      cases h
    · exact Or.inr (Or.inr ⟨row, current, actorId, status, s', rfl, hcommit,
        by simp only [taskStep, hcommit]⟩)
  | _ => cases h

/-- The other steps touch no table. -/
theorem tables_of_silent {env : Env} {s : State} {t : Task} (h : commits env s t = false) :
    tables (taskStep env s t).1 = tables s := by
  rcases taskStep_cases env s t with ⟨published, heq⟩ |
    ⟨studentId, data, profile, s', rfl, hprofile, hins, -⟩ | ⟨row, s', rfl, hcommit, -⟩ |
    ⟨row, current, actorId, status, s', rfl, hcommit, -⟩
  · rw [heq]
    rfl
  · simp [commits, hprofile, hins, Except.toOption] at h
  · simp [commits, hcommit, Except.toOption] at h
  · simp [commits, hcommit, Except.toOption] at h

/-! ## The threads -/

/-- The task is at work on the request. -/
def Stage (r : CurrentUser × Request) : Task → Prop
  | .fetchOpportunity studentId data | .fetchProfile studentId data
  | .applyRefresh studentId data _ =>
    r.1.role = .student ∧ r.1.id = studentId ∧ r.2 = .create data
  | .withdrawRead id studentId => r.1.role = .student ∧ r.1.id = studentId ∧ r.2 = .withdraw id
  | .withdrawCommit row =>
    r.1.role = .student ∧ row.studentId = r.1.id ∧ r.2 = .withdraw row.id
  | .withdrawRefresh id => r.2 = .withdraw id
  | .statusRead id actorId status =>
    r.1.role = .coordinator ∧ r.1.id = actorId ∧ r.2 = .patchStatus id status
  | .statusStage row actorId status | .statusCommit row _ actorId status =>
    r.1.role = .coordinator ∧ r.1.id = actorId ∧ r.2 = .patchStatus row.id status
  | .statusRefresh .. | .publishing .. | .finished _ => True

theorem stage_start (r : CurrentUser × Request) : Stage r (Task.start r.1 r.2) := by
  obtain ⟨user, request⟩ := r
  cases request with
  | create data =>
    simp only [Task.start]
    split
    · trivial
    · rename_i hrole
      exact ⟨not_not.mp hrole, rfl, rfl⟩
  | withdraw id =>
    simp only [Task.start]
    split
    · trivial
    · rename_i hrole
      exact ⟨not_not.mp hrole, rfl, rfl⟩
  | patchStatus id status =>
    simp only [Task.start]
    split
    · trivial
    · rename_i hrole
      exact ⟨not_not.mp hrole, rfl, rfl⟩

theorem stage_step {r : CurrentUser × Request} (env : Env) (s : State) {t : Task}
    (h : Stage r t) : Stage r (taskStep env s t).2 := by
  cases t with
  | fetchOpportunity studentId data =>
    simp only [taskStep]
    split
    · trivial
    split
    · trivial
    · exact h
  | fetchProfile studentId data =>
    simp only [taskStep]
    split
    · trivial
    split
    · trivial
    · exact h
  | withdrawRead id studentId =>
    simp only [taskStep]
    split
    · trivial
    rename_i row hfound
    split
    · trivial
    · rename_i hown
      obtain ⟨hrole, rfl, hrequest⟩ := h
      refine ⟨hrole, not_not.mp hown, ?_⟩
      rw [hrequest, Table.key_of_lookup hfound]
  | withdrawCommit row =>
    simp only [taskStep]
    split
    · trivial
    · exact h.2.2
  | statusRead id actorId status =>
    simp only [taskStep]
    split
    · trivial
    · rename_i row hfound
      obtain ⟨hrole, hactor, hrequest⟩ := h
      refine ⟨hrole, hactor, ?_⟩
      rw [hrequest, Table.key_of_lookup hfound]
  | statusStage row actorId status => exact h
  | _ =>
    simp only [taskStep]
    repeat' split
    all_goals trivial

/-- Before the commit. -/
def may : Task → Bool
  | .fetchOpportunity .. | .fetchProfile .. | .withdrawRead .. | .withdrawCommit _
  | .statusRead .. | .statusStage .. | .statusCommit .. => true
  | _ => false

/-- After the commit, and not failed. -/
def won : Task → Bool
  | .applyRefresh .. | .withdrawRefresh _ | .statusRefresh .. | .publishing ..
  | .finished (.ok _) => true
  | _ => false

/-- What a commit relies on is as it was when it was read. -/
def Fresh (s : State) : Task → Prop
  | .fetchProfile studentId data => findExisting s data.opportunityId studentId = none
  | .withdrawCommit row => findApplication s row.id = some row
  | .statusCommit row current _ _ =>
    findApplication s row.id = some row ∧ findOpenStage s row.id = current
  | _ => True

theorem may_step (env : Env) (s : State) {t : Task} (h : may t = false) :
    may (taskStep env s t).2 = false := by
  cases t with
  | applyRefresh | withdrawRefresh | statusRefresh | publishing | finished =>
    simp only [taskStep]
    repeat' split
    all_goals rfl
  | _ => cases h

theorem won_step {env : Env} {s : State} {t : Task} (hsilent : commits env s t = false)
    (h : won (taskStep env s t).2 = true) : won t = true := by
  cases t with
  | fetchProfile studentId data =>
    simp only [taskStep] at h
    split at h
    · cases h
    rename_i profile hprofile
    split at h
    · cases h
    · rename_i hins
      simp [commits, hprofile, hins, Except.toOption] at hsilent
  | withdrawCommit row =>
    simp only [taskStep] at h
    split at h
    · cases h
    · rename_i hcommit
      simp [commits, hcommit, Except.toOption] at hsilent
  | statusCommit row current actorId status =>
    simp only [taskStep] at h
    split at h
    · cases h
    · rename_i hcommit
      simp [commits, hcommit, Except.toOption] at hsilent
  | applyRefresh | withdrawRefresh | statusRefresh | publishing => rfl
  | finished result => exact h
  | _ =>
    simp only [taskStep] at h
    repeat' split at h
    all_goals cases h

theorem may_of_commits {env : Env} {s : State} {t : Task} (h : commits env s t = true) :
    may t = true ∧ may (taskStep env s t).2 = false := by
  rcases commits_eq_true h with ⟨_, _, _, _, rfl, -, -, heq⟩ | ⟨_, _, rfl, -, heq⟩ |
    ⟨_, _, _, _, _, rfl, -, heq⟩
  all_goals
    rw [heq]
    exact ⟨rfl, rfl⟩

/-- A commit of what is up to date is the request alone, with the answer that the thread reads
    afterwards. -/
theorem exec_of_commits {ι : Type*} {requests : ι → CurrentUser × Request} {i : ι} {env : Env}
    {s : State} {t : Task} (hstage : Stage (requests i) t) (h : commits env s t = true)
    (hfresh : Fresh s t) : ∃ id, exec requests i env (tables s) =
      (tables (taskStep env s t).1, refresh (taskStep env s t).1 (serialEnv env) id) ∧
        ((∃ studentId data, (taskStep env s t).2 = .applyRefresh studentId data id) ∨
          (taskStep env s t).2 = .withdrawRefresh id ∨
          ∃ actorId status, (taskStep env s t).2 = .statusRefresh id actorId status) := by
  rcases commits_eq_true h with ⟨studentId, data, profile, s', rfl, hprofile, hins, heq⟩ |
    ⟨row, s', rfl, hcommit, heq⟩ | ⟨row, current, actorId, status, s', rfl, hcommit, heq⟩
  · obtain ⟨hrole, rfl, hrequest⟩ := hstage
    rw [heq]
    exact ⟨env.applicationId, exec_create hrole hrequest hfresh hprofile hins,
      Or.inl ⟨_, data, rfl⟩⟩
  · obtain ⟨hrole, hown, hrequest⟩ := hstage
    rw [heq]
    exact ⟨row.id, exec_withdraw hrole hrequest hown hfresh hcommit, Or.inr (Or.inl rfl)⟩
  · obtain ⟨hrole, rfl, hrequest⟩ := hstage
    obtain ⟨hfound, rfl⟩ := hfresh
    rw [heq]
    exact ⟨row.id, exec_status hrole hrequest hfound hcommit, Or.inr (Or.inr ⟨_, status, rfl⟩)⟩

/-- **The application service accounted for as its requests run one after the other.** -/
def account {ι : Type*} (requests : ι → CurrentUser × Request) :
    Account program ι State (Except ServiceError Application) where
  view := tables
  exec := exec requests
  commits := commits
  stage i := Stage (requests i)
  may := may
  won := won
  fresh _ := Fresh
  step_stage _ env s _ h := stage_step env s h
  step_silent _ _ _ := tables_of_silent
  step_commit _ _ _ _ hstage hcommits hfresh := by
    obtain ⟨id, heq, -⟩ := exec_of_commits hstage hcommits hfresh
    rw [heq]
    rfl
  may_of_commits _ _ _ h := (may_of_commits h).1
  spent_of_commits _ _ _ h := (may_of_commits h).2
  step_may env s _ := may_step env s
  step_won _ _ _ := won_step

section Runs

variable {ι : Type*} [DecidableEq ι] (requests : ι → CurrentUser × Request)

omit [DecidableEq ι] in
theorem stage_arrive (i : ι) : Stage (requests i) ((arrive requests).task i) :=
  stage_start (requests i)

omit [DecidableEq ι] in
theorem won_arrive (i : ι) : won ((arrive requests).task i) = false := by
  have hstart : (arrive requests).task i = Task.start (requests i).1 (requests i).2 := rfl
  rw [hstart]
  rcases (requests i).2 with data | id | ⟨id, status⟩ <;>
    · simp only [Task.start]
      split <;> rfl

/-- The requests that commit in a run, in the order of their commits, each with what it meets
    at its commit. -/
def committed (schedule : List (ι × Env)) : List (ι × Env) :=
  order (account requests) (arrive requests) schedule

/-- The requests of a log as they are handled one at a time. -/
def oneByOne (log : List (ι × Env)) : List Handled :=
  log.map fun x => ⟨(requests x.1).1, (requests x.1).2, serialEnv x.2⟩

def handledSerially (log : List (ι × Env)) : State := execute State.empty (oneByOne requests log)

omit [DecidableEq ι] in
theorem serially_eq (log : List (ι × Env)) :
    serially (account requests) State.empty log = tables (handledSerially requests log) := by
  induction log using List.reverseRecOn with
  | nil => rfl
  | append_singleton log x ih =>
    have hlast : serially (account requests) State.empty (log ++ [x]) =
        (exec requests x.1 x.2 (serially (account requests) State.empty log)).1 :=
      List.foldl_append
    rw [hlast, ih, exec, seen_serve]
    simp only [handledSerially, oneByOne, List.map_append, List.map_cons, List.map_nil,
      execute_append_singleton]
    rfl

theorem tables_run (schedule : List (ι × Env))
    (h : Guarded program (UpToDate (account requests)) (arrive requests) schedule) :
    tables (run program (arrive requests) schedule).store =
      tables (handledSerially requests (committed requests schedule)) :=
  (view_run (A := account requests) (stage_arrive requests) (won_arrive requests) schedule
    h).trans (serially_eq requests _)

/-- **Up to date commits serialize.**  In every run, with any number of concurrent requests of
    all three kinds, in which each commit finds what its handler has read as it was: the tables
    are those of the committed requests handled one at a time in the order of their commits,
    no request commits twice, and every request that was answered with success is among them. -/
theorem upToDate_serializes (schedule : List (ι × Env))
    (h : Guarded program (UpToDate (account requests)) (arrive requests) schedule) :
    tables (run program (arrive requests) schedule).store =
        tables (handledSerially requests (committed requests schedule)) ∧
      ((committed requests schedule).map Prod.fst).Nodup ∧
      ∀ i app, (run program (arrive requests) schedule).task i = .finished (.ok app) →
        i ∈ (committed requests schedule).map Prod.fst := by
  have hserved := served_run (A := account requests) (stage_arrive requests) (won_arrive requests)
    schedule h
  refine ⟨tables_run requests schedule h, hserved.nodup, ?_⟩
  intro i app htask
  apply hserved.won i
  rw [htask]
  rfl

end Runs

/-- A student applies and withdraws. -/
def applyAndWithdraw : Bool → CurrentUser × Request
  | false => (⟨.ofNat 1, .student⟩, .create ⟨.ofNat 3, [], none⟩)
  | true => (⟨.ofNat 1, .student⟩, .withdraw (.ofNat 10))

/-- The withdrawal commits before the application is published. -/
def withdrawnAtOnce : List (Bool × Env) :=
  [false, false, false, true, true, false, true].map fun i =>
    (i, .untroubled (.ofNat 10) (.ofNat 20) 0)

theorem withdrawnAtOnce_serializes :
    tables (run program (arrive applyAndWithdraw) withdrawnAtOnce).store =
        tables (handledSerially applyAndWithdraw (committed applyAndWithdraw withdrawnAtOnce)) ∧
      ((committed applyAndWithdraw withdrawnAtOnce).map Prod.fst).Nodup ∧
      ∀ i app, (run program (arrive applyAndWithdraw) withdrawnAtOnce).task i =
          .finished (.ok app) →
        i ∈ (committed applyAndWithdraw withdrawnAtOnce).map Prod.fst :=
  upToDate_serializes applyAndWithdraw withdrawnAtOnce
    ⟨nofun, fun _ _ => rfl, nofun, nofun, fun _ _ => rfl, nofun, nofun, trivial⟩

/-! ## Coroutines only -/

section Coroutines

variable {ι : Type*} (requests : ι → CurrentUser × Request)

/-- The requests are `apply` and `update_status`, and no two of them apply for the same student
    and opportunity. -/
structure Separate : Prop where
  coroutines : ∀ i id, (requests i).2 ≠ .withdraw id
  pairs : ∀ i j data data', (requests i).2 = .create data → (requests j).2 = .create data' →
    (requests i).1.id = (requests j).1.id → data.opportunityId = data'.opportunityId → i = j

/-- What `update_status` has read is as it was. -/
def Current (s : State) : Task → Prop
  | .statusStage row _ _ => findApplication s row.id = some row
  | .statusCommit row current _ _ =>
    findApplication s row.id = some row ∧ findOpenStage s row.id = current
  | _ => True

/-- What holds between coroutines: an application was stored by a request that is past its
    commit. -/
structure Settled (c : Config State Task ι) : Prop where
  exclusive : Exclusive program c
  stage : ∀ i, Stage (requests i) (c.task i)
  current : ∀ i, Current c.store (c.task i)
  owner : ∀ a ∈ c.store.applications, ∃ i data, (requests i).2 = .create data ∧
    (requests i).1.id = a.studentId ∧ data.opportunityId = a.opportunityId ∧
    may (c.task i) = false

variable {requests}

theorem Current.of_suspended {s : State} {t : Task} (h : t.running = false) : Current s t := by
  cases t with
  | statusStage => cases h
  | statusCommit => cases h
  | _ => trivial

theorem current_step (env : Env) (s : State) {t : Task} (h : Current s t) :
    Current (taskStep env s t).1 (taskStep env s t).2 := by
  cases t with
  | statusRead id actorId status =>
    simp only [taskStep]
    split
    · trivial
    · rename_i row hfound
      have hid := Table.key_of_lookup hfound
      show findApplication s row.id = some row
      rw [hid]
      exact hfound
  | statusStage row actorId status => exact ⟨h, rfl⟩
  | _ =>
    simp only [taskStep]
    repeat' split
    all_goals trivial

/-- A request that is no coroutine is over. -/
theorem silent_of_offLoop {i : ι} (hseparate : Separate requests) {t : Task}
    (hstage : Stage (requests i) t) (hoff : t.onLoop = false) :
    ∃ result, t = .finished result := by
  cases t with
  | withdrawRead id studentId => exact absurd hstage.2.2 (hseparate.coroutines i id)
  | withdrawCommit row => exact absurd hstage.2.2 (hseparate.coroutines i row.id)
  | withdrawRefresh id => exact absurd hstage (hseparate.coroutines i id)
  | finished result => exact ⟨result, rfl⟩
  | _ => cases hoff

variable [DecidableEq ι]

theorem settled_fire (hseparate : Separate requests) {c : Config State Task ι} {i : ι}
    (env : Env) (h : Settled requests c) (hr : ready program c i = true) :
    Settled requests (fire program c i env) := by
  have hstage : ∀ j, Stage (requests j) ((fire program c i env).task j) := by
    intro j
    by_cases hne : j = i
    · subst hne
      rw [fire_task_same]
      exact stage_step env _ (h.stage j)
    · rw [fire_task_other program c env hne]
      exact h.stage j
  have hmay : ∀ j, may (c.task j) = false → may ((fire program c i env).task j) = false := by
    intro j hj
    by_cases hne : j = i
    · subst hne
      rw [fire_task_same]
      exact may_step env _ hj
    · rw [fire_task_other program c env hne]
      exact hj
  refine ⟨exclusive_fire program env h.exclusive hr, hstage, ?_, ?_⟩
  · intro j
    by_cases hne : j = i
    · subst hne
      rw [fire_task_same, fire_store]
      exact current_step env _ (h.current j)
    rw [fire_task_other program c env hne, fire_store]
    by_cases hon : (c.task i).onLoop = true
    · -- another coroutine can step only while this one is suspended
      exact Current.of_suspended
        (not_running_of_ready program h.exclusive hr hne hon)
    · obtain ⟨result, heq⟩ :=
        silent_of_offLoop hseparate (h.stage i) (Bool.not_eq_true _ ▸ hon)
      rw [heq]
      exact h.current j
  · have hold : ∀ a ∈ c.store.applications, ∃ j data, (requests j).2 = .create data ∧
        (requests j).1.id = a.studentId ∧ data.opportunityId = a.opportunityId ∧
        may ((fire program c i env).task j) = false := by
      intro a ha
      obtain ⟨j, data, hrequest, hstudent, hopportunity, hj⟩ := h.owner a ha
      exact ⟨j, data, hrequest, hstudent, hopportunity, hmay j hj⟩
    have hkept : ∀ row status, ∀ a ∈ (writeStatus c.store row status).applications,
        ∃ j data, (requests j).2 = .create data ∧ (requests j).1.id = a.studentId ∧
          data.opportunityId = a.opportunityId ∧ may ((fire program c i env).task j) = false := by
      intro row status a ha
      obtain ⟨old, hmem, heq⟩ := mem_writeStatus ha
      rw [heq]
      exact hold old hmem
    intro a ha
    rw [fire_store, program_step] at ha
    rcases taskStep_cases env c.store (c.task i) with ⟨published, heq⟩ |
      ⟨studentId, data, profile, s', htask, -, hins, heq⟩ | ⟨row, s', -, hcommit, heq⟩ |
      ⟨row, current, actorId, status, s', -, hcommit, heq⟩
    · rw [heq] at ha
      exact hold a ha
    · rw [heq, (insertApplication_ok hins).2.2.1, List.mem_append,
        List.mem_singleton] at ha
      rcases ha with ha | rfl
      · exact hold a ha
      · have hown := h.stage i
        rw [htask] at hown
        refine ⟨i, data, hown.2.2, hown.2.1, rfl, ?_⟩
        rw [fire_task_same, program_step, heq]
        rfl
    · rw [heq, commitWithdrawal_ok hcommit, logAudit_applications] at ha
      exact hkept row _ a ha
    · rw [heq, (commitStatus_ok hcommit).2.1] at ha
      exact hkept row _ a ha

omit [DecidableEq ι] in
theorem Settled.upToDate (hseparate : Separate requests) {c : Config State Task ι} {i : ι}
    {env : Env} (h : Settled requests c) : UpToDate (account requests) c i env := by
  intro hcommits
  have hstage := h.stage i
  have hcurrent := h.current i
  have hmay := (may_of_commits hcommits).1
  rcases commits_eq_true hcommits with ⟨studentId, data, profile, s', htask, -, -, -⟩ |
    ⟨row, s', htask, -, -⟩ | ⟨row, current, actorId, status, s', htask, -, -⟩
  · show Fresh c.store (c.task i)
    rw [htask] at hstage hmay ⊢
    obtain ⟨-, hstudent, hrequest⟩ := hstage
    show findExisting c.store data.opportunityId studentId = none
    rw [← Option.not_isSome_iff_eq_none]
    intro hsome
    obtain ⟨a, ha⟩ := Option.isSome_iff_exists.mp hsome
    obtain ⟨j, data', hrequest', hstudent', hopportunity, hj⟩ :=
      h.owner a (List.mem_of_find?_eq_some ha)
    have hmatch := List.find?_some ha
    simp only [Bool.and_eq_true, decide_eq_true_eq] at hmatch
    -- the request that stored it is this one, which has not committed yet
    have hsame : i = j := hseparate.pairs i j data data' hrequest hrequest'
      (by rw [hstudent, hstudent', hmatch.2]) (by rw [hopportunity, hmatch.1])
    rw [← hsame, htask] at hj
    cases hj
  · rw [htask] at hstage
    exact absurd hstage.2.2 (hseparate.coroutines i row.id)
  · show Fresh c.store (c.task i)
    rw [htask] at hcurrent ⊢
    exact hcurrent

/-! ## The answers of the coroutines -/

/-- What a request answers after its commit, if it does not fail. -/
def Owes (s : State) : Task → Except ServiceError Application → Prop
  | .applyRefresh _ _ id, answer | .statusRefresh id _ _, answer =>
    ∀ app, findApplication s id = some app → answer = .ok app
  | .publishing app _, answer => answer = .ok app
  | .finished result, answer => ∀ app, result = .ok app → answer = .ok app
  | .withdrawRefresh _, _ => False
  | _, _ => True

theorem owes_step {env : Env} {s : State} {t : Task} {answer : Except ServiceError Application}
    (hsilent : commits env s t = false) (h : Owes s t answer) :
    Owes (taskStep env s t).1 (taskStep env s t).2 answer := by
  have hfailed : ∀ (s' : State) (e : ServiceError), Owes s' (.finished (.error e)) answer := by
    intro s' e app heq
    cases heq
  cases t with
  | fetchOpportunity studentId data =>
    simp only [taskStep]
    split
    · exact hfailed _ _
    split
    · exact hfailed _ _
    · trivial
  | fetchProfile studentId data =>
    simp only [taskStep]
    split
    · exact hfailed _ _
    rename_i profile hprofile
    split
    · exact hfailed _ _
    · rename_i hins
      simp [commits, hprofile, hins, Except.toOption] at hsilent
  | applyRefresh studentId data id =>
    simp only [taskStep]
    split
    · exact hfailed _ _
    · rename_i app happ
      exact h app (refresh_eq_ok.mp happ).2
  | withdrawRead id studentId =>
    simp only [taskStep]
    split
    · exact hfailed _ _
    split
    · exact hfailed _ _
    · trivial
  | withdrawCommit row =>
    simp only [taskStep]
    split
    · exact hfailed _ _
    · rename_i hcommit
      simp [commits, hcommit, Except.toOption] at hsilent
  | withdrawRefresh id => exact h.elim
  | statusRead id actorId status =>
    simp only [taskStep]
    split
    · exact hfailed _ _
    · trivial
  | statusStage row actorId status => trivial
  | statusCommit row current actorId status =>
    simp only [taskStep]
    split
    · exact hfailed _ _
    · rename_i hcommit
      simp [commits, hcommit, Except.toOption] at hsilent
  | statusRefresh id actorId status =>
    simp only [taskStep]
    split
    · exact hfailed _ _
    rename_i app happ
    have hanswer := h app (refresh_eq_ok.mp happ).2
    split
    · exact hanswer
    · intro app' heq
      cases heq
      exact hanswer
  | publishing app event =>
    intro app' heq
    have happ : app' = app := by
      have hresult : (publishFor s env app event).2 = .ok app' := heq
      rcases hpublishing : env.publishing with _ | _ | _ <;>
        simp [publishFor, publish, hpublishing, Except.map] at hresult
      exact hresult.symm
    rw [happ]
    exact h
  | finished result => exact h

def answers (hseparate : Separate requests) : Answers (account requests) where
  owes := Owes
  commit_owes i env s t hstage hcommits hfresh := by
    obtain ⟨id, hexec, hnext⟩ := exec_of_commits hstage hcommits hfresh
    have hdue : ∀ app, findApplication (taskStep env s t).1 id = some app →
        (exec requests i env (tables s)).2 = .ok app := by
      intro app hfound
      have hreload : (serialEnv env).reloadFails = false := rfl
      rw [hexec]
      exact refresh_eq_ok.mpr ⟨hreload, hfound⟩
    rw [program_step]
    rcases hnext with ⟨studentId, data, hnext⟩ | hnext | ⟨actorId, status, hnext⟩
    · rw [hnext]
      exact hdue
    · have hwithdraw := stage_step env s hstage
      rw [hnext] at hwithdraw
      exact absurd hwithdraw (hseparate.coroutines i id)
    · rw [hnext]
      exact hdue
  step_owes _ _ _ _ := owes_step
  stable i env s t u answer hstage hloop howes := by
    by_cases hon : t.onLoop = true
    · have hsuspended : u.running = false := hloop hon
      cases u with
      | applyRefresh => cases hsuspended
      | statusRefresh => cases hsuspended
      | _ => exact howes
    · obtain ⟨result, rfl⟩ := silent_of_offLoop hseparate hstage (Bool.not_eq_true _ ▸ hon)
      exact howes

omit [DecidableEq ι] in
theorem settled_arrive : Settled requests (arrive requests) where
  exclusive := exclusive_start program fun i =>
    Task.start_not_running (requests i).1 (requests i).2
  stage := stage_arrive requests
  current i := Current.of_suspended (Task.start_not_running (requests i).1 (requests i).2)
  owner := by
    intro a ha
    cases ha

theorem upToDate_guarded (hseparate : Separate requests) (schedule : List (ι × Env)) :
    Guarded program (UpToDate (account requests)) (arrive requests) schedule := by
  have hall : ∀ (c : Config State Task ι) (schedule : List (ι × Env)),
      Guarded program (fun _ _ _ => True) c schedule := by
    intro c schedule
    induction schedule generalizing c with
    | nil => trivial
    | cons choice rest ih => exact ⟨fun _ => trivial, ih _⟩
  exact guarded_imp program (fun c i env h hr _ => settled_fire hseparate env h hr)
    (fun c i env h _ _ => h.upToDate hseparate) settled_arrive schedule (hall _ schedule)

variable (requests)

/-- **Coroutines serialize.**  However any number of `apply` and `update_status` requests
    interleave, and whatever fails, the tables are those of the committed ones handled one at
    a time in the order of their commits; and a request that is answered with success has got
    the answer of that serial run, in which the application shows what the requests committed
    before it have made of it. -/
theorem coroutines_serialize (hseparate : Separate requests) (schedule : List (ι × Env)) :
    tables (run program (arrive requests) schedule).store =
        tables (handledSerially requests (committed requests schedule)) ∧
      ((committed requests schedule).map Prod.fst).Nodup ∧
      ∀ i app, (run program (arrive requests) schedule).task i = .finished (.ok app) →
        ∃ before env after, committed requests schedule = before ++ (i, env) :: after ∧
          (serve (handledSerially requests before) (serialEnv env) (requests i).1
            (requests i).2).2 = .ok app := by
  have hguard := upToDate_guarded hseparate schedule
  have hserved := served_run (A := account requests) (stage_arrive requests) (won_arrive requests)
    schedule hguard
  refine ⟨tables_run requests schedule hguard, hserved.nodup, ?_⟩
  intro i app htask
  have hi : i ∈ (committed requests schedule).map Prod.fst := by
    apply hserved.won i
    rw [htask]
    rfl
  obtain ⟨before, env, after, horder, howes⟩ := answers_run (answers hseparate)
    settled_arrive.exclusive (stage_arrive requests) (won_arrive requests) schedule hguard i hi
  rw [htask] at howes
  refine ⟨before, env, after, horder, ?_⟩
  have hanswer : (exec requests i env (serially (account requests) State.empty before)).2 =
    .ok app := howes app rfl
  rw [serially_eq, exec, seen_serve] at hanswer
  exact hanswer

/-! ## The audit trail -/

/-- **The audit trail determines the status although requests interleave.**  However any
    number of `apply` and `update_status` requests interleave, and whatever fails: the audit
    log of every application starts with its creation, is linked and replays to its status,
    its stages are named after it, and everything but the status is as one of the requests
    created it. -/
theorem audited_coroutines (hseparate : Separate requests) (schedule : List (ι × Env)) :
    ∀ a ∈ (run program (arrive requests) schedule).store.applications,
      Trail (auditsOf (run program (arrive requests) schedule).store a.id)
          (stageNamesOf (run program (arrive requests) schedule).store a.id) a.status ∧
        CreatedIn (oneByOne requests (committed requests schedule)) a := by
  intro a ha
  have htables := tables_run requests schedule (upToDate_guarded hseparate schedule)
  have hserial := audited_execute (oneByOne requests (committed requests schedule))
  have haudited : Audited (tables (run program (arrive requests) schedule).store) := by
    rw [htables]
    exact hserial.withPublished []
  refine ⟨haudited.trail a ha, ?_⟩
  apply createdIn_execute
  have happs := congrArg State.applications htables
  exact happs ▸ ha

end Coroutines

/-- A student applies and a coordinator shortlists the application. -/
def applyAndShortlist : Bool → CurrentUser × Request
  | false => (⟨.ofNat 1, .student⟩, .create ⟨.ofNat 3, [], none⟩)
  | true => (⟨.ofNat 2, .coordinator⟩, .patchStatus (.ofNat 10) .shortlisted)

theorem applyAndShortlist_separate : Separate applyAndShortlist where
  coroutines := by
    intro i id h
    cases i <;> cases h
  pairs := by
    intro i j data data' hi hj _ _
    cases i with
    | false =>
      cases j with
      | false => rfl
      | true => cases hj
    | true => cases hi

/-- The application is shortlisted before it is published. -/
def shortlistedAtOnce : List (Bool × Env) :=
  [false, false, false, true, true, true, true, true, false].map fun i =>
    (i, if i then .untroubled (.ofNat 11) (.ofNat 21) 1 else .untroubled (.ofNat 10) (.ofNat 20) 0)

theorem shortlistedAtOnce_serializes :
    tables (run program (arrive applyAndShortlist) shortlistedAtOnce).store =
        tables (handledSerially applyAndShortlist (committed applyAndShortlist
          shortlistedAtOnce)) ∧
      ((committed applyAndShortlist shortlistedAtOnce).map Prod.fst).Nodup ∧
      ∀ i app, (run program (arrive applyAndShortlist) shortlistedAtOnce).task i =
          .finished (.ok app) →
        ∃ before env after,
          committed applyAndShortlist shortlistedAtOnce = before ++ (i, env) :: after ∧
            (serve (handledSerially applyAndShortlist before) (serialEnv env)
              (applyAndShortlist i).1 (applyAndShortlist i).2).2 = .ok app :=
  coroutines_serialize applyAndShortlist applyAndShortlist_separate shortlistedAtOnce

theorem shortlistedAtOnce_audited :
    ∃ a ∈ (run program (arrive applyAndShortlist) shortlistedAtOnce).store.applications,
      a.status = "Shortlisted" ∧
        Trail (auditsOf (run program (arrive applyAndShortlist) shortlistedAtOnce).store a.id)
          (stageNamesOf (run program (arrive applyAndShortlist) shortlistedAtOnce).store a.id)
          a.status ∧
        CreatedIn (oneByOne applyAndShortlist (committed applyAndShortlist shortlistedAtOnce))
          a := by
  have hrun : (run program (arrive applyAndShortlist) shortlistedAtOnce).store.applications =
      [⟨.ofNat 10, .ofNat 3, .ofNat 1, "Shortlisted", none, .obj [], [], 0⟩] := by rfl
  have hmem : (⟨.ofNat 10, .ofNat 3, .ofNat 1, "Shortlisted", none, .obj [], [], 0⟩ :
      Application) ∈
        (run program (arrive applyAndShortlist) shortlistedAtOnce).store.applications := by
    simp [hrun]
  exact ⟨_, hmem, rfl,
    audited_coroutines applyAndShortlist applyAndShortlist_separate shortlistedAtOnce _ hmem⟩

/-- The student gets the application as it was submitted, although it is shortlisted by then. -/
example : (run program (arrive applyAndShortlist) shortlistedAtOnce).task false =
    .finished (refresh (handledSerially applyAndShortlist
      [(false, .untroubled (.ofNat 10) (.ofNat 20) 0)]) (.untroubled (.ofNat 10) (.ofNat 20) 0)
      (.ofNat 10)) := rfl

end CampusHire.SerialApplications
