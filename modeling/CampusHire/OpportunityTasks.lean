import CampusHire.OpportunityService
import CampusHire.Schedule

/-!
# The opportunity service under concurrency

One uvicorn process: `register_student` is a coroutine of its event loop, suspended
only while it awaits the student's profile; `create_opp` and `patch_opp` run in
worker threads, and `process_deadlines` in the thread of the scheduler.  Each query
and each commit is a step of its own, except that a query directly after the
`await` belongs to the step that resumes the coroutine.

`serve_eq_alone` connects the two views: a job that nothing interrupts does what
the handler does.
-/

namespace CampusHire.OpportunityService

open CampusHire Schedule

inductive Task where
  -- `create_opportunity`
  | createCommit (coordinatorId : UUID) (data : OpportunityCreate)
  | opportunityRefresh (id : UUID)
  -- `update_opportunity`
  | updateRead (opportunityId coordinatorId : UUID) (data : OpportunityUpdate)
  | updateCommit (opp : Opportunity) (data : OpportunityUpdate)
  -- `register_student`
  | registerRead (opportunityId studentId : UUID) (data : RegistrationCreate)
  | fetchProfile (opp : Opportunity) (opportunityId studentId : UUID) (data : RegistrationCreate)
  | registerCheck (opportunityId studentId : UUID) (data : RegistrationCreate)
  | registerCommit (opportunityId studentId : UUID) (data : RegistrationCreate)
  | registrationRefresh (id : UUID)
  -- `process_deadlines`
  | dueRead
  | dueExport (opp : Opportunity) (rest : List UUID)
  | dueCommit (opp : Opportunity) (rest : List UUID)
  | dueReload (id : UUID) (rest : List UUID)
  | finished (result : Except ServiceError Response)

/-- A job as it arrives: the routes check the role. -/
def Task.start : Job → Task
  | .request user (.createOpp data) =>
      if user.role ≠ .coordinator then .finished (.error (.http 403 "Coordinator only"))
      else .createCommit user.id data
  | .request user (.patchOpp opportunityId data) =>
      if user.role ≠ .coordinator then .finished (.error (.http 403 "Coordinator only"))
      else .updateRead opportunityId user.id data
  | .request user (.createRegistration opportunityId data) =>
      if user.role ≠ .student then .finished (.error (.http 403 "Student only"))
      else .registerRead opportunityId user.id data
  | .processDeadlines => .dueRead

def taskStep (env : Env) (s : State) : Task → State × Task
  | .createCommit coordinatorId data =>
      match insertOpportunity s env coordinatorId data with
      | .error e => (s, .finished (.error e))
      | .ok s' => (s', .opportunityRefresh (env.uuid4 0))
  | .opportunityRefresh id =>
      (s, .finished ((refreshOpportunity s env id).map .opportunity))
  | .updateRead opportunityId coordinatorId data =>
      match getOpportunity s opportunityId with
      | .error e => (s, .finished (.error e))
      | .ok opp =>
        if opp.coordinatorId ≠ coordinatorId then
          (s, .finished (.error (.http 403 "Not your opportunity")))
        else (s, .updateCommit opp data)
  | .updateCommit opp data =>
      match commitUpdate s env opp data with
      | .error e => (s, .finished (.error e))
      | .ok s' => (s', .opportunityRefresh opp.id)
  | .registerRead opportunityId studentId data =>
      match getOpportunity s opportunityId with
      | .error e => (s, .finished (.error e))
      | .ok opp => (s, .fetchProfile opp opportunityId studentId data)
  | .fetchProfile opp opportunityId studentId data =>
      -- resumed with the profile; the rules are loaded when they are first used
      match (OpportunityService.fetchProfile env.profile).bind fun profile =>
          checkEligibility profile (rulesOf s opp.id) with
      | .error e => (s, .finished (.error e))
      | .ok false => (s, .finished (.error (.http 400 "Not eligible for this opportunity")))
      | .ok true => (s, .registerCheck opportunityId studentId data)
  | .registerCheck opportunityId studentId data =>
      match findExisting s opportunityId studentId with
      | some _ => (s, .finished (.error (.http 400 "Already registered")))
      | none => (s, .registerCommit opportunityId studentId data)
  | .registerCommit opportunityId studentId data =>
      match insertRegistration s env opportunityId studentId data with
      | .error e => (s, .finished (.error e))
      | .ok s' => (s', .registrationRefresh (env.uuid4 0))
  | .registrationRefresh id =>
      (s, .finished ((refreshRegistration s env id).map .registration))
  | .dueRead =>
      match dueOpportunities s env.clock with
      | [] => (s, .finished (.ok .closed))
      | opp :: rest => (s, .dueExport opp (rest.map Opportunity.id))
  | .dueExport opp rest =>
      match generateExcelExport s env opp.id with
      | .error e => (s, .finished (.error e))
      | .ok () => (s, .dueCommit opp rest)
  | .dueCommit opp rest =>
      match commitClosed s env opp with
      | .error e => (s, .finished (.error e))
      | .ok s' =>
        -- the line in the log reloads the row, of which it asks for the id only
        match refreshOpportunity s' env opp.id with
        | .error e => (s', .finished (.error e))
        | .ok _ =>
          match rest with
          | [] => (s', .finished (.ok .closed))
          | id :: rest => (s', .dueReload id rest)
  | .dueReload id rest =>
      match refreshOpportunity s env id with
      | .error e => (s, .finished (.error e))
      | .ok opp => (s, .dueExport opp rest)
  | .finished result => (s, .finished result)

/-- `async def` handlers. -/
def Task.onLoop : Task → Bool
  | .registerRead .. | .fetchProfile .. | .registerCheck .. | .registerCommit ..
  | .registrationRefresh .. => true
  | .createCommit .. | .opportunityRefresh .. | .updateRead .. | .updateCommit .. | .dueRead
  | .dueExport .. | .dueCommit .. | .dueReload .. | .finished .. => false

/-- Between the `await` and the end. -/
def Task.running : Task → Bool
  | .registerCheck .. | .registerCommit .. | .registrationRefresh .. => true
  | _ => false

theorem Task.offLoop_step (env : Env) (s : State) (t : Task) (h : t.onLoop = false) :
    (taskStep env s t).2.onLoop = false := by
  cases t with
  | registerRead | fetchProfile | registerCheck | registerCommit | registrationRefresh => cases h
  | opportunityRefresh | finished => rfl
  | _ =>
    simp only [taskStep]
    repeat' split
    all_goals rfl

/-- The opportunity service as a program of threads and coroutines. -/
def program : Program State Task Env where
  step := taskStep
  onLoop := Task.onLoop
  running := Task.running
  running_onLoop := by intro t h; cases t <;> first | rfl | cases h
  offLoop_step := Task.offLoop_step

theorem Task.start_not_running (job : Job) : (Task.start job).running = false := by
  cases job with
  | request user request => cases request <;> simp only [Task.start] <;> split <;> rfl
  | processDeadlines => rfl

/-- Any number of jobs, none of which has begun, on freshly created tables. -/
def arrive {ι : Type*} (jobs : ι → Job) : Config State Task ι :=
  start State.empty fun i => Task.start (jobs i)

/-- **What a step can do.**  It touches no table, or it is one of the commits. -/
theorem taskStep_cases (env : Env) (s : State) (t : Task) :
    (taskStep env s t).1 = s ∨
    (∃ coordinatorId data s', t = .createCommit coordinatorId data ∧
      insertOpportunity s env coordinatorId data = .ok s' ∧ (taskStep env s t).1 = s') ∨
    (∃ opp data s', t = .updateCommit opp data ∧ commitUpdate s env opp data = .ok s' ∧
      (taskStep env s t).1 = s') ∨
    (∃ opp rest s', t = .dueCommit opp rest ∧ commitClosed s env opp = .ok s' ∧
      (taskStep env s t).1 = s') ∨
    (∃ opportunityId studentId data s', t = .registerCommit opportunityId studentId data ∧
      insertRegistration s env opportunityId studentId data = .ok s' ∧
      (taskStep env s t).1 = s') := by
  cases t with
  | createCommit coordinatorId data =>
    simp only [taskStep]
    split
    · exact Or.inl rfl
    · rename_i s' hins
      exact Or.inr (Or.inl ⟨coordinatorId, data, s', rfl, hins, rfl⟩)
  | updateCommit opp data =>
    simp only [taskStep]
    split
    · exact Or.inl rfl
    · rename_i s' hcommit
      exact Or.inr (Or.inr (Or.inl ⟨opp, data, s', rfl, hcommit, rfl⟩))
  | dueCommit opp rest =>
    simp only [taskStep]
    split
    · exact Or.inl rfl
    · rename_i s' hcommit
      refine Or.inr (Or.inr (Or.inr (Or.inl ⟨opp, rest, s', rfl, hcommit, ?_⟩)))
      split
      · rfl
      · split <;> rfl
  | registerCommit opportunityId studentId data =>
    simp only [taskStep]
    split
    · exact Or.inl rfl
    · rename_i s' hins
      exact Or.inr (Or.inr (Or.inr (Or.inr ⟨opportunityId, studentId, data, s', rfl, hins, rfl⟩)))
  | opportunityRefresh | registrationRefresh | finished => exact Or.inl rfl
  | _ =>
    -- a query
    apply Or.inl
    simp only [taskStep]
    repeat' split
    all_goals rfl

/-- A property of the tables that the commits preserve. -/
theorem taskStep_preserves {I : State → Prop} {env : Env} {s : State} (h : I s)
    (hcreate : ∀ coordinatorId data s', insertOpportunity s env coordinatorId data = .ok s' → I s')
    (hupdate : ∀ opp data s', commitUpdate s env opp data = .ok s' → I s')
    (hregister : ∀ opportunityId studentId data s',
      insertRegistration s env opportunityId studentId data = .ok s' → I s')
    (t : Task) : I (taskStep env s t).1 := by
  rcases taskStep_cases env s t with heq | ⟨coordinatorId, data, s', -, hins, heq⟩ |
    ⟨opp, data, s', -, hcommit, heq⟩ | ⟨opp, rest, s', -, hcommit, heq⟩ |
    ⟨opportunityId, studentId, data, s', -, hins, heq⟩
  · rw [heq]
    exact h
  · rw [heq]
    exact hcreate coordinatorId data s' hins
  · rw [heq]
    exact hupdate opp data s' hcommit
  · rw [heq]
    exact hupdate opp _ s' hcommit
  · rw [heq]
    exact hregister opportunityId studentId data s' hins

/-! ## A job alone does what the handler does -/

theorem alone_step (env : Env) (n : Nat) (s : State) (t : Task) :
    alone program env (n + 1) (s, t) = alone program env n (taskStep env s t) := rfl

theorem alone_finished (env : Env) (n : Nat) (s : State) (result : Except ServiceError Response) :
    alone program env n (s, .finished result) = (s, .finished result) :=
  alone_of_step_eq program rfl n

theorem alone_createOpp (env : Env) (n : Nat) (s : State) (coordinatorId : UUID)
    (data : OpportunityCreate) :
    alone program env (n + 2) (s, .createCommit coordinatorId data) =
      ((createOpportunity s env coordinatorId data).1,
        .finished ((createOpportunity s env coordinatorId data).2.map .opportunity)) := by
  rw [alone_step, taskStep, createOpportunity]
  rcases insertOpportunity s env coordinatorId data with e | s'
  · exact alone_finished ..
  · exact alone_finished ..

theorem alone_patchOpp (env : Env) (n : Nat) (s : State) (opportunityId coordinatorId : UUID)
    (data : OpportunityUpdate) :
    alone program env (n + 3) (s, .updateRead opportunityId coordinatorId data) =
      ((updateOpportunity s env opportunityId coordinatorId data).1,
        .finished ((updateOpportunity s env opportunityId coordinatorId data).2.map
          .opportunity)) := by
  rw [alone_step, taskStep, updateOpportunity]
  rcases getOpportunity s opportunityId with e | opp
  · exact alone_finished ..
  by_cases hown : opp.coordinatorId ≠ coordinatorId
  · simp only [hown, if_true, not_false_eq_true, ne_eq, alone_finished]
    rfl
  simp only [hown, if_false, alone_step, taskStep]
  rcases commitUpdate s env opp data with e | s'
  · exact alone_finished ..
  · exact alone_finished ..

theorem alone_createRegistration (env : Env) (n : Nat) (s : State)
    (opportunityId studentId : UUID) (data : RegistrationCreate) :
    alone program env (n + 5) (s, .registerRead opportunityId studentId data) =
      ((registerStudent s env opportunityId studentId data).1,
        .finished ((registerStudent s env opportunityId studentId data).2.map .registration)) := by
  rw [alone_step, taskStep, registerStudent]
  rcases getOpportunity s opportunityId with e | opp
  · exact alone_finished ..
  simp only [alone_step, taskStep]
  rcases (OpportunityService.fetchProfile env.profile).bind fun profile =>
    checkEligibility profile (rulesOf s opp.id) with e | _ | _
  · exact alone_finished ..
  · exact alone_finished ..
  simp only [alone_step, taskStep]
  rcases findExisting s opportunityId studentId with _ | existing
  · simp only [alone_step, taskStep]
    rcases insertRegistration s env opportunityId studentId data with e | s'
    · exact alone_finished ..
    · exact alone_finished ..
  · exact alone_finished ..

/-- The loop takes three steps for each opportunity: export, commit and reload. -/
theorem alone_closeDue (env : Env) (n : Nat) (rest : List UUID) (s : State) (opp : Opportunity) :
    alone program env (n + (3 * rest.length + 2)) (s, .dueExport opp rest) =
      ((closeDue env rest s opp).1,
        .finished ((closeDue env rest s opp).2.map fun _ => .closed)) := by
  induction rest generalizing s opp with
  | nil =>
    rw [List.length_nil, alone_step, taskStep, closeDue]
    rcases generateExcelExport s env opp.id with e | ⟨⟩
    · exact alone_finished ..
    simp only [alone_step, taskStep]
    rcases commitClosed s env opp with e | s'
    · exact alone_finished ..
    dsimp only
    rcases refreshOpportunity s' env opp.id with e | logged
    · exact alone_finished ..
    · exact alone_finished ..
  | cons id rest ih =>
    have hsteps : n + (3 * (id :: rest).length + 2) =
        n + (3 * rest.length + 2) + 1 + 1 + 1 := by
      rw [List.length_cons]
      omega
    rw [hsteps, alone_step, taskStep, closeDue]
    rcases generateExcelExport s env opp.id with e | ⟨⟩
    · exact alone_finished ..
    simp only [alone_step, taskStep]
    rcases commitClosed s env opp with e | s'
    · exact alone_finished ..
    dsimp only
    rcases refreshOpportunity s' env opp.id with e | logged
    · exact alone_finished ..
    simp only [alone_step, taskStep]
    rcases refreshOpportunity s' env id with e | next
    · exact alone_finished ..
    · exact ih s' next

theorem alone_processDeadlines (env : Env) {n : Nat} (s : State)
    (hn : 3 * s.opportunities.length + 1 ≤ n) :
    alone program env n (s, .dueRead) =
      ((processDeadlines s env).1,
        .finished ((processDeadlines s env).2.map fun _ => .closed)) := by
  obtain ⟨m, rfl⟩ : ∃ m, n = m + 1 := ⟨n - 1, by omega⟩
  have hlen : (dueOpportunities s env.clock).length ≤ s.opportunities.length :=
    List.length_filter_le _ _
  rw [alone_step, taskStep, processDeadlines]
  rcases hdue : dueOpportunities s env.clock with _ | ⟨opp, rest⟩
  · exact alone_finished ..
  · rw [hdue, List.length_cons] at hlen
    obtain ⟨k, rfl⟩ : ∃ k, m = k + (3 * (rest.map Opportunity.id).length + 2) :=
      ⟨m - (3 * rest.length + 2), by rw [List.length_map]; omega⟩
    exact alone_closeDue env k _ s opp

/-- **The handler is the job run alone.** -/
theorem serve_eq_alone (env : Env) {n : Nat} (s : State) (job : Job)
    (hn : 3 * s.opportunities.length + 5 ≤ n) :
    alone program env n (s, Task.start job) =
      ((serve s env job).1, .finished (serve s env job).2) := by
  obtain ⟨m, rfl⟩ : ∃ m, n = m + 5 := ⟨n - 5, by omega⟩
  cases job with
  | request user request =>
    cases request with
    | createOpp data =>
      by_cases hrole : user.role ≠ .coordinator
      · simp only [Task.start, serve, if_pos hrole, alone_finished]
      · simp only [Task.start, serve, if_neg hrole]
        exact alone_createOpp env (m + 3) s user.id data
    | patchOpp opportunityId data =>
      by_cases hrole : user.role ≠ .coordinator
      · simp only [Task.start, serve, if_pos hrole, alone_finished]
      · simp only [Task.start, serve, if_neg hrole]
        exact alone_patchOpp env (m + 2) s opportunityId user.id data
    | createRegistration opportunityId data =>
      by_cases hrole : user.role ≠ .student
      · simp only [Task.start, serve, if_pos hrole, alone_finished]
      · simp only [Task.start, serve, if_neg hrole]
        exact alone_createRegistration env m s opportunityId user.id data
  | processDeadlines => exact alone_processDeadlines env s (by omega)

end CampusHire.OpportunityService
