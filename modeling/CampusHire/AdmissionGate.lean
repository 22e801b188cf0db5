import CampusHire.ApplicationTasks
import CampusHire.OpportunityRecords
import CampusHire.OpportunityTasks

/-!
# The admission gate

Students sign up for an opportunity in two services.  `register_student` checks the rules
and asks for neither status nor deadline; `apply` asks the opportunity service for the
opportunity, throws the answer away, and checks none of the three.  The deadline job sets
the status to `closed`, which nothing reads.

The two services run as one program here, whose threads are interleaved in any order, also
in orders that the event loops would not allow.  The gate is about the rows that a step adds
to the tables (`Admitted`).  What the rules decided of a registration stays decided until the
commit, since rules never change; status, deadline and the profile of an application have to
be right of themselves when the database is about to take the row (`gate_iff`).
-/

namespace CampusHire.AdmissionGate

open CampusHire Schedule
open CampusHire.ApplicationService (Application newApplication insertApplication)
open CampusHire.OpportunityService (Opportunity Registration findOpportunity rulesOf
  checkEligibility dueOpportunities newRegistration insertRegistration commitUpdate
  taskStep_cases taskStep_preserves)
open CampusHire.OpportunityRecords (Kept kept_insert kept_commitUpdate kept_insertRegistration
  find_commitUpdate)

/-! ## The two services -/

structure Store where
  opportunities : OpportunityService.State
  applications : ApplicationService.State

structure Env where
  opportunity : OpportunityService.Env
  application : ApplicationService.Env

/-- A task of one of the services.  `fetched` records the profile that `register_student`
    has fetched and found eligible; the service does not keep it. -/
inductive Task where
  | opportunity (task : OpportunityService.Task) (fetched : Option Json)
  | application (task : ApplicationService.Task)

/-- The profile that a step of `register_student` goes on with. -/
def fetchedBy (env : OpportunityService.Env) : OpportunityService.Task → Option Json
  | .fetchProfile .. => (OpportunityService.fetchProfile env.profile).toOption
  | _ => none

def step (env : Env) (s : Store) : Task → Store × Task
  | .opportunity task fetched =>
      let next := OpportunityService.taskStep env.opportunity s.opportunities task
      ({ s with opportunities := next.1 },
        .opportunity next.2 ((fetchedBy env.opportunity task).or fetched))
  | .application task =>
      let next := ApplicationService.taskStep env.application s.applications task
      ({ s with applications := next.1 }, .application next.2)

def program : Program Store Task Env where
  step := step
  onLoop := fun _ => false
  running := fun _ => false
  running_onLoop := fun _ h => h
  offLoop_step := fun _ _ _ _ => rfl

inductive Arrival where
  | opportunity (job : OpportunityService.Job)
  | application (user : CurrentUser) (request : ApplicationService.Request)

def Task.start : Arrival → Task
  | .opportunity job => .opportunity (OpportunityService.Task.start job) none
  | .application user request => .application (ApplicationService.Task.start user request)

/-- Any number of jobs and requests, none of which has begun, on freshly created tables. -/
def arrive {ι : Type*} (arrivals : ι → Arrival) : Config Store Task ι :=
  start ⟨.empty, .empty⟩ fun i => Task.start (arrivals i)

/-! ## The gate -/

/-- The profile that the task has fetched. -/
def Task.fetched : Task → Option Json
  | .opportunity _ fetched => fetched
  | .application _ => none

/-- Published, and the deadline has not come. -/
def Open (s : Store) (now : Time) (id : UUID) : Prop :=
  ∃ opp, findOpportunity s.opportunities id = some opp ∧ opp.status = "published" ∧
    ∀ deadline, opp.deadline = some deadline → now < deadline

def Eligible (s : Store) (id : UUID) (profile : Json) : Prop :=
  checkEligibility profile (rulesOf s.opportunities id) = .ok true

def Closed (s : Store) (id : UUID) : Prop :=
  ∃ opp, findOpportunity s.opportunities id = some opp ∧ opp.status = "closed"

/-- The step is the commit of a PATCH that opens the closed opportunity again. -/
def Reopens (env : Env) (s : Store) (id : UUID) (t : Task) : Prop :=
  (∃ row data fetched, t = .opportunity (.updateCommit row data) fetched ∧ row.id = id) ∧
    Closed s id ∧ ¬ Closed (step env s t).1 id

/-- The registrations whose id was not in the table before the step. -/
def addedRegistrations (env : Env) (s : Store) (t : Task) : List Registration :=
  (step env s t).1.opportunities.registrations.filter fun r =>
    decide (r.id ∉ s.opportunities.registrations.map Registration.id)

def addedApplications (env : Env) (s : Store) (t : Task) : List Application :=
  (step env s t).1.applications.applications.filter fun a =>
    decide (a.id ∉ s.applications.applications.map Application.id)

section Runs

variable {ι : Type*} [DecidableEq ι]

/-- What both ways to sign up should enforce: a step adds only rows of an open opportunity,
    with a profile that meets its rules.  The profile of an application is in its row. -/
structure Admitted (c : Config Store Task ι) (i : ι) (env : Env) : Prop where
  registration : ∀ r ∈ addedRegistrations env c.store (c.task i),
    Open c.store env.opportunity.clock r.opportunityId ∧
      ∃ profile, (c.task i).fetched = some profile ∧ Eligible c.store r.opportunityId profile
  application : ∀ a ∈ addedApplications env c.store (c.task i),
    Open c.store env.application.clock a.opportunityId ∧
      Eligible c.store a.opportunityId a.profileSnapshot

/-- A closed opportunity gets no registration until a PATCH opens it again. -/
def StaysShut (c : Config Store Task ι) (schedule : List (ι × Env)) : Prop :=
  ∀ before between i env after id, schedule = before ++ between ++ (i, env) :: after →
    Closed (run program c before).store id →
    Guarded program (fun c' j env' => ¬ Reopens env' c'.store id (c'.task j))
      (run program c before) between →
    ∀ r ∈ addedRegistrations env (run program c (before ++ between)).store
      ((run program c (before ++ between)).task i), r.opportunityId ≠ id

end Runs

/-! ## The condition -/

/-- The database takes the row of a registration. -/
def TakesRegistration (env : OpportunityService.Env) (s : OpportunityService.State)
    (data : OpportunityService.RegistrationCreate) : Prop :=
  env.databaseFails = false ∧ fits 500 data.resumeUrl = true ∧
    env.uuid4 0 ∉ s.registrations.map Registration.id

/-- The database takes the rows of an application. -/
def TakesApplication (env : ApplicationService.Env) (s : ApplicationService.State)
    (data : ApplicationService.ApplicationCreate) : Prop :=
  env.databaseFails = false ∧ ApplicationService.fitsResumeUrl data.resumeUrl = true ∧
    env.applicationId ∉ s.applications.map Application.id ∧
    env.stageId ∉ s.stages.map ApplicationService.WorkflowStage.id

/-- The opportunity is published, and the query of the deadline job would not find it. -/
def NotDue (s : Store) (now : Time) (id : UUID) : Prop :=
  ∃ opp, findOpportunity s.opportunities id = some opp ∧ opp.status = "published" ∧
    opp ∉ dueOpportunities s.opportunities now

/-- The condition on a task and the tables that it is about to write: a registration that
    the database takes is for an opportunity that is published and not due, and so is an
    application, whose profile meets the rules as well. -/
def InTime (env : Env) (s : Store) : Task → Prop
  | .opportunity (.registerCommit id _ data) _ =>
      TakesRegistration env.opportunity s.opportunities data →
        NotDue s env.opportunity.clock id
  | .application (.fetchProfile _ data) =>
      TakesApplication env.application s.applications data →
        ∀ profile, ApplicationService.fetchProfile env.application.profile = .ok profile →
          NotDue s env.application.clock data.opportunityId ∧
            checkEligibility profile (rulesOf s.opportunities data.opportunityId) = .ok true
  | _ => True

/-! ## Rules that have been checked -/

/-- **No step changes what an opportunity is.** -/
theorem kept_taskStep (env : OpportunityService.Env) (s : OpportunityService.State)
    (t : OpportunityService.Task) : Kept s (OpportunityService.taskStep env s t).1 := by
  apply taskStep_preserves (I := Kept s) (.refl s)
  · intro coordinatorId data s' hins
    exact kept_insert hins
  · intro opp data s' hcommit
    exact kept_commitUpdate hcommit
  · intro opportunityId studentId data s' hins
    exact kept_insertRegistration hins

theorem kept_step (env : Env) (s : Store) (t : Task) :
    Kept s.opportunities (step env s t).1.opportunities := by
  cases t with
  | opportunity task fetched => exact kept_taskStep env.opportunity s.opportunities task
  | application task => exact .refl s.opportunities

def Stored (s : Store) (id : UUID) : Prop := ∃ opp, findOpportunity s.opportunities id = some opp

theorem stored_step {env : Env} {s : Store} {t : Task} {id : UUID} (h : Stored s id) :
    Stored (step env s t).1 id := by
  obtain ⟨opp, hfound⟩ := h
  obtain ⟨opp', hfound', -⟩ := (kept_step env s t).records id opp hfound
  exact ⟨opp', hfound'⟩

theorem eligible_step {env : Env} {s : Store} {t : Task} {id : UUID} {profile : Json}
    (hstored : Stored s id) (h : Eligible s id profile) : Eligible (step env s t).1 id profile := by
  obtain ⟨opp, hfound⟩ := hstored
  rw [Eligible, rulesOf, (kept_step env s t).rules id opp hfound]
  exact h

/-- What a `register_student` call knows: the opportunity is stored, and after the check
    that the fetched profile meets its rules. -/
def Knows (s : Store) : Task → Prop
  | .opportunity (.fetchProfile opp id _ _) _ => opp.id = id ∧ Stored s id
  | .opportunity (.registerCheck id _ _) fetched =>
      Stored s id ∧ ∃ profile, fetched = some profile ∧ Eligible s id profile
  | .opportunity (.registerCommit id _ _) fetched =>
      Stored s id ∧ ∃ profile, fetched = some profile ∧ Eligible s id profile
  | _ => True

theorem knows_stable (env : Env) {s : Store} (t : Task) {u : Task} (h : Knows s u) :
    Knows (step env s t).1 u := by
  unfold Knows at h
  split at h
  · exact ⟨h.1, stored_step h.2⟩
  · obtain ⟨hstored, profile, hfetched, heligible⟩ := h
    exact ⟨stored_step hstored, profile, hfetched, eligible_step hstored heligible⟩
  · obtain ⟨hstored, profile, hfetched, heligible⟩ := h
    exact ⟨stored_step hstored, profile, hfetched, eligible_step hstored heligible⟩
  · rename_i hother hother' hother''
    unfold Knows
    split
    · exact absurd rfl (hother _ _ _ _ _)
    · exact absurd rfl (hother' _ _ _ _)
    · exact absurd rfl (hother'' _ _ _ _)
    · trivial

theorem knows_step (env : Env) {s : Store} {t : Task} (h : Knows s t) :
    Knows (step env s t).1 (step env s t).2 := by
  cases t with
  | application task => trivial
  | opportunity task fetched =>
    cases task with
    | registerRead id studentId data =>
      simp only [step, OpportunityService.taskStep, OpportunityService.getOpportunity]
      rcases hfound : findOpportunity s.opportunities id with _ | opp
      · trivial
      · exact ⟨Table.key_of_lookup hfound, opp, hfound⟩
    | fetchProfile opp id studentId data =>
      obtain ⟨rfl, hstored⟩ := h
      simp only [step, OpportunityService.taskStep, fetchedBy]
      rcases OpportunityService.fetchProfile env.opportunity.profile with e | profile
      · trivial
      rcases hcheck : checkEligibility profile (rulesOf s.opportunities opp.id) with e | _ | _
      · simp only [Except.bind, hcheck]
        trivial
      · simp only [Except.bind, hcheck]
        trivial
      · simp only [Except.bind, hcheck]
        exact ⟨hstored, profile, rfl, hcheck⟩
    | registerCheck id studentId data =>
      simp only [step, OpportunityService.taskStep]
      split
      · trivial
      · exact h
    | _ =>
      -- no other step is followed by one that knows something
      simp only [step, OpportunityService.taskStep]
      repeat' split
      all_goals trivial

/-- The rules that were checked when the profile came are the rules at the commit. -/
def checked : Annotation program where
  inv _ := True
  own := Knows
  step_inv := fun _ _ _ _ _ => trivial
  step_own := fun env _ _ _ h => knows_step env h
  stable := fun env _ t _ _ _ h _ => knows_stable env t h

theorem checked_arrive {ι : Type*} (arrivals : ι → Arrival) : checked.Holds (arrive arrivals) := by
  refine checked.holds_start (fun _ => rfl) trivial ?_
  intro i
  cases arrivals i with
  | application user request => trivial
  | opportunity job =>
    cases job with
    | processDeadlines => trivial
    | request user request =>
      cases request <;> simp only [Task.start, OpportunityService.Task.start] <;> split <;> trivial

/-! ## The rows that a step adds -/

/-- A registration that a step adds is the one of a commit that the database takes. -/
theorem mem_addedRegistrations {env : Env} {s : Store} {t : Task} {r : Registration} :
    r ∈ addedRegistrations env s t ↔
      ∃ id studentId data fetched, t = .opportunity (.registerCommit id studentId data) fetched ∧
        TakesRegistration env.opportunity s.opportunities data ∧
        r = newRegistration env.opportunity id studentId data := by
  rw [addedRegistrations, List.mem_filter, decide_eq_true_eq]
  constructor
  · rintro ⟨hmem, hnew⟩
    have hold : r ∉ s.opportunities.registrations := fun h => hnew (List.mem_map_of_mem h)
    cases t with
    | application task => exact absurd hmem hold
    | opportunity task fetched =>
      simp only [step] at hmem
      rcases taskStep_cases env.opportunity s.opportunities task with hsame |
        ⟨coordinatorId, data, s', -, hins, heq⟩ | ⟨row, data, s', -, hcommit, heq⟩ |
        ⟨row, rest, s', -, hcommit, heq⟩ | ⟨id, studentId, data, s', rfl, hins, heq⟩
      · rw [hsame] at hmem
        exact absurd hmem hold
      · rw [heq, (OpportunityService.insertOpportunity_ok hins).2.2] at hmem
        exact absurd hmem hold
      · rw [heq, OpportunityService.commitUpdate_ok hcommit] at hmem
        exact absurd hmem hold
      · rw [heq, OpportunityService.commitUpdate_ok hcommit] at hmem
        exact absurd hmem hold
      · obtain ⟨hdatabase, hurl⟩ := OpportunityService.accepts_of_insertRegistration hins
        obtain ⟨hfresh, hadded⟩ := OpportunityService.insertRegistration_ok hins
        rw [heq, hadded] at hmem
        refine ⟨id, studentId, data, fetched, rfl,
          ⟨hdatabase, hurl, Table.not_mem_of_fresh hfresh⟩, ?_⟩
        exact List.mem_singleton.mp ((List.mem_append.mp hmem).resolve_left hold)
  · rintro ⟨id, studentId, data, fetched, rfl, ⟨hdatabase, hurl, hfresh⟩, rfl⟩
    simp only [step, OpportunityService.taskStep,
      OpportunityService.insertRegistration_of_fresh id studentId hdatabase hurl hfresh]
    exact ⟨List.mem_append_right _ List.mem_cons_self, hfresh⟩

theorem mem_addedApplications {env : Env} {s : Store} {t : Task} {a : Application} :
    a ∈ addedApplications env s t ↔
      ∃ studentId data profile, t = .application (.fetchProfile studentId data) ∧
        TakesApplication env.application s.applications data ∧
        ApplicationService.fetchProfile env.application.profile = .ok profile ∧
        a = newApplication env.application studentId data profile := by
  rw [addedApplications, List.mem_filter, decide_eq_true_eq]
  constructor
  · rintro ⟨hmem, hnew⟩
    have hold : a ∉ s.applications.applications := fun h => hnew (List.mem_map_of_mem h)
    have hwritten : ∀ row status,
        a ∉ (ApplicationService.writeStatus s.applications row status).applications := by
      intro row status h
      obtain ⟨old, hmem, heq⟩ := ApplicationService.mem_writeStatus h
      exact hnew (List.mem_map.mpr ⟨old, hmem, by rw [heq]⟩)
    cases t with
    | opportunity task fetched => exact absurd hmem hold
    | application task =>
      simp only [step] at hmem
      rcases ApplicationService.taskStep_cases env.application s.applications task with
        ⟨published, heq⟩ | ⟨studentId, data, profile, s', rfl, hprofile, hins, heq⟩ |
        ⟨row, s', -, hcommit, heq⟩ | ⟨row, current, actorId, status, s', -, hcommit, heq⟩
      · rw [heq] at hmem
        exact absurd hmem hold
      · obtain ⟨hid, hstage, hadded, -⟩ := ApplicationService.insertApplication_ok hins
        rw [heq, hadded] at hmem
        refine ⟨studentId, data, profile, rfl, ⟨ApplicationService.databaseFails_of_insert hins,
          ApplicationService.fitsResumeUrl_of_insert hins, Table.not_mem_of_fresh hid,
          Table.not_mem_of_fresh hstage⟩, hprofile, ?_⟩
        exact List.mem_singleton.mp ((List.mem_append.mp hmem).resolve_left hold)
      · rw [heq, ApplicationService.commitWithdrawal_ok hcommit,
          ApplicationService.logAudit_applications] at hmem
        exact absurd hmem (hwritten row _)
      · rw [heq, (ApplicationService.commitStatus_ok hcommit).2.1] at hmem
        exact absurd hmem (hwritten row _)
  · rintro ⟨studentId, data, profile, rfl, ⟨hdatabase, hurl, hid, hstage⟩, hprofile, rfl⟩
    have hins := ApplicationService.insertApplication_of_fresh studentId data profile hid hstage
    rw [hdatabase, hurl] at hins
    simp only [step, ApplicationService.taskStep, hprofile, hins]
    exact ⟨List.mem_append_right _ List.mem_cons_self, hid⟩

/-- **A registration is added with an eligible profile**, whatever comes between the check
    and the commit. -/
theorem eligible_of_added {ι : Type*} {c : Config Store Task ι} {i : ι} {env : Env}
    {r : Registration} (h : checked.Holds c) (hr : r ∈ addedRegistrations env c.store (c.task i)) :
    ∃ profile, (c.task i).fetched = some profile ∧ Eligible c.store r.opportunityId profile := by
  obtain ⟨id, studentId, data, fetched, htask, -, rfl⟩ := mem_addedRegistrations.mp hr
  have hknows := h.own i
  rw [htask] at hknows ⊢
  exact hknows.2

theorem open_iff {s : Store} {now : Time} {id : UUID} : Open s now id ↔ NotDue s now id := by
  unfold Open NotDue
  apply exists_congr
  intro opp
  refine and_congr_right fun hfound => and_congr_right fun hpublished => ?_
  have hmem : opp ∈ s.opportunities.opportunities := Table.mem_of_lookup hfound
  rcases hdeadline : opp.deadline with _ | deadline
  · simp [dueOpportunities, hdeadline]
  · simp [dueOpportunities, hdeadline, hmem, hpublished]

/-! ## A closed opportunity -/

theorem closed_commit {s s' : OpportunityService.State} {env : OpportunityService.Env}
    {row : Opportunity} {data : OpportunityService.OpportunityUpdate} {id : UUID}
    {opp : Opportunity} (hcommit : commitUpdate s env row data = .ok s')
    (hfound : findOpportunity s id = some opp) (hclosed : opp.status = "closed")
    (hkeeps : row.id = id → (OpportunityService.applyUpdate row data opp).status = "closed") :
    ∃ opp', findOpportunity s' id = some opp' ∧ opp'.status = "closed" := by
  refine ⟨_, by rw [find_commitUpdate hcommit, hfound, Option.map_some], ?_⟩
  split
  · rename_i hid
    exact hkeeps (hid.symm.trans (Table.key_of_lookup hfound))
  · exact hclosed

/-- Only a PATCH opens a closed opportunity. -/
theorem closed_step {env : Env} {s : Store} {t : Task} {id : UUID} (h : Closed s id)
    (hpatch : ¬ Reopens env s id t) : Closed (step env s t).1 id := by
  by_contra hopened
  apply hpatch
  refine ⟨?_, h, hopened⟩
  cases t with
  | application task => exact absurd h hopened
  | opportunity task fetched =>
    obtain ⟨opp, hfound, hclosed⟩ := h
    simp only [Closed, step] at hopened
    rcases taskStep_cases env.opportunity s.opportunities task with hsame |
      ⟨coordinatorId, data, s', -, hins, heq⟩ | ⟨row, data, s', rfl, hcommit, heq⟩ |
      ⟨row, rest, s', -, hcommit, heq⟩ | ⟨opportunityId, studentId, data, s', -, hins, heq⟩
    · rw [hsame] at hopened
      exact absurd ⟨opp, hfound, hclosed⟩ hopened
    · obtain ⟨opp', hfound', rfl⟩ := OpportunityRecords.follows_insert hins id opp hfound
      rw [heq] at hopened
      exact absurd ⟨_, hfound', hclosed⟩ hopened
    · by_cases hid : row.id = id
      · exact ⟨row, data, fetched, rfl, hid⟩
      · rw [heq] at hopened
        exact absurd (closed_commit hcommit hfound hclosed fun heq => absurd heq hid) hopened
    · rw [heq] at hopened
      refine absurd (closed_commit hcommit hfound hclosed fun _ => ?_) hopened
      rw [OpportunityService.applyUpdate_closed, hclosed, ite_self]
    · rw [heq, (OpportunityService.insertRegistration_ok hins).2] at hopened
      exact absurd ⟨opp, hfound, hclosed⟩ hopened

theorem not_open_of_closed {s : Store} {now : Time} {id : UUID} (h : Closed s id) :
    ¬ Open s now id := by
  rintro ⟨opp, hfound, hpublished, -⟩
  obtain ⟨opp', hfound', hclosed⟩ := h
  rw [hfound] at hfound'
  rw [← Option.some.inj hfound', hpublished] at hclosed
  exact absurd hclosed (by decide)

section Runs

variable {ι : Type*} [DecidableEq ι]

theorem staysShut_of_admitted {c : Config Store Task ι} {schedule : List (ι × Env)}
    (h : Guarded program Admitted c schedule) : StaysShut c schedule := by
  intro before between i env after id heq hclosed hunpatched r hr hid
  rw [heq, guarded_append] at h
  have hshut : Closed (run program c (before ++ between)).store id := by
    rw [run_append]
    exact run_guarded program (I := fun c' => Closed c'.store id)
      (fun c' j env' hc' _ hpatch => closed_step hc' hpatch) between hclosed hunpatched
  exact not_open_of_closed hshut (hid ▸ ((h.2.1 rfl).registration r hr).1)

/-! ## When the gate is enforced -/

omit [DecidableEq ι] in
theorem inTime_of_admitted {c : Config Store Task ι} {i : ι} {env : Env}
    (h : Admitted c i env) : InTime env c.store (c.task i) := by
  rcases htask : c.task i with ⟨task, fetched⟩ | task
  · cases task with
    | registerCommit id studentId data =>
      intro htakes
      have hadded := h.registration (newRegistration env.opportunity id studentId data)
        (mem_addedRegistrations.mpr ⟨id, studentId, data, fetched, htask, htakes, rfl⟩)
      exact open_iff.mp hadded.1
    | _ => trivial
  · cases task with
    | fetchProfile studentId data =>
      intro htakes profile hprofile
      have hadded := h.application (newApplication env.application studentId data profile)
        (mem_addedApplications.mpr ⟨studentId, data, profile, htask, htakes, hprofile, rfl⟩)
      exact ⟨open_iff.mp hadded.1, hadded.2⟩
    | _ => trivial

omit [DecidableEq ι] in
theorem admitted_of_inTime {c : Config Store Task ι} {i : ι} {env : Env}
    (hchecked : checked.Holds c) (h : InTime env c.store (c.task i)) : Admitted c i env where
  registration := by
    intro r hr
    refine ⟨?_, eligible_of_added hchecked hr⟩
    obtain ⟨id, studentId, data, fetched, htask, htakes, rfl⟩ := mem_addedRegistrations.mp hr
    rw [htask] at h
    exact open_iff.mpr (h htakes)
  application := by
    intro a ha
    obtain ⟨studentId, data, profile, htask, htakes, hprofile, rfl⟩ :=
      mem_addedApplications.mp ha
    rw [htask] at h
    obtain ⟨hnotDue, heligible⟩ := h htakes profile hprofile
    exact ⟨open_iff.mpr hnotDue, heligible⟩

/-- **When the gate is enforced.**  In every run of the two services, whatever jobs and
    requests they are given and however the steps interleave: every row that a step adds is
    admitted and closed opportunities stay shut, exactly when registrations and applications
    are written in time, and applications with a profile that meets the rules.  That
    registrations come with such a profile needs no condition. -/
theorem gate_iff (arrivals : ι → Arrival) (schedule : List (ι × Env)) :
    (Guarded program Admitted (arrive arrivals) schedule ∧ StaysShut (arrive arrivals) schedule) ↔
      Guarded program (fun c i env => InTime env c.store (c.task i)) (arrive arrivals)
        schedule := by
  constructor
  · rintro ⟨hadmitted, -⟩
    exact guarded_imp program (I := fun _ => True) (fun _ _ _ _ _ _ => trivial)
      (fun _ _ _ _ _ h => inTime_of_admitted h) trivial schedule hadmitted
  · intro hinTime
    have hadmitted : Guarded program Admitted (arrive arrivals) schedule :=
      guarded_imp program (fun _ _ env h hr _ => checked.holds_fire env h hr)
        (fun _ _ _ hchecked _ h => admitted_of_inTime hchecked h) (checked_arrive arrivals)
        schedule hinTime
    exact ⟨hadmitted, staysShut_of_admitted hadmitted⟩

end Runs

/-! ## A registration after the deadline -/

/-- The threads of an example run. -/
inductive Thread where
  | creation
  | deadlines
  | registration
deriving DecidableEq

/-- A drive with a deadline at 10, the deadline job, and a student who registers. -/
def arrivals : Thread → Arrival
  | .creation => .opportunity (.request ⟨.ofNat 1, .coordinator⟩
      (.createOpp { title := "Drive", deadline := some (.aware 10) }))
  | .deadlines => .opportunity .processDeadlines
  | .registration => .opportunity (.request ⟨.ofNat 2, .student⟩
      (.createRegistration (.ofNat 7) {}))

/-- Every service answers, and the fresh identifiers are all one. -/
def answers (fresh : UUID) (time : Time) : Env where
  opportunity := .untroubled fresh time
  application := .untroubled fresh fresh time

/-- The drive is created at 0, closed at 20, and the student is at the commit at 30. -/
def closedThenRegister : List (Thread × Env) :=
  [(.creation, answers (.ofNat 7) 0), (.deadlines, answers (.ofNat 8) 20),
    (.deadlines, answers (.ofNat 8) 20), (.deadlines, answers (.ofNat 8) 20),
    (.registration, answers (.ofNat 9) 30), (.registration, answers (.ofNat 9) 30),
    (.registration, answers (.ofNat 9) 30)]

theorem registers_after_close :
    ¬ (Guarded program Admitted (arrive arrivals)
        (closedThenRegister ++ [(.registration, answers (.ofNat 9) 30)]) ∧
      StaysShut (arrive arrivals)
        (closedThenRegister ++ [(.registration, answers (.ofNat 9) 30)])) := by
  rintro ⟨hadmitted, -⟩
  rw [guarded_append] at hadmitted
  have hadded : newRegistration (answers (.ofNat 9) 30).opportunity (.ofNat 7) (.ofNat 2) {} ∈
      addedRegistrations (answers (.ofNat 9) 30)
        (run program (arrive arrivals) closedThenRegister).store
        ((run program (arrive arrivals) closedThenRegister).task .registration) :=
    mem_addedRegistrations.mpr ⟨.ofNat 7, .ofNat 2, {}, some (.obj []), rfl,
      ⟨rfl, rfl, List.not_mem_nil⟩, rfl⟩
  obtain ⟨⟨opp, hfound, hpublished, -⟩, -⟩ := (hadmitted.2.1 rfl).registration _ hadded
  have hstatus : (findOpportunity (run program (arrive arrivals)
      closedThenRegister).store.opportunities (.ofNat 7)).all
        (fun o => decide (o.status = "closed")) = true := by
    decide +kernel
  have hdrive : findOpportunity (run program (arrive arrivals)
      closedThenRegister).store.opportunities (.ofNat 7) = some opp := hfound
  rw [hdrive, Option.all_some, hpublished] at hstatus
  exact absurd hstatus (by decide)

end CampusHire.AdmissionGate
