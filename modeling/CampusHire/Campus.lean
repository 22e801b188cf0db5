import CampusHire.AccountConsistency
import CampusHire.AdmissionGate
import CampusHire.RunHistory

/-!
# Three services that call one another

`apply` asks the opportunity service for the opportunity and the identity service for the
student's profile, `register_student` the latter alone.  In the models of the services the
answers come from outside.  Here they come from the other services: a call is a request of
its own, `GET /opportunities/{id}` or `GET /auth/profile/{id}`, that the other service
handles statement by statement among all its other requests, and its answer is one of the
moment in which it was made, not of the moment in which the caller reads it.  Any call may
fail on the way.

Any number of requests of users, and of runs of the deadline job, take their steps in any
order.
-/

namespace CampusHire.Campus

open CampusHire Schedule
open CampusHire.AuthService (Deployment StudentProfile)
open CampusHire.OpportunityService (getOpportunity)

structure Store where
  identity : AuthService.State
  opportunities : OpportunityService.State
  applications : ApplicationService.State

def Store.empty : Store := ⟨.empty, .empty, .empty⟩

/-- A call that does not get through: no answer, or one with another status. -/
structure Fault where
  statusCode : Option Nat
  not_ok : statusCode ≠ some 200

def Fault.answer (fault : Fault) : HttpAnswer :=
  match fault.statusCode with
  | none => .unreachable
  | some code => .answered code none

theorem Fault.answer_ne_ok (fault : Fault) (body : Option Json) :
    fault.answer ≠ .answered 200 body := by
  intro heq
  unfold Fault.answer at heq
  split at heq
  · cases heq
  · rename_i code hcode
    cases heq
    exact fault.not_ok hcode

/-- What a step meets.  `updatedAt` is the time that a profile shows, `shown` what an
    opportunity does: the callers do not look at them. -/
structure Env where
  identity : AuthService.Env
  opportunity : OpportunityService.Env
  application : ApplicationService.Env
  fault : Option Fault
  updatedAt : Json
  shown : Json

/-! ## Answers -/

def optional {α : Type} (write : α → Json) (o : Option α) : Json := (o.map write).getD .null

/-- `ProfileResponse`.  JSON has no text for a float that is not finite: pydantic writes null,
    and that the response is refused instead is one of the faults. -/
def profileJson (profile : StudentProfile) (updatedAt : Json) : Json :=
  .obj [("user_id", .str profile.userId.str), ("name", optional .str profile.name),
    ("cgpa", optional .num (profile.cgpa.bind PythonText.FloatValue.number)),
    ("branch", optional .str profile.branch),
    ("year", optional (fun year => .num year) profile.year),
    ("phone", optional .str profile.phone),
    ("skills", optional (fun skills => .arr (skills.map .str)) profile.skills),
    ("updated_at", updatedAt)]

/-- What a route that raises answers: an error without a status is a 500. -/
def errorAnswer : ServiceError → HttpAnswer
  | .http code detail => .answered code (some (.obj [("detail", .str detail)]))
  | _ => .answered 500 none

def profileAnswer (updatedAt : Json) : Except ServiceError StudentProfile → HttpAnswer
  | .ok profile => .answered 200 (some (profileJson profile updatedAt))
  | .error e => errorAnswer e

def opportunityAnswer (shown : Json) :
    Except ServiceError OpportunityService.Opportunity → HttpAnswer
  | .ok _ => .answered 200 (some shown)
  | .error e => errorAnswer e

/-! ## Tasks -/

/-- A call of another service: a request that it has not begun to handle, one that it is
    handling, or an answer that the caller has not read. -/
inductive Call where
  | opportunity (id : UUID)
  | profile (task : Profiles.Task)
  | answered (answer : HttpAnswer)

/-- A task of one of the services, with the call that it awaits. -/
inductive Task where
  | identity (task : Profiles.Task)
  | opportunity (task : OpportunityService.Task) (call : Option Call)
  | application (task : ApplicationService.Task) (call : Option Call)

def profileCall (userId : UUID) : Call := .profile (.profileUser userId none)

/-- The calls of `register_student`, by where it is suspended. -/
def opportunityCall : OpportunityService.Task → Option Call
  | .fetchProfile _ _ studentId _ => some (profileCall studentId)
  | _ => none

/-- The calls of `apply`. -/
def applicationCall : ApplicationService.Task → Option Call
  | .fetchOpportunity _ data => some (.opportunity data.opportunityId)
  | .fetchProfile studentId _ => some (profileCall studentId)
  | _ => none

section Program

variable (d : Deployment)

/-- A step of the service that is called.  A caller that gives up reads a fault; what the
    service still does of its request is that of one more request. -/
def callStep (env : Env) (s : Store) : Call → Store × Call
  | .opportunity id =>
    match env.fault with
    | some fault => (s, .answered fault.answer)
    | none => (s, .answered (opportunityAnswer env.shown (getOpportunity s.opportunities id)))
  | .profile task =>
    match env.fault with
    | some fault => (s, .answered fault.answer)
    | none =>
      match task with
      | .ended result => (s, .answered (profileAnswer env.updatedAt result))
      | task =>
        let next := Profiles.taskStep d env.identity s.identity task
        ({ s with identity := next.1 }, .profile next.2)
  | .answered answer => (s, .answered answer)

/-- The task goes on with the answer, or with none if it awaits nothing. -/
def opportunityStep (env : OpportunityService.Env) (s : Store) (task : OpportunityService.Task) :
    Store × Task :=
  let next := OpportunityService.taskStep env s.opportunities task
  ({ s with opportunities := next.1 }, .opportunity next.2 (opportunityCall next.2))

def applicationStep (env : ApplicationService.Env) (s : Store) (task : ApplicationService.Task) :
    Store × Task :=
  let next := ApplicationService.taskStep env s.applications task
  ({ s with applications := next.1 }, .application next.2 (applicationCall next.2))

def step (env : Env) (s : Store) : Task → Store × Task
  | .identity task =>
    let next := Profiles.taskStep d env.identity s.identity task
    ({ s with identity := next.1 }, .identity next.2)
  | .opportunity task none => opportunityStep env.opportunity s task
  | .opportunity task (some (.answered answer)) =>
    opportunityStep { env.opportunity with profile := answer } s task
  | .opportunity task (some call) =>
    let next := callStep d env s call
    (next.1, .opportunity task (some next.2))
  | .application task none => applicationStep env.application s task
  | .application task (some (.answered answer)) =>
    applicationStep { env.application with opportunity := answer, profile := answer } s task
  | .application task (some call) =>
    let next := callStep d env s call
    (next.1, .application task (some next.2))

/-- **What a step can do.**  It is one of the identity service, one of a request that
    awaits nothing or reads its answer, or one of the call that a request awaits. -/
theorem step_cases (env : Env) (s : Store) (t : Task) :
    (∃ task, t = .identity task ∧ step d env s t =
      ({ s with identity := (Profiles.taskStep d env.identity s.identity task).1 },
        .identity (Profiles.taskStep d env.identity s.identity task).2)) ∨
    (∃ task call met, t = .opportunity task call ∧
      (∀ called, call = some called → called = .answered met.profile) ∧
      step d env s t = opportunityStep met s task) ∨
    (∃ task called, t = .opportunity task (some called) ∧
      (∀ answer, called ≠ .answered answer) ∧ step d env s t =
      ((callStep d env s called).1, .opportunity task (some (callStep d env s called).2))) ∨
    (∃ task call met, t = .application task call ∧
      (∀ called, call = some called →
        called = .answered met.opportunity ∧ called = .answered met.profile) ∧
      step d env s t = applicationStep met s task) ∨
    (∃ task called, t = .application task (some called) ∧
      (∀ answer, called ≠ .answered answer) ∧ step d env s t =
      ((callStep d env s called).1, .application task (some (callStep d env s called).2))) := by
  cases t with
  | identity task => exact Or.inl ⟨task, rfl, rfl⟩
  | opportunity task call =>
    rcases call with _ | called
    · refine Or.inr (Or.inl ⟨task, none, env.opportunity, rfl, ?_, rfl⟩)
      intro called hcall
      cases hcall
    cases called with
    | answered answer =>
      refine Or.inr (Or.inl ⟨task, _, { env.opportunity with profile := answer }, rfl, ?_, rfl⟩)
      intro called hcall
      exact (Option.some.inj hcall).symm
    | opportunity | profile =>
      refine Or.inr (Or.inr (Or.inl ⟨task, _, rfl, ?_, rfl⟩))
      intro answer hanswer
      cases hanswer
  | application task call =>
    rcases call with _ | called
    · refine Or.inr (Or.inr (Or.inr (Or.inl ⟨task, none, env.application, rfl, ?_, rfl⟩)))
      intro called hcall
      cases hcall
    cases called with
    | answered answer =>
      refine Or.inr (Or.inr (Or.inr (Or.inl ⟨task, _,
        { env.application with opportunity := answer, profile := answer }, rfl, ?_, rfl⟩)))
      intro called hcall
      exact ⟨(Option.some.inj hcall).symm, (Option.some.inj hcall).symm⟩
    | opportunity | profile =>
      refine Or.inr (Or.inr (Or.inr (Or.inr ⟨task, _, rfl, ?_, rfl⟩)))
      intro answer hanswer
      cases hanswer

/-- A call touches no tables but those of the identity service. -/
theorem callStep_store (env : Env) (s : Store) (call : Call) :
    ∃ identity, (callStep d env s call).1 = { s with identity := identity } := by
  cases call with
  | opportunity id =>
    simp only [callStep]
    split
    · exact ⟨s.identity, rfl⟩
    · exact ⟨s.identity, rfl⟩
  | profile task =>
    simp only [callStep]
    split
    · exact ⟨s.identity, rfl⟩
    split
    · exact ⟨s.identity, rfl⟩
    · exact ⟨_, rfl⟩
  | answered answer => exact ⟨s.identity, rfl⟩

@[simp] theorem callStep_opportunities (env : Env) (s : Store) (call : Call) :
    (callStep d env s call).1.opportunities = s.opportunities := by
  obtain ⟨identity, heq⟩ := callStep_store d env s call
  rw [heq]

@[simp] theorem callStep_applications (env : Env) (s : Store) (call : Call) :
    (callStep d env s call).1.applications = s.applications := by
  obtain ⟨identity, heq⟩ := callStep_store d env s call
  rw [heq]

def program : Program Store Task Env where
  step := step d
  onLoop := fun _ => false
  running := fun _ => false
  running_onLoop := fun _ h => h
  offLoop_step := fun _ _ _ _ => rfl

end Program

inductive Arrival where
  | identity (job : Profiles.Job)
  | opportunity (job : OpportunityService.Job)
  | application (user : CurrentUser) (request : ApplicationService.Request)

def Task.start : Arrival → Task
  | .identity job => .identity (Profiles.Task.start job)
  | .opportunity job =>
      .opportunity (OpportunityService.Task.start job)
        (opportunityCall (OpportunityService.Task.start job))
  | .application user request =>
      .application (ApplicationService.Task.start user request)
        (applicationCall (ApplicationService.Task.start user request))

/-- Any number of requests and jobs, none of which has begun, on freshly created tables. -/
def arrive {ι : Type*} (arrivals : ι → Arrival) : Config Store Task ι :=
  start .empty fun i => Task.start (arrivals i)

end CampusHire.Campus
