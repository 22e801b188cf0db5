import CampusHire.Campus
import CampusHire.Progress
import CampusHire.QueryTasks
import CampusHire.Sessions
import Mathlib.Data.Prod.Lex

/-!
# Every request is answered

However many requests a service is given and whatever their statements and awaits meet,
each is answered, as long as threads get their turn and awaits return.  That they return is
an assumption: `publish` waits for the broker without a timeout.  A coroutine that holds the
event loop has a number of statements left, so it suspends or ends and the others get their
turn.  The deadline job and the list of queries loop over rows that they have read before:
the tables may grow meanwhile, the loops do not (`ℕ ×ₗ ℕ`).

In the three services together a request also waits for its calls.  No service that is
called calls another, so a call ends before its caller gives up a step of its own.
-/

namespace CampusHire.RequestsEnd

open CampusHire Schedule
open CampusHire.AuthService (Deployment)

/-! ## The application service -/

/-- Statements that are left, at most. -/
def applicationRank : ApplicationService.Task → Nat
  | .fetchOpportunity .. => 5
  | .fetchProfile .. => 4
  | .applyRefresh .. => 2
  | .withdrawRead .. => 3
  | .withdrawCommit .. => 2
  | .withdrawRefresh .. => 1
  | .statusRead .. => 5
  | .statusStage .. => 4
  | .statusCommit .. => 3
  | .statusRefresh .. => 2
  | .publishing .. => 1
  | .finished .. => 0

theorem applicationRank_step (env : ApplicationService.Env) (s : ApplicationService.State)
    (t : ApplicationService.Task) (h : t.isFinished = false) :
    applicationRank (ApplicationService.taskStep env s t).2 < applicationRank t := by
  cases t with
  | finished result => cases h
  | withdrawRefresh | publishing => exact Nat.zero_lt_one
  | _ =>
    simp only [ApplicationService.taskStep]
    repeat' split
    all_goals simp [applicationRank]

/-- Suspended until another service or the broker answers. -/
def applicationAwaits : ApplicationService.Task → Bool
  | .fetchOpportunity .. | .fetchProfile .. | .publishing .. => true
  | _ => false

def applications : Progress ApplicationService.program Nat where
  rank := applicationRank
  ended := ApplicationService.Task.isFinished
  own := fun _ => True
  step_own := fun _ _ _ h => h
  step_lt := fun env s t _ => applicationRank_step env s t
  step_ended := by
    intro env s t h
    cases t with
    | finished result => rfl
    | _ => cases h
  running_ended := by
    intro t h
    cases t with
    | finished result => rfl
    | _ => cases h

/-! ## The opportunity service -/

/-- The deadline job has so many statements left when it has read what is due. -/
def opportunityRank : OpportunityService.Task → Nat ×ₗ Nat
  | .createCommit .. => toLex (0, 2)
  | .opportunityRefresh .. => toLex (0, 1)
  | .updateRead .. => toLex (0, 3)
  | .updateCommit .. => toLex (0, 2)
  | .registerRead .. => toLex (0, 5)
  | .fetchProfile .. => toLex (0, 4)
  | .registerCheck .. => toLex (0, 3)
  | .registerCommit .. => toLex (0, 2)
  | .registrationRefresh .. => toLex (0, 1)
  | .dueRead => toLex (1, 0)
  | .dueExport _ rest => toLex (0, 3 * rest.length + 2)
  | .dueCommit _ rest => toLex (0, 3 * rest.length + 1)
  | .dueReload _ rest => toLex (0, 3 * rest.length + 3)
  | .finished .. => toLex (0, 0)

def opportunityEnded : OpportunityService.Task → Bool
  | .finished _ => true
  | _ => false

theorem opportunityRank_step (env : OpportunityService.Env) (s : OpportunityService.State)
    (t : OpportunityService.Task) (h : opportunityEnded t = false) :
    opportunityRank (OpportunityService.taskStep env s t).2 < opportunityRank t := by
  cases t with
  | finished result => cases h
  | dueCommit opp rest =>
    simp only [OpportunityService.taskStep]
    split
    · simp [opportunityRank, Prod.Lex.toLex_lt_toLex]
    split
    · simp [opportunityRank, Prod.Lex.toLex_lt_toLex]
    split
    · simp [opportunityRank, Prod.Lex.toLex_lt_toLex]
    · -- the reload and the next round
      rename_i id rest
      simp only [opportunityRank]
      refine Prod.Lex.toLex_lt_toLex.mpr (Or.inr ⟨rfl, ?_⟩)
      simp only [List.length_cons]
      omega
  | opportunityRefresh | registrationRefresh =>
    simp [OpportunityService.taskStep, opportunityRank, Prod.Lex.toLex_lt_toLex]
  | _ =>
    simp only [OpportunityService.taskStep]
    repeat' split
    all_goals simp [opportunityRank, Prod.Lex.toLex_lt_toLex]

def opportunityAwaits : OpportunityService.Task → Bool
  | .fetchProfile .. => true
  | _ => false

def opportunities : Progress OpportunityService.program (Nat ×ₗ Nat) where
  rank := opportunityRank
  ended := opportunityEnded
  own := fun _ => True
  step_own := fun _ _ _ h => h
  step_lt := fun env s t _ => opportunityRank_step env s t
  step_ended := by
    intro env s t h
    cases t with
    | finished result => rfl
    | _ => cases h
  running_ended := by
    intro t h
    cases t with
    | finished result => rfl
    | _ => cases h

/-! ## The communications service -/

def queryRank : QueryService.Task → Nat ×ₗ Nat
  | .createCommit .. => toLex (0, 3)
  | .listRead .. => toLex (1, 0)
  | .listMessages pending _ => toLex (0, pending.length + 1)
  | .replyRead .. => toLex (0, 4)
  | .replyCommit .. => toLex (0, 3)
  | .statusRead .. => toLex (0, 4)
  | .statusCommit .. => toLex (0, 3)
  | .queryRefresh .. => toLex (0, 2)
  | .queryMessages .. => toLex (0, 1)
  | .finished .. => toLex (0, 0)

theorem queryRank_step (env : QueryService.Env) (s : QueryService.State) (t : QueryService.Task)
    (h : t.result.isSome = false) : queryRank (QueryService.taskStep env s t).2 < queryRank t := by
  cases t with
  | finished result => cases h
  | listRead =>
    simp [QueryService.taskStep, queryRank, Prod.Lex.toLex_lt_toLex]
  | listMessages pending answered =>
    cases pending <;> simp [QueryService.taskStep, queryRank, Prod.Lex.toLex_lt_toLex]
  | _ =>
    simp only [QueryService.taskStep]
    repeat' split
    all_goals simp [queryRank, Prod.Lex.toLex_lt_toLex]

def queries : Progress QueryService.program (Nat ×ₗ Nat) where
  rank := queryRank
  ended t := t.result.isSome
  own := fun _ => True
  step_own := fun _ _ _ h => h
  step_lt := fun env s t _ => queryRank_step env s t
  step_ended := by
    intro env s t h
    cases t with
    | finished result => rfl
    | _ => cases h
  running_ended := fun _ _ => rfl

/-! ## The three services together -/

def profileRank : Profiles.Task → Nat
  | .registerQuery .. => 5
  | .registerFlush .. => 4
  | .registerInsert .. => 3
  | .registerCommit .. => 2
  | .registerReload .. => 1
  | .profileUser .. => 8
  | .profileQuery .. => 7
  | .profileInsert .. => 6
  | .profileCommit .. => 5
  | .profileReload .. => 4
  | .updateFlush .. => 3
  | .updateCommit .. => 2
  | .updateReload .. => 1
  | .registered .. | .registerRaised .. | .registerUnloaded .. | .ended .. => 0

theorem profileRank_loaded (profile : AuthService.StudentProfile)
    (data : Option Profiles.ProfileUpdate) : profileRank (.loaded profile data) ≤ 3 := by
  cases data with
  | none => exact Nat.zero_le 3
  | some data => exact le_rfl

theorem profileRank_step (d : Deployment) (env : AuthService.Env) (s : AuthService.State)
    (t : Profiles.Task) (h : t.result.isSome = false) :
    profileRank (Profiles.taskStep d env s t).2 < profileRank t := by
  cases t with
  | registered | registerRaised | registerUnloaded | ended => cases h
  | registerQuery | registerFlush | registerInsert | registerCommit | registerReload =>
    simp only [Profiles.taskStep, Profiles.Task.registers, if_true, Profiles.registerStep]
    repeat' split
    all_goals simp [profileRank]
  | profileQuery user data =>
    simp only [Profiles.taskStep, Profiles.Task.registers, Bool.false_eq_true, if_false,
      Profiles.profileStep]
    split
    · exact Nat.zero_lt_succ 6
    split
    · exact lt_of_le_of_lt (profileRank_loaded _ data) (show 3 < 7 by decide)
    · exact Nat.lt_succ_self 6
  | profileReload id data =>
    simp only [Profiles.taskStep, Profiles.Task.registers, Bool.false_eq_true, if_false,
      Profiles.profileStep]
    split
    · exact Nat.zero_lt_succ 3
    · exact lt_of_le_of_lt (profileRank_loaded _ data) (show 3 < 4 by decide)
  | updateReload id => exact Nat.zero_lt_one
  | _ =>
    simp only [Profiles.taskStep, Profiles.Task.registers, Bool.false_eq_true, if_false,
      Profiles.profileStep]
    repeat' split
    all_goals simp [profileRank]

open CampusHire.Campus (Call Store)

/-- A call is for a profile or an opportunity, not for a registration. -/
def isRead : Call → Bool
  | .profile task => !task.registers
  | _ => true

def callRank : Option Call → Nat
  | none => 0
  | some (.answered _) => 1
  | some (.opportunity _) => 2
  | some (.profile task) => profileRank task + 2

section Calls

variable (d : Deployment)

theorem registers_profileStep (env : AuthService.Env) (s : AuthService.State) {t : Profiles.Task}
    (h : t.registers = false) : (Profiles.taskStep d env s t).2.registers = false := by
  rw [Profiles.taskStep, if_neg (by rw [h]; exact Bool.false_ne_true)]
  cases t with
  | registerQuery | registerFlush | registerInsert | registerCommit | registerReload | registered
  | registerRaised | registerUnloaded => cases h
  | profileQuery _ data | profileReload _ data =>
    simp only [Profiles.profileStep]
    repeat' split
    all_goals first | rfl | (cases data <;> rfl)
  | updateReload | ended => rfl
  | _ =>
    simp only [Profiles.profileStep]
    repeat' split
    all_goals rfl

theorem isRead_callStep (env : Campus.Env) (s : Store) {call : Call} (h : isRead call = true) :
    isRead (Campus.callStep d env s call).2 = true := by
  cases call with
  | answered answer => rfl
  | opportunity id =>
    simp only [Campus.callStep]
    split <;> rfl
  | profile task =>
    simp only [Campus.callStep]
    split
    · rfl
    split
    · rfl
    · have hreads : task.registers = false := by simpa [isRead] using h
      simp [isRead, registers_profileStep d env.identity s.identity hreads]

theorem callRank_step (env : Campus.Env) (s : Store) {call : Call} (hread : isRead call = true)
    (h : ∀ answer, call ≠ .answered answer) :
    callRank (some (Campus.callStep d env s call).2) < callRank (some call) := by
  cases call with
  | answered answer => exact absurd rfl (h answer)
  | opportunity id =>
    simp only [Campus.callStep]
    split <;> exact Nat.lt_succ_self 1
  | profile task =>
    simp only [Campus.callStep]
    split
    · exact Nat.lt_add_of_pos_left (Nat.succ_pos _)
    split
    · exact Nat.lt_succ_self 1
    · rename_i hrunning
      have hnot : task.result.isSome = false := by
        cases task with
        | ended result => exact absurd rfl (hrunning result)
        | registered | registerRaised | registerUnloaded => cases hread
        | _ => rfl
      exact Nat.add_lt_add_right (profileRank_step d env.identity s.identity task hnot) 2

def campusRank : Campus.Task → (Nat ×ₗ Nat) ×ₗ Nat
  | .identity task => toLex (toLex (0, profileRank task), 0)
  | .opportunity task call => toLex (opportunityRank task, callRank call)
  | .application task call => toLex (toLex (0, applicationRank task), callRank call)

def campusEnded : Campus.Task → Bool
  | .identity task => task.result.isSome
  | .opportunity task call => opportunityEnded task && call.isNone
  | .application task call => task.isFinished && call.isNone

def callsRead : Campus.Task → Prop
  | .identity _ => True
  | .opportunity _ call | .application _ call => ∀ called, call = some called → isRead called = true

theorem opportunityCall_read {task : OpportunityService.Task} {called : Call}
    (h : Campus.opportunityCall task = some called) : isRead called = true := by
  cases task with
  | fetchProfile =>
    cases h
    rfl
  | _ => cases h

theorem applicationCall_read {task : ApplicationService.Task} {called : Call}
    (h : Campus.applicationCall task = some called) : isRead called = true := by
  cases task with
  | fetchProfile | fetchOpportunity =>
    cases h
    rfl
  | _ => cases h

theorem callsRead_step (env : Campus.Env) (s : Store) (t : Campus.Task) (h : callsRead t) :
    callsRead (Campus.step d env s t).2 := by
  rcases Campus.step_cases d env s t with ⟨task, -, heq⟩ | ⟨task, call, met, -, -, heq⟩ |
    ⟨task, called, rfl, -, heq⟩ | ⟨task, call, met, -, -, heq⟩ | ⟨task, called, rfl, -, heq⟩
  · rw [heq]
    trivial
  · rw [heq]
    exact fun called hcall => opportunityCall_read hcall
  · rw [heq]
    rintro _ ⟨⟩
    exact isRead_callStep d env s (h called rfl)
  · rw [heq]
    exact fun called hcall => applicationCall_read hcall
  · rw [heq]
    rintro _ ⟨⟩
    exact isRead_callStep d env s (h called rfl)

/-- A step of the caller itself.  It lowers its rank, unless it has finished and only drops
    an answer that it does not read. -/
theorem opportunityStep_rank (met : OpportunityService.Env) (s : Store)
    {task : OpportunityService.Task} {call : Option Call}
    (h : campusEnded (.opportunity task call) = false) :
    campusRank (Campus.opportunityStep met s task).2 < campusRank (.opportunity task call) := by
  by_cases hended : opportunityEnded task = true
  · cases task with
    | finished result =>
      rcases call with _ | called
      · cases h
      · refine Prod.Lex.toLex_lt_toLex.mpr (Or.inr ⟨rfl, ?_⟩)
        cases called with
        | answered | opportunity => exact Nat.succ_pos _
        | profile task => exact Nat.succ_pos _
    | _ => cases hended
  · exact Prod.Lex.toLex_lt_toLex.mpr
      (Or.inl (opportunityRank_step met s.opportunities task (Bool.not_eq_true _ ▸ hended)))

theorem applicationStep_rank (met : ApplicationService.Env) (s : Store)
    {task : ApplicationService.Task} {call : Option Call}
    (h : campusEnded (.application task call) = false) :
    campusRank (Campus.applicationStep met s task).2 < campusRank (.application task call) := by
  by_cases hended : task.isFinished = true
  · cases task with
    | finished result =>
      rcases call with _ | called
      · cases h
      · refine Prod.Lex.toLex_lt_toLex.mpr (Or.inr ⟨rfl, ?_⟩)
        cases called with
        | answered | opportunity => exact Nat.succ_pos _
        | profile task => exact Nat.succ_pos _
    | _ => cases hended
  · have hlt := applicationRank_step met s.applications task (Bool.not_eq_true _ ▸ hended)
    exact Prod.Lex.toLex_lt_toLex.mpr
      (Or.inl (Prod.Lex.toLex_lt_toLex.mpr (Or.inr ⟨rfl, hlt⟩)))

theorem campusRank_step (env : Campus.Env) (s : Store) (t : Campus.Task) (hreads : callsRead t)
    (h : campusEnded t = false) : campusRank (Campus.step d env s t).2 < campusRank t := by
  rcases Campus.step_cases d env s t with ⟨task, rfl, heq⟩ | ⟨task, call, met, rfl, -, heq⟩ |
    ⟨task, called, rfl, hrunning, heq⟩ | ⟨task, call, met, rfl, -, heq⟩ |
    ⟨task, called, rfl, hrunning, heq⟩
  · rw [heq]
    have hlt := profileRank_step d env.identity s.identity task h
    exact Prod.Lex.toLex_lt_toLex.mpr
      (Or.inl (Prod.Lex.toLex_lt_toLex.mpr (Or.inr ⟨rfl, hlt⟩)))
  · rw [heq]
    exact opportunityStep_rank met s h
  · rw [heq]
    exact Prod.Lex.toLex_lt_toLex.mpr
      (Or.inr ⟨rfl, callRank_step d env s (hreads called rfl) hrunning⟩)
  · rw [heq]
    exact applicationStep_rank met s h
  · rw [heq]
    exact Prod.Lex.toLex_lt_toLex.mpr
      (Or.inr ⟨rfl, callRank_step d env s (hreads called rfl) hrunning⟩)

theorem campusEnded_step (env : Campus.Env) (s : Store) (t : Campus.Task)
    (h : campusEnded t = true) : (Campus.step d env s t).2 = t := by
  cases t with
  | identity task =>
    cases task with
    | registered | registerRaised | registerUnloaded | ended => rfl
    | _ => cases h
  | opportunity task call =>
    rcases call with _ | called
    · cases task with
      | finished result => rfl
      | _ => cases h
    · rw [campusEnded, Option.isNone_some, Bool.and_false] at h
      cases h
  | application task call =>
    rcases call with _ | called
    · cases task with
      | finished result => rfl
      | _ => cases h
    · rw [campusEnded, Option.isNone_some, Bool.and_false] at h
      cases h

/-- Suspended until a call is answered, or a publication confirmed. -/
def campusAwaits : Campus.Task → Bool
  | .identity _ => false
  | .opportunity task call => opportunityAwaits task || call.isSome
  | .application task call => applicationAwaits task || call.isSome

def campus : Progress (Campus.program d) ((Nat ×ₗ Nat) ×ₗ Nat) where
  rank := campusRank
  ended := campusEnded
  own := callsRead
  step_own := callsRead_step d
  step_lt := campusRank_step d
  step_ended := campusEnded_step d
  running_ended := fun _ _ => rfl

theorem callsRead_start (arrival : Campus.Arrival) : callsRead (Campus.Task.start arrival) := by
  cases arrival with
  | identity job => trivial
  | opportunity job => exact fun called hcall => opportunityCall_read hcall
  | application user request => exact fun called hcall => applicationCall_read hcall

end Calls

/-! ## Every request is answered -/

section Answers

variable {ι : Type*} [DecidableEq ι]

/-- **The application service answers every apply, withdraw and update_status**, however many
    it is given, and its event loop is freed again and again, if threads get their turn and
    the calls and the broker's confirmations that the requests await return. -/
theorem applications_answered (requests : ι → CurrentUser × ApplicationService.Request)
    (schedule : Nat → ι × ApplicationService.Env)
    (hturns : Turns ApplicationService.program applicationAwaits
      (ApplicationService.arrive requests) schedule)
    (hreturns : AwaitsReturn ApplicationService.program applicationAwaits
      (ApplicationService.arrive requests) schedule) :
    (∀ i, ∃ n result, ∀ m ≥ n, (trace ApplicationService.program
      (ApplicationService.arrive requests) schedule m).task i = .finished result) ∧
    ∀ n, ∃ m ≥ n, (trace ApplicationService.program (ApplicationService.arrive requests)
      schedule m).loop = none := by
  have hfair := fair_iff.mpr ⟨hturns, hreturns⟩
  have hheld := held_start ApplicationService.program ApplicationService.State.empty
    (ApplicationService.arrive requests).task
  constructor
  · intro i
    obtain ⟨n, t, hended, htask⟩ := applications.ends_of_fair (fun _ => trivial) hheld hfair i
    cases t with
    | finished result => exact ⟨n, result, htask⟩
    | _ => cases hended
  · exact applications.loop_freed (fun _ => trivial) hheld hfair

theorem withdrawal_answered :
    ∃ n result, ∀ m ≥ n, (trace ApplicationService.program
      (ApplicationService.arrive fun _ : Unit => (⟨.ofNat 1, .student⟩, .withdraw (.ofNat 2)))
      (fun n => ((), .untroubled (.ofNat 3) (.ofNat 4) n)) m).task () = .finished result :=
  (applications_answered _ _ (turns_of_subsingleton _ _ _ _)
    (awaitsReturn_of_subsingleton _ _ _ _)).1 ()

/-- **The opportunity service answers every create, PATCH and registration, and ends every run
    of the deadline job**, however many opportunities are due and are created meanwhile, if
    threads get their turn and the calls that registrations await return. -/
theorem jobs_answered (jobs : ι → OpportunityService.Job)
    (schedule : Nat → ι × OpportunityService.Env)
    (hturns : Turns OpportunityService.program opportunityAwaits
      (OpportunityService.arrive jobs) schedule)
    (hreturns : AwaitsReturn OpportunityService.program opportunityAwaits
      (OpportunityService.arrive jobs) schedule) (i : ι) :
    ∃ n result, ∀ m ≥ n, (trace OpportunityService.program (OpportunityService.arrive jobs)
      schedule m).task i = .finished result := by
  have hfair := fair_iff.mpr ⟨hturns, hreturns⟩
  obtain ⟨n, t, hended, htask⟩ :=
    opportunities.ends_of_fair (fun _ => trivial) (held_start _ _ _) hfair i
  cases t with
  | finished result => exact ⟨n, result, htask⟩
  | _ => cases hended

theorem deadlines_answered :
    ∃ n result, ∀ m ≥ n, (trace OpportunityService.program
      (OpportunityService.arrive fun _ : Unit => .processDeadlines)
      (fun n => ((), .untroubled (.ofNat 1) n)) m).task () =
        .finished result :=
  jobs_answered _ _ (turns_of_subsingleton _ _ _ _) (awaitsReturn_of_subsingleton _ _ _ _) ()

/-- **The queries are answered**, also their list, however many are asked meanwhile. -/
theorem queries_answered (requests : ι → CurrentUser × QueryService.Request)
    (schedule : Nat → ι × QueryService.Env)
    (hfair : Fair QueryService.program (QueryService.arrive requests) schedule) (i : ι) :
    ∃ n result, ∀ m ≥ n, (trace QueryService.program (QueryService.arrive requests)
      schedule m).task i = .finished result := by
  obtain ⟨n, t, hended, htask⟩ :=
    queries.ends_of_fair (fun _ => trivial) (held_start _ _ _) hfair i
  cases t with
  | finished result => exact ⟨n, result, htask⟩
  | _ => cases hended

/-- **No service waits for another for ever.**  In every run of the three services in which
    threads get their turn and awaits return, every request is answered, with the calls that
    it makes. -/
theorem calls_answered (d : Deployment) (arrivals : ι → Campus.Arrival)
    (schedule : Nat → ι × Campus.Env)
    (hturns : Turns (Campus.program d) campusAwaits (Campus.arrive arrivals) schedule)
    (hreturns : AwaitsReturn (Campus.program d) campusAwaits (Campus.arrive arrivals) schedule)
    (i : ι) :
    ∃ n t, campusEnded t = true ∧
      ∀ m ≥ n, (trace (Campus.program d) (Campus.arrive arrivals) schedule m).task i = t := by
  have hown : ∀ j, callsRead ((Campus.arrive arrivals).task j) := fun j =>
    callsRead_start (arrivals j)
  exact (campus d).ends_of_fair hown (held_start _ _ _) (fair_iff.mpr ⟨hturns, hreturns⟩) i

/-- A student applies where no call gets through. -/
theorem apply_answered :
    ∃ n t, campusEnded t = true ∧ ∀ m ≥ n, (trace (Campus.program Sessions.oneSession)
      (Campus.arrive fun _ : Unit => .application ⟨.ofNat 1, .student⟩
        (.create ⟨.ofNat 2, [], none⟩))
      (fun n => ((), ⟨.untroubled (.ofNat 3) n,
        .untroubled (.ofNat 4) n,
        .untroubled (.ofNat 5) (.ofNat 6) n, some ⟨none, by decide⟩, .null, .null⟩)) m).task () =
          t :=
  calls_answered _ _ _ (turns_of_subsingleton _ _ _ _) (awaitsReturn_of_subsingleton _ _ _ _) ()

end Answers

end CampusHire.RequestsEnd
