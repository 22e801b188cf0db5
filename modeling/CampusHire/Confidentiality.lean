import CampusHire.Authorship
import CampusHire.CandidateAccess
import CampusHire.QueryPermissions

/-!
# Who sees what

What an answer shows of the tables, and to whom.  An application goes to its student and to
coordinators, a query to its student and to its coordinator, or to all coordinators while it
has none, a notification to its user alone.  Registrations go to students, whoever has
registered, and to the coordinator of the opportunity, their export to coordinators only; a
profile goes to everybody with a token.  Without a token that validates none of this is shown
(`answers_confined`).
-/

namespace CampusHire.Confidentiality

open CampusHire Gateway PublicApi Accountability SerialRun Perimeter
open CampusHire.ApplicationService (Application)
open CampusHire.QueryService (QueryResponse)
open CampusHire.CommunicationsService (Notification)
open CampusHire.OpportunityService (Registration)

/-! ## What an answer shows -/

def applicationsIn : Answer → List Application
  | .application app => [app]
  | .records (.applications apps) => apps
  | .records (.application (.ok app)) => [app]
  | .records (.timeline (.ok timeline)) => [timeline.application]
  | _ => []

def queriesIn : Answer → List QueryResponse
  | .query (.query response) => [response]
  | .query (.queries responses) => responses
  | .records (.queries responses) => responses
  | _ => []

def notificationsIn : Answer → List Notification
  | .notification note => [note]
  | .records (.notifications notes) => notes
  | _ => []

def registrationsIn : Answer → List Registration
  | .opportunity (.registration reg) => [reg]
  | .page (.registrations rows) => rows
  | _ => []

def profilesIn : Answer → List AuthService.StudentProfile
  | .profile profile => [profile]
  | _ => []

/-- The registrations of an opportunity as a workbook. -/
def isExport : Answer → Bool
  | .page .workbook => true
  | _ => false

/-- Nobody's records are in the answer. -/
structure Quiet (answer : Answer) : Prop where
  applications : applicationsIn answer = []
  queries : queriesIn answer = []
  notifications : notificationsIn answer = []
  registrations : registrationsIn answer = []
  profiles : profilesIn answer = []
  exports : isExport answer = false

/-- The user may see what is in the answer; `s` are the opportunities. -/
structure Confined (s : OpportunityService.State) (user : CurrentUser) (answer : Answer) :
    Prop where
  applications : ∀ a ∈ applicationsIn answer,
    user.role = .coordinator ∨ a.studentId = user.id
  queries : ∀ response ∈ queriesIn answer,
    QueryService.visible user.id user.role response.query = true ∧
      ∀ m ∈ response.messages, m.queryId = response.query.id
  notifications : ∀ n ∈ notificationsIn answer, n.userId = user.id
  registrations : ∀ reg ∈ registrationsIn answer, user.role = .student ∨
    ∃ o, OpportunityService.findOpportunity s reg.opportunityId = some o ∧
      o.coordinatorId = user.id
  exports : isExport answer = true → user.role = .coordinator

section Answers

variable {s : OpportunityService.State} {user : CurrentUser} {answer : Answer} {α : Type}
  {body : α → Answer} {result : Except ServiceError α}

theorem quiet_status (code : Nat) : Quiet (.status code) := ⟨rfl, rfl, rfl, rfl, rfl, rfl⟩

theorem Confined.of_nothing (happlications : applicationsIn answer = [])
    (hqueries : queriesIn answer = []) (hnotifications : notificationsIn answer = [])
    (hregistrations : registrationsIn answer = []) (hexports : isExport answer = false) :
    Confined s user answer where
  applications := by simp [happlications]
  queries := by simp [hqueries]
  notifications := by simp [hnotifications]
  registrations := by simp [hregistrations]
  exports := by simp [hexports]

theorem Quiet.confined (h : Quiet answer) : Confined s user answer :=
  .of_nothing h.applications h.queries h.notifications h.registrations h.exports

theorem quiet_answerOf (h : ∀ a, result = .ok a → Quiet (body a)) :
    Quiet (answerOf body result) := by
  rcases result with e | a
  · cases e with
    | http code detail => exact quiet_status code
    | _ => exact quiet_status 500
  · exact h a rfl

theorem confined_answerOf (h : ∀ a, result = .ok a → Confined s user (body a)) :
    Confined s user (answerOf body result) := by
  rcases result with e | a
  · cases e with
    | http code detail => exact (quiet_status code).confined
    | _ => exact (quiet_status 500).confined
  · exact h a rfl

end Answers

/-! ## Handlers that write -/

theorem ok_of_map {ε α β : Type} {f : α → β} {result : Except ε α} {b : β}
    (h : result.map f = .ok b) : ∃ a, result = .ok a ∧ f a = b := by
  cases result with
  | error e => cases h
  | ok a =>
    cases h
    exact ⟨a, rfl, rfl⟩

theorem shown_application {s : ApplicationService.State} {env : ApplicationService.Env}
    {user : CurrentUser} {request : ApplicationService.Request} {app : Application}
    (h : (ApplicationService.serve s env user request).2 = .ok app) :
    user.role = .coordinator ∨ app.studentId = user.id := by
  cases request with
  | patchStatus id status =>
    left
    by_contra hrole
    rw [ApplicationService.serve, if_pos hrole] at h
    cases h
  | create data =>
    right
    simp only [ApplicationService.serve, ApplicationService.apply] at h
    split at h
    · cases h
    split at h
    · cases h
    split at h
    · cases h
    split at h
    · cases h
    split at h
    · cases h
    rename_i t hins
    split at h
    · cases h
    rename_i found hfound
    -- the id is new, so the row that is read back is the one that was added
    obtain ⟨hfresh, -, happs, -⟩ := ApplicationService.insertApplication_ok hins
    obtain ⟨hmem, hid⟩ := ApplicationService.mem_of_refresh hfound
    have hfoundStudent : found.studentId = user.id := by
      rw [happs] at hmem
      rcases List.mem_append.mp hmem with hold | hnew
      · exact absurd hid (hfresh found hold)
      · rw [List.mem_singleton.mp hnew]
        rfl
    unfold ApplicationService.publishFor at h
    obtain ⟨-, -, rfl⟩ := ok_of_map h
    exact hfoundStudent
  | withdraw id =>
    right
    simp only [ApplicationService.serve, ApplicationService.withdraw] at h
    split at h
    · cases h
    split at h
    · cases h
    rename_i row hrow
    split at h
    · cases h
    rename_i hown
    split at h
    · cases h
    rename_i t hcommit
    obtain rfl : row.id = id := Table.key_of_lookup hrow
    -- the row that is read back is the one that has been written
    have hwritten : ApplicationService.findApplication t row.id =
        some { row with status := "Withdrawn" } := by
      have hfound := ApplicationService.findApplication_writeStatus_of_loaded "Withdrawn" hrow
      rw [ApplicationService.commitWithdrawal_ok hcommit, ApplicationService.findApplication,
        ApplicationService.logAudit_applications,
        show Table.lookup Application.id row.id _ = _ from hfound]
    have hread := (ApplicationService.refresh_eq_ok.mp h).2
    rw [hwritten] at hread
    cases hread
    exact not_not.mp hown

theorem query_of_refresh {s : QueryService.State} {env : QueryService.Env} {id : UUID}
    {response : QueryResponse} (h : QueryService.refresh s env id = .ok response) :
    ∃ q, QueryService.findQuery s id = some q ∧ response = QueryService.respond s q := by
  unfold QueryService.refresh at h
  split at h
  · cases h
  split at h
  · rename_i q hq
    cases h
    exact ⟨q, hq, rfl⟩
  · cases h

/-- The user may see the query, and the messages are the query's. -/
def Shown (user : CurrentUser) (response : QueryResponse) : Prop :=
  QueryService.visible user.id user.role response.query = true ∧
    ∀ m ∈ response.messages, m.queryId = response.query.id

theorem shown_respond (s : QueryService.State) {user : CurrentUser} {q : QueryService.Query}
    (h : QueryService.visible user.id user.role q = true) :
    Shown user (QueryService.respond s q) := by
  refine ⟨h, ?_⟩
  intro m hm
  have hquery : m.queryId = q.id := by simpa using (List.mem_filter.mp hm).2
  exact hquery

/-- What a session that loaded the stored row writes. -/
theorem coordinator_writeColumns (loaded assigned : QueryService.Query) :
    (QueryService.writeColumns loaded assigned loaded).coordinatorId = assigned.coordinatorId := by
  unfold QueryService.writeColumns
  dsimp only
  split
  · rename_i hsame
    exact hsame.symm
  · rfl

theorem visible_of_coordinator {userId : UUID} {q : QueryService.Query}
    (h : q.coordinatorId = some userId ∨ q.coordinatorId = none) :
    QueryService.visible userId .coordinator q = true := by
  unfold QueryService.visible
  rcases h with h | h
  · simp [h]
  · simp [h]

theorem shown_createQuery {s : QueryService.State} {env : QueryService.Env}
    {user : CurrentUser} {data : QueryService.QueryCreate} {response : QueryResponse}
    (hrole : user.role = .student)
    (h : (QueryService.createQuery s env user.id data).2 = .ok response) :
    Shown user response := by
  unfold QueryService.createQuery at h
  split at h
  · cases h
  rename_i t hins
  obtain ⟨q, hfound, rfl⟩ := query_of_refresh h
  refine shown_respond t ?_
  -- the id is new, so the row that is read back is the one that was added
  obtain ⟨hfresh, -, heq⟩ := QueryService.insertQuery_ok hins
  have hmem : q ∈ s.queries ++ [QueryService.newQuery env user.id data] := by
    have hq : q ∈ t.queries := Table.mem_of_lookup hfound
    rw [heq] at hq
    exact hq
  have hid : q.id = env.queryId := Table.key_of_lookup hfound
  rcases List.mem_append.mp hmem with hold | hnew
  · exact absurd hid (hfresh q hold)
  · rw [List.mem_singleton.mp hnew, hrole]
    exact decide_eq_true rfl

theorem shown_replyQuery {s : QueryService.State} {env : QueryService.Env}
    {user : CurrentUser} {id : UUID} {body : String} {response : QueryResponse}
    (h : (QueryService.replyQuery s env id user.id user.role body).2 = .ok response) :
    Shown user response := by
  unfold QueryService.replyQuery at h
  split at h
  · cases h
  rename_i loaded hloaded
  split at h
  · cases h
  rename_i hown
  split at h
  · cases h
  rename_i t hcommit
  obtain ⟨q, hfound, rfl⟩ := query_of_refresh h
  refine shown_respond t ?_
  have hid : loaded.id = id := Table.key_of_lookup hloaded
  subst hid
  rw [QueryService.findQuery_after_commit rfl hloaded (QueryService.commitReply_ok hcommit).2.1]
    at hfound
  obtain rfl := Option.some.inj hfound
  rcases hrole : user.role with _ | _
  · have hstudent : loaded.studentId = user.id := by
      by_contra hne
      exact hown ⟨hrole, hne⟩
    exact decide_eq_true hstudent
  · -- the coordinator who replies takes the query over
    have hassigned := coordinator_writeColumns loaded
      (QueryService.replied loaded user.id .coordinator)
    exact visible_of_coordinator (Or.inl hassigned)

theorem shown_updateQueryStatus {s : QueryService.State} {env : QueryService.Env}
    {user : CurrentUser} {id : UUID} {status : QueryService.QueryStatus}
    {response : QueryResponse} (hrole : user.role = .coordinator)
    (h : (QueryService.updateQueryStatus s env id user.id status).2 = .ok response) :
    Shown user response := by
  unfold QueryService.updateQueryStatus at h
  split at h
  · cases h
  rename_i loaded hloaded
  split at h
  · cases h
  rename_i hother
  split at h
  · cases h
  rename_i t hcommit
  obtain ⟨q, hfound, rfl⟩ := query_of_refresh h
  refine shown_respond t ?_
  have hid : loaded.id = id := Table.key_of_lookup hloaded
  subst hid
  rw [QueryService.findQuery_after_commit rfl hloaded
    (by rw [QueryService.commitStatus_ok hcommit])] at hfound
  obtain rfl := Option.some.inj hfound
  -- the assignment is as it was when it was checked
  rw [hrole]
  apply visible_of_coordinator
  rw [coordinator_writeColumns]
  rcases hcoordinator : loaded.coordinatorId with _ | c
  · exact Or.inr rfl
  · have hc : c = user.id := by simpa [hcoordinator] using hother
    exact Or.inl (congrArg some hc)

theorem shown_query {s : QueryService.State} {env : QueryService.Env} {user : CurrentUser}
    {request : QueryService.Request} {response : QueryResponse}
    (h : response ∈ queriesIn (answerOf .query (QueryService.serve s env user request).2)) :
    Shown user response := by
  have hone : ∀ {result : Except ServiceError QueryResponse},
      response ∈ queriesIn (answerOf .query (result.map .query)) → result = .ok response := by
    intro result hmem
    rcases result with e | found
    · cases e <;> cases hmem
    · rw [List.mem_singleton.mp hmem]
  cases request with
  | getQueries =>
    obtain ⟨q, hq, rfl⟩ := List.mem_map.mp h
    exact shown_respond s (QueryPermissions.mem_listQueries.mp hq).2
  | postQuery data =>
    simp only [QueryService.serve] at h
    split at h
    · cases h
    · rename_i hrole
      exact shown_createQuery (not_not.mp hrole) (hone h)
  | postReply id body => exact shown_replyQuery (hone h)
  | patchQueryStatus id status =>
    simp only [QueryService.serve] at h
    split at h
    · cases h
    · rename_i hrole
      exact shown_updateQueryStatus (not_not.mp hrole) (hone h)

theorem shown_notification {s : CommunicationsService.State} {env : CommunicationsService.Env}
    {notificationId userId : UUID} {n : Notification}
    (hids : (s.notifications.map Notification.id).Nodup)
    (h : (CommunicationsService.markRead s env notificationId userId).2 = .ok n) :
    n.userId = userId := by
  unfold CommunicationsService.markRead at h
  split at h
  · cases h
  rename_i note hnote
  have howner : note.userId = userId := by
    have hfound := List.find?_some hnote
    simp only [Bool.and_eq_true, decide_eq_true_eq] at hfound
    exact hfound.2
  split at h
  · cases h
  rename_i t hcommit
  obtain ⟨hmem, hid⟩ := CommunicationsService.mem_of_refresh h
  rw [CommunicationsService.commitRead_ok hcommit] at hmem
  rcases Table.mem_modify.mp hmem with ⟨-, hne⟩ | ⟨old, hold, hsame, rfl⟩
  · exact absurd hid hne
  · obtain rfl : old = note :=
      List.inj_on_of_nodup_map hids hold (List.mem_of_find?_eq_some hnote) hsame
    exact howner

/-- Only a student who registers is answered with a registration. -/
theorem registers_of_registration {s : OpportunityService.State} {env : OpportunityService.Env}
    {user : CurrentUser} {request : OpportunityService.Request} {reg : Registration}
    (h : (OpportunityService.serve s env (.request user request)).2 = .ok (.registration reg)) :
    user.role = .student ∧ ∃ id data, request = .createRegistration id data := by
  cases request with
  | createOpp data =>
    simp only [OpportunityService.serve] at h
    split at h
    · cases h
    · obtain ⟨_, -, hanswer⟩ := ok_of_map h
      cases hanswer
  | patchOpp id data =>
    simp only [OpportunityService.serve] at h
    split at h
    · cases h
    · obtain ⟨_, -, hanswer⟩ := ok_of_map h
      cases hanswer
  | createRegistration id data =>
    simp only [OpportunityService.serve] at h
    split at h
    · cases h
    · rename_i hrole
      exact ⟨not_not.mp hrole, id, data, rfl⟩

/-! ## Handlers that read -/

theorem confined_respond (s : OpportunityService.State) (records : StudentIsolation.State)
    (user : CurrentUser) (read : StudentIsolation.Read) :
    Confined s user (.records (StudentIsolation.respond records user read)) := by
  have hone : ∀ {id app}, ApplicationService.getApplication records.application user id =
      .ok app → user.role = .coordinator ∨ app.studentId = user.id := by
    intro id app h
    have hown := (CandidateAccess.getApplication_eq_ok.mp h).2
    rcases hrole : user.role with _ | _
    · exact Or.inr (hown hrole)
    · exact Or.inl rfl
  cases read with
  | listApplications =>
    refine ⟨?_, by simp [queriesIn, StudentIsolation.respond],
      by simp [notificationsIn, StudentIsolation.respond], by simp [registrationsIn],
      by simp [isExport]⟩
    intro a ha
    have hmem := Table.mem_orderByDesc.mp ha
    rcases hrole : user.role with _ | _
    · rw [hrole] at hmem
      exact Or.inr (by simpa using (List.mem_filter.mp hmem).2)
    · exact Or.inl rfl
  | getApplication id =>
    rcases hget : ApplicationService.getApplication records.application user id with e | app
    · simp only [StudentIsolation.respond, hget]
      exact .of_nothing rfl rfl rfl rfl rfl
    · simp only [StudentIsolation.respond, hget]
      refine ⟨?_, by simp [queriesIn], by simp [notificationsIn], by simp [registrationsIn],
        by simp [isExport]⟩
      intro a ha
      rw [List.mem_singleton.mp ha]
      exact hone hget
  | timeline id =>
    rcases hget : ApplicationService.timeline records.application user id with e | line
    · simp only [StudentIsolation.respond, hget]
      exact .of_nothing rfl rfl rfl rfl rfl
    · simp only [StudentIsolation.respond, hget]
      refine ⟨?_, by simp [queriesIn], by simp [notificationsIn], by simp [registrationsIn],
        by simp [isExport]⟩
      intro a ha
      obtain ⟨app, happ, rfl⟩ := ok_of_map hget
      rw [List.mem_singleton.mp ha]
      exact hone happ
  | listQueries =>
    refine ⟨by simp [applicationsIn, StudentIsolation.respond], ?_,
      by simp [notificationsIn, StudentIsolation.respond], by simp [registrationsIn],
      by simp [isExport]⟩
    intro response hresponse
    obtain ⟨q, hq, rfl⟩ := List.mem_map.mp hresponse
    exact shown_respond records.queries (QueryPermissions.mem_listQueries.mp hq).2
  | listNotifications =>
    refine ⟨by simp [applicationsIn, StudentIsolation.respond],
      by simp [queriesIn, StudentIsolation.respond], ?_, by simp [registrationsIn],
      by simp [isExport]⟩
    intro n hn
    simpa using (List.mem_filter.mp (Table.mem_orderByDesc.mp hn)).2

/-- A coordinator reads the registrations of the coordinator's own opportunities. -/
theorem confined_listRegistrations {s : OpportunityService.State} {env : OpportunityService.Env}
    {user : CurrentUser} {opportunityId : UUID} {page : OpportunityService.Page}
    (h : OpportunityService.read s env (.listRegistrations user opportunityId) = .ok page) :
    Confined s user (.page page) := by
  simp only [OpportunityService.read, OpportunityService.getOpportunity] at h
  split at h
  · cases h
  rename_i opp hget
  split at h
  · cases h
  rename_i hown
  cases h
  have hopp : OpportunityService.findOpportunity s opportunityId = some opp := by
    split at hget
    · rename_i found hfound
      cases hget
      exact hfound
    · cases hget
  obtain rfl : opp.id = opportunityId := Table.key_of_lookup hopp
  refine ⟨by simp [applicationsIn], by simp [queriesIn], by simp [notificationsIn], ?_,
    by simp [isExport]⟩
  intro reg hreg
  have hreg' : reg.opportunityId = opp.id := by simpa using (List.mem_filter.mp hreg).2
  rcases hrole : user.role with _ | _
  · exact Or.inl rfl
  · refine Or.inr ⟨opp, by rw [hreg', hopp], ?_⟩
    by_contra hne
    exact hown ⟨hrole, hne⟩

theorem confined_exportRegistrations {s : OpportunityService.State}
    {env : OpportunityService.Env} {user : CurrentUser} {opportunityId : UUID}
    {page : OpportunityService.Page}
    (h : OpportunityService.read s env (.exportRegistrations user opportunityId) = .ok page) :
    Confined s user (.page page) := by
  simp only [OpportunityService.read] at h
  split at h
  · cases h
  split at h
  · cases h
  rename_i hown
  obtain ⟨_, -, rfl⟩ := ok_of_map h
  refine ⟨by simp [applicationsIn], by simp [queriesIn], by simp [notificationsIn],
    by simp [registrationsIn], ?_⟩
  intro _
  by_contra hrole
  exact hown (Or.inl hrole)

/-! ## Handlers -/

section Site

variable {site : Site}

/-- **What a user is shown.** -/
theorem confined_performUser {store : Store} {env : PublicApi.Env} {user : CurrentUser}
    {call : UserCall}
    (hids : (store.records.communications.notifications.map Notification.id).Nodup) :
    Confined store.opportunities user (performUser site store env user call).2 := by
  cases call with
  | me =>
    simp only [performUser]
    split
    · exact (quiet_status 404).confined
    · exact .of_nothing rfl rfl rfl rfl rfl
    · apply confined_answerOf
      intro a ha
      cases ha
  | putProfile data =>
    apply confined_answerOf
    intro profile _
    exact .of_nothing rfl rfl rfl rfl rfl
  | opportunity request =>
    apply confined_answerOf
    intro response hresponse
    cases response with
    | registration reg =>
      have hstudent := (registers_of_registration hresponse).1
      refine ⟨by simp [applicationsIn], by simp [queriesIn], by simp [notificationsIn], ?_,
        by simp [isExport]⟩
      intro _ _
      exact Or.inl hstudent
    | _ => exact .of_nothing rfl rfl rfl rfl rfl
  | listRegistrations opportunityId =>
    apply confined_answerOf
    intro page hpage
    exact confined_listRegistrations hpage
  | exportRegistrations opportunityId =>
    apply confined_answerOf
    intro page hpage
    exact confined_exportRegistrations hpage
  | application request =>
    apply confined_answerOf
    intro app happ
    refine ⟨?_, by simp [queriesIn], by simp [notificationsIn], by simp [registrationsIn],
      by simp [isExport]⟩
    intro a ha
    rw [List.mem_singleton.mp ha]
    exact shown_application happ
  | query request =>
    apply confined_answerOf
    intro answer hanswer
    refine ⟨by simp [applicationsIn], ?_, by simp [notificationsIn], by simp [registrationsIn],
      by simp [isExport]⟩
    intro response hresponse
    have hshown : response ∈ queriesIn (answerOf .query
        (QueryService.serve store.records.queries env.query user request).2) := by
      rw [hanswer]
      exact hresponse
    exact shown_query hshown
  | readNotification notificationId =>
    apply confined_answerOf
    intro note hnote
    refine ⟨by simp [applicationsIn], by simp [queriesIn], ?_, by simp [registrationsIn],
      by simp [isExport]⟩
    intro n hn
    rw [List.mem_singleton.mp hn]
    exact shown_notification hids hnote
  | read read => exact confined_respond store.opportunities store.records user read
  | uploadDriveFile file =>
    apply confined_answerOf
    intro url _
    exact .of_nothing rfl rfl rfl rfl rfl
  | uploadResume file =>
    apply confined_answerOf
    intro url _
    exact .of_nothing rfl rfl rfl rfl rfl

theorem confined_performOpen (store : Store) (env : PublicApi.Env) (user : CurrentUser)
    (call : OpenCall) : Confined store.opportunities user (performOpen site store env call).2 := by
  cases call with
  | health => exact .of_nothing rfl rfl rfl rfl rfl
  | listOpps => exact .of_nothing rfl rfl rfl rfl rfl
  | getOpp opportunityId =>
    apply confined_answerOf
    intro page hpage
    obtain ⟨_, -, rfl⟩ := ok_of_map hpage
    exact .of_nothing rfl rfl rfl rfl rfl
  | _ =>
    apply confined_answerOf
    intro a _
    exact .of_nothing rfl rfl rfl rfl rfl

/-- What anybody may call shows nobody's records. -/
theorem quiet_performOpen (store : Store) (env : PublicApi.Env) {call : OpenCall}
    (h : Open call) : Quiet (performOpen site store env call).2 := by
  cases call with
  | listOpps => exact ⟨rfl, rfl, rfl, rfl, rfl, rfl⟩
  | getOpp opportunityId =>
    apply quiet_answerOf
    intro page hpage
    obtain ⟨_, -, rfl⟩ := ok_of_map hpage
    exact ⟨rfl, rfl, rfl, rfl, rfl, rfl⟩
  | identity request =>
    apply quiet_answerOf
    intro a _
    exact ⟨rfl, rfl, rfl, rfl, rfl, rfl⟩
  | serveLocalFile service folder filename =>
    apply quiet_answerOf
    intro a _
    exact ⟨rfl, rfl, rfl, rfl, rfl, rfl⟩
  | validate authorization cookies => exact h.elim
  | getProfile userId => exact h.elim
  | health => exact h.elim

/-- Nor do the two handlers that believe the request's own credentials. -/
theorem quiet_performUser (store : Store) (env : PublicApi.Env) (user : CurrentUser)
    {call : UserCall} (h : Exposed call) : Quiet (performUser site store env user call).2 := by
  cases call with
  | opportunity request =>
    apply quiet_answerOf
    intro response hresponse
    cases response with
    | registration reg =>
      obtain ⟨-, id, data, rfl⟩ := registers_of_registration hresponse
      exact h.elim
    | _ => exact ⟨rfl, rfl, rfl, rfl, rfl, rfl⟩
  | _ => exact h.elim

theorem quiet_of_error {redis : List AuthService.RedisEntry} {now : Time} {r : HttpRequest}
    {body : Body} {answer : Answer} (h : called site redis now r body = .error answer) :
    Quiet answer := by
  have hunrouted : Quiet .unrouted := ⟨rfl, rfl, rfl, rfl, rfl, rfl⟩
  unfold called at h
  split at h
  · cases h
    exact quiet_status _
  unfold dispatch at h
  split at h
  · cases h
    exact hunrouted
  split at h
  · cases h
    exact quiet_status 422
  split at h
  · split at h
    · cases h
      exact quiet_status 422
    · cases h
  · split at h
    · cases h
      exact quiet_status 401
    split at h
    · cases h
      exact quiet_status 422
    · cases h

/-! ## Runs -/

theorem communications_after (files : FileService → FileUploads.Disk) (run : List Event) :
    NotificationErasure.Sound (after site files run).records.communications := by
  have hnew : NotificationErasure.Sound (Store.fresh files).records.communications :=
    ⟨List.nodup_nil, fun _ h => by cases h⟩
  refine (throughout_of_step (P := fun store : Store =>
    NotificationErasure.Sound store.records.communications) ?_ hnew run).last
  intro store e h
  cases e with
  | consume message env =>
    simp only [step, record, StudentIsolation.step]
    split
    · exact NotificationErasure.sound_handle h env _
    · exact h
  | processDeadlines env => exact h
  | http r body env =>
    rcases hcalled : called site store.identity.redis env.clock r body with answer | call
    · rw [step_http_error hcalled]
      exact h
    rw [step_http_ok hcalled]
    rcases call with c | ⟨user, c⟩
    · cases c with
      | _ => exact h
    · cases c with
      | readNotification id =>
        exact NotificationErasure.sound_markRead h env.notification id user.id
      | _ => exact h

/-- **Who sees what.**  In every state that a run reaches, whatever request comes to the
    gateway: the answer is one that the user of a token that validates may see, or it shows
    nobody's records. -/
theorem answers_confined (files : FileService → FileUploads.Disk) (run : List Event)
    (r : HttpRequest) (body : Body) (env : PublicApi.Env) :
    let store := after site files run
    let answer := (receive site store env r body).2
    Quiet answer ∨ ∃ user, validate site.deployment store.identity.redis env.clock r = .ok user ∧
      Confined store.opportunities user answer := by
  dsimp only
  unfold receive
  split
  · rename_i hcalled
    exact Or.inl (quiet_of_error hcalled)
  rename_i call hcalled
  rcases called_cases hcalled with ⟨user, hvalid, ⟨c, rfl⟩ | ⟨c, rfl⟩⟩ | ⟨c, rfl, hopen⟩ |
    ⟨user, c, rfl, hexposed, -, -⟩
  · exact Or.inr ⟨user, hvalid, confined_performOpen _ env user c⟩
  · exact Or.inr ⟨user, hvalid, confined_performUser (communications_after files run).ids⟩
  · exact Or.inl (quiet_performOpen _ env hopen)
  · exact Or.inl (quiet_performUser _ env user hexposed)

end Site

end CampusHire.Confidentiality
