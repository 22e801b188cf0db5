import CampusHire.Accountability

/-!
# Every row has its author

The rows of the application service and of the queries, each with the signed request that it
goes back to.  What a row says of people is who signed: the student of an application, the
actor of a stage, the sender of a message.  A status was set by the student or by a
coordinator, and "Withdrawn" by the student.
-/

namespace CampusHire.Authorship

open CampusHire AuthService PublicApi Accountability SerialRun
open CampusHire.Perimeter (Exposed)
open CampusHire.ApplicationService (Application WorkflowStage AuditLog newApplication
  findApplication fetchProfile)
open CampusHire.QueryService (Query QueryMessage QueryStatus)

section Site

variable {site : Site} {files : FileService → FileUploads.Disk} {run : List Event}

/-! ## Applications -/

/-- The tables of the application service change with its requests only. -/
theorem application_step (site : Site) (store : Store) (e : Event) :
    (step site store e).records.application = store.records.application ∨
      ∃ r body env user request, e = .http r body env ∧
        called site store.identity.redis env.clock r body =
          .ok (.user user (.application request)) ∧
        (step site store e).records.application =
          (ApplicationService.serve store.records.application env.application user
            request).1 := by
  cases e with
  | consume message env =>
    left
    simp only [step, record, StudentIsolation.step]
    split
    · rfl
    · rfl
  | processDeadlines env => exact Or.inl rfl
  | http r body env =>
    rcases hcalled : called site store.identity.redis env.clock r body with answer | call
    · rw [step_http_error hcalled]
      exact Or.inl rfl
    rw [step_http_ok hcalled]
    rcases call with c | ⟨user, c⟩
    · cases c with
      | _ => exact Or.inl rfl
    · cases c with
      | application request => exact Or.inr ⟨r, body, env, user, request, rfl, hcalled, rfl⟩
      | _ => exact Or.inl rfl

theorem audited_after (run : List Event) :
    AuditTrail.Audited (after site files run).records.application := by
  refine (throughout_of_step (P := fun store : Store =>
    AuditTrail.Audited store.records.application) ?_ AuditTrail.audited_empty run).last
  intro store e h
  rcases application_step site store e with hsame |
    ⟨r, body, env, user, request, -, -, heq⟩
  · rw [hsame]
    exact h
  · rw [heq]
    exact AuditTrail.audited_handle h ⟨user, request, env.application⟩

/-- What only requests of the application service bring about, signed requests do. -/
theorem application_origin {R : ApplicationService.State → Prop}
    {P : ApplicationService.State → ApplicationService.Env → CurrentUser →
      ApplicationService.Request → Prop}
    (hserve : ∀ s env user request, AuditTrail.Audited s →
      R (ApplicationService.serve s env user request).1 → R s ∨ P s env user request)
    (hnew : ¬ R .empty) (hrun : UnforgedRun site files run)
    (h : R (after site files run).records.application) :
    Took (fun past e => ∃ env user request,
      SignedCall site files past e env user (.application request) ∧
      P (after site files past).records.application env.application user request) run := by
  refine (signed_origin (R := fun store => R store.records.application)
    (P := fun store env user call => ∃ request, call = .application request ∧
      P store.records.application env.application user request) (fun _ _ h => h) ?_ hnew hrun
    h).mono ?_
  · rintro past e - hR
    rcases application_step site (after site files past) e with hsame |
      ⟨r, body, env, user, request, rfl, hcalled, heq⟩
    · rw [hsame] at hR
      exact Or.inl hR
    · rw [heq] at hR
      rcases hserve _ _ _ _ (audited_after past) hR with hold | hP
      · exact Or.inl hold
      · exact Or.inr ⟨r, body, env, user, .application request, rfl, hcalled, False.elim, request,
          rfl, hP⟩
  · rintro past e ⟨env, user, call, hsigned, request, rfl, hP⟩
    exact ⟨env, user, request, hsigned, hP⟩

/-- The student's request submits the application, of which only the status may change. -/
def Submits (a : Application) (env : ApplicationService.Env) (user : CurrentUser) :
    ApplicationService.Request → Prop
  | .create data => user = ⟨a.studentId, .student⟩ ∧ ∃ profile,
      fetchProfile env.profile = .ok profile ∧
      a = { newApplication env user.id data profile with status := a.status }
  | _ => False

/-- The request gives the application its status. -/
def Sets (a : Application) (env : ApplicationService.Env) (user : CurrentUser) :
    ApplicationService.Request → Prop
  | .create _ => user = ⟨a.studentId, .student⟩ ∧ a.id = env.applicationId ∧ a.status = "Applied"
  | .withdraw id => user = ⟨a.studentId, .student⟩ ∧ a.id = id ∧ a.status = "Withdrawn"
  | .patchStatus id status => user.role = .coordinator ∧ a.id = id ∧ a.status = status.value

/-- The request begins the stage. -/
def Begins (st : WorkflowStage) (env : ApplicationService.Env) (user : CurrentUser) :
    ApplicationService.Request → Prop
  | .create _ => user.role = .student ∧ st.applicationId = env.applicationId ∧
      st.stageName = "Registration" ∧ st.enteredAt = env.txnStart ∧ st.actorId = none
  | .withdraw _ => False
  | .patchStatus id status => user.role = .coordinator ∧ st.applicationId = id ∧
      st.stageName = status.value ∧ st.enteredAt = env.txnStart ∧ st.actorId = some user.id

/-- The request leaves the entry. -/
def Logs (entry : AuditLog) (s : ApplicationService.State) (env : ApplicationService.Env)
    (user : CurrentUser) : ApplicationService.Request → Prop
  | .create _ => user.role = .student ∧
      entry = ⟨env.applicationId, "application", "created", some [("status", .str "Applied")]⟩
  | .withdraw id => user.role = .student ∧
      (∃ row, findApplication s id = some row ∧ row.studentId = user.id) ∧
      entry = ⟨id, "application", "withdrawn", none⟩
  | .patchStatus id status => user.role = .coordinator ∧
      ∃ row, findApplication s id = some row ∧
        entry = ⟨id, "application", "status_changed",
          some [("from", .str row.status), ("to", .str status.value)]⟩

theorem currentUser_eq {user : CurrentUser} {id : UUID} {role : UserRole} (hid : user.id = id)
    (hrole : user.role = role) : user = ⟨id, role⟩ := by
  cases user
  cases hid
  cases hrole
  rfl

theorem submits_serve {s : ApplicationService.State} {env : ApplicationService.Env}
    {user : CurrentUser} {request : ApplicationService.Request} {a : Application}
    (h : ∃ b ∈ (ApplicationService.serve s env user request).1.applications,
      a = { b with status := a.status }) :
    (∃ b ∈ s.applications, a = { b with status := a.status }) ∨ Submits a env user request := by
  obtain ⟨b, hb, hab⟩ := h
  have hold : ∀ old ∈ s.applications, b = { old with status := b.status } →
      ∃ b ∈ s.applications, a = { b with status := a.status } := by
    intro old hmem heq
    refine ⟨old, hmem, ?_⟩
    rw [heq] at hab
    exact hab
  rcases ApplicationService.serve_cases s env user request with hsame |
    ⟨data, profile, t, published, rfl, hrole, -, hprofile, hins, heq⟩ |
    ⟨id, row, rfl, -, -, -, hcommit⟩ | ⟨id, status, row, t, published, rfl, -, -, hcommit, heq⟩
  · rw [hsame] at hb
    exact Or.inl (hold b hb rfl)
  · have hb' : b ∈ t.applications := by
      rw [heq] at hb
      exact hb
    rw [(ApplicationService.insertApplication_ok hins).2.2.1] at hb'
    rcases List.mem_append.mp hb' with hmem | hmem
    · exact Or.inl (hold b hmem rfl)
    · right
      rw [List.mem_singleton.mp hmem] at hab
      refine ⟨currentUser_eq ?_ hrole, profile, hprofile, hab⟩
      rw [hab]
      rfl
  · rw [ApplicationService.commitWithdrawal_ok hcommit,
      ApplicationService.logAudit_applications] at hb
    obtain ⟨old, hmem, hb'⟩ := ApplicationService.mem_writeStatus hb
    exact Or.inl (hold old hmem hb')
  · have hb' : b ∈ t.applications := by
      rw [heq] at hb
      exact hb
    rw [(ApplicationService.commitStatus_ok hcommit).2.1] at hb'
    obtain ⟨old, hmem, hb''⟩ := ApplicationService.mem_writeStatus hb'
    exact Or.inl (hold old hmem hb'')

theorem sets_serve {s : ApplicationService.State} {env : ApplicationService.Env}
    {user : CurrentUser} {request : ApplicationService.Request} {a : Application}
    (hs : AuditTrail.Audited s)
    (h : ∃ b ∈ (ApplicationService.serve s env user request).1.applications,
      b.id = a.id ∧ b.studentId = a.studentId ∧ b.status = a.status) :
    (∃ b ∈ s.applications, b.id = a.id ∧ b.studentId = a.studentId ∧ b.status = a.status) ∨
      Sets a env user request := by
  obtain ⟨b, hb, hid, hstudent, hstatus⟩ := h
  rcases ApplicationService.serve_cases s env user request with hsame |
    ⟨data, profile, t, published, rfl, hrole, -, -, hins, heq⟩ |
    ⟨id, row, rfl, hrole, hrow, hown, hcommit⟩ |
    ⟨id, status, row, t, published, rfl, hrole, hrow, hcommit, heq⟩
  · rw [hsame] at hb
    exact Or.inl ⟨b, hb, hid, hstudent, hstatus⟩
  · have hb' : b ∈ t.applications := by
      rw [heq] at hb
      exact hb
    rw [(ApplicationService.insertApplication_ok hins).2.2.1] at hb'
    rcases List.mem_append.mp hb' with hmem | hmem
    · exact Or.inl ⟨b, hmem, hid, hstudent, hstatus⟩
    · right
      rw [List.mem_singleton.mp hmem] at hid hstudent hstatus
      exact ⟨currentUser_eq hstudent hrole, hid.symm, hstatus.symm⟩
  · rw [ApplicationService.commitWithdrawal_ok hcommit,
      ApplicationService.logAudit_applications] at hb
    have hmem := Table.mem_of_lookup hrow
    by_cases hrowId : b.id = row.id
    · -- the row that has been withdrawn is the student's own
      right
      obtain ⟨old, hold, hb'⟩ := ApplicationService.mem_writeStatus hb
      have hsame : old = row := by
        apply List.inj_on_of_nodup_map hs.ids hold hmem
        rw [← hrowId, hb']
      have hset := AuditTrail.status_of_mem_writeStatus hs.ids hmem hb hrowId
      refine ⟨currentUser_eq ?_ hrole, ?_, hstatus.symm.trans hset⟩
      · rw [← hstudent, hb', hsame]
        exact hown.symm
      · rw [← hid, hrowId]
        exact Table.key_of_lookup hrow
    · exact Or.inl ⟨b, AuditTrail.mem_of_mem_writeStatus hb hrowId, hid, hstudent, hstatus⟩
  · have hb' : b ∈ t.applications := by
      rw [heq] at hb
      exact hb
    rw [(ApplicationService.commitStatus_ok hcommit).2.1] at hb'
    by_cases hrowId : b.id = row.id
    · right
      have hset := AuditTrail.status_of_mem_writeStatus hs.ids (Table.mem_of_lookup hrow) hb'
        hrowId
      refine ⟨hrole, ?_, hstatus.symm.trans hset⟩
      rw [← hid, hrowId]
      exact Table.key_of_lookup hrow
    · exact Or.inl ⟨b, AuditTrail.mem_of_mem_writeStatus hb' hrowId, hid, hstudent, hstatus⟩

/-- Closing a stage sets its end. -/
theorem mem_closeStage {stages : List WorkflowStage} {clock : Time}
    {current : Option WorkflowStage} {x : WorkflowStage}
    (h : x ∈ ApplicationService.closeStage stages clock current) :
    ∃ old ∈ stages, x = { old with exitedAt := x.exitedAt } := by
  rcases current with _ | current
  · exact ⟨x, h, rfl⟩
  · rcases Table.mem_modify.mp h with ⟨hx, -⟩ | ⟨old, hold, -, rfl⟩
    · exact ⟨x, hx, rfl⟩
    · exact ⟨old, hold, rfl⟩

theorem begins_serve {s : ApplicationService.State} {env : ApplicationService.Env}
    {user : CurrentUser} {request : ApplicationService.Request} {st : WorkflowStage}
    (h : ∃ x ∈ (ApplicationService.serve s env user request).1.stages,
      st = { x with exitedAt := st.exitedAt }) :
    (∃ x ∈ s.stages, st = { x with exitedAt := st.exitedAt }) ∨ Begins st env user request := by
  obtain ⟨x, hx, hst⟩ := h
  rcases ApplicationService.serve_cases s env user request with hsame |
    ⟨data, profile, t, published, rfl, hrole, -, -, hins, heq⟩ |
    ⟨id, row, rfl, -, -, -, hcommit⟩ |
    ⟨id, status, row, t, published, rfl, hrole, hrow, hcommit, heq⟩
  · rw [hsame] at hx
    exact Or.inl ⟨x, hx, hst⟩
  · have hx' : x ∈ t.stages := by
      rw [heq] at hx
      exact hx
    rw [(ApplicationService.insertApplication_ok hins).2.2.2.1] at hx'
    rcases List.mem_append.mp hx' with hmem | hmem
    · exact Or.inl ⟨x, hmem, hst⟩
    · right
      rw [hst, List.mem_singleton.mp hmem]
      exact ⟨hrole, rfl, rfl, rfl, rfl⟩
  · rw [ApplicationService.commitWithdrawal_ok hcommit, ApplicationService.logAudit_stages,
      ApplicationService.writeStatus_stages] at hx
    exact Or.inl ⟨x, hx, hst⟩
  · have hx' : x ∈ t.stages := by
      rw [heq] at hx
      exact hx
    rw [(ApplicationService.commitStatus_ok hcommit).2.2.1] at hx'
    rcases List.mem_append.mp hx' with hmem | hmem
    · obtain ⟨old, hold, hx⟩ := mem_closeStage hmem
      rw [hx] at hst
      exact Or.inl ⟨old, hold, hst⟩
    · right
      have hid : row.id = id := Table.key_of_lookup hrow
      rw [hst, List.mem_singleton.mp hmem]
      exact ⟨hrole, hid, rfl, rfl, rfl⟩

theorem logs_serve {s : ApplicationService.State} {env : ApplicationService.Env}
    {user : CurrentUser} {request : ApplicationService.Request} {entry : AuditLog}
    (h : entry ∈ (ApplicationService.serve s env user request).1.auditLogs) :
    entry ∈ s.auditLogs ∨ Logs entry s env user request := by
  rcases ApplicationService.serve_cases s env user request with hsame |
    ⟨data, profile, t, published, rfl, hrole, -, -, hins, heq⟩ |
    ⟨id, row, rfl, hrole, hrow, hown, hcommit⟩ |
    ⟨id, status, row, t, published, rfl, hrole, hrow, hcommit, heq⟩
  · rw [hsame] at h
    exact Or.inl h
  · have h' : entry ∈ t.auditLogs := by
      rw [heq] at h
      exact h
    rw [(ApplicationService.insertApplication_ok hins).2.2.2.2.1] at h'
    rcases List.mem_append.mp h' with hold | hnew
    · exact Or.inl hold
    · exact Or.inr ⟨hrole, List.mem_singleton.mp hnew⟩
  · rw [ApplicationService.commitWithdrawal_ok hcommit, ApplicationService.logAudit_auditLogs,
      ApplicationService.writeStatus_auditLogs] at h
    rcases List.mem_append.mp h with hold | hnew
    · exact Or.inl hold
    · rw [Table.key_of_lookup hrow] at hnew
      exact Or.inr ⟨hrole, ⟨row, hrow, hown⟩, List.mem_singleton.mp hnew⟩
  · have h' : entry ∈ t.auditLogs := by
      rw [heq] at h
      exact h
    rw [(ApplicationService.commitStatus_ok hcommit).2.2.2.1] at h'
    rcases List.mem_append.mp h' with hold | hnew
    · exact Or.inl hold
    · rw [Table.key_of_lookup hrow] at hnew
      exact Or.inr ⟨hrole, row, hrow, List.mem_singleton.mp hnew⟩

/-- **Nobody applies, withdraws or decides for another.**  Each application, each status, each
    stage and each entry of the audit log goes back to a signed request of the person who may
    make it. -/
theorem applications_signed (hrun : UnforgedRun site files run) :
    let s := (after site files run).records.application
    (∀ a ∈ s.applications,
      Took (fun past e => ∃ env user request,
        SignedCall site files past e env user (.application request) ∧
        Submits a env.application user request) run ∧
      Took (fun past e => ∃ env user request,
        SignedCall site files past e env user (.application request) ∧
        Sets a env.application user request) run) ∧
    (∀ st ∈ s.stages, Took (fun past e => ∃ env user request,
      SignedCall site files past e env user (.application request) ∧
      Begins st env.application user request) run) ∧
    ∀ entry ∈ s.auditLogs, Took (fun past e => ∃ env user request,
      SignedCall site files past e env user (.application request) ∧
      Logs entry (after site files past).records.application env.application user request) run := by
  refine ⟨?_, ?_, ?_⟩
  · intro a ha
    refine ⟨application_origin (R := fun s => ∃ b ∈ s.applications,
      a = { b with status := a.status }) (P := fun _ => Submits a) ?_ ?_ hrun ⟨a, ha, rfl⟩,
      application_origin (R := fun s => ∃ b ∈ s.applications, b.id = a.id ∧
        b.studentId = a.studentId ∧ b.status = a.status) (P := fun _ => Sets a) ?_ ?_ hrun
        ⟨a, ha, rfl, rfl, rfl⟩⟩
    · exact fun s env user request _ h => submits_serve h
    · rintro ⟨b, hb, -⟩
      cases hb
    · exact fun s env user request hs h => sets_serve hs h
    · rintro ⟨b, hb, -⟩
      cases hb
  · intro st hst
    refine application_origin (R := fun s => ∃ x ∈ s.stages,
      st = { x with exitedAt := st.exitedAt }) (P := fun _ => Begins st) ?_ ?_ hrun ⟨st, hst, rfl⟩
    · exact fun s env user request _ h => begins_serve h
    · rintro ⟨x, hx, -⟩
      cases hx
  · intro entry hentry
    refine application_origin (R := fun s => entry ∈ s.auditLogs) (P := Logs entry) ?_ ?_ hrun
      hentry
    · exact fun s env user request _ h => logs_serve h
    · intro h
      cases h

end Site

/-- A student registers, logs in and applies. -/
def applies : Event :=
  signed "/api/v1/applications" (.obj [("opportunity_id", .str (UUID.ofNat 3).str)])

theorem applies_signed :
    ∃ a ∈ (after (siteOf .student) emptyDisks
        [registers .student, logsIn, applies]).records.application.applications,
      Took (fun past e => ∃ env user request,
        SignedCall (siteOf .student) emptyDisks past e env user (.application request) ∧
        Submits a env.application user request) [registers .student, logsIn, applies] := by
  have hmem : newApplication (.untroubled (.ofNat 4) (.ofNat 4) 0) (.ofNat 1)
      ⟨.ofNat 3, [], none⟩ (.obj []) ∈ (after (siteOf .student) emptyDisks
        [registers .student, logsIn, applies]).records.application.applications := by
    have hcalled : called (siteOf .student) (after (siteOf .student) emptyDisks
        [registers .student, logsIn]).identity.redis 0
        (post "/api/v1/applications" [("access_token", "access")])
        (.json (.obj [("opportunity_id", .str (UUID.ofNat 3).str)])) =
        .ok (.user ⟨.ofNat 1, .student⟩ (.application (.create ⟨.ofNat 3, [], none⟩))) :=
      (called_signed .student _ _ (l := Gateway.applications) rfl rfl).trans rfl
    rw [applies, stepped_signed hcalled]
    dsimp only [perform, performUser, record, StudentIsolation.step]
    rw [(records_loggedIn .student).1]
    exact List.mem_singleton.mpr rfl
  have hrun : UnforgedRun (siteOf .student) emptyDisks [registers .student, logsIn, applies] :=
    unforged_signed .student _ _
  exact ⟨_, hmem, ((applications_signed hrun).1 _ hmem).1⟩

section Site

variable {site : Site} {files : FileService → FileUploads.Disk} {run : List Event}

/-! ## Queries -/

theorem query_step (site : Site) (store : Store) (e : Event) :
    (step site store e).records.queries = store.records.queries ∨
      ∃ r body env user request, e = .http r body env ∧
        called site store.identity.redis env.clock r body = .ok (.user user (.query request)) ∧
        (step site store e).records.queries =
          (QueryService.serve store.records.queries env.query user request).1 := by
  cases e with
  | consume message env =>
    left
    simp only [step, record, StudentIsolation.step]
    split
    · rfl
    · rfl
  | processDeadlines env => exact Or.inl rfl
  | http r body env =>
    rcases hcalled : called site store.identity.redis env.clock r body with answer | call
    · rw [step_http_error hcalled]
      exact Or.inl rfl
    rw [step_http_ok hcalled]
    rcases call with c | ⟨user, c⟩
    · cases c with
      | _ => exact Or.inl rfl
    · cases c with
      | query request => exact Or.inr ⟨r, body, env, user, request, rfl, hcalled, rfl⟩
      | _ => exact Or.inl rfl

theorem queries_after (run : List Event) :
    QueryErasure.Sound (after site files run).records.queries := by
  have hnew : QueryErasure.Sound (Store.fresh files).records.queries :=
    ⟨List.nodup_nil, fun _ h => by cases h⟩
  refine (throughout_of_step (P := fun store : Store =>
    QueryErasure.Sound store.records.queries) ?_ hnew run).last
  intro store e h
  rcases query_step site store e with hsame | ⟨r, body, env, user, request, -, -, heq⟩
  · rw [hsame]
    exact h
  · rw [heq]
    exact QueryErasure.sound_serve h env.query user request

theorem query_origin {R : QueryService.State → Prop}
    {P : QueryService.State → QueryService.Env → CurrentUser → QueryService.Request → Prop}
    (hserve : ∀ s env user request, QueryErasure.Sound s →
      R (QueryService.serve s env user request).1 → R s ∨ P s env user request)
    (hnew : ¬ R .empty) (hrun : UnforgedRun site files run)
    (h : R (after site files run).records.queries) :
    Took (fun past e => ∃ env user request,
      SignedCall site files past e env user (.query request) ∧
      P (after site files past).records.queries env.query user request) run := by
  refine (signed_origin (R := fun store => R store.records.queries)
    (P := fun store env user call => ∃ request, call = .query request ∧
      P store.records.queries env.query user request) (fun _ _ h => h) ?_ hnew hrun h).mono ?_
  · rintro past e - hR
    rcases query_step site (after site files past) e with hsame |
      ⟨r, body, env, user, request, rfl, hcalled, heq⟩
    · rw [hsame] at hR
      exact Or.inl hR
    · rw [heq] at hR
      rcases hserve _ _ _ _ (queries_after past) hR with hold | hP
      · exact Or.inl hold
      · exact Or.inr ⟨r, body, env, user, .query request, rfl, hcalled, False.elim, request, rfl,
          hP⟩
  · rintro past e ⟨env, user, call, hsigned, request, rfl, hP⟩
    exact ⟨env, user, request, hsigned, hP⟩

/-- The student's request asks the query. -/
def Asks (q : Query) (env : QueryService.Env) (user : CurrentUser) : QueryService.Request → Prop
  | .postQuery data => user = ⟨q.studentId, .student⟩ ∧
      q = { QueryService.newQuery env user.id data with
        coordinatorId := q.coordinatorId, status := q.status }
  | _ => False

/-- The request assigns the query to the coordinator: its student names one, or the
    coordinator replies. -/
def Assigns (q : Query) (c : UUID) (env : QueryService.Env) (user : CurrentUser) :
    QueryService.Request → Prop
  | .postQuery data => user = ⟨q.studentId, .student⟩ ∧ q.id = env.queryId ∧
      data.coordinatorId = some c
  | .postReply id _ => user = ⟨c, .coordinator⟩ ∧ q.id = id
  | _ => False

/-- The request gives the query its status. -/
def Moves (q : Query) (env : QueryService.Env) (user : CurrentUser) : QueryService.Request → Prop
  | .postQuery _ => user = ⟨q.studentId, .student⟩ ∧ q.id = env.queryId ∧
      q.status = QueryStatus.open.value
  | .getQueries => False
  | .postReply id _ => user.role = .coordinator ∧ q.id = id ∧
      q.status = QueryStatus.inProgress.value
  | .patchQueryStatus id status => user.role = .coordinator ∧ q.id = id ∧ q.status = status.value

/-- The sender's request brings the message. -/
def Says (m : QueryMessage) (s : QueryService.State) (env : QueryService.Env)
    (user : CurrentUser) : QueryService.Request → Prop
  | .postQuery data => user = ⟨m.senderId, .student⟩ ∧
      m = QueryService.newMessage env env.queryId user.id data.body
  | .postReply id body => m = QueryService.newMessage env id user.id body ∧
      ∃ q, QueryService.findQuery s id = some q ∧ (user.role = .student → q.studentId = user.id)
  | _ => False

/-- A row after an update by a session that has loaded what is stored. -/
theorem mem_updateQuery {s : QueryService.State} {loaded assigned x : Query}
    (hids : (s.queries.map Query.id).Nodup) (hloaded : loaded ∈ s.queries)
    (h : x ∈ (QueryService.updateQuery s loaded assigned).queries) :
    x ∈ s.queries ∨ x = { loaded with
      coordinatorId := assigned.coordinatorId, status := assigned.status } := by
  rcases Table.mem_modify.mp h with ⟨hx, -⟩ | ⟨old, hold, hid, rfl⟩
  · exact Or.inl hx
  · right
    obtain rfl : old = loaded := List.inj_on_of_nodup_map hids hold hloaded hid
    unfold QueryService.writeColumns
    congr 1
    · split
      · rename_i hsame
        exact hsame.symm
      · rfl
    · split
      · rename_i hsame
        exact hsame.symm
      · rfl

theorem asks_serve {s : QueryService.State} {env : QueryService.Env} {user : CurrentUser}
    {request : QueryService.Request} {q : Query}
    (h : ∃ x ∈ (QueryService.serve s env user request).1.queries,
      q = { x with coordinatorId := q.coordinatorId, status := q.status }) :
    (∃ x ∈ s.queries, q = { x with coordinatorId := q.coordinatorId, status := q.status }) ∨
      Asks q env user request := by
  obtain ⟨x, hx, hq⟩ := h
  have hold : ∀ loaded assigned,
      x ∈ (QueryService.updateQuery s loaded assigned).queries →
      ∃ y ∈ s.queries, q = { y with coordinatorId := q.coordinatorId, status := q.status } := by
    intro loaded assigned hmem
    rcases Table.mem_modify.mp hmem with ⟨hx, -⟩ | ⟨old, hold, -, rfl⟩
    · exact ⟨x, hx, hq⟩
    · exact ⟨old, hold, hq⟩
  rcases QueryService.serve_cases s env user request with hsame | ⟨data, rfl, hrole, hins⟩ |
    ⟨id, body, loaded, rfl, -, -, hcommit⟩ | ⟨id, status, loaded, rfl, -, -, -, hcommit⟩
  · rw [hsame] at hx
    exact Or.inl ⟨x, hx, hq⟩
  · rw [(QueryService.insertQuery_ok hins).2.2] at hx
    rcases List.mem_append.mp hx with hmem | hmem
    · exact Or.inl ⟨x, hmem, hq⟩
    · right
      rw [List.mem_singleton.mp hmem] at hq
      have hstudent : q.studentId = user.id := by rw [hq]; rfl
      exact ⟨currentUser_eq hstudent.symm hrole, hq⟩
  · rw [(QueryService.commitReply_ok hcommit).2.1] at hx
    exact Or.inl (hold _ _ hx)
  · rw [QueryService.commitStatus_ok hcommit] at hx
    exact Or.inl (hold _ _ hx)

theorem assigns_serve {s : QueryService.State} {env : QueryService.Env} {user : CurrentUser}
    {request : QueryService.Request} {q : Query} {c : UUID} (hs : QueryErasure.Sound s)
    (h : ∃ x ∈ (QueryService.serve s env user request).1.queries,
      x.id = q.id ∧ x.studentId = q.studentId ∧ x.coordinatorId = some c) :
    (∃ x ∈ s.queries, x.id = q.id ∧ x.studentId = q.studentId ∧ x.coordinatorId = some c) ∨
      Assigns q c env user request := by
  obtain ⟨x, hx, hid, hstudent, hcoordinator⟩ := h
  rcases QueryService.serve_cases s env user request with hsame | ⟨data, rfl, hrole, hins⟩ |
    ⟨id, body, loaded, rfl, hfound, -, hcommit⟩ | ⟨id, status, loaded, rfl, -, hfound, -, hcommit⟩
  · rw [hsame] at hx
    exact Or.inl ⟨x, hx, hid, hstudent, hcoordinator⟩
  · rw [(QueryService.insertQuery_ok hins).2.2] at hx
    rcases List.mem_append.mp hx with hmem | hmem
    · exact Or.inl ⟨x, hmem, hid, hstudent, hcoordinator⟩
    · right
      rw [List.mem_singleton.mp hmem] at hid hstudent hcoordinator
      exact ⟨currentUser_eq hstudent hrole, hid.symm, hcoordinator⟩
  · have hmem := Table.mem_of_lookup hfound
    rw [(QueryService.commitReply_ok hcommit).2.1] at hx
    rcases mem_updateQuery hs.ids hmem hx with hold | rfl
    · exact Or.inl ⟨x, hold, hid, hstudent, hcoordinator⟩
    · rcases hrole : user.role with _ | _
      · -- a student's reply assigns nobody
        rw [hrole] at hcoordinator
        exact Or.inl ⟨loaded, hmem, hid, hstudent, hcoordinator⟩
      · right
        rw [hrole] at hcoordinator
        have hkey : loaded.id = id := Table.key_of_lookup hfound
        exact ⟨currentUser_eq (Option.some.inj hcoordinator) hrole, hid.symm.trans hkey⟩
  · have hmem := Table.mem_of_lookup hfound
    rw [QueryService.commitStatus_ok hcommit] at hx
    rcases mem_updateQuery hs.ids hmem hx with hold | rfl
    · exact Or.inl ⟨x, hold, hid, hstudent, hcoordinator⟩
    · exact Or.inl ⟨loaded, hmem, hid, hstudent, hcoordinator⟩

theorem moves_serve {s : QueryService.State} {env : QueryService.Env} {user : CurrentUser}
    {request : QueryService.Request} {q : Query} (hs : QueryErasure.Sound s)
    (h : ∃ x ∈ (QueryService.serve s env user request).1.queries,
      x.id = q.id ∧ x.studentId = q.studentId ∧ x.status = q.status) :
    (∃ x ∈ s.queries, x.id = q.id ∧ x.studentId = q.studentId ∧ x.status = q.status) ∨
      Moves q env user request := by
  obtain ⟨x, hx, hid, hstudent, hstatus⟩ := h
  rcases QueryService.serve_cases s env user request with hsame | ⟨data, rfl, hrole, hins⟩ |
    ⟨id, body, loaded, rfl, hfound, -, hcommit⟩ |
    ⟨id, status, loaded, rfl, hrole, hfound, -, hcommit⟩
  · rw [hsame] at hx
    exact Or.inl ⟨x, hx, hid, hstudent, hstatus⟩
  · rw [(QueryService.insertQuery_ok hins).2.2] at hx
    rcases List.mem_append.mp hx with hmem | hmem
    · exact Or.inl ⟨x, hmem, hid, hstudent, hstatus⟩
    · right
      rw [List.mem_singleton.mp hmem] at hid hstudent hstatus
      exact ⟨currentUser_eq hstudent hrole, hid.symm, hstatus.symm⟩
  · have hmem := Table.mem_of_lookup hfound
    have hkey : loaded.id = id := Table.key_of_lookup hfound
    rw [(QueryService.commitReply_ok hcommit).2.1] at hx
    rcases mem_updateQuery hs.ids hmem hx with hold | rfl
    · exact Or.inl ⟨x, hold, hid, hstudent, hstatus⟩
    · rcases hrole : user.role with _ | _
      · rw [hrole] at hstatus
        exact Or.inl ⟨loaded, hmem, hid, hstudent, hstatus⟩
      · -- a coordinator's reply moves an open query
        rw [hrole] at hstatus
        simp only [QueryService.replied] at hstatus
        split at hstatus
        · exact Or.inr ⟨hrole, hid.symm.trans hkey, hstatus.symm⟩
        · exact Or.inl ⟨loaded, hmem, hid, hstudent, hstatus⟩
  · have hmem := Table.mem_of_lookup hfound
    have hkey : loaded.id = id := Table.key_of_lookup hfound
    rw [QueryService.commitStatus_ok hcommit] at hx
    rcases mem_updateQuery hs.ids hmem hx with hold | rfl
    · exact Or.inl ⟨x, hold, hid, hstudent, hstatus⟩
    · exact Or.inr ⟨hrole, hid.symm.trans hkey, hstatus.symm⟩

theorem says_serve {s : QueryService.State} {env : QueryService.Env} {user : CurrentUser}
    {request : QueryService.Request} {m : QueryMessage}
    (h : m ∈ (QueryService.serve s env user request).1.messages) :
    m ∈ s.messages ∨ Says m s env user request := by
  rcases QueryService.serve_cases s env user request with hsame | ⟨data, rfl, hrole, hins⟩ |
    ⟨id, body, loaded, rfl, hfound, hown, hcommit⟩ | ⟨id, status, loaded, rfl, -, -, -, hcommit⟩
  · rw [hsame] at h
    exact Or.inl h
  · rw [(QueryService.insertQuery_ok hins).2.2] at h
    rcases List.mem_append.mp h with hold | hnew
    · exact Or.inl hold
    · right
      obtain rfl := List.mem_singleton.mp hnew
      exact ⟨currentUser_eq rfl hrole, rfl⟩
  · rw [(QueryService.commitReply_ok hcommit).2.2] at h
    rcases List.mem_append.mp h with hold | hnew
    · exact Or.inl hold
    · right
      have hkey : loaded.id = id := Table.key_of_lookup hfound
      rw [hkey] at hnew
      exact ⟨List.mem_singleton.mp hnew, loaded, hfound, hown⟩
  · rw [QueryService.commitStatus_ok hcommit] at h
    exact Or.inl h

/-- **Nobody asks or answers for another.**  Each query, its coordinator, its status and each
    message go back to a signed request of the person who may make it. -/
theorem queries_signed (hrun : UnforgedRun site files run) :
    let s := (after site files run).records.queries
    (∀ q ∈ s.queries,
      Took (fun past e => ∃ env user request,
        SignedCall site files past e env user (.query request) ∧
        Asks q env.query user request) run ∧
      (∀ c, q.coordinatorId = some c → Took (fun past e => ∃ env user request,
        SignedCall site files past e env user (.query request) ∧
        Assigns q c env.query user request) run) ∧
      Took (fun past e => ∃ env user request,
        SignedCall site files past e env user (.query request) ∧
        Moves q env.query user request) run) ∧
    ∀ m ∈ s.messages, Took (fun past e => ∃ env user request,
      SignedCall site files past e env user (.query request) ∧
      Says m (after site files past).records.queries env.query user request) run := by
  constructor
  · intro q hq
    refine ⟨?_, ?_, ?_⟩
    · refine query_origin (R := fun s => ∃ x ∈ s.queries, q = { x with
        coordinatorId := q.coordinatorId, status := q.status }) (P := fun _ => Asks q) ?_ ?_ hrun
        ⟨q, hq, rfl⟩
      · exact fun s env user request _ h => asks_serve h
      · rintro ⟨x, hx, -⟩
        cases hx
    · intro c hc
      refine query_origin (R := fun s => ∃ x ∈ s.queries, x.id = q.id ∧
        x.studentId = q.studentId ∧ x.coordinatorId = some c) (P := fun _ => Assigns q c) ?_ ?_
        hrun ⟨q, hq, rfl, rfl, hc⟩
      · exact fun s env user request hs h => assigns_serve hs h
      · rintro ⟨x, hx, -⟩
        cases hx
    · refine query_origin (R := fun s => ∃ x ∈ s.queries, x.id = q.id ∧
        x.studentId = q.studentId ∧ x.status = q.status) (P := fun _ => Moves q) ?_ ?_ hrun
        ⟨q, hq, rfl, rfl, rfl⟩
      · exact fun s env user request hs h => moves_serve hs h
      · rintro ⟨x, hx, -⟩
        cases hx
  · intro m hm
    refine query_origin (R := fun s => m ∈ s.messages) (P := Says m) ?_ ?_ hrun hm
    · exact fun s env user request _ h => says_serve h
    · intro h
      cases h

end Site

/-- A student registers, logs in and asks. -/
def asks : Event :=
  signed "/api/v1/queries" (.obj [("subject", .str "Resume"), ("body", .str "Where to?")])

theorem asks_signed :
    ∃ m ∈ (after (siteOf .student) emptyDisks
        [registers .student, logsIn, asks]).records.queries.messages,
      Took (fun past e => ∃ env user request,
        SignedCall (siteOf .student) emptyDisks past e env user (.query request) ∧
        Says m (after (siteOf .student) emptyDisks past).records.queries env.query user request)
        [registers .student, logsIn, asks] := by
  have hmem : ⟨.ofNat 4, .ofNat 4, .ofNat 1, "Where to?", 0⟩ ∈ (after (siteOf .student) emptyDisks
      [registers .student, logsIn, asks]).records.queries.messages := by
    have hcalled : called (siteOf .student) (after (siteOf .student) emptyDisks
        [registers .student, logsIn]).identity.redis 0
        (post "/api/v1/queries" [("access_token", "access")])
        (.json (.obj [("subject", .str "Resume"), ("body", .str "Where to?")])) =
        .ok (.user ⟨.ofNat 1, .student⟩
          (.query (.postQuery ⟨"Resume", "Where to?", none, none⟩))) :=
      (called_signed .student _ _ (l := Gateway.queries) rfl rfl).trans rfl
    rw [asks, stepped_signed hcalled]
    dsimp only [perform, performUser, record, StudentIsolation.step]
    rw [(records_loggedIn .student).1]
    exact List.mem_singleton.mpr rfl
  have hrun : UnforgedRun (siteOf .student) emptyDisks [registers .student, logsIn, asks] :=
    unforged_signed .student _ _
  exact ⟨_, hmem, (queries_signed hrun).2 _ hmem⟩

end CampusHire.Authorship
