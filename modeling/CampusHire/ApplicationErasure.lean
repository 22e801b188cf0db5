import CampusHire.AuditTrail
import CampusHire.Ownership

/-!
# Applications without those of a student

What the application service holds when a student, their applications and the events about
them are taken out.  Requests of the student leave it as it is (`serve_own`), and requests
of anybody else do to it what they do to the tables (`serve_other`).
-/

namespace CampusHire.ApplicationErasure

open CampusHire ApplicationService Ownership
open CampusHire.AuditTrail (Audited)

def isOf (studentId : UUID) (a : Application) : Bool := decide (a.studentId = studentId)

/-- The event names the student. -/
def isAbout (studentId : UUID) (event : DomainEvent) : Bool :=
  match event.payload.get "student_id" with
  | some (.str text) => decide (text = studentId.str)
  | _ => false

/-- The application is the student's. -/
def ownsApplication (s : State) (studentId id : UUID) : Bool :=
  owns Application.id (isOf studentId) s.applications id

def without (studentId : UUID) (s : State) : State where
  applications := others (isOf studentId) s.applications
  stages := othersOf Application.id (isOf studentId) WorkflowStage.applicationId s.applications
    s.stages
  auditLogs := othersOf Application.id (isOf studentId) AuditLog.applicationId s.applications
    s.auditLogs
  published := s.published.filter fun event => !isAbout studentId event

section Student

variable {b : UUID} {s : State}

/-! ## Queries -/

theorem ownsApplication_of_mem (h : Audited s) {a : Application} (ha : a ∈ s.applications) :
    ownsApplication s b a.id = isOf b a :=
  owns_of_mem h.ids ha

theorem ownsApplication_of_find (h : Audited s) {id : UUID} {a : Application}
    (hfound : findApplication s id = some a) : ownsApplication s b a.id = isOf b a :=
  ownsApplication_of_mem h (Table.mem_of_lookup hfound)

theorem find_without (h : Audited s) (id : UUID) :
    findApplication (without b s) id = (findApplication s id).filter fun a => !isOf b a :=
  lookup_others h.ids id

theorem findExisting_without {studentId : UUID} (hne : studentId ≠ b) (opportunityId : UUID) :
    findExisting (without b s) opportunityId studentId =
      findExisting s opportunityId studentId := by
  rw [findExisting, without, others, List.find?_filter, findExisting]
  congr 1
  funext a
  by_cases ha : a.studentId = studentId
  · simp [isOf, ha, hne]
  · simp [ha]

theorem findOpenStage_without {id : UUID} (hother : ownsApplication s b id = false) :
    findOpenStage (without b s) id = findOpenStage s id :=
  find_ref_othersOf hother _

theorem refresh_without (h : Audited s) (env : Env) {id : UUID}
    (hother : ownsApplication s b id = false) :
    refresh (without b s) env id = refresh s env id := by
  rw [refresh, find_without h, refresh]
  rcases hfound : findApplication s id with _ | a
  · rfl
  · have hown := ownsApplication_of_find (b := b) h hfound
    rw [Table.key_of_lookup hfound, hother] at hown
    simp [Option.filter, ← hown]

/-! ## Writes -/

@[simp] theorem ownsApplication_logAudit (id' : UUID) (entity action : String)
    (payload : Option Dict) (id : UUID) :
    ownsApplication (logAudit s id' entity action payload) b id = ownsApplication s b id := rfl

theorem without_logAudit {id : UUID} (hother : ownsApplication s b id = false)
    (entity action : String) (payload : Option Dict) :
    without b (logAudit s id entity action payload) =
      logAudit (without b s) id entity action payload := by
  have haudits : (without b (logAudit s id entity action payload)).auditLogs =
      (without b s).auditLogs ++ [⟨id, entity, action, payload⟩] := othersOf_append_other hother
  exact congrArg (fun auditLogs => { without b s with auditLogs := auditLogs }) haudits

theorem without_logAudit_own {id : UUID} (hown : ownsApplication s b id = true)
    (entity action : String) (payload : Option Dict) :
    without b (logAudit s id entity action payload) = without b s := by
  have haudits : (without b (logAudit s id entity action payload)).auditLogs =
      (without b s).auditLogs := othersOf_append_own hown
  exact congrArg (fun auditLogs => { without b s with auditLogs := auditLogs }) haudits

@[simp] theorem ownsApplication_writeStatus (row : Application) (status : String) (id : UUID) :
    ownsApplication (writeStatus s row status) b id = ownsApplication s b id := by
  unfold writeStatus
  split
  · rfl
  · exact owns_modify (f := fun a : Application => { a with status := status }) (fun _ => rfl)
      (fun _ => rfl) id

@[simp] theorem ownsApplication_withStatus (row : Application) (status : String)
    (stages : List WorkflowStage) (id : UUID) :
    ownsApplication (withStatus s row status stages) b id = ownsApplication s b id :=
  ownsApplication_writeStatus row status id

theorem othersOf_writeStatus {χ : Type*} (ref : χ → UUID) (row : Application) (status : String)
    (children : List χ) :
    othersOf Application.id (isOf b) ref (writeStatus s row status).applications children =
      othersOf Application.id (isOf b) ref s.applications children :=
  othersOf_congr fun c _ => ownsApplication_writeStatus row status (ref c)

theorem others_writeStatus (row : Application) (status : String) :
    others (isOf b) (writeStatus s row status).applications =
      (writeStatus (without b s) row status).applications := by
  unfold writeStatus
  split
  · rfl
  · exact others_modify (f := fun a : Application => { a with status := status }) fun _ => rfl

theorem others_writeStatus_own (h : Audited s) {row : Application} (hrow : row ∈ s.applications)
    (hown : isOf b row = true) (status : String) :
    others (isOf b) (writeStatus s row status).applications = (without b s).applications := by
  unfold writeStatus
  split
  · rfl
  · exact others_modify_own (f := fun a : Application => { a with status := status })
      (fun _ => rfl) h.ids hrow hown

theorem without_writeStatus (row : Application) (status : String) :
    without b (writeStatus s row status) = writeStatus (without b s) row status := by
  rw [without, others_writeStatus, othersOf_writeStatus, othersOf_writeStatus, writeStatus_stages,
    writeStatus_auditLogs, writeStatus_published]
  unfold writeStatus
  split <;> rfl

theorem without_writeStatus_own (h : Audited s) {row : Application} (hrow : row ∈ s.applications)
    (hown : isOf b row = true) (status : String) :
    without b (writeStatus s row status) = without b s := by
  rw [without, others_writeStatus_own h hrow hown, othersOf_writeStatus, othersOf_writeStatus,
    writeStatus_stages, writeStatus_auditLogs, writeStatus_published]
  rfl

theorem othersOf_closeStage (rows : List Application) (stages : List WorkflowStage) (clock : Time)
    (current : Option WorkflowStage) :
    othersOf Application.id (isOf b) WorkflowStage.applicationId rows
        (closeStage stages clock current) =
      closeStage (othersOf Application.id (isOf b) WorkflowStage.applicationId rows stages) clock
        current := by
  cases current with
  | none => rfl
  | some st => exact others_modify fun _ => rfl

/-! ## Commits -/

theorem ownsApplication_new {env : Env} {studentId : UUID} (hne : studentId ≠ b)
    {data : ApplicationCreate} {profile : Json}
    (hfresh : env.applicationId ∉ s.applications.map Application.id) (stage : WorkflowStage) :
    ownsApplication (withApplication s (newApplication env studentId data profile) stage) b
      env.applicationId = false := by
  have hother : isOf b (newApplication env studentId data profile) = false := decide_eq_false hne
  exact (owns_append_other hother env.applicationId).trans (owns_of_fresh hfresh)

/-- A new application with its first stage. -/
theorem without_insert {app : Application} {stage : WorkflowStage} (hother : isOf b app = false)
    (hstage : stage.applicationId = app.id) (hfresh : app.id ∉ s.applications.map Application.id) :
    without b (withApplication s app stage) = withApplication (without b s) app stage := by
  have howns : ∀ id, owns Application.id (isOf b) (s.applications ++ [app]) id =
      ownsApplication s b id := owns_append_other hother
  have hstages : othersOf Application.id (isOf b) WorkflowStage.applicationId
      (s.applications ++ [app]) (s.stages ++ [stage]) = (without b s).stages ++ [stage] := by
    rw [othersOf_congr fun c _ => howns c.applicationId]
    exact othersOf_append_other (hstage ▸ owns_of_fresh hfresh)
  have haudits : othersOf Application.id (isOf b) AuditLog.applicationId
      (s.applications ++ [app]) s.auditLogs = (without b s).auditLogs :=
    othersOf_congr fun e _ => howns e.applicationId
  simp only [withApplication, without, others_append_other hother, hstages, haudits]

theorem without_insert_own (h : Audited s) {app : Application} {stage : WorkflowStage}
    (hown : isOf b app = true) (hstage : stage.applicationId = app.id)
    (hfresh : app.id ∉ s.applications.map Application.id) :
    without b (withApplication s app stage) = without b s := by
  have hnew : owns Application.id (isOf b) (s.applications ++ [app]) stage.applicationId =
      true := by
    simp [owns, hstage, hown]
  have hstages : othersOf Application.id (isOf b) WorkflowStage.applicationId
      (s.applications ++ [app]) (s.stages ++ [stage]) = (without b s).stages := by
    rw [othersOf_append_own hnew]
    exact othersOf_insert h.stages hfresh
  have haudits : othersOf Application.id (isOf b) AuditLog.applicationId
      (s.applications ++ [app]) s.auditLogs = (without b s).auditLogs :=
    othersOf_insert h.audits hfresh
  simp only [withApplication, without, others_append_own hown, hstages, haudits]

/-- The status of an application, with a stage that closes the current one. -/
theorem without_status {row : Application} (current : Option WorkflowStage)
    {next : WorkflowStage} (hnext : next.applicationId = row.id)
    (hother : ownsApplication s b row.id = false) (status : String) (clock : Time) :
    without b (withStatus s row status (closeStage s.stages clock current ++ [next])) =
      withStatus (without b s) row status
        (closeStage (without b s).stages clock current ++ [next]) := by
  have hstages : othersOf Application.id (isOf b) WorkflowStage.applicationId
      (writeStatus s row status).applications (closeStage s.stages clock current ++ [next]) =
        closeStage (without b s).stages clock current ++ [next] := by
    rw [othersOf_writeStatus, without, ← othersOf_closeStage]
    exact othersOf_append_other (hnext ▸ hother)
  calc without b (withStatus s row status (closeStage s.stages clock current ++ [next]))
      = { without b (writeStatus s row status) with
          stages := othersOf Application.id (isOf b) WorkflowStage.applicationId
            (writeStatus s row status).applications
              (closeStage s.stages clock current ++ [next]) } := rfl
    _ = withStatus (without b s) row status
          (closeStage (without b s).stages clock current ++ [next]) := by
        rw [without_writeStatus, hstages, withStatus]

theorem without_status_own (h : Audited s) (hids : (s.stages.map WorkflowStage.id).Nodup)
    {row : Application} (hrow : row ∈ s.applications) (hown : isOf b row = true)
    {current : Option WorkflowStage} (hcurrent : ∀ st, current = some st → st ∈ s.stages ∧
      st.applicationId = row.id)
    {next : WorkflowStage} (hnext : next.applicationId = row.id) (status : String) (clock : Time) :
    without b (withStatus s row status (closeStage s.stages clock current ++ [next])) =
      without b s := by
  have howner : ownsApplication s b row.id = true := by rw [ownsApplication_of_mem h hrow, hown]
  have hstages : othersOf Application.id (isOf b) WorkflowStage.applicationId
      (writeStatus s row status).applications (closeStage s.stages clock current ++ [next]) =
        (without b s).stages := by
    rw [othersOf_writeStatus]
    refine (othersOf_append_own (hnext ▸ howner)).trans ?_
    cases current with
    | none => rfl
    | some st =>
      obtain ⟨hst, hid⟩ := hcurrent st rfl
      have hst' : ownsApplication s b st.applicationId = true := hid ▸ howner
      have hhidden : ∀ f : WorkflowStage → WorkflowStage,
          (∀ r, (f r).applicationId = r.applicationId) →
          others (fun r => ownsApplication s b r.applicationId)
            (Table.modify WorkflowStage.id st.id f s.stages) = (without b s).stages := fun f hf =>
        others_modify_own (fun r => by rw [hf]) hids hst hst'
      exact hhidden _ fun _ => rfl
  rw [withStatus, without, hstages]
  exact congrArg (fun t : State => { t with stages := (without b s).stages })
    (without_writeStatus_own h hrow hown status)

theorem insertApplication_without {env : Env} {studentId : UUID} (hne : studentId ≠ b)
    (data : ApplicationCreate) (profile : Json)
    (hid : env.applicationId ∉ s.applications.map Application.id)
    (hstage : env.stageId ∉ s.stages.map WorkflowStage.id) :
    insertApplication (without b s) env studentId data profile =
      (insertApplication s env studentId data profile).map (without b) := by
  have hother : isOf b (newApplication env studentId data profile) = false := decide_eq_false hne
  have hid' : env.applicationId ∉ (without b s).applications.map Application.id := fun hmem =>
    hid ((List.filter_sublist.map _).subset hmem)
  have hstage' : env.stageId ∉ (without b s).stages.map WorkflowStage.id := fun hmem =>
    hstage ((List.filter_sublist.map _).subset hmem)
  rw [insertApplication_of_fresh studentId data profile hid hstage,
    insertApplication_of_fresh studentId data profile hid' hstage']
  split
  · rfl
  · simp only [Except.map]
    rw [without_logAudit (ownsApplication_new hne hid _), without_insert hother rfl hid]

theorem insertApplication_own (h : Audited s) {t : State} {env : Env} {data : ApplicationCreate}
    {profile : Json} (hins : insertApplication s env b data profile = .ok t) :
    without b t = without b s := by
  have hown : isOf b (newApplication env b data profile) = true := decide_eq_true rfl
  have hfresh := Table.not_mem_of_fresh (insertApplication_ok hins).1
  have hnew : ∀ stage, ownsApplication (withApplication s (newApplication env b data profile)
      stage) b env.applicationId = true := fun stage => by
    simp [ownsApplication, withApplication, owns, newApplication, isOf]
  rw [insertApplication_eq hins, without_logAudit_own (hnew _),
    without_insert_own h hown rfl hfresh]

theorem commitWithdrawal_without {env : Env} {row : Application}
    (hother : ownsApplication s b row.id = false) :
    commitWithdrawal (without b s) env row = (commitWithdrawal s env row).map (without b) := by
  unfold commitWithdrawal
  split
  · rfl
  · rw [Except.map, without_logAudit (by simpa using hother), without_writeStatus]

theorem commitWithdrawal_own (h : Audited s) {t : State} {env : Env} {row : Application}
    (hrow : row ∈ s.applications) (hown : isOf b row = true)
    (hcommit : commitWithdrawal s env row = .ok t) : without b t = without b s := by
  have howner : ownsApplication s b row.id = true := by rw [ownsApplication_of_mem h hrow, hown]
  rw [commitWithdrawal_ok hcommit, without_logAudit_own (by simpa using howner),
    without_writeStatus_own h hrow hown]

theorem commitStatus_without {env : Env} {row : Application}
    (hother : ownsApplication s b row.id = false) (current : Option WorkflowStage)
    (actorId : UUID) (status : ApplicationStatus)
    (hstage : env.stageId ∉ s.stages.map WorkflowStage.id) :
    commitStatus (without b s) env row current actorId status =
      (commitStatus s env row current actorId status).map (without b) := by
  have hstage' : env.stageId ∉ (without b s).stages.map WorkflowStage.id := fun hmem =>
    hstage ((List.filter_sublist.map _).subset hmem)
  rw [commitStatus_of_fresh row current actorId status hstage,
    commitStatus_of_fresh row current actorId status hstage']
  split
  · rfl
  · rw [Except.map, without_logAudit (by simpa using hother), without_status current rfl hother]

theorem commitStatus_own (h : Audited s) (hids : (s.stages.map WorkflowStage.id).Nodup)
    {t : State} {env : Env} {row : Application} (hrow : row ∈ s.applications)
    (hown : isOf b row = true) {actorId : UUID} {status : ApplicationStatus}
    (hcommit : commitStatus s env row (findOpenStage s row.id) actorId status = .ok t) :
    without b t = without b s := by
  have howner : ownsApplication s b row.id = true := by rw [ownsApplication_of_mem h hrow, hown]
  have hcurrent : ∀ st, findOpenStage s row.id = some st → st ∈ s.stages ∧
      st.applicationId = row.id := by
    intro st hst
    have hkey := List.find?_some hst
    simp only [Bool.and_eq_true, decide_eq_true_eq] at hkey
    exact ⟨List.mem_of_find?_eq_some hst, hkey.1⟩
  rw [commitStatus_eq hcommit, without_logAudit_own (by simpa using howner),
    without_status_own h hids hrow hown hcurrent rfl]

/-! ## Events -/

theorem isAbout_of_student {event : DomainEvent} (studentId : UUID)
    (h : event.payload.get "student_id" = some (.str studentId.str)) :
    isAbout b event = decide (studentId = b) := by
  simp only [isAbout, h, UUID.str_inj]

/-- The event names some student. -/
def Addressed (event : DomainEvent) : Prop :=
  ∃ studentId : UUID, event.payload.get "student_id" = some (.str studentId.str)

/-- The event of a status change is about whoever owns the application. -/
theorem isAbout_statusEvent (h : Audited s) {env : Env} {id : UUID} {app : Application}
    (happ : refresh s env id = .ok app) (eventType : EventType) (actorId : UUID) :
    isAbout b (statusEvent eventType app actorId) = ownsApplication s b id := by
  obtain ⟨hmem, hid⟩ := mem_of_refresh happ
  rw [isAbout_of_student app.studentId rfl, ← hid, ownsApplication_of_mem h hmem, isOf]

theorem published_publishFor (env : Env) (app : Application) (event : DomainEvent) :
    (publishFor s env app event).1.published = s.published ∨
      (publishFor s env app event).1.published = s.published ++ [event] := by
  rcases hpublishing : env.publishing with _ | _ | _ <;>
    simp [publishFor, publish, hpublishing]

/-- From `s` to `t` one event was published, which names a student, or none. -/
def PublishesAddressed (s t : State) : Prop :=
  t.published = s.published ∨ ∃ event, Addressed event ∧ t.published = s.published ++ [event]

theorem PublishesAddressed.of_publishFor {t : State} (ht : t.published = s.published) (env : Env)
    (app : Application) {event : DomainEvent} (haddressed : Addressed event) :
    PublishesAddressed s (publishFor t env app event).1 := by
  rw [PublishesAddressed, ← ht]
  exact (published_publishFor env app event).imp_right fun h => ⟨event, haddressed, h⟩

theorem published_apply (s : State) (env : Env) (studentId : UUID) (data : ApplicationCreate) :
    PublishesAddressed s (apply s env studentId data).1 := by
  unfold apply
  split
  · exact Or.inl rfl
  split
  · exact Or.inl rfl
  split
  · exact Or.inl rfl
  split
  · exact Or.inl rfl
  rename_i hins
  have ht := (insertApplication_ok hins).2.2.2.2.2
  split
  · exact Or.inl ht
  · exact .of_publishFor ht env _ ⟨studentId, rfl⟩

theorem published_withdraw (s : State) (env : Env) (id studentId : UUID) :
    PublishesAddressed s (withdraw s env id studentId).1 := by
  unfold withdraw
  split
  · exact Or.inl rfl
  split
  · exact Or.inl rfl
  split
  · exact Or.inl rfl
  · rename_i hcommit
    left
    rw [commitWithdrawal_ok hcommit, logAudit_published, writeStatus_published]

theorem published_updateStatus (s : State) (env : Env) (id actorId : UUID)
    (status : ApplicationStatus) :
    PublishesAddressed s (updateStatus s env id actorId status).1 := by
  unfold updateStatus
  split
  · exact Or.inl rfl
  split
  · exact Or.inl rfl
  rename_i hcommit
  have ht := (commitStatus_ok hcommit).2.2.2.2
  split
  · exact Or.inl ht
  rename_i app happ
  split
  · exact .of_publishFor ht env _ ⟨app.studentId, rfl⟩
  · exact Or.inl ht

/-- A request publishes one event, which names a student, or none. -/
theorem published_serve (s : State) (env : Env) (user : CurrentUser) (request : Request) :
    PublishesAddressed s (serve s env user request).1 := by
  cases request with
  | create data =>
    simp only [serve]
    split
    · exact Or.inl rfl
    · exact published_apply s env user.id data
  | withdraw id =>
    simp only [serve]
    split
    · exact Or.inl rfl
    · exact published_withdraw s env id user.id
  | patchStatus id status =>
    simp only [serve]
    split
    · exact Or.inl rfl
    · exact published_updateStatus s env id user.id status

theorem publishFor_without {event : DomainEvent} (hother : isAbout b event = false) (env : Env)
    (app : Application) :
    publishFor (without b s) env app event =
      (without b (publishFor s env app event).1, (publishFor s env app event).2) := by
  rcases hpublishing : env.publishing with _ | _ | _ <;>
    simp [publishFor, publish, hpublishing, without, hother]

theorem publishFor_own {event : DomainEvent} (hown : isAbout b event = true) (env : Env)
    (app : Application) : without b (publishFor s env app event).1 = without b s := by
  rcases hpublishing : env.publishing with _ | _ | _ <;>
    simp [publishFor, publish, hpublishing, without, hown]

/-! ## Requests of the student -/

theorem apply_own (h : Audited s) (env : Env) (data : ApplicationCreate) :
    without b (apply s env b data).1 = without b s := by
  unfold apply
  split
  · rfl
  split
  · rfl
  split
  · rfl
  split
  · rfl
  rename_i t hins
  have hcommit := insertApplication_own h hins
  split
  · exact hcommit
  · have habout : ∀ app, isAbout b (submittedEvent app b data) = true := fun app => by
      rw [isAbout_of_student b rfl, decide_eq_true rfl]
    exact (publishFor_own (habout _) env _).trans hcommit

theorem withdraw_own (h : Audited s) (env : Env) (id : UUID) :
    without b (withdraw s env id b).1 = without b s := by
  unfold withdraw
  split
  · rfl
  rename_i row hrow
  split
  · rfl
  rename_i howner
  split
  · rfl
  · rename_i t hcommit
    exact commitWithdrawal_own h (Table.mem_of_lookup hrow)
      (decide_eq_true (not_not.mp howner)) hcommit

/-- **The student's requests leave everybody else's data as they are.** -/
theorem serve_own (h : Audited s) (env : Env) (request : Request) :
    without b (serve s env ⟨b, .student⟩ request).1 = without b s := by
  cases request with
  | create data => exact apply_own h env data
  | withdraw id => exact withdraw_own h env id
  | patchStatus id status => rfl

/-! ## Requests of the others -/

/-- The ids that a request may store are new. -/
def Fresh (s : State) (env : Env) : Request → Prop
  | .create _ => env.applicationId ∉ s.applications.map Application.id ∧
      env.stageId ∉ s.stages.map WorkflowStage.id
  | .withdraw _ => True
  | .patchStatus .. => env.stageId ∉ s.stages.map WorkflowStage.id

theorem apply_other (h : Audited s) {env : Env} {studentId : UUID} (hne : studentId ≠ b)
    {data : ApplicationCreate} (hfresh : Fresh s env (.create data)) :
    (apply (without b s) env studentId data).1 = without b (apply s env studentId data).1 := by
  have hinsert := fun profile =>
    insertApplication_without (b := b) hne data profile hfresh.1 hfresh.2
  rw [apply, findExisting_without hne, apply]
  rcases fetchOpportunity env.opportunity with e | _
  · rfl
  rcases findExisting s data.opportunityId studentId with _ | _
  swap
  · rfl
  rcases fetchProfile env.profile with e | profile
  · rfl
  simp only [hinsert]
  rcases hins : insertApplication s env studentId data profile with e | t
  · rfl
  have hother : ownsApplication t b env.applicationId = false := by
    rw [insertApplication_eq hins]
    exact ownsApplication_new hne hfresh.1
      ⟨env.stageId, env.applicationId, "Registration", env.txnStart, none, none⟩
  simp only [Except.map, refresh_without (AuditTrail.audited_insert h hins) env hother]
  rcases refresh t env env.applicationId with e | app
  · rfl
  · have habout : isAbout b (submittedEvent app studentId data) = false := by
      rw [isAbout_of_student studentId rfl, decide_eq_false hne]
    simp only [publishFor_without habout]

theorem withdraw_other (h : Audited s) (env : Env) (id : UUID) {studentId : UUID}
    (hne : studentId ≠ b) :
    (withdraw (without b s) env id studentId).1 = without b (withdraw s env id studentId).1 := by
  rw [withdraw, find_without h, withdraw]
  rcases hrow : findApplication s id with _ | row
  · rfl
  rcases hown : isOf b row with _ | _
  · simp only [Option.filter, hown, Bool.not_false, if_true]
    split
    · rfl
    · rw [commitWithdrawal_without (by rw [ownsApplication_of_find h hrow, hown])]
      rcases commitWithdrawal s env row with e | t <;> rfl
  · -- not there without the student, and not the caller's
    have hforbidden : row.studentId ≠ studentId := fun heq =>
      hne (heq.symm.trans (of_decide_eq_true hown))
    simp only [Option.filter, hown, Bool.not_true, Bool.false_eq_true, if_false, hforbidden, ne_eq,
      not_false_eq_true, if_true]

theorem updateStatus_other (h : Audited s) (hids : (s.stages.map WorkflowStage.id).Nodup)
    {env : Env} (hstage : env.stageId ∉ s.stages.map WorkflowStage.id) (id actorId : UUID)
    (status : ApplicationStatus) :
    (updateStatus (without b s) env id actorId status).1 =
      without b (updateStatus s env id actorId status).1 := by
  rw [updateStatus, find_without h, updateStatus]
  rcases hrow : findApplication s id with _ | row
  · rfl
  have hmem := Table.mem_of_lookup hrow
  rcases hown : isOf b row with _ | _
  · have hother : ownsApplication s b row.id = false := by rw [ownsApplication_of_find h hrow, hown]
    simp only [Option.filter, hown, Bool.not_false, if_true, findOpenStage_without hother,
      commitStatus_without hother _ actorId status hstage]
    rcases hcommit : commitStatus s env row (findOpenStage s row.id) actorId status with e | t
    · rfl
    have ht := AuditTrail.audited_status h hmem hcommit
    have hother' : ownsApplication t b row.id = false := by
      rw [commitStatus_eq hcommit]
      simpa using hother
    simp only [Except.map, refresh_without ht env hother']
    rcases happ : refresh t env row.id with e | app
    · rfl
    rcases eventOfStatus status with _ | eventType
    · rfl
    · have habout := isAbout_statusEvent (b := b) ht happ eventType actorId
      simp only [publishFor_without (habout.trans hother')]
  · -- nothing happens without the student, and nothing that shows with them
    simp only [Option.filter, hown, Bool.not_true, Bool.false_eq_true, if_false]
    split
    · rfl
    rename_i t hcommit
    have hhidden := commitStatus_own h hids hmem hown hcommit
    have ht := AuditTrail.audited_status h hmem hcommit
    have howner : ownsApplication t b row.id = true := by
      rw [commitStatus_eq hcommit]
      simpa [hown] using ownsApplication_of_find (b := b) h hrow
    split
    · exact hhidden.symm
    rename_i app happ
    split
    · rename_i eventType hevent
      have habout := isAbout_statusEvent (b := b) ht happ eventType actorId
      rw [publishFor_own (habout.trans howner), hhidden]
    · exact hhidden.symm

/-- **Without the student, everybody else's requests do the same.** -/
theorem serve_other (h : Audited s) (hids : (s.stages.map WorkflowStage.id).Nodup) {env : Env}
    {user : CurrentUser} (hne : user ≠ ⟨b, .student⟩) {request : Request}
    (hfresh : Fresh s env request) :
    (serve (without b s) env user request).1 = without b (serve s env user request).1 := by
  have hstudent : user.role = .student → user.id ≠ b := fun hrole hid =>
    hne (by rw [← hid, ← hrole])
  cases request with
  | create data =>
    simp only [serve]
    split
    · rfl
    · rename_i hrole
      exact apply_other h (hstudent (not_not.mp hrole)) hfresh
  | withdraw id =>
    simp only [serve]
    split
    · rfl
    · rename_i hrole
      exact withdraw_other h env id (hstudent (not_not.mp hrole))
  | patchStatus id status =>
    simp only [serve]
    split
    · rfl
    · exact updateStatus_other h hids hfresh id user.id status

end Student

end CampusHire.ApplicationErasure
