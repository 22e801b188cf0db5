import CampusHire.ApplicationTasks
import CampusHire.AuditTrail
import CampusHire.OpenStage
import CampusHire.TwoPhase

/-!
# A withdrawal and a status change on one application

Both requests load the application, decide, and commit.  The withdrawal runs in a
thread of its own, so it can commit between the read and the commit of the status
change, and the other way round.

Each is a transaction of `TwoPhase`: what it writes is `commitFrom` of the tables
it loaded and the tables it commits to.  A status change that commits over a
withdrawal it has not seen restores the application and records a "from" that is
no longer true; a repeated withdrawal that commits over a status change writes
nothing, because SQLAlchemy compares with the status it loaded.  These are the
only two ways to break serialization (`serializes_iff_upToDate`), and the first
of them happens (`lost_withdrawal`).
-/

namespace CampusHire.WithdrawStatusRace

open CampusHire ApplicationService AuditTrail OpenStage Schedule TwoPhase

def storedStatus (s : State) (id : UUID) : Option String :=
  (findApplication s id).map Application.status

/-- What the two requests write: the status, the audit log and the stages of the
    application. -/
def view (s : State) (id : UUID) : Option String × List AuditLog × List WorkflowStage :=
  (storedStatus s id, auditsOf s id, stagesOf s id)

/-- The two requests: `false` is the student's, `true` the coordinator's. -/
def tasks (id studentId actorId : UUID) (status : ApplicationStatus) : Bool → Task
  | false => Task.start ⟨studentId, .student⟩ (.withdraw id)
  | true => Task.start ⟨actorId, .coordinator⟩ (.patchStatus id status)

/-- The condition on a step, which is about the commits that the database accepts: a
    status change finds the status it has loaded, and a withdrawal that has loaded
    "Withdrawn" finds it. -/
def UpToDate (env : Env) (s : State) : Task → Prop
  | .statusCommit row _ _ _ => env.databaseFails = false →
      (∀ st ∈ s.stages, st.id ≠ env.stageId) → storedStatus s row.id = some row.status
  | .withdrawCommit row => env.databaseFails = false → row.status = "Withdrawn" →
      storedStatus s row.id = some "Withdrawn"
  | _ => True

instance (env : Env) (s : State) (t : Task) : Decidable (UpToDate env s t) := by
  cases t <;> unfold UpToDate <;> infer_instance

/-! ## The tables without the exchange -/

def tables (s : State) : State := { s with published := [] }

theorem commitWithdrawal_tables (s : State) (env : Env) (row : Application) :
    commitWithdrawal (tables s) env row = (commitWithdrawal s env row).map tables := by
  unfold commitWithdrawal
  split
  · rfl
  · simp only [Except.map, writeStatus]
    split <;> rfl

theorem commitStatus_tables (s : State) (env : Env) (row : Application)
    (current : Option WorkflowStage) (actorId : UUID) (status : ApplicationStatus) :
    commitStatus (tables s) env row current actorId status =
      (commitStatus s env row current actorId status).map tables := by
  simp only [commitStatus, show (tables s).stages = s.stages from rfl]
  split
  · rfl
  · split
    · simp only [Except.map, writeStatus]
      split <;> rfl
    · rfl

/-! ## The status write -/

/-- The write from an older row is the write from the current one, unless the older
    row already had the status and the current one has not. -/
theorem writeStatus_eq_iff {s : State} {row current : Application} (text : String)
    (hids : (s.applications.map Application.id).Nodup)
    (hfound : findApplication s row.id = some current) :
    writeStatus s row text = writeStatus s current text ↔
      (row.status = text → current.status = text) := by
  have hid : current.id = row.id := Table.key_of_lookup hfound
  constructor
  · intro heq hsame
    by_contra hne
    have hread := congrArg (fun t => findApplication t row.id) heq
    rw [← hid] at hread hfound
    simp only [findApplication_writeStatus, if_neg hne, hfound] at hread
    rw [writeStatus, if_pos hsame, hfound, Option.map_some] at hread
    exact hne (congrArg Application.status (Option.some.inj hread))
  · intro himp
    by_cases hsame : row.status = text
    · rw [writeStatus, if_pos hsame, writeStatus, if_pos (himp hsame)]
    · by_cases hcur : current.status = text
      · rw [writeStatus, if_neg hsame, writeStatus, if_pos hcur]
        have hmem := Table.mem_of_lookup hfound
        rw [Table.modify_of_forall_eq]
        intro a ha heq
        rw [List.inj_on_of_nodup_map hids ha hmem (heq.trans hid.symm), ← hcur]
      · rw [writeStatus, if_neg hsame, writeStatus, if_neg hcur, hid]

/-- The application that a session has loaded is still there, and still the same
    student's. -/
def Holding (s : State) (row : Application) : Prop :=
  ∃ current, findApplication s row.id = some current ∧ current.studentId = row.studentId

theorem holding_writeStatus {s : State} {row : Application} (h : Holding s row)
    (other : Application) (text : String) : Holding (writeStatus s other text) row := by
  obtain ⟨current, hfound, hstudent⟩ := h
  by_cases hid : row.id = other.id
  · rw [Holding, hid, findApplication_writeStatus, ← hid, hfound]
    split
    · exact ⟨current, rfl, hstudent⟩
    · exact ⟨_, rfl, hstudent⟩
  · refine ⟨current, ?_, hstudent⟩
    unfold writeStatus
    split
    · exact hfound
    · rw [← hfound]
      exact Table.lookup_modify_other (f := fun a : Application => { a with status := text })
        (fun _ => rfl) hid s.applications

theorem holding_step {s : State} {row : Application} (env : Env) (t : Task) (h : Holding s row) :
    Holding (taskStep env s t).1 row := by
  rcases taskStep_cases env s t with ⟨published, heq⟩ |
    ⟨studentId, data, profile, s', rfl, -, hins, heq⟩ | ⟨other, s', rfl, hcommit, heq⟩ |
    ⟨other, current, actorId, status, s', rfl, hcommit, heq⟩
  · rw [heq]
    exact h
  · obtain ⟨current, hfound, hstudent⟩ := h
    refine ⟨current, ?_, hstudent⟩
    rw [heq, findApplication, (insertApplication_ok hins).2.2.1]
    exact Table.lookup_append_of_some hfound
  · rw [heq, commitWithdrawal_ok hcommit]
    exact holding_writeStatus h _ _
  · rw [heq, Holding, findApplication, (commitStatus_ok hcommit).2.1]
    exact holding_writeStatus h _ _

/-! ## What an accepted commit leaves -/

def withdrawn (s : State) (row : Application) : State :=
  logAudit (writeStatus s row "Withdrawn") row.id "application" "withdrawn" none

def changed (s : State) (env : Env) (row : Application) (actorId : UUID)
    (status : ApplicationStatus) : State :=
  logAudit { writeStatus s row status.value with
      stages := closeStage s.stages env.clock (findOpenStage s row.id) ++
        [⟨env.stageId, row.id, status.value, env.txnStart, none, some actorId⟩] }
    row.id "application" "status_changed"
    (some [("from", .str row.status), ("to", .str status.value)])

def Accepts (s : State) (env : Env) : Prop :=
  env.databaseFails = false ∧ ∀ st ∈ s.stages, st.id ≠ env.stageId

@[simp] theorem tables_withdrawn (s : State) (row : Application) :
    tables (withdrawn s row) = withdrawn (tables s) row := by
  simp only [withdrawn, writeStatus]
  split <;> rfl

@[simp] theorem tables_changed (s : State) (env : Env) (row : Application) (actorId : UUID)
    (status : ApplicationStatus) :
    tables (changed s env row actorId status) = changed (tables s) env row actorId status := by
  simp only [changed, writeStatus]
  split <;> rfl

theorem not_mem_closeStage {s : State} {clock : Time} {current : Option WorkflowStage} {k : UUID} :
    (∀ st ∈ closeStage s.stages clock current, st.id ≠ k) ↔ ∀ st ∈ s.stages, st.id ≠ k := by
  have hids := map_closeStage (g := WorkflowStage.id) (fun _ _ => rfl) s.stages clock current
  have hmem : ∀ l : List WorkflowStage, (∀ st ∈ l, st.id ≠ k) ↔ k ∉ l.map WorkflowStage.id := by
    intro l
    simp only [List.mem_map, not_exists, not_and]
  rw [hmem, hmem, hids]

theorem commitStatus_of_accepts {s : State} {env : Env} (h : Accepts s env) (row : Application)
    (actorId : UUID) (status : ApplicationStatus) :
    commitStatus s env row (findOpenStage s row.id) actorId status =
      .ok (changed s env row actorId status) := by
  have hins : Table.insertRow WorkflowStage.id
      ⟨env.stageId, row.id, status.value, env.txnStart, none, some actorId⟩
      (closeStage s.stages env.clock (findOpenStage s row.id)) = some _ :=
    Table.insertRow_eq_some.mpr ⟨not_mem_closeStage.mpr h.2, rfl⟩
  simp only [commitStatus, h.1, Bool.false_eq_true, if_false, hins]
  rfl

theorem commitStatus_of_not_accepts {s : State} {env : Env} (h : ¬ Accepts s env)
    (row : Application) (actorId : UUID) (status : ApplicationStatus) :
    commitStatus s env row (findOpenStage s row.id) actorId status = .error .database := by
  rcases hresult : commitStatus s env row (findOpenStage s row.id) actorId status with e | t
  · simp only [commitStatus] at hresult
    split at hresult
    · exact hresult.symm
    · split at hresult
      · cases hresult
      · exact hresult.symm
  · refine absurd ⟨?_, not_mem_closeStage.mp (commitStatus_ok hresult).1⟩ h
    by_contra hfails
    simp [commitStatus, Bool.not_eq_false _ ▸ hfails] at hresult

theorem logAudit_inj {s t : State} {id : UUID} {entity action : String} {payload : Option Dict} :
    logAudit s id entity action payload = logAudit t id entity action payload ↔ s = t := by
  constructor
  · intro h
    have haudits := congrArg State.auditLogs h
    rw [logAudit_auditLogs, logAudit_auditLogs] at haudits
    have hlogs : s.auditLogs = t.auditLogs := List.append_cancel_right haudits
    have happs := congrArg State.applications h
    have hstages := congrArg State.stages h
    have hpublished := congrArg State.published h
    rw [logAudit_applications, logAudit_applications] at happs
    rw [logAudit_stages, logAudit_stages] at hstages
    rw [logAudit_published, logAudit_published] at hpublished
    cases s
    cases t
    simp only [State.mk.injEq]
    exact ⟨happs, hstages, hlogs, hpublished⟩
  · exact fun h => h ▸ rfl

theorem withdrawn_eq_iff {s : State} {row current : Application}
    (hids : (s.applications.map Application.id).Nodup)
    (hfound : findApplication s row.id = some current) :
    withdrawn s row = withdrawn s current ↔
      (row.status = "Withdrawn" → current.status = "Withdrawn") := by
  have hid : current.id = row.id := Table.key_of_lookup hfound
  rw [withdrawn, withdrawn, hid, logAudit_inj, writeStatus_eq_iff _ hids hfound]

theorem changed_eq_iff {s : State} {env : Env} {row current : Application} {actorId : UUID}
    {status : ApplicationStatus} (hids : (s.applications.map Application.id).Nodup)
    (hfound : findApplication s row.id = some current) :
    changed s env row actorId status = changed s env current actorId status ↔
      current.status = row.status := by
  have hid : current.id = row.id := Table.key_of_lookup hfound
  constructor
  · intro h
    have haudits := congrArg State.auditLogs h
    simp only [changed, logAudit_auditLogs, writeStatus_auditLogs] at haudits
    have hentry := List.append_cancel_left haudits
    simp only [List.cons.injEq, AuditLog.mk.injEq, Option.some.injEq, Prod.mk.injEq,
      Json.str.injEq, and_true, true_and] at hentry
    exact hentry.2.symm
  · intro h
    have hwrite := (writeStatus_eq_iff status.value hids hfound).mpr
      (fun hrow => h.trans hrow)
    simp only [changed, hid, h, hwrite]

/-! ## The two transactions -/

section Transactions

variable (id studentId actorId : UUID) (status : ApplicationStatus) (envs : Bool → Env)

/-- What a request commits to the tables `d` when it has loaded the application from
    `v`; the status change looks for the open stage in `d`. -/
def commitFrom : Bool → State → State → State
  | false, v, d =>
    match findApplication v id with
    | none => d
    | some row =>
      if row.studentId ≠ studentId then d
      else
        match commitWithdrawal d (envs false) row with
        | .error _ => d
        | .ok t => t
  | true, v, d =>
    match findApplication v id with
    | none => d
    | some row =>
      match commitStatus d (envs true) row (findOpenStage d row.id) actorId status with
      | .error _ => d
      | .ok t => t

/-- The handler reads and commits in one go. -/
theorem tables_serve_withdraw (s : State) :
    tables (serve s (envs false) ⟨studentId, .student⟩ (.withdraw id)).1 =
      commitFrom id studentId actorId status envs false (tables s) (tables s) := by
  simp only [serve, ne_eq, not_true_eq_false, if_false, withdraw, commitFrom,
    show findApplication (tables s) id = findApplication s id from rfl]
  rcases findApplication s id with _ | row
  · rfl
  dsimp only
  by_cases hown : row.studentId = studentId
  · simp only [hown, not_true_eq_false, if_false, commitWithdrawal_tables]
    rcases commitWithdrawal s (envs false) row with e | t <;> rfl
  · simp only [hown, not_false_eq_true, if_true]

theorem tables_serve_status (s : State) :
    tables (serve s (envs true) ⟨actorId, .coordinator⟩ (.patchStatus id status)).1 =
      commitFrom id studentId actorId status envs true (tables s) (tables s) := by
  simp only [serve, ne_eq, not_true_eq_false, if_false, updateStatus, commitFrom,
    show findApplication (tables s) id = findApplication s id from rfl]
  rcases findApplication s id with _ | row
  · rfl
  simp only [commitStatus_tables, show findOpenStage (tables s) row.id = findOpenStage s row.id
    from rfl]
  rcases commitStatus s (envs true) row (findOpenStage s row.id) actorId status with e | t
  · rfl
  dsimp only [Except.map]
  rcases refresh t (envs true) row.id with e | app
  · rfl
  dsimp only
  rcases eventOfStatus status with _ | eventType <;> rfl

theorem commitFrom_withdrawn {v d : State} {row : Application}
    (hrow : findApplication v id = some row) (hown : row.studentId = studentId)
    (hdb : (envs false).databaseFails = false) :
    commitFrom id studentId actorId status envs false v d = withdrawn d row := by
  simp only [commitFrom, hrow, hown, ne_eq, not_true_eq_false, if_false, commitWithdrawal, hdb,
    Bool.false_eq_true]
  rfl

theorem commitFrom_not_withdrawn {v : State} (d : State)
    (h : ∀ row, findApplication v id = some row →
      ¬ (row.studentId = studentId ∧ (envs false).databaseFails = false)) :
    commitFrom id studentId actorId status envs false v d = d := by
  simp only [commitFrom]
  rcases hrow : findApplication v id with _ | row
  · rfl
  dsimp only
  split
  · rfl
  · rename_i hown
    have hdb : (envs false).databaseFails = true := by
      by_contra hok
      exact h row hrow ⟨not_not.mp hown, by simpa using hok⟩
    simp only [commitWithdrawal, hdb, if_true]

theorem commitFrom_changed {v d : State} {row : Application}
    (hrow : findApplication v id = some row) (hacc : Accepts d (envs true)) :
    commitFrom id studentId actorId status envs true v d =
      changed d (envs true) row actorId status := by
  simp only [commitFrom, hrow, commitStatus_of_accepts hacc]

theorem commitFrom_not_changed {v d : State}
    (h : findApplication v id = none ∨ ¬ Accepts d (envs true)) :
    commitFrom id studentId actorId status envs true v d = d := by
  simp only [commitFrom]
  rcases hrow : findApplication v id with _ | row
  · rfl
  rcases h with h | h
  · rw [hrow] at h
    cases h
  · simp only [commitStatus_of_not_accepts h]

/-! ## The account of the steps -/

/-- The tasks that have committed, or have ended without. -/
def Committed : Bool → Task → Prop
  | false, .withdrawRefresh _ => True
  | true, .statusRefresh _ _ _ => True
  | true, .publishing _ _ => True
  | _, .finished _ => True
  | _, _ => False

/-- Where each of the two tasks stands, and what it holds of the application. -/
def standsAt : Bool → Phase State → State → Task → Prop
  | false, .waiting, _, t => t = .withdrawRead id studentId
  | false, .loaded v, s, t => ∃ row, findApplication v id = some row ∧ Holding s row ∧
      row.studentId = studentId ∧ t = .withdrawCommit row
  | true, .waiting, _, t => t = .statusRead id actorId status
  | true, .loaded v, s, t => ∃ row, findApplication v id = some row ∧ Holding s row ∧
      (t = .statusStage row actorId status ∨
        t = .statusCommit row (findOpenStage s row.id) actorId status)
  | i, .past, _, t => Committed i t

theorem standsAt_past {i : Bool} {s : State} {t : Task} :
    standsAt id studentId actorId status i .past s t ↔ Committed i t := by
  cases i <;> rfl

theorem committed_step {i : Bool} {t : Task} (env : Env) (s : State) (h : Committed i t) :
    tables (taskStep env s t).1 = tables s ∧ Committed i (taskStep env s t).2 := by
  cases t with
  | withdrawRefresh app => cases i <;> exact ⟨rfl, trivial⟩
  | statusRefresh app actor st =>
    cases i
    · exact h.elim
    simp only [taskStep]
    rcases refresh s env app with e | row
    · exact ⟨rfl, trivial⟩
    · rcases eventOfStatus st with _ | eventType <;> exact ⟨rfl, trivial⟩
  | publishing app event => cases i <;> exact ⟨rfl, trivial⟩
  | finished result => exact ⟨rfl, h⟩
  | _ => cases i <;> exact h.elim

theorem stages_withdraw_step {ph : Phase State} {s : State} {t : Task} (env : Env)
    (h : standsAt id studentId actorId status false ph s t) :
    (taskStep env s t).1.stages = s.stages := by
  cases ph with
  | waiting =>
    obtain rfl := h
    simp only [taskStep]
    split
    · rfl
    · split <;> rfl
  | loaded v =>
    obtain ⟨row, -, -, -, rfl⟩ := h
    simp only [taskStep]
    rcases hcommit : commitWithdrawal s env row with e | s'
    · rfl
    · simp only [commitWithdrawal_ok hcommit, logAudit_stages, writeStatus_stages]
  | past =>
    have hstages := congrArg State.stages (committed_step env s h).1
    exact hstages

theorem withdraw_commit_step {v s : State} {row : Application}
    (hids : (s.applications.map Application.id).Nodup) (hrow : findApplication v id = some row)
    (hhold : Holding s row) (hown : row.studentId = studentId) :
    (UpToDate (envs false) s (.withdrawCommit row) ↔
      commitFrom id studentId actorId status envs false v (tables s) =
        commitFrom id studentId actorId status envs false (tables s) (tables s)) ∧
    tables (taskStep (envs false) s (.withdrawCommit row)).1 =
      commitFrom id studentId actorId status envs false v (tables s) ∧
    Committed false (taskStep (envs false) s (.withdrawCommit row)).2 := by
  obtain ⟨current, hfound, hstudent⟩ := hhold
  have hid : row.id = id := Table.key_of_lookup hrow
  have hcurrent : findApplication (tables s) id = some current := hid ▸ hfound
  rcases hdb : (envs false).databaseFails with _ | _
  · rw [commitFrom_withdrawn _ _ _ _ _ hrow hown hdb,
      commitFrom_withdrawn _ _ _ _ _ hcurrent (hstudent.trans hown) hdb,
      withdrawn_eq_iff (s := tables s) hids hfound]
    have hstep : taskStep (envs false) s (.withdrawCommit row) =
        (withdrawn s row, .withdrawRefresh row.id) := by
      simp only [taskStep, commitWithdrawal, hdb, Bool.false_eq_true, if_false]
      rfl
    rw [hstep]
    refine ⟨?_, tables_withdrawn s row, trivial⟩
    simp only [UpToDate, hdb, storedStatus, hfound, Option.map_some, Option.some.injEq,
      forall_const]
  · have hstep : taskStep (envs false) s (.withdrawCommit row) =
        (s, .finished (.error .database)) := by
      simp only [taskStep, commitWithdrawal, hdb, if_true]
    rw [hstep, commitFrom_not_withdrawn, commitFrom_not_withdrawn]
    · exact ⟨by simp [UpToDate, hdb], rfl, trivial⟩
    · simp [hdb]
    · simp [hdb]

theorem status_commit_step {v s : State} {row : Application}
    (hids : (s.applications.map Application.id).Nodup) (hrow : findApplication v id = some row)
    (hhold : Holding s row) :
    (UpToDate (envs true) s (.statusCommit row (findOpenStage s row.id) actorId status) ↔
      commitFrom id studentId actorId status envs true v (tables s) =
        commitFrom id studentId actorId status envs true (tables s) (tables s)) ∧
    tables (taskStep (envs true) s
        (.statusCommit row (findOpenStage s row.id) actorId status)).1 =
      commitFrom id studentId actorId status envs true v (tables s) ∧
    Committed true (taskStep (envs true) s
        (.statusCommit row (findOpenStage s row.id) actorId status)).2 := by
  obtain ⟨current, hfound, -⟩ := hhold
  have hid : row.id = id := Table.key_of_lookup hrow
  have hcurrent : findApplication (tables s) id = some current := hid ▸ hfound
  by_cases hacc : Accepts s (envs true)
  · have hacc' : Accepts (tables s) (envs true) := hacc
    rw [commitFrom_changed _ _ _ _ _ hrow hacc', commitFrom_changed _ _ _ _ _ hcurrent hacc',
      changed_eq_iff (s := tables s) hids hfound]
    simp only [taskStep, commitStatus_of_accepts hacc]
    refine ⟨?_, tables_changed .., trivial⟩
    simp only [UpToDate, hacc.1, storedStatus, hfound, Option.map_some, Option.some.injEq,
      forall_const]
    exact ⟨fun h => h hacc.2, fun h _ => h⟩
  · have hacc' : ¬ Accepts (tables s) (envs true) := hacc
    rw [commitFrom_not_changed _ _ _ _ _ (Or.inr hacc'),
      commitFrom_not_changed _ _ _ _ _ (Or.inr hacc')]
    simp only [taskStep, commitStatus_of_not_accepts hacc]
    exact ⟨⟨fun _ => trivial, fun _ hdb hfresh => absurd ⟨hdb, hfresh⟩ hacc⟩, trivial, trivial⟩

theorem withdraw_read_step {s : State} :
    tables (taskStep (envs false) s (.withdrawRead id studentId)).1 = tables s ∧
    (standsAt id studentId actorId status false (.loaded (tables s))
        (taskStep (envs false) s (.withdrawRead id studentId)).1
        (taskStep (envs false) s (.withdrawRead id studentId)).2 ∨
      Committed false (taskStep (envs false) s (.withdrawRead id studentId)).2 ∧
        ∀ d, commitFrom id studentId actorId status envs false (tables s) d = d) := by
  simp only [taskStep]
  rcases hrow : findApplication s id with _ | row
  · refine ⟨rfl, Or.inr ⟨trivial, fun d => commitFrom_not_withdrawn _ _ _ _ _ d ?_⟩⟩
    intro row hrow'
    cases hrow.symm.trans hrow'
  · dsimp only
    split
    · rename_i hown
      refine ⟨rfl, Or.inr ⟨trivial, fun d => commitFrom_not_withdrawn _ _ _ _ _ d ?_⟩⟩
      intro row' hrow' hboth
      cases hrow.symm.trans hrow'
      exact hown hboth.1
    · rename_i hown
      have hid : row.id = id := Table.key_of_lookup hrow
      exact ⟨rfl, Or.inl ⟨row, hrow, ⟨row, hid ▸ hrow, rfl⟩, not_not.mp hown, rfl⟩⟩

theorem status_read_step {s : State} :
    tables (taskStep (envs true) s (.statusRead id actorId status)).1 = tables s ∧
    (standsAt id studentId actorId status true (.loaded (tables s))
        (taskStep (envs true) s (.statusRead id actorId status)).1
        (taskStep (envs true) s (.statusRead id actorId status)).2 ∨
      Committed true (taskStep (envs true) s (.statusRead id actorId status)).2 ∧
        ∀ d, commitFrom id studentId actorId status envs true (tables s) d = d) := by
  simp only [taskStep]
  rcases hrow : findApplication s id with _ | row
  · exact ⟨rfl, Or.inr ⟨trivial, fun d => commitFrom_not_changed _ _ _ _ _ (Or.inl hrow)⟩⟩
  · have hid : row.id = id := Table.key_of_lookup hrow
    exact ⟨rfl, Or.inl ⟨row, hrow, ⟨row, hid ▸ hrow, rfl⟩, Or.inl rfl⟩⟩

theorem standsAt_stable {i : Bool} {ph ph' : Phase State} {s : State} {t u : Task}
    (h : standsAt id studentId actorId status i ph s t)
    (h' : standsAt id studentId actorId status (!i) ph' s u) :
    standsAt id studentId actorId status (!i) ph' (taskStep (envs i) s t).1 u := by
  cases ph' with
  | waiting => cases i <;> exact h'
  | past => rwa [standsAt_past] at h' ⊢
  | loaded v =>
    cases i with
    | false =>
      obtain ⟨row, hrow, hhold, htask⟩ := h'
      refine ⟨row, hrow, holding_step _ t hhold, ?_⟩
      rw [findOpenStage, stages_withdraw_step _ _ _ _ _ h]
      exact htask
    | true =>
      obtain ⟨row, hrow, hhold, hown, rfl⟩ := h'
      exact ⟨row, hrow, holding_step _ t hhold, hown, rfl⟩

def account : Account program envs State where
  data := tables
  commit := commitFrom id studentId actorId status envs
  stands := fun i ph s t => (s.applications.map Application.id).Nodup ∧
    standsAt id studentId actorId status i ph s t
  finished := fun t => t.isFinished = true
  fresh := UpToDate
  past_of_finished := by
    rintro i ph s t ⟨-, h⟩ hfinished
    cases t with
    | finished result => cases i <;> cases ph <;> simp [standsAt] at h ⊢
    | _ => cases hfinished
  waiting_step := by
    rintro i s t ⟨hids, h⟩
    have hids' := nodup_ids_step (envs i) t hids
    cases i with
    | false =>
      obtain rfl := h
      obtain ⟨htables, hnext⟩ := withdraw_read_step id studentId actorId status envs (s := s)
      exact ⟨trivial, htables, hnext.imp (fun h => ⟨hids', h⟩) (fun h => ⟨⟨hids', h.1⟩, h.2⟩)⟩
    | true =>
      obtain rfl := h
      obtain ⟨htables, hnext⟩ := status_read_step id studentId actorId status envs (s := s)
      exact ⟨trivial, htables, hnext.imp (fun h => ⟨hids', h⟩) (fun h => ⟨⟨hids', h.1⟩, h.2⟩)⟩
  loaded_step := by
    rintro i v s t ⟨hids, h⟩
    have hids' := nodup_ids_step (envs i) t hids
    cases i with
    | false =>
      obtain ⟨row, hrow, hhold, hown, rfl⟩ := h
      obtain ⟨hfresh, htables, hnext⟩ :=
        withdraw_commit_step id studentId actorId status envs hids hrow hhold hown
      exact Or.inr ⟨hfresh, htables, hids', hnext⟩
    | true =>
      obtain ⟨row, hrow, hhold, rfl | rfl⟩ := h
      · exact Or.inl ⟨trivial, rfl, hids, row, hrow, hhold, Or.inr rfl⟩
      · obtain ⟨hfresh, htables, hnext⟩ :=
          status_commit_step id studentId actorId status envs hids hrow hhold
        exact Or.inr ⟨hfresh, htables, hids', hnext⟩
  past_step := by
    rintro i s t ⟨hids, h⟩
    rw [standsAt_past] at h
    obtain ⟨htables, hnext⟩ := committed_step (envs i) s h
    refine ⟨?_, htables, nodup_ids_step _ t hids, (standsAt_past ..).mpr hnext⟩
    cases i <;> cases t <;> first | exact True.intro | exact h.elim
  stable := by
    rintro i ph ph' s t u ⟨hids, h⟩ ⟨-, h'⟩
    exact ⟨nodup_ids_step _ t hids, standsAt_stable id studentId actorId status envs h h'⟩

/-! ## What a stale commit leaves to be seen -/

theorem holding_withdrawn {s : State} {row : Application} (h : findApplication s id = some row)
    (other : Application) :
    ∃ current, findApplication (withdrawn s other) id = some current ∧
      current.studentId = row.studentId := by
  have hid : row.id = id := Table.key_of_lookup h
  have hhold : Holding s row := ⟨row, hid ▸ h, rfl⟩
  exact hid ▸ holding_writeStatus hhold other "Withdrawn"

theorem holding_changed {s : State} (env : Env) {row : Application}
    (h : findApplication s id = some row) (other : Application) :
    ∃ current, findApplication (changed s env other actorId status) id = some current ∧
      current.studentId = row.studentId := by
  have hid : row.id = id := Table.key_of_lookup h
  have hhold : Holding s row := ⟨row, hid ▸ h, rfl⟩
  exact hid ▸ holding_writeStatus hhold other status.value

theorem auditsOf_logAudit (s : State) (entity action : String) (payload : Option Dict) :
    auditsOf (logAudit s id entity action payload) id =
      auditsOf s id ++ [⟨id, entity, action, payload⟩] := by
  rw [auditsOf_append (logAudit_auditLogs s id entity action payload), if_pos rfl]

theorem auditsOf_withdrawn {s : State} {row : Application} (h : row.id = id) :
    auditsOf (withdrawn s row) id =
      auditsOf s id ++ [⟨id, "application", "withdrawn", none⟩] := by
  subst h
  rw [withdrawn, auditsOf_logAudit]
  simp only [auditsOf, writeStatus_auditLogs]

theorem auditsOf_changed {s : State} {env : Env} {row : Application} (h : row.id = id) :
    auditsOf (changed s env row actorId status) id =
      auditsOf s id ++ [⟨id, "application", "status_changed",
        some [("from", .str row.status), ("to", .str status.value)]⟩] := by
  subst h
  rw [changed, auditsOf_logAudit]
  simp only [auditsOf, writeStatus_auditLogs]

theorem storedStatus_withdrawn {s : State} {row : Application} (h : row.id = id) :
    storedStatus (withdrawn s row) id =
      if row.status = "Withdrawn" then storedStatus s id
      else (storedStatus s id).map fun _ => "Withdrawn" := by
  subst h
  have hread : findApplication (withdrawn s row) row.id =
      findApplication (writeStatus s row "Withdrawn") row.id := rfl
  rw [storedStatus, hread, findApplication_writeStatus]
  split
  · rfl
  · rw [storedStatus, Option.map_map, Option.map_map]
    rfl

/-- A withdrawal and a status change leave different entries at the end of the log. -/
theorem view_ne_of_last {s t : State} {row row' : Application} {env : Env} (h : row.id = id)
    (h' : row'.id = id) :
    view (changed s env row actorId status) id ≠ view (withdrawn t row') id := by
  intro heq
  have haudits : auditsOf (changed s env row actorId status) id = auditsOf (withdrawn t row') id :=
    congrArg (fun v => v.2.1) heq
  rw [auditsOf_changed _ _ _ h, auditsOf_withdrawn _ h'] at haudits
  have hlast := List.append_inj_right' haudits rfl
  simp at hlast

theorem stale_status_view {d : State} (hids : (d.applications.map Application.id).Nodup)
    (hne : (account id studentId actorId status envs).stale false d ≠
      (account id studentId actorId status envs).serial false d) (i : Bool) :
    view ((account id studentId actorId status envs).stale false d) id ≠
      view ((account id studentId actorId status envs).serial i d) id := by
  simp only [TwoPhase.Account.stale, TwoPhase.Account.serial, account, Bool.not_false] at hne ⊢
  rcases hrow : findApplication d id with _ | row
  · -- nothing to withdraw
    rw [commitFrom_not_withdrawn _ _ _ _ _ d (fun row h => by rw [hrow] at h; cases h)] at hne
    exact absurd rfl hne
  have hid : row.id = id := Table.key_of_lookup hrow
  by_cases hok : row.studentId = studentId ∧ (envs false).databaseFails = false
  swap
  · rw [commitFrom_not_withdrawn _ _ _ _ _ d (fun row' h => by
      rw [Option.some.inj (hrow.symm.trans h)] at hok; exact hok)] at hne
    exact absurd rfl hne
  rw [commitFrom_withdrawn _ _ _ _ _ hrow hok.1 hok.2] at hne ⊢
  by_cases hacc : Accepts (withdrawn d row) (envs true)
  swap
  · rw [commitFrom_not_changed _ _ _ _ _ (Or.inr hacc),
      commitFrom_not_changed _ _ _ _ _ (Or.inr hacc)] at hne
    exact absurd rfl hne
  obtain ⟨current, hcurrent, -⟩ := holding_withdrawn id hrow row
  rw [commitFrom_changed _ _ _ _ _ hrow hacc] at hne ⊢
  cases i with
  | false =>
    -- in the order of the commits the "from" is the withdrawn status
    have hid' : current.id = id := Table.key_of_lookup hcurrent
    have hids' : ((withdrawn d row).applications.map Application.id).Nodup := by
      rw [withdrawn, logAudit_applications, map_writeStatus (fun _ _ => rfl)]
      exact hids
    rw [commitFrom_changed _ _ _ _ _ hcurrent hacc] at hne
    rw [commitFrom_withdrawn _ _ _ _ _ hrow hok.1 hok.2, Bool.not_false,
      commitFrom_changed _ _ _ _ _ hcurrent hacc]
    have hstatus : current.status ≠ row.status := fun h =>
      hne ((changed_eq_iff hids' (hid.symm ▸ hcurrent)).mpr h)
    intro heq
    have haudits := congrArg (fun v => v.2.1) heq
    simp only [view, auditsOf_changed _ _ _ hid, auditsOf_changed _ _ _ hid',
      auditsOf_withdrawn _ hid] at haudits
    have hlast := List.append_inj_right' haudits rfl
    simp only [List.cons.injEq, AuditLog.mk.injEq, Option.some.injEq, Prod.mk.injEq,
      Json.str.injEq, and_true, true_and] at hlast
    exact hstatus hlast.symm
  | true =>
    -- the other order ends with the withdrawal
    have hacc' : Accepts d (envs true) := by
      refine ⟨hacc.1, fun st hst => hacc.2 st ?_⟩
      rw [withdrawn, logAudit_stages, writeStatus_stages]
      exact hst
    rw [Bool.not_true, commitFrom_changed _ _ _ _ _ hrow hacc']
    obtain ⟨current', hcurrent', hstudent'⟩ :=
      holding_changed id actorId status (envs true) hrow row
    rw [commitFrom_withdrawn _ _ _ _ _ hcurrent' (hstudent'.trans hok.1) hok.2]
    exact view_ne_of_last id actorId status hid (Table.key_of_lookup hcurrent')

/-- A withdrawal that writes nothing because it loaded "Withdrawn". -/
theorem stale_withdraw_view {d : State} (hids : (d.applications.map Application.id).Nodup)
    (hne : (account id studentId actorId status envs).stale true d ≠
      (account id studentId actorId status envs).serial true d) (i : Bool) :
    view ((account id studentId actorId status envs).stale true d) id ≠
      view ((account id studentId actorId status envs).serial i d) id := by
  simp only [TwoPhase.Account.stale, TwoPhase.Account.serial, account, Bool.not_true] at hne ⊢
  rcases hrow : findApplication d id with _ | row
  · rw [commitFrom_not_changed _ _ _ _ _ (Or.inl hrow)] at hne
    exact absurd rfl hne
  have hid : row.id = id := Table.key_of_lookup hrow
  by_cases hacc : Accepts d (envs true)
  swap
  · rw [commitFrom_not_changed _ _ _ _ _ (Or.inr hacc)] at hne
    exact absurd rfl hne
  rw [commitFrom_changed _ _ _ _ _ hrow hacc] at hne ⊢
  obtain ⟨current, hcurrent, hstudent⟩ :=
    holding_changed id actorId status (envs true) hrow row
  have hid' : current.id = id := Table.key_of_lookup hcurrent
  by_cases hok : row.studentId = studentId ∧ (envs false).databaseFails = false
  swap
  · rw [commitFrom_not_withdrawn _ _ _ _ _ _ (fun row' h => by
        rw [Option.some.inj (hrow.symm.trans h)] at hok; exact hok),
      commitFrom_not_withdrawn _ _ _ _ _ _ (fun row' h => by
        rw [← Option.some.inj (hcurrent.symm.trans h), hstudent]; exact hok)] at hne
    exact absurd rfl hne
  rw [commitFrom_withdrawn _ _ _ _ _ hrow hok.1 hok.2] at hne ⊢
  cases i with
  | true =>
    -- in the order of the commits the withdrawal would have overwritten the status
    have hids' : ((changed d (envs true) row actorId status).applications.map
        Application.id).Nodup := by
      rw [changed, logAudit_applications, map_writeStatus (fun _ _ => rfl)]
      exact hids
    rw [commitFrom_withdrawn _ _ _ _ _ hcurrent (hstudent.trans hok.1) hok.2,
      Ne, withdrawn_eq_iff hids' (hid.symm ▸ hcurrent), Classical.not_imp] at hne
    rw [commitFrom_changed _ _ _ _ _ hrow hacc, Bool.not_true,
      commitFrom_withdrawn _ _ _ _ _ hcurrent (hstudent.trans hok.1) hok.2]
    intro heq
    have hstored : storedStatus (withdrawn (changed d (envs true) row actorId status) row) id =
        storedStatus (withdrawn (changed d (envs true) row actorId status) current) id :=
      congrArg (fun v => v.1) heq
    rw [storedStatus_withdrawn _ hid, storedStatus_withdrawn _ hid', if_pos hne.1, if_neg hne.2,
      storedStatus, hcurrent] at hstored
    exact hne.2 (Option.some.inj hstored)
  | false =>
    -- the other order ends with the status change
    have hacc' : Accepts (withdrawn d row) (envs true) := by
      refine ⟨hacc.1, fun st hst => hacc.2 st ?_⟩
      rw [withdrawn, logAudit_stages, writeStatus_stages] at hst
      exact hst
    obtain ⟨current', hcurrent', -⟩ := holding_withdrawn id hrow row
    rw [commitFrom_withdrawn _ _ _ _ _ hrow hok.1 hok.2, Bool.not_false,
      commitFrom_changed _ _ _ _ _ hcurrent' hacc']
    exact (view_ne_of_last id actorId status (Table.key_of_lookup hcurrent') hid).symm

end Transactions

/-! ## Serialization -/

def together (s : State) (id studentId actorId : UUID) (status : ApplicationStatus)
    (envs : Bool → Env) (order : List Bool) : Config State Task Bool :=
  run program (start s (tasks id studentId actorId status)) (interleave envs order)

def withdrawFirst (s : State) (id studentId actorId : UUID) (status : ApplicationStatus)
    (envs : Bool → Env) : State :=
  (serve (serve s (envs false) ⟨studentId, .student⟩ (.withdraw id)).1 (envs true)
    ⟨actorId, .coordinator⟩ (.patchStatus id status)).1

def statusFirst (s : State) (id studentId actorId : UUID) (status : ApplicationStatus)
    (envs : Bool → Env) : State :=
  (serve (serve s (envs true) ⟨actorId, .coordinator⟩ (.patchStatus id status)).1 (envs false)
    ⟨studentId, .student⟩ (.withdraw id)).1

theorem tables_withdrawFirst (s : State) (id studentId actorId : UUID)
    (status : ApplicationStatus) (envs : Bool → Env) :
    tables (withdrawFirst s id studentId actorId status envs) =
      (account id studentId actorId status envs).serial false (tables s) := by
  rw [withdrawFirst, tables_serve_status id studentId actorId status envs,
    tables_serve_withdraw id studentId actorId status envs]
  rfl

theorem tables_statusFirst (s : State) (id studentId actorId : UUID)
    (status : ApplicationStatus) (envs : Bool → Env) :
    tables (statusFirst s id studentId actorId status envs) =
      (account id studentId actorId status envs).serial true (tables s) := by
  rw [statusFirst, tables_serve_withdraw id studentId actorId status envs,
    tables_serve_status id studentId actorId status envs]
  rfl

/-- Whatever the state, the two requests serialize exactly in the runs whose commits
    are up to date. -/
theorem together_serializes_iff {s : State} (hids : (s.applications.map Application.id).Nodup)
    (id studentId actorId : UUID) (status : ApplicationStatus) (envs : Bool → Env)
    (order : List Bool)
    (hdone : ∀ i,
      ((together s id studentId actorId status envs order).task i).isFinished = true) :
    (view (together s id studentId actorId status envs order).store id =
        view (withdrawFirst s id studentId actorId status envs) id ∨
      view (together s id studentId actorId status envs order).store id =
        view (statusFirst s id studentId actorId status envs) id) ↔
    Guarded program (fun c i env => UpToDate env c.store (c.task i))
      (start s (tasks id studentId actorId status)) (interleave envs order) := by
  have hstart : ∀ i, (account id studentId actorId status envs).stands i .waiting s
      (tasks id studentId actorId status i) := by
    intro i
    refine ⟨hids, ?_⟩
    cases i <;> rfl
  have hids' : ((tables s).applications.map Application.id).Nodup := hids
  have hview : ∀ t : State, view t id = view (tables t) id := fun _ => rfl
  rw [hview (withdrawFirst ..), hview (statusFirst ..), hview (together ..).store,
    tables_withdrawFirst, tables_statusFirst]
  rcases (account id studentId actorId status envs).run_outcome hstart order hdone with
    ⟨hfresh, i, hdata⟩ | ⟨hnot, i, hdata, hne⟩
  · refine ⟨fun _ => hfresh, fun _ => ?_⟩
    rw [show tables (together s id studentId actorId status envs order).store =
      (account id studentId actorId status envs).serial i (tables s) from hdata]
    cases i
    · exact Or.inl rfl
    · exact Or.inr rfl
  · refine ⟨fun h => absurd h ?_, fun h => absurd h hnot⟩
    rw [show tables (together s id studentId actorId status envs order).store =
      (account id studentId actorId status envs).stale i (tables s) from hdata]
    cases i
    · exact not_or.mpr ⟨stale_status_view _ _ _ _ _ hids' hne false,
        stale_status_view _ _ _ _ _ hids' hne true⟩
    · exact not_or.mpr ⟨stale_withdraw_view _ _ _ _ _ hids' hne false,
        stale_withdraw_view _ _ _ _ _ hids' hne true⟩

/-- **A withdrawal and a status change serialize exactly in the runs whose commits are
    up to date.**  From every state that any interleaving of requests reaches, in
    every order of the steps of the two. -/
theorem serializes_iff_upToDate {ι : Type*} [DecidableEq ι] (requests : ι → CurrentUser × Request)
    (before : List (ι × Env)) (id studentId actorId : UUID) (status : ApplicationStatus)
    (envs : Bool → Env) (order : List Bool)
    (hdone : ∀ i, ((together (run program (arrive requests) before).store id studentId actorId
      status envs order).task i).isFinished = true) :
    (view (together (run program (arrive requests) before).store id studentId actorId status envs
          order).store id =
        view (withdrawFirst (run program (arrive requests) before).store id studentId actorId
          status envs) id ∨
      view (together (run program (arrive requests) before).store id studentId actorId status envs
          order).store id =
        view (statusFirst (run program (arrive requests) before).store id studentId actorId
          status envs) id) ↔
    Guarded program (fun c i env => UpToDate env c.store (c.task i))
      (start (run program (arrive requests) before).store (tasks id studentId actorId status))
      (interleave envs order) :=
  together_serializes_iff (nodup_ids_run requests before) id studentId actorId status envs order
    hdone

def applyOnce : Unit → CurrentUser × Request :=
  fun _ => (⟨.ofNat 1, .student⟩, .create ⟨.ofNat 3, [], none⟩)

def applied : List (Unit × Env) :=
  List.replicate 4 ((), .untroubled (.ofNat 10) (.ofNat 20) 0)

def raceEnvs : Bool → Env
  | false => .untroubled (.ofNat 11) (.ofNat 21) 1
  | true => .untroubled (.ofNat 12) (.ofNat 22) 2

/-- The student withdraws after the coordinator's request has loaded the application
    and before it commits. -/
def raceOrder : List Bool := [true, false, false, true, true, true, true, false]

/-- The withdrawal is lost: neither order of the two leaves this. -/
theorem lost_withdrawal :
    (∀ i, ((together (run program (arrive applyOnce) applied).store (.ofNat 10) (.ofNat 1)
      (.ofNat 2) .shortlisted raceEnvs raceOrder).task i).isFinished = true) ∧
    ¬ (view (together (run program (arrive applyOnce) applied).store (.ofNat 10) (.ofNat 1)
          (.ofNat 2) .shortlisted raceEnvs raceOrder).store (.ofNat 10) =
        view (withdrawFirst (run program (arrive applyOnce) applied).store (.ofNat 10) (.ofNat 1)
          (.ofNat 2) .shortlisted raceEnvs) (.ofNat 10) ∨
      view (together (run program (arrive applyOnce) applied).store (.ofNat 10) (.ofNat 1)
          (.ofNat 2) .shortlisted raceEnvs raceOrder).store (.ofNat 10) =
        view (statusFirst (run program (arrive applyOnce) applied).store (.ofNat 10) (.ofNat 1)
          (.ofNat 2) .shortlisted raceEnvs) (.ofNat 10)) := by
  refine ⟨by decide +kernel, ?_⟩
  rintro (heq | heq)
  · -- the entry of the status change says that it found "Applied", not "Withdrawn"
    have hfrom := congrArg (fun v => v.2.1.map statusFound) heq
    exact absurd hfrom (by decide +kernel)
  · -- the status is "Shortlisted", not "Withdrawn"
    have hstatus := congrArg (fun v => v.1) heq
    exact absurd hstatus (by decide +kernel)

/-- A withdrawal that loads first and commits last is up to date: it overwrites
    whatever status it finds. -/
theorem late_withdrawal_serializes :
    view (together (run program (arrive applyOnce) applied).store (.ofNat 10) (.ofNat 1)
          (.ofNat 2) .shortlisted raceEnvs [false, true, true, true, true, true, false, false]).store
          (.ofNat 10) =
        view (withdrawFirst (run program (arrive applyOnce) applied).store (.ofNat 10) (.ofNat 1)
          (.ofNat 2) .shortlisted raceEnvs) (.ofNat 10) ∨
      view (together (run program (arrive applyOnce) applied).store (.ofNat 10) (.ofNat 1)
          (.ofNat 2) .shortlisted raceEnvs [false, true, true, true, true, true, false, false]).store
          (.ofNat 10) =
        view (statusFirst (run program (arrive applyOnce) applied).store (.ofNat 10) (.ofNat 1)
          (.ofNat 2) .shortlisted raceEnvs) (.ofNat 10) :=
  (serializes_iff_upToDate applyOnce applied (.ofNat 10) (.ofNat 1) (.ofNat 2) .shortlisted
    raceEnvs [false, true, true, true, true, true, false, false] (by decide +kernel)).mpr
    (by decide +kernel)

end CampusHire.WithdrawStatusRace
