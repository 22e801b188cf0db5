import CampusHire.ApplicationService
import CampusHire.Ledger
import Mathlib.Data.List.Induction

/-!
# The audit trail determines an application

The status column, the audit log and the stage list of an application are written
by three operations that each touch a different subset of them.  Read as a
ledger, the audit log of an application is linked and replays to the status
column, and its `status_changed` entries name the stages after the first.

`Trail` says this of one application's log, stage names and status; it holds of a
new application and is kept by a withdrawal and by a status change, each of which
appends one entry.  `Audited` says it of every application of a state, and
`audited_execute` of every state that a run of requests reaches.
-/

namespace CampusHire.AuditTrail

open CampusHire ApplicationService

/-! ## Reading an audit entry -/

def payloadText (e : AuditLog) (key : String) : Option String :=
  match e.payload.bind fun d => d.get key with
  | some (.str text) => some text
  | _ => none

/-- The status an entry sets: `created` its status, `withdrawn` "Withdrawn",
    `status_changed` its "to". -/
def statusAfter (e : AuditLog) : Option String :=
  if e.action = "created" then payloadText e "status"
  else if e.action = "withdrawn" then some "Withdrawn"
  else if e.action = "status_changed" then payloadText e "to"
  else none

def statusFound (e : AuditLog) : Option String :=
  if e.action = "status_changed" then payloadText e "from" else none

def changedTo (e : AuditLog) : Option String :=
  if e.action = "status_changed" then payloadText e "to" else none

def auditsOf (s : State) (id : UUID) : List AuditLog :=
  s.auditLogs.filter fun e => decide (e.applicationId = id)

def stageNamesOf (s : State) (id : UUID) : List String :=
  (s.stages.filter fun st => decide (st.applicationId = id)).map WorkflowStage.stageName

/-! ## One application -/

/-- The log, the stage names and the status of one application agree. -/
structure Trail (log : List AuditLog) (stageNames : List String) (status : String) : Prop where
  starts : ∃ first rest, log = first :: rest ∧ first.action = "created" ∧
    statusAfter first = some ApplicationStatus.applied.value ∧
    ∀ e ∈ rest, e.action ≠ "created"
  recorded : ∀ e ∈ log, e.action = "status_changed" →
    (statusFound e).isSome ∧ (changedTo e).isSome
  linked : Ledger.Linked statusAfter statusFound log
  replayed : Ledger.replay statusAfter log = some status
  stages : stageNames = "Registration" :: log.filterMap changedTo

theorem Trail.created (id : UUID) :
    Trail [⟨id, "application", "created", some [("status", .str ApplicationStatus.applied.value)]⟩]
      ["Registration"] ApplicationStatus.applied.value where
  starts := ⟨_, [], rfl, rfl, rfl, by simp⟩
  recorded := by simp
  linked := by
    have h := Ledger.linked_append_singleton statusAfter statusFound []
      ⟨id, "application", "created", some [("status", .str ApplicationStatus.applied.value)]⟩
    refine h.mpr ⟨Ledger.linked_nil _ _, ?_⟩
    intro s hs
    simp [statusFound] at hs
  replayed := rfl
  stages := rfl

theorem Trail.withdrawn {log : List AuditLog} {names : List String} {status : String}
    (h : Trail log names status) (id : UUID) :
    Trail (log ++ [⟨id, "application", "withdrawn", none⟩]) names "Withdrawn" where
  starts := by
    obtain ⟨first, rest, rfl, hact, hafter, hrest⟩ := h.starts
    refine ⟨first, rest ++ [⟨id, "application", "withdrawn", none⟩], by simp, hact, hafter, ?_⟩
    intro e he
    rcases List.mem_append.mp he with he | he
    · exact hrest e he
    · rw [List.mem_singleton.mp he]
      exact (by decide : "withdrawn" ≠ "created")
  recorded := by
    intro e he hact
    rcases List.mem_append.mp he with he | he
    · exact h.recorded e he hact
    · rw [List.mem_singleton.mp he] at hact
      exact absurd hact (by decide : "withdrawn" ≠ "status_changed")
  linked := by
    refine (Ledger.linked_append_singleton _ _ _ _).mpr ⟨h.linked, ?_⟩
    intro s hs
    simp [statusFound] at hs
  replayed := by
    rw [Ledger.replay_append_singleton]
    rfl
  stages := by
    rw [List.filterMap_append, h.stages]
    simp [changedTo]

/-- What `update_status` appends: an entry that records the status it found, and
    one stage. -/
theorem Trail.changed {log : List AuditLog} {names : List String} {status : String}
    (h : Trail log names status) (id : UUID) (next : String) :
    Trail (log ++ [⟨id, "application", "status_changed",
      some [("from", .str status), ("to", .str next)]⟩]) (names ++ [next]) next where
  starts := by
    obtain ⟨first, rest, rfl, hact, hafter, hrest⟩ := h.starts
    refine ⟨first, _, List.cons_append, hact, hafter, ?_⟩
    intro e he
    rcases List.mem_append.mp he with he | he
    · exact hrest e he
    · rw [List.mem_singleton.mp he]
      exact (by decide : "status_changed" ≠ "created")
  recorded := by
    intro e he hact
    rcases List.mem_append.mp he with he | he
    · exact h.recorded e he hact
    · rw [List.mem_singleton.mp he]
      exact ⟨rfl, rfl⟩
  linked := by
    refine (Ledger.linked_append_singleton _ _ _ _).mpr ⟨h.linked, ?_⟩
    intro s hs
    have hfrom : some status = some s := hs
    rw [h.replayed, hfrom]
  replayed := by
    rw [Ledger.replay_append_singleton]
    rfl
  stages := by
    rw [List.filterMap_append, h.stages]
    rfl

/-! ## All applications of a state -/

/-- Ids are unique, audit entries and stages belong to applications, and every
    application agrees with its log and its stages. -/
structure Audited (s : State) : Prop where
  ids : (s.applications.map Application.id).Nodup
  audits : ∀ e ∈ s.auditLogs, e.applicationId ∈ s.applications.map Application.id
  stages : ∀ st ∈ s.stages, st.applicationId ∈ s.applications.map Application.id
  trail : ∀ a ∈ s.applications, Trail (auditsOf s a.id) (stageNamesOf s a.id) a.status

theorem audited_empty : Audited State.empty where
  ids := List.nodup_nil
  audits := by simp [State.empty]
  stages := by simp [State.empty]
  trail := by simp [State.empty]

theorem Audited.withPublished {s : State} (h : Audited s) (published : List DomainEvent) :
    Audited { s with published := published } :=
  ⟨h.ids, h.audits, h.stages, h.trail⟩

theorem mem_of_mem_writeStatus {s : State} {row a : Application} {status : String}
    (h : a ∈ (writeStatus s row status).applications) (hne : a.id ≠ row.id) :
    a ∈ s.applications := by
  unfold writeStatus at h
  split at h
  · exact h
  · rcases Table.mem_modify.mp h with ⟨ha, -⟩ | ⟨old, -, hold, rfl⟩
    · exact ha
    · exact absurd hold hne

theorem status_of_mem_writeStatus {s : State} {row a : Application} {status : String}
    (hids : (s.applications.map Application.id).Nodup) (hrow : row ∈ s.applications)
    (h : a ∈ (writeStatus s row status).applications) (heq : a.id = row.id) :
    a.status = status := by
  unfold writeStatus at h
  split at h
  · rename_i hsame
    rw [List.inj_on_of_nodup_map hids h hrow heq, hsame]
  · rcases Table.mem_modify.mp h with ⟨-, hne⟩ | ⟨old, -, -, rfl⟩
    · exact absurd heq hne
    · rfl

theorem ids_writeStatus (s : State) (row : Application) (status : String) :
    (writeStatus s row status).applications.map Application.id =
      s.applications.map Application.id :=
  map_writeStatus (fun _ _ => rfl) s row status

theorem auditsOf_append {s t : State} {e : AuditLog} (h : t.auditLogs = s.auditLogs ++ [e])
    (id : UUID) :
    auditsOf t id = auditsOf s id ++ (if e.applicationId = id then [e] else []) := by
  rw [auditsOf, h, List.filter_append, auditsOf]
  by_cases hid : e.applicationId = id <;> simp [hid]

theorem stageNamesOf_append {closed : List WorkflowStage} {s t : State} {st : WorkflowStage}
    (hclosed : ∀ id, (closed.filter fun r => decide (r.applicationId = id)).map
      WorkflowStage.stageName = stageNamesOf s id)
    (h : t.stages = closed ++ [st]) (id : UUID) :
    stageNamesOf t id =
      stageNamesOf s id ++ (if st.applicationId = id then [st.stageName] else []) := by
  rw [stageNamesOf, h, List.filter_append, List.map_append, hclosed]
  by_cases hid : st.applicationId = id <;> simp [hid]

theorem stageNames_closeStage (s : State) (clock : Time) (current : Option WorkflowStage)
    (id : UUID) :
    ((closeStage s.stages clock current).filter fun r => decide (r.applicationId = id)).map
      WorkflowStage.stageName = stageNamesOf s id := by
  cases current with
  | none => rfl
  | some current =>
    rw [closeStage, stageNamesOf, Table.filter_modify, Table.map_modify]
    · exact fun _ => rfl
    · exact fun _ => rfl

/-- No entry and no stage carries an id that no application has. -/
theorem Audited.fresh {s : State} (h : Audited s) {id : UUID}
    (hfresh : ∀ a ∈ s.applications, a.id ≠ id) :
    auditsOf s id = [] ∧ stageNamesOf s id = [] := by
  have hout := Table.not_mem_of_fresh hfresh
  constructor
  · rw [auditsOf, List.filter_eq_nil_iff]
    intro e he heq
    exact hout (of_decide_eq_true heq ▸ h.audits e he)
  · rw [stageNamesOf, List.map_eq_nil_iff, List.filter_eq_nil_iff]
    intro st hst heq
    exact hout (of_decide_eq_true heq ▸ h.stages st hst)

theorem audited_insert {s t : State} {env : Env} {studentId : UUID} {data : ApplicationCreate}
    {profile : Json} (h : Audited s)
    (hins : insertApplication s env studentId data profile = .ok t) : Audited t := by
  obtain ⟨hfresh, -, happs, hstages, haudits, -⟩ := insertApplication_ok hins
  have hids := ids_insertApplication hins
  refine ⟨?_, ?_, ?_, ?_⟩
  · rw [happs]
    exact Table.nodup_append_fresh h.ids hfresh
  · rw [haudits, hids]
    exact Table.refers_append h.audits (List.subset_append_left _ _) List.mem_concat_self
  · rw [hstages, hids]
    exact Table.refers_append h.stages (List.subset_append_left _ _) List.mem_concat_self
  · intro a ha
    rw [auditsOf_append haudits, stageNamesOf_append (fun _ => rfl) hstages]
    rw [happs] at ha
    rcases List.mem_append.mp ha with ha | ha
    · -- an application that was there before
      have hne : env.applicationId ≠ a.id := fun heq => hfresh a ha heq.symm
      simpa [hne] using h.trail a ha
    · -- the new application, which had neither entries nor stages
      rw [List.mem_singleton.mp ha]
      obtain ⟨hnoAudits, hnoStages⟩ := h.fresh hfresh
      simpa [newApplication, hnoAudits, hnoStages] using Trail.created env.applicationId

theorem audited_withdraw {s t : State} {env : Env} {row : Application} (h : Audited s)
    (hrow : row ∈ s.applications) (hcommit : commitWithdrawal s env row = .ok t) :
    Audited t := by
  obtain rfl := commitWithdrawal_ok hcommit
  have hids := ids_writeStatus s row "Withdrawn"
  have haudits : (logAudit (writeStatus s row "Withdrawn") row.id "application" "withdrawn"
      none).auditLogs = s.auditLogs ++ [⟨row.id, "application", "withdrawn", none⟩] := by simp
  have hnames : ∀ id, stageNamesOf (logAudit (writeStatus s row "Withdrawn") row.id "application"
      "withdrawn" none) id = stageNamesOf s id := by
    intro id
    simp [stageNamesOf]
  refine ⟨by simpa [hids] using h.ids, ?_, by simpa [hids] using h.stages, ?_⟩
  · rw [haudits, logAudit_applications, hids]
    exact Table.refers_append h.audits (List.Subset.refl _) (List.mem_map_of_mem hrow)
  · intro a ha
    rw [logAudit_applications] at ha
    rw [auditsOf_append haudits, hnames]
    by_cases heq : row.id = a.id
    · rw [if_pos heq, status_of_mem_writeStatus h.ids hrow ha heq.symm, ← heq]
      exact (h.trail row hrow).withdrawn row.id
    · simpa [heq] using h.trail a (mem_of_mem_writeStatus ha (Ne.symm heq))

theorem audited_status {s t : State} {env : Env} {row : Application}
    {current : Option WorkflowStage} {actorId : UUID} {status : ApplicationStatus}
    (h : Audited s) (hrow : row ∈ s.applications)
    (hcommit : commitStatus s env row current actorId status = .ok t) : Audited t := by
  obtain ⟨-, happs, hstages, haudits, -⟩ := commitStatus_ok hcommit
  have hids : t.applications.map Application.id = s.applications.map Application.id := by
    rw [happs, ids_writeStatus]
  have howners := map_closeStage (g := WorkflowStage.applicationId) (fun _ _ => rfl) s.stages
    env.clock current
  refine ⟨by rw [hids]; exact h.ids, ?_, ?_, ?_⟩
  · rw [haudits, hids]
    exact Table.refers_append h.audits (List.Subset.refl _) (List.mem_map_of_mem hrow)
  · rw [hstages, hids]
    exact Table.refers_append (Table.refers_of_map_eq h.stages howners) (List.Subset.refl _)
      (List.mem_map_of_mem hrow)
  · intro a ha
    rw [happs] at ha
    rw [auditsOf_append haudits,
      stageNamesOf_append (stageNames_closeStage s env.clock current) hstages]
    by_cases heq : row.id = a.id
    · rw [if_pos heq, if_pos heq, status_of_mem_writeStatus h.ids hrow ha heq.symm, ← heq]
      exact (h.trail row hrow).changed row.id status.value
    · simpa [heq] using h.trail a (mem_of_mem_writeStatus ha (Ne.symm heq))

/-! ## All runs -/

theorem audited_handle {s : State} (h : Audited s) (request : Handled) :
    Audited (handle s request) := by
  rcases serve_cases s request.env request.user request.request with
    hsame | ⟨data, profile, t, published, -, -, -, -, hins, heq⟩ |
    ⟨id, row, -, -, hrow, -, hcommit⟩ | ⟨id, status, row, t, published, -, -, hrow, hcommit, heq⟩
  · rw [handle, hsame]
    exact h
  · rw [handle, heq]
    exact (audited_insert h hins).withPublished published
  · exact audited_withdraw h (Table.mem_of_lookup hrow) hcommit
  · rw [handle, heq]
    exact (audited_status h (Table.mem_of_lookup hrow) hcommit).withPublished published

theorem audited_execute (run : List Handled) : Audited (execute State.empty run) := by
  induction run using List.reverseRecOn with
  | nil => exact audited_empty
  | append_singleton run request ih =>
    rw [execute_append_singleton]
    exact audited_handle ih request

/-- A request of the run committed the application, as `apply` creates it; only
    the status may have changed since. -/
def CreatedIn (run : List Handled) (a : Application) : Prop :=
  ∃ before request after data profile, run = before ++ request :: after ∧
    request.request = .create data ∧ request.user.role = .student ∧
    fetchProfile request.env.profile = .ok profile ∧
    newApplication request.env request.user.id data profile ∈
      (execute State.empty (before ++ [request])).applications ∧
    a = { newApplication request.env request.user.id data profile with status := a.status }

theorem CreatedIn.extend {run : List Handled} {a : Application} (h : CreatedIn run a)
    (request : Handled) (status : String) :
    CreatedIn (run ++ [request]) { a with status := status } := by
  obtain ⟨before, creator, after, data, profile, rfl, hreq, hrole, hprofile, hmem, heq⟩ := h
  refine ⟨before, creator, after ++ [request], data, profile, by simp, hreq, hrole, hprofile,
    hmem, ?_⟩
  rw [heq]

theorem createdIn_execute (run : List Handled) :
    ∀ a ∈ (execute State.empty run).applications, CreatedIn run a := by
  induction run using List.reverseRecOn with
  | nil => simp [State.empty]
  | append_singleton run request ih =>
    intro a ha
    have hold : ∀ old ∈ (execute State.empty run).applications,
        a = { old with status := a.status } → CreatedIn (run ++ [request]) a := by
      intro old hmem heq
      rw [heq]
      exact (ih old hmem).extend request a.status
    rw [execute_append_singleton] at ha
    rcases serve_cases (execute State.empty run) request.env request.user request.request with
      hsame | ⟨data, profile, t, published, hreq, hrole, -, hprofile, hins, heq⟩ |
      ⟨id, row, -, -, -, -, hcommit⟩ | ⟨id, status, row, t, published, -, -, -, hcommit, heq⟩
    · rw [handle, hsame] at ha
      exact hold a ha rfl
    · have happs := (insertApplication_ok hins).2.2.1
      have hafter : (handle (execute State.empty run) request).applications = t.applications := by
        rw [handle, heq]
      rw [hafter, happs] at ha
      rcases List.mem_append.mp ha with ha | ha
      · exact hold a ha rfl
      · refine ⟨run, request, [], data, profile, rfl, hreq, hrole, hprofile, ?_, ?_⟩
        · rw [execute_append_singleton, hafter, happs]
          exact List.mem_append_right _ (List.mem_singleton.mpr rfl)
        · rw [List.mem_singleton.mp ha]
    · rw [handle, commitWithdrawal_ok hcommit, logAudit_applications] at ha
      obtain ⟨old, hmem, heq'⟩ := mem_writeStatus ha
      exact hold old hmem heq'
    · have happs := (commitStatus_ok hcommit).2.1
      rw [handle, heq] at ha
      obtain ⟨old, hmem, heq'⟩ := mem_writeStatus (happs ▸ ha)
      exact hold old hmem heq'

/-- **The audit trail and the stage history determine the status.**  In every state
    that a run of requests reaches, whichever of them fail, every application's
    audit log starts with its creation, is linked and replays to its status, its
    stages are named after it, and everything but the status is as `apply`
    created it. -/
theorem audit_trail_determines_status (run : List Handled) :
    ∀ a ∈ (execute State.empty run).applications,
      Trail (auditsOf (execute State.empty run) a.id)
        (stageNamesOf (execute State.empty run) a.id) a.status ∧ CreatedIn run a :=
  fun a ha => ⟨(audited_execute run).trail a ha, createdIn_execute run a ha⟩

def applyThenWithdraw : List Handled :=
  let student : CurrentUser := ⟨.ofNat 1, .student⟩
  let coordinator : CurrentUser := ⟨.ofNat 2, .coordinator⟩
  [⟨student, .create ⟨.ofNat 3, [], none⟩, .untroubled (.ofNat 10) (.ofNat 20) 0⟩,
    ⟨coordinator, .patchStatus (.ofNat 10) .shortlisted, .untroubled (.ofNat 11) (.ofNat 21) 1⟩,
    ⟨student, .withdraw (.ofNat 10), .untroubled (.ofNat 12) (.ofNat 22) 2⟩]

theorem applyThenWithdraw_determined :
    ∃ a ∈ (execute State.empty applyThenWithdraw).applications, a.status = "Withdrawn" ∧
      Trail (auditsOf (execute State.empty applyThenWithdraw) a.id)
        (stageNamesOf (execute State.empty applyThenWithdraw) a.id) a.status ∧
      CreatedIn applyThenWithdraw a := by
  have hrun : (execute State.empty applyThenWithdraw).applications =
      [⟨.ofNat 10, .ofNat 3, .ofNat 1, "Withdrawn", none, .obj [], [], 0⟩] := by rfl
  have hmem : (⟨.ofNat 10, .ofNat 3, .ofNat 1, "Withdrawn", none, .obj [], [], 0⟩ : Application) ∈
      (execute State.empty applyThenWithdraw).applications := by simp [hrun]
  exact ⟨_, hmem, rfl, audit_trail_determines_status applyThenWithdraw _ hmem⟩

end CampusHire.AuditTrail
