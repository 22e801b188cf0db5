import CampusHire.ApplicationService

/-!
# Commit, then publish

`apply` and `update_status` commit their rows, reload the row and publish their event
afterwards.  What fails up to the commit leaves nothing behind.  When the reload or the
publication raises, the rows are there and the client is told that the call has failed, so
a call is all or nothing exactly when the reload works and the broker confirms or nothing
is to be published (`all_or_nothing_iff`).  After a call that failed so late the student
cannot apply again, so the event is never sent (`retry_refused`).
-/

namespace CampusHire.CommitThenPublish

open CampusHire ApplicationService

/-- A call that raises has changed nothing, and one that returns is `Done`. -/
def AllOrNothing (s : State) (call : State × Except ServiceError Application)
    (Done : State → Application → Prop) : Prop :=
  (∀ e, call.2 = .error e → call.1 = s) ∧ ∀ app, call.2 = .ok app → Done call.1 app

/-- The rows of an application and one event for it. -/
structure Applied (s : State) (env : Env) (studentId : UUID) (data : ApplicationCreate) (t : State)
    (app : Application) : Prop where
  row : ∃ profile, fetchProfile env.profile = .ok profile ∧
    app = newApplication env studentId data profile
  applications : t.applications = s.applications ++ [app]
  stages : t.stages = s.stages ++
    [⟨env.stageId, app.id, "Registration", env.txnStart, none, none⟩]
  auditLogs : t.auditLogs = s.auditLogs ++ [⟨app.id, "application", "created",
    some [("status", .str ApplicationStatus.applied.value)]⟩]
  published : t.published = s.published ++ [submittedEvent app studentId data]

/-- The rows of a status change, and one event for it if the status has one. -/
structure Changed (s : State) (env : Env) (id actorId : UUID) (status : ApplicationStatus)
    (t : State) (app : Application) : Prop where
  row : ∃ row, findApplication s id = some row ∧ app = { row with status := status.value } ∧
    t.applications = (writeStatus s row status.value).applications ∧
    t.auditLogs = s.auditLogs ++ [⟨id, "application", "status_changed",
      some [("from", .str row.status), ("to", .str status.value)]⟩]
  stages : t.stages = closeStage s.stages env.clock (findOpenStage s id) ++
    [⟨env.stageId, id, status.value, env.txnStart, none, some actorId⟩]
  published : t.published = s.published ++
    ((eventOfStatus status).map fun eventType => statusEvent eventType app actorId).toList

/-- Nothing fails up to the commit of `apply`. -/
structure Inserts (s : State) (env : Env) (studentId : UUID) (data : ApplicationCreate) :
    Prop where
  opportunity : ∃ opportunity, fetchOpportunity env.opportunity = .ok opportunity
  existing : findExisting s data.opportunityId studentId = none
  profile : ∃ profile, fetchProfile env.profile = .ok profile
  database : env.databaseFails = false
  url : fitsResumeUrl data.resumeUrl = true
  applicationId : env.applicationId ∉ s.applications.map Application.id
  stageId : env.stageId ∉ s.stages.map WorkflowStage.id

/-- Nothing fails up to the commit of `update_status`. -/
structure Updates (s : State) (env : Env) (id : UUID) : Prop where
  found : (findApplication s id).isSome = true
  database : env.databaseFails = false
  stageId : env.stageId ∉ s.stages.map WorkflowStage.id

/-! ## Up to the commit -/

theorem findApplication_insert {s t : State} {env : Env} {studentId : UUID}
    {data : ApplicationCreate} {profile : Json}
    (h : insertApplication s env studentId data profile = .ok t) :
    findApplication t env.applicationId = some (newApplication env studentId data profile) := by
  obtain ⟨hfresh, -, happs, -⟩ := insertApplication_ok h
  have hnone : Table.lookup Application.id env.applicationId s.applications = none :=
    Table.lookup_eq_none.mpr hfresh
  rw [findApplication, happs, Table.lookup_append, hnone, Option.none_or]
  simp [Table.lookup, newApplication]

/-- **What `apply` does**: it raises and changes nothing, or it commits, reloads and
    publishes. -/
theorem apply_cases (s : State) (env : Env) (studentId : UUID) (data : ApplicationCreate) :
    (¬ Inserts s env studentId data ∧ ∃ e, apply s env studentId data = (s, .error e)) ∨
    (Inserts s env studentId data ∧ ∃ profile t, fetchProfile env.profile = .ok profile ∧
      insertApplication s env studentId data profile = .ok t ∧
      apply s env studentId data =
        if env.reloadFails then (t, .error .database)
        else publishFor t env (newApplication env studentId data profile)
          (submittedEvent (newApplication env studentId data profile) studentId data)) := by
  unfold apply
  rcases hopportunity : fetchOpportunity env.opportunity with e | opportunity
  · refine Or.inl ⟨fun h => ?_, e, rfl⟩
    obtain ⟨_, hok⟩ := h.opportunity
    rw [hopportunity] at hok
    cases hok
  rcases hexisting : findExisting s data.opportunityId studentId with _ | existing
  swap
  · refine Or.inl ⟨fun h => ?_, _, rfl⟩
    have hnone := h.existing
    rw [hexisting] at hnone
    cases hnone
  rcases hprofile : fetchProfile env.profile with e | profile
  · refine Or.inl ⟨fun h => ?_, e, rfl⟩
    obtain ⟨_, hok⟩ := h.profile
    rw [hprofile] at hok
    cases hok
  dsimp only
  rcases hins : insertApplication s env studentId data profile with e | t
  · refine Or.inl ⟨fun h => ?_, e, rfl⟩
    rw [insertApplication_of_fresh studentId data profile h.applicationId h.stageId, h.database,
      h.url] at hins
    cases hins
  · obtain ⟨hid, hstage, -⟩ := insertApplication_ok hins
    refine Or.inr ⟨⟨⟨_, hopportunity⟩, hexisting, ⟨_, hprofile⟩, databaseFails_of_insert hins,
      fitsResumeUrl_of_insert hins, Table.not_mem_of_fresh hid, Table.not_mem_of_fresh hstage⟩,
      profile, t, rfl, hins, ?_⟩
    dsimp only
    rw [refresh, findApplication_insert hins]
    rcases env.reloadFails with _ | _ <;> rfl

/-- **What `update_status` does.** -/
theorem updateStatus_cases (s : State) (env : Env) (id actorId : UUID)
    (status : ApplicationStatus) :
    (¬ Updates s env id ∧ ∃ e, updateStatus s env id actorId status = (s, .error e)) ∨
    (Updates s env id ∧ ∃ row t, findApplication s id = some row ∧
      commitStatus s env row (findOpenStage s row.id) actorId status = .ok t ∧
      updateStatus s env id actorId status =
        if env.reloadFails then (t, .error .database)
        else
          match eventOfStatus status with
          | some eventType => publishFor t env { row with status := status.value }
              (statusEvent eventType { row with status := status.value } actorId)
          | none => (t, .ok { row with status := status.value })) := by
  unfold updateStatus
  rcases hfound : findApplication s id with _ | row
  · refine Or.inl ⟨fun h => ?_, _, rfl⟩
    have hsome := h.found
    rw [hfound] at hsome
    cases hsome
  obtain rfl : row.id = id := Table.key_of_lookup hfound
  dsimp only
  rcases hcommit : commitStatus s env row (findOpenStage s row.id) actorId status with e | t
  · refine Or.inl ⟨fun h => ?_, e, rfl⟩
    rw [commitStatus_of_fresh row _ actorId status h.stageId, h.database] at hcommit
    cases hcommit
  · have hfresh := (commitStatus_ok hcommit).1
    have hids := map_closeStage (g := WorkflowStage.id) (fun _ _ => rfl) s.stages env.clock
      (findOpenStage s row.id)
    have hdatabase : env.databaseFails = false := by
      by_contra hfails
      simp [commitStatus, Bool.not_eq_false _ ▸ hfails] at hcommit
    refine Or.inr ⟨⟨by rw [hfound]; rfl, hdatabase, hids ▸ Table.not_mem_of_fresh hfresh⟩, row, t,
      rfl, hcommit, ?_⟩
    -- the row is still there, with the new status
    have hstored : findApplication t row.id = some { row with status := status.value } := by
      rw [findApplication, (commitStatus_ok hcommit).2.1, ← findApplication,
        findApplication_writeStatus_of_loaded _ hfound]
    dsimp only
    rw [refresh, hstored]
    rcases env.reloadFails with _ | _
    · rcases eventOfStatus status with _ | eventType <;> rfl
    · rfl

/-! ## From the commit on -/

/-- A call that raises after its commit is not all or nothing. -/
theorem not_allOrNothing_of_changed {s t : State} {e : ServiceError}
    {Done : State → Application → Prop} (hchanged : t.auditLogs ≠ s.auditLogs) :
    ¬ AllOrNothing s (t, .error e) Done := by
  rintro ⟨hnothing, -⟩
  exact hchanged (congrArg State.auditLogs (hnothing e rfl))

/-- After a commit, only a confirmed publication is all or nothing. -/
theorem allOrNothing_publishFor {s t : State} {env : Env} {app : Application} {event : DomainEvent}
    {Done : State → Application → Prop} (hchanged : t.auditLogs ≠ s.auditLogs)
    (hdone : Done { t with published := t.published ++ [event] } app) :
    AllOrNothing s (publishFor t env app event) Done ↔ env.publishing = .confirmed := by
  have hraised : ∀ published, ¬ AllOrNothing s
      ({ t with published := published }, .error .publisher) Done :=
    fun published => not_allOrNothing_of_changed hchanged
  rcases hpublishing : env.publishing with _ | _ | _
  · refine iff_of_true ⟨?_, ?_⟩ rfl
    · intro e he
      simp [publishFor, publish, hpublishing, Except.map] at he
    · intro app' hok
      simp only [publishFor, publish, hpublishing, Except.map, Except.ok.injEq] at hok ⊢
      exact hok ▸ hdone
  · refine iff_of_false ?_ (by decide)
    simpa only [publishFor, publish, hpublishing, Except.map] using hraised t.published
  · refine iff_of_false ?_ (by decide)
    simpa only [publishFor, publish, hpublishing, Except.map] using
      hraised (t.published ++ [event])

theorem allOrNothing_error {s : State} {e : ServiceError} {Done : State → Application → Prop} :
    AllOrNothing s (s, .error e) Done := by
  constructor
  · intro _ _
    rfl
  · intro app hok
    cases hok

theorem append_singleton_ne {α : Type*} (l : List α) (a : α) : l ++ [a] ≠ l := by
  intro h
  simpa using congrArg List.length h

theorem apply_allOrNothing_iff (s : State) (env : Env) (studentId : UUID)
    (data : ApplicationCreate) :
    AllOrNothing s (apply s env studentId data) (Applied s env studentId data) ↔
      (Inserts s env studentId data →
        env.reloadFails = false ∧ env.publishing = .confirmed) := by
  rcases apply_cases s env studentId data with ⟨hnot, e, heq⟩ |
    ⟨hinserts, profile, t, hprofile, hins, heq⟩
  · rw [heq]
    exact iff_of_true allOrNothing_error fun h => absurd h hnot
  obtain ⟨-, -, happs, hstages, haudits, hpublished⟩ := insertApplication_ok hins
  have hchanged : t.auditLogs ≠ s.auditLogs := by
    rw [haudits]
    exact append_singleton_ne _ _
  rw [heq]
  rcases hreload : env.reloadFails with _ | _
  · rw [if_neg Bool.false_ne_true, allOrNothing_publishFor hchanged]
    · exact ⟨fun h _ => ⟨rfl, h⟩, fun h => (h hinserts).2⟩
    · refine ⟨⟨profile, hprofile, rfl⟩, happs, hstages, haudits, ?_⟩
      rw [hpublished]
  · rw [if_pos rfl]
    refine iff_of_false (not_allOrNothing_of_changed hchanged) ?_
    intro h
    cases (h hinserts).1

theorem updateStatus_allOrNothing_iff (s : State) (env : Env) (id actorId : UUID)
    (status : ApplicationStatus) :
    AllOrNothing s (updateStatus s env id actorId status) (Changed s env id actorId status) ↔
      (Updates s env id → env.reloadFails = false ∧
        (eventOfStatus status = none ∨ env.publishing = .confirmed)) := by
  rcases updateStatus_cases s env id actorId status with ⟨hnot, e, heq⟩ |
    ⟨hupdates, row, t, hfound, hcommit, heq⟩
  · rw [heq]
    exact iff_of_true allOrNothing_error fun h => absurd h hnot
  obtain ⟨-, happs, hstages, haudits, hpublished⟩ := commitStatus_ok hcommit
  have hid : row.id = id := Table.key_of_lookup hfound
  rw [hid] at hstages haudits
  have hchanged : t.auditLogs ≠ s.auditLogs := by
    rw [haudits]
    exact append_singleton_ne _ _
  rw [heq]
  rcases hreload : env.reloadFails with _ | _
  swap
  · rw [if_pos rfl]
    refine iff_of_false (not_allOrNothing_of_changed hchanged) ?_
    intro h
    cases (h hupdates).1
  rw [if_neg Bool.false_ne_true]
  rcases hevent : eventOfStatus status with _ | eventType
  · refine iff_of_true ⟨?_, ?_⟩ fun _ => ⟨rfl, Or.inl rfl⟩
    · intro e he
      cases he
    · intro app hok
      cases hok
      refine ⟨⟨row, hfound, rfl, happs, haudits⟩, hstages, ?_⟩
      rw [hpublished, hevent]
      exact (List.append_nil _).symm
  · dsimp only
    rw [allOrNothing_publishFor hchanged]
    · constructor
      · intro h _
        exact ⟨rfl, Or.inr h⟩
      · intro h
        exact (h hupdates).2.resolve_left nofun
    · refine ⟨⟨row, hfound, rfl, happs, haudits⟩, hstages, ?_⟩
      rw [hpublished, hevent]
      rfl

/-- **A call of `apply` or `update_status` is all or nothing exactly when** something fails
    before or at its commit, or the row is reloaded and the broker confirms or has nothing
    to publish: for every state, every input and everything the call meets. -/
theorem all_or_nothing_iff (s : State) (env : Env) :
    (∀ studentId data,
      AllOrNothing s (apply s env studentId data) (Applied s env studentId data) ↔
        (Inserts s env studentId data →
          env.reloadFails = false ∧ env.publishing = .confirmed)) ∧
    ∀ id actorId status,
      AllOrNothing s (updateStatus s env id actorId status) (Changed s env id actorId status) ↔
        (Updates s env id → env.reloadFails = false ∧
          (eventOfStatus status = none ∨ env.publishing = .confirmed)) :=
  ⟨apply_allOrNothing_iff s env, updateStatus_allOrNothing_iff s env⟩

/-- **An event that was not published is never published**: the student who tries again is
    refused. -/
theorem retry_refused {s : State} {env env' : Env} {studentId : UUID} {data : ApplicationCreate}
    {opportunity : Json} (hinserts : Inserts s env studentId data)
    (hopportunity : fetchOpportunity env'.opportunity = .ok opportunity) :
    apply (apply s env studentId data).1 env' studentId data =
      ((apply s env studentId data).1, .error (.http 400 "Already applied")) := by
  rcases apply_cases s env studentId data with ⟨hnot, -⟩ | ⟨-, profile, t, -, hins, heq⟩
  · exact absurd hinserts hnot
  have hexisting : (findExisting t data.opportunityId studentId).isSome = true := by
    rw [findExisting, (insertApplication_ok hins).2.2.1, List.find?_isSome]
    exact ⟨_, List.mem_concat_self, by simp [newApplication]⟩
  obtain ⟨existing, hfound⟩ := Option.isSome_iff_exists.mp hexisting
  have hsame : findExisting (apply s env studentId data).1 data.opportunityId studentId =
      some existing := by
    rw [heq]
    rcases env.reloadFails with _ | _
    · exact hfound
    · exact hfound
  generalize (apply s env studentId data).1 = s' at hsame
  rw [apply, hopportunity]
  dsimp only
  rw [hsame]

/-! ## A broker that is away -/

/-- The database accepts, and the publisher is not connected. -/
def unconnected : Env := { Env.untroubled (.ofNat 10) (.ofNat 20) 0 with publishing := .refused }

theorem submitted_unpublished :
    ¬ AllOrNothing State.empty (apply State.empty unconnected (.ofNat 1) ⟨.ofNat 3, [], none⟩)
      (Applied State.empty unconnected (.ofNat 1) ⟨.ofNat 3, [], none⟩) := by
  rintro ⟨hnothing, -⟩
  have happs := congrArg State.applications (hnothing .publisher rfl)
  cases happs

end CampusHire.CommitThenPublish
