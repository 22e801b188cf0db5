import CampusHire.CommitThenPublish
import CampusHire.WithdrawStatusRace
import CampusHire.SerialRun

/-!
# A withdrawal is not final

`update_status` does not look at the status it replaces, so a status change after a
withdrawal takes the application back, and may publish a decision about it.  No other
request does: `withdrawn_until_changed` says how long the status stays and how long no
decision is published, by what one request does to each (`withdrawn_handle_iff`,
`decisions_handle`).
-/

namespace CampusHire.WithdrawalFinality

open CampusHire ApplicationService AuditTrail CommitThenPublish OpenStage SerialRun
  WithdrawStatusRace

/-! ## What finality asks for -/

/-- An event that tells the student of application `id` of a decision. -/
def isDecision (id : UUID) (event : DomainEvent) : Bool :=
  (event.eventType == .applicationShortlisted || event.eventType == .applicationRejected) &&
    match event.payload.get "application_id" with
    | some (.str text) => decide (text = id.str)
    | _ => false

def decisionsOf (s : State) (id : UUID) : List DomainEvent := s.published.filter (isDecision id)

def HasOpenStage (s : State) (id : UUID) : Prop :=
  ∃ st ∈ s.stages, st.applicationId = id ∧ st.exitedAt = none

/-- The application is withdrawn, no stage of it is open, and no decision about it has been
    published since `s`. -/
structure Final (s : State) (id : UUID) (t : State) : Prop where
  status : storedStatus t id = some "Withdrawn"
  stages : ¬ HasOpenStage t id
  events : decisionsOf t id = decisionsOf s id

/-- The request withdraws the application. -/
def Withdraws (s : State) (w : Handled) (id : UUID) : Prop :=
  w.request = .withdraw id ∧ ∃ app, (serve s w.env w.user w.request).2 = .ok app

/-- Every withdrawal of the run is final to its end. -/
def WithdrawalsFinal (run : List Handled) : Prop :=
  ∀ before w later, run = before ++ w :: later → ∀ id, Withdraws (execute State.empty before) w id →
    Throughout handle
      (Final (execute State.empty (before ++ [w])) id) (execute State.empty (before ++ [w])) later

/-- The request changes the status of the application. -/
def Changes (s : State) (h : Handled) (id : UUID) : Prop :=
  ∃ status, h.request = .patchStatus id status ∧ h.user.role = .coordinator ∧ Updates s h.env id

/-- It publishes a decision about it. -/
def Announces (s : State) (h : Handled) (id : UUID) : Prop :=
  ∃ status eventType, h.request = .patchStatus id status ∧ eventOfStatus status = some eventType ∧
    h.user.role = .coordinator ∧ Updates s h.env id ∧ h.env.reloadFails = false ∧
    h.env.publishing ≠ .refused

/-! ## The status -/

theorem storedStatus_writeStatus_other {s : State} {row : Application} {id : UUID}
    (hne : id ≠ row.id) (text : String) :
    storedStatus (writeStatus s row text) id = storedStatus s id := by
  unfold storedStatus writeStatus
  split
  · rfl
  · rw [findApplication, Table.lookup_modify_other
      (f := fun a : Application => { a with status := text }) (fun _ => rfl) hne, ← findApplication]

theorem storedStatus_writeStatus_of_loaded {s : State} {row : Application}
    (h : findApplication s row.id = some row) (text : String) :
    storedStatus (writeStatus s row text) row.id = some text := by
  rw [storedStatus, findApplication_writeStatus_of_loaded text h, Option.map_some]

theorem value_ne_withdrawn (status : ApplicationStatus) : status.value ≠ "Withdrawn" := by
  cases status <;> decide

theorem storedStatus_insert {s t : State} {env : Env} {studentId id : UUID}
    {data : ApplicationCreate} {profile : Json} {text : String}
    (hs : storedStatus s id = some text)
    (hins : insertApplication s env studentId data profile = .ok t) :
    storedStatus t id = some text := by
  obtain ⟨row, hfound, hstatus⟩ := Option.map_eq_some_iff.mp hs
  rw [storedStatus, findApplication, (insertApplication_ok hins).2.2.1,
    Table.lookup_append_of_some hfound, Option.map_some, hstatus]

theorem storedStatus_withdraw {s : State} {id : UUID} (env : Env) (applicationId studentId : UUID)
    (hs : storedStatus s id = some "Withdrawn") :
    storedStatus (withdraw s env applicationId studentId).1 id = some "Withdrawn" := by
  unfold withdraw
  split
  · exact hs
  rename_i row hfound
  split
  · exact hs
  split
  · exact hs
  · rename_i t hcommit
    obtain rfl : row.id = applicationId := Table.key_of_lookup hfound
    have hwritten : storedStatus t id = storedStatus (writeStatus s row "Withdrawn") id := by
      rw [commitWithdrawal_ok hcommit]
      rfl
    dsimp only
    rw [hwritten]
    by_cases hid : id = row.id
    · rw [hid]
      exact storedStatus_writeStatus_of_loaded hfound "Withdrawn"
    · rw [storedStatus_writeStatus_other hid]
      exact hs

theorem storedStatus_updateStatus {s : State} {env : Env} {id : UUID} (actorId : UUID)
    (status : ApplicationStatus) (h : Updates s env id) :
    storedStatus (updateStatus s env id actorId status).1 id = some status.value := by
  rcases updateStatus_cases s env id actorId status with ⟨hnot, -⟩ |
    ⟨-, row, t, hfound, hcommit, heq⟩
  · exact absurd h hnot
  obtain rfl : row.id = id := Table.key_of_lookup hfound
  have ht : storedStatus t row.id = some status.value := by
    rw [storedStatus, findApplication, (commitStatus_ok hcommit).2.1]
    exact storedStatus_writeStatus_of_loaded hfound status.value
  rw [heq, ← ht]
  rcases env.reloadFails with _ | _
  · rcases eventOfStatus status with _ | eventType <;> rfl
  · rfl

theorem storedStatus_updateStatus_other {s : State} {env : Env} {id applicationId : UUID}
    (actorId : UUID) (status : ApplicationStatus)
    (h : ¬ (Updates s env applicationId ∧ applicationId = id)) :
    storedStatus (updateStatus s env applicationId actorId status).1 id = storedStatus s id := by
  rcases updateStatus_cases s env applicationId actorId status with ⟨-, e, heq⟩ |
    ⟨hupdates, row, t, hfound, hcommit, heq⟩
  · rw [heq]
  obtain rfl : row.id = applicationId := Table.key_of_lookup hfound
  have ht : storedStatus t id = storedStatus s id := by
    rw [storedStatus, findApplication, (commitStatus_ok hcommit).2.1]
    exact storedStatus_writeStatus_other (fun hid => h ⟨hupdates, hid.symm⟩) status.value
  rw [heq, ← ht]
  rcases env.reloadFails with _ | _
  · rcases eventOfStatus status with _ | eventType <;> rfl
  · rfl

/-- A step keeps an application withdrawn exactly when it does not change its status. -/
theorem withdrawn_handle_iff {id : UUID} (s : State) (h : Handled)
    (hs : storedStatus s id = some "Withdrawn") :
    storedStatus (handle s h) id = some "Withdrawn" ↔ ¬ Changes s h id := by
  obtain ⟨user, request, env⟩ := h
  cases request with
  | create data =>
    refine iff_of_true ?_ (by simp [Changes])
    simp only [handle, serve]
    split
    · exact hs
    rcases apply_cases s env user.id data with ⟨-, e, heq⟩ | ⟨-, profile, t, -, hins, heq⟩
    · rw [heq]
      exact hs
    · have ht : storedStatus t id = some "Withdrawn" := storedStatus_insert hs hins
      rw [heq]
      rcases env.reloadFails with _ | _
      · exact ht
      · exact ht
  | withdraw applicationId =>
    refine iff_of_true ?_ (by simp [Changes])
    simp only [handle, serve]
    split
    · exact hs
    · exact storedStatus_withdraw env applicationId user.id hs
  | patchStatus applicationId status =>
    simp only [handle, serve]
    split
    · rename_i hrole
      refine iff_of_true hs ?_
      rintro ⟨_, _, hcoordinator, -⟩
      exact hrole hcoordinator
    rename_i hrole
    by_cases hchanges : Updates s env applicationId ∧ applicationId = id
    · obtain ⟨hupdates, rfl⟩ := hchanges
      rw [storedStatus_updateStatus user.id status hupdates]
      refine iff_of_false ?_ (not_not.mpr ⟨status, rfl, not_not.mp hrole, hupdates⟩)
      exact fun hsome => value_ne_withdrawn status (Option.some.inj hsome)
    · rw [storedStatus_updateStatus_other user.id status hchanges]
      refine iff_of_true hs ?_
      rintro ⟨_, hrequest, -, hupdates⟩
      cases hrequest
      exact hchanges ⟨hupdates, rfl⟩

/-- **The status stays** exactly as long as no later request changes it. -/
theorem status_final_iff {s : State} {id : UUID} (hs : storedStatus s id = some "Withdrawn")
    (later : List Handled) :
    Throughout handle (fun t => storedStatus t id = some "Withdrawn") s later ↔
      EveryStep handle (fun t h => ¬ Changes t h id) s later :=
  throughout_iff_everyStep withdrawn_handle_iff hs later

/-! ## The events -/

theorem decisionsOf_publishFor (t : State) (env : Env) (app : Application) (event : DomainEvent)
    (id : UUID) : decisionsOf (publishFor t env app event).1 id =
      decisionsOf t id ++
        if env.publishing ≠ .refused ∧ isDecision id event = true then [event] else [] := by
  rw [publishFor_tables]
  rcases hpublishing : env.publishing with _ | _ | _ <;>
    rcases hdecision : isDecision id event with _ | _ <;>
    simp [decisionsOf, publish, List.filter_append, hdecision]

theorem isDecision_submittedEvent (id : UUID) (app : Application) (studentId : UUID)
    (data : ApplicationCreate) : isDecision id (submittedEvent app studentId data) = false := by
  simp [isDecision, submittedEvent]

theorem isDecision_statusEvent {status : ApplicationStatus} {eventType : EventType}
    (h : eventOfStatus status = some eventType) (id : UUID) (app : Application) (actorId : UUID) :
    isDecision id (statusEvent eventType app actorId) = decide (app.id = id) := by
  have htype : (eventType == .applicationShortlisted || eventType == .applicationRejected) =
      true := by
    cases status <;> cases h <;> rfl
  simp [isDecision, statusEvent, htype, Dict.get]

theorem decisionsOf_updateStatus {s : State} {env : Env} {id : UUID} (actorId : UUID)
    {status : ApplicationStatus} {eventType : EventType}
    (hevent : eventOfStatus status = some eventType) (h : Updates s env id)
    (hreload : env.reloadFails = false) (hpublishing : env.publishing ≠ .refused) :
    ∃ event, decisionsOf (updateStatus s env id actorId status).1 id =
      decisionsOf s id ++ [event] := by
  rcases updateStatus_cases s env id actorId status with ⟨hnot, -⟩ |
    ⟨-, row, t, hfound, hcommit, heq⟩
  · exact absurd h hnot
  obtain rfl : row.id = id := Table.key_of_lookup hfound
  have hcommitted : decisionsOf t row.id = decisionsOf s row.id := by
    rw [decisionsOf, (commitStatus_ok hcommit).2.2.2.2]
    rfl
  refine ⟨statusEvent eventType { row with status := status.value } actorId, ?_⟩
  rw [heq, hreload, if_neg Bool.false_ne_true, hevent]
  dsimp only
  rw [decisionsOf_publishFor, isDecision_statusEvent hevent, hcommitted,
    if_pos ⟨hpublishing, decide_eq_true rfl⟩]

theorem decisionsOf_updateStatus_other {s : State} {env : Env} {id applicationId : UUID}
    (actorId : UUID) {status : ApplicationStatus}
    (h : ∀ eventType, eventOfStatus status = some eventType → Updates s env applicationId →
      env.reloadFails = false → env.publishing ≠ .refused → applicationId ≠ id) :
    decisionsOf (updateStatus s env applicationId actorId status).1 id = decisionsOf s id := by
  rcases updateStatus_cases s env applicationId actorId status with ⟨-, e, heq⟩ |
    ⟨hupdates, row, t, hfound, hcommit, heq⟩
  · rw [heq]
  obtain rfl : row.id = applicationId := Table.key_of_lookup hfound
  have hcommitted : decisionsOf t id = decisionsOf s id := by
    rw [decisionsOf, (commitStatus_ok hcommit).2.2.2.2]
    rfl
  rw [heq, ← hcommitted]
  rcases hreload : env.reloadFails with _ | _
  swap
  · rfl
  rcases hevent : eventOfStatus status with _ | eventType
  · rfl
  simp only [Bool.false_eq_true, if_false]
  rw [decisionsOf_publishFor, isDecision_statusEvent hevent, if_neg, List.append_nil]
  rintro ⟨hpublishing, hid⟩
  exact h eventType hevent hupdates hreload hpublishing (of_decide_eq_true hid)

/-- A step publishes one decision about the application, or none. -/
theorem decisions_handle (s : State) (h : Handled) (id : UUID) :
    (Announces s h id ∧ ∃ event, decisionsOf (handle s h) id = decisionsOf s id ++ [event]) ∨
      (¬ Announces s h id ∧ decisionsOf (handle s h) id = decisionsOf s id) := by
  obtain ⟨user, request, env⟩ := h
  cases request with
  | create data =>
    refine Or.inr ⟨by simp [Announces], ?_⟩
    simp only [handle, serve]
    split
    · rfl
    rcases apply_cases s env user.id data with ⟨-, e, heq⟩ | ⟨-, profile, t, -, hins, heq⟩
    · rw [heq]
    have ht : decisionsOf t id = decisionsOf s id := by
      rw [decisionsOf, (insertApplication_ok hins).2.2.2.2.2]
      rfl
    rw [heq, ← ht]
    rcases env.reloadFails with _ | _
    · rw [if_neg Bool.false_ne_true, decisionsOf_publishFor, isDecision_submittedEvent,
        if_neg (by simp), List.append_nil]
    · rfl
  | withdraw applicationId =>
    refine Or.inr ⟨by simp [Announces], ?_⟩
    simp only [handle, serve]
    split
    · rfl
    unfold withdraw
    split
    · rfl
    split
    · rfl
    split
    · rfl
    · rename_i hcommit
      rw [commitWithdrawal_ok hcommit]
      simp [decisionsOf]
  | patchStatus applicationId status =>
    simp only [handle, serve]
    split
    · rename_i hrole
      refine Or.inr ⟨?_, rfl⟩
      rintro ⟨_, _, _, _, hcoordinator, -⟩
      exact hrole hcoordinator
    rename_i hrole
    by_cases hannounces : Announces s ⟨user, .patchStatus applicationId status, env⟩ id
    · refine Or.inl ⟨hannounces, ?_⟩
      obtain ⟨_, eventType, hrequest, hevent, -, hupdates, hreload, hpublishing⟩ := hannounces
      cases hrequest
      exact decisionsOf_updateStatus user.id hevent hupdates hreload hpublishing
    · refine Or.inr ⟨hannounces, decisionsOf_updateStatus_other user.id ?_⟩
      rintro eventType hevent hupdates hreload hpublishing rfl
      exact hannounces ⟨status, eventType, rfl, hevent, not_not.mp hrole, hupdates, hreload,
        hpublishing⟩

/-- **No decision is published any more** exactly as long as no later request announces
    one. -/
theorem events_final_iff (s : State) (id : UUID) (later : List Handled) :
    Throughout handle (fun t => decisionsOf t id = decisionsOf s id) s later ↔
      EveryStep handle (fun t h => ¬ Announces t h id) s later := by
  refine throughout_iff_everyStep (P := fun t => decisionsOf t id = decisionsOf s id) ?_ rfl later
  intro t h hsame
  rcases decisions_handle t h id with ⟨hannounces, event, heq⟩ | ⟨hnot, heq⟩
  · refine iff_of_false ?_ (not_not.mpr hannounces)
    rw [heq, hsame]
    exact append_singleton_ne _ _
  · rw [heq]
    exact iff_of_true hsame hnot

/-! ## The stages -/

theorem ids_handle {s : State} {id : UUID} (h : Handled)
    (hid : id ∈ s.applications.map Application.id) :
    id ∈ (handle s h).applications.map Application.id := by
  rcases serve_cases s h.env h.user h.request with heq |
    ⟨data, profile, t, published, -, -, -, -, hins, heq⟩ | ⟨_, row, -, -, -, -, hcommit⟩ |
    ⟨_, status, row, t, published, -, -, -, hcommit, heq⟩
  · rw [handle, heq]
    exact hid
  · rw [handle, heq]
    change id ∈ t.applications.map Application.id
    rw [ids_insertApplication hins]
    exact List.mem_append_left _ hid
  · rw [handle, commitWithdrawal_ok hcommit, logAudit_applications,
      map_writeStatus (fun _ _ => rfl)]
    exact hid
  · rw [handle, heq]
    change id ∈ t.applications.map Application.id
    rw [(commitStatus_ok hcommit).2.1, map_writeStatus (fun _ _ => rfl)]
    exact hid

theorem staged_handle {s : State} (hs : Staged s) (h : Handled) : Staged (handle s h) := by
  rcases serve_cases s h.env h.user h.request with heq |
    ⟨data, profile, t, published, -, -, -, -, hins, heq⟩ | ⟨_, row, -, -, -, -, hcommit⟩ |
    ⟨_, status, row, t, published, -, -, hrow, hcommit, heq⟩
  · rw [handle, heq]
    exact hs
  · rw [handle, heq]
    exact (staged_insert hs hins).congr rfl rfl
  · exact staged_withdraw hs hcommit
  · have hmem : row.id ∈ s.applications.map Application.id :=
      List.mem_map_of_mem (Table.mem_of_lookup hrow)
    rw [handle, heq]
    exact (staged_status hs hmem hcommit).congr rfl rfl

theorem staged_execute (run : List Handled) : Staged (execute State.empty run) := by
  induction run using List.reverseRecOn with
  | nil => exact staged_empty
  | append_singleton run h ih =>
    rw [execute_append_singleton]
    exact staged_handle ih h

/-- **A withdrawn application keeps an open stage.** -/
theorem open_stage_stays {s : State} {id : UUID} (hs : Staged s)
    (hid : id ∈ s.applications.map Application.id) (later : List Handled) :
    Throughout handle (fun t => HasOpenStage t id) s later := by
  have hkept : Throughout handle
      (fun t => Staged t ∧ id ∈ t.applications.map Application.id) s later := by
    refine throughout_of_step ?_ ⟨hs, hid⟩ later
    rintro t h ⟨ht, hmem⟩
    exact ⟨staged_handle ht h, ids_handle h hmem⟩
  refine hkept.mono ?_
  rintro t ⟨ht, hmem⟩
  obtain ⟨closed, current, hof, hopen, -⟩ := ht.oneOpen id hmem
  have hcurrent : current ∈ stagesOf t id := by simp [hof]
  obtain ⟨hstage, howner⟩ := mem_stagesOf.mp hcurrent
  exact ⟨current, hstage, howner, hopen⟩

/-! ## After a withdrawal -/

theorem storedStatus_of_withdraws {s : State} {w : Handled} {id : UUID} (hw : Withdraws s w id) :
    storedStatus (handle s w) id = some "Withdrawn" := by
  obtain ⟨user, request, env⟩ := w
  obtain ⟨rfl, app, hok⟩ := hw
  simp only [handle, serve] at hok ⊢
  split at hok
  · cases hok
  rename_i hrole
  rw [if_neg hrole]
  unfold withdraw at hok ⊢
  rcases hfound : findApplication s id with _ | row
  · rw [hfound] at hok
    cases hok
  obtain rfl : row.id = id := Table.key_of_lookup hfound
  rw [hfound] at hok
  dsimp only at hok ⊢
  split at hok
  · cases hok
  rename_i hown
  rw [if_neg hown]
  rcases hcommit : commitWithdrawal s env row with e | t
  · rw [hcommit] at hok
    cases hok
  have hwritten : storedStatus t row.id = storedStatus (writeStatus s row "Withdrawn") row.id := by
    rw [commitWithdrawal_ok hcommit]
    rfl
  dsimp only
  rw [hwritten]
  exact storedStatus_writeStatus_of_loaded hfound "Withdrawn"

/-- **How long a withdrawal lasts.**  For every run of requests and every withdrawal in it,
    the status stays withdrawn to the end of the run exactly if no later request changes it,
    and no decision is published any more exactly if none announces one. -/
theorem withdrawn_until_changed (before later : List Handled) (w : Handled) (id : UUID)
    (hw : Withdraws (execute State.empty before) w id) :
    (Throughout handle (fun t => storedStatus t id = some "Withdrawn")
        (execute State.empty (before ++ [w])) later ↔
      EveryStep handle (fun t h => ¬ Changes t h id) (execute State.empty (before ++ [w])) later) ∧
    (Throughout handle
        (fun t => decisionsOf t id = decisionsOf (execute State.empty (before ++ [w])) id)
        (execute State.empty (before ++ [w])) later ↔
      EveryStep handle (fun t h => ¬ Announces t h id)
        (execute State.empty (before ++ [w])) later) := by
  have hs : storedStatus (execute State.empty (before ++ [w])) id = some "Withdrawn" := by
    rw [execute_append_singleton]
    exact storedStatus_of_withdraws hw
  exact ⟨status_final_iff hs later, events_final_iff _ id later⟩

/-! ## A withdrawn application that is shortlisted -/

def applies : Handled where
  user := ⟨.ofNat 1, .student⟩
  request := .create ⟨.ofNat 3, [], none⟩
  env := Env.untroubled (.ofNat 10) (.ofNat 20) 0

def takesBack : Handled where
  user := ⟨.ofNat 1, .student⟩
  request := .withdraw (.ofNat 10)
  env := Env.untroubled (.ofNat 11) (.ofNat 21) 1

def shortlists : Handled where
  user := ⟨.ofNat 2, .coordinator⟩
  request := .patchStatus (.ofNat 10) .shortlisted
  env := Env.untroubled (.ofNat 12) (.ofNat 22) 2

theorem takesBack_withdraws : Withdraws (execute State.empty [applies]) takesBack (.ofNat 10) :=
  ⟨rfl, _, rfl⟩

/-- The withdrawal of a student who then tries to apply again. -/
theorem withdrawn_after_second_apply :
    Throughout handle (fun t => storedStatus t (.ofNat 10) = some "Withdrawn")
      (execute State.empty [applies, takesBack]) [applies] := by
  refine (withdrawn_until_changed [applies] [applies] takesBack (.ofNat 10)
    takesBack_withdraws).1.mpr ⟨?_, trivial⟩
  rintro ⟨status, hrequest, -⟩
  cases hrequest

theorem shortlisted_after_withdrawal : ¬ WithdrawalsFinal [applies, takesBack, shortlists] := by
  intro hfinal
  have hlater := hfinal [applies] takesBack [shortlists] rfl (.ofNat 10) takesBack_withdraws
  exact absurd hlater.2.status (by decide)

end CampusHire.WithdrawalFinality
