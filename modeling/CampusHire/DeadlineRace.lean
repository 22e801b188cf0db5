import CampusHire.DeadlineExports
import CampusHire.OpportunityTasks

/-!
# What the deadline job closes

`process_deadlines` selects the opportunities that are due and then closes them one by one,
exporting each first.  Nothing looks at the deadline and the status again, so a PATCH that
commits in between may have extended the deadline, and the job closes the opportunity all
the same (`closed_after_extension`).

What is `pending` in the job's local state stays due in the store as long as no PATCH takes
it out of the due set, since no other step does (`pending_fire`); so in a run without such
PATCHes the job closes only what is still due (`closes_only_due`).
-/

namespace CampusHire.DeadlineRace

open CampusHire OpportunityService OpportunityRecords DeadlineExports Schedule

/-! ## The job and the requests -/

/-- A run of the deadline job, and any requests: the job is thread `none`. -/
def jobs {ι : Type*} (requests : ι → CurrentUser × Request) : Option ι → Job
  | none => .processDeadlines
  | some i => .request (requests i).1 (requests i).2

/-- The opportunities that the job has selected and not yet closed. -/
def pending : Task → List UUID
  | .dueExport opp rest => opp.id :: rest
  | .dueCommit opp rest => opp.id :: rest
  | .dueReload id rest => id :: rest
  | _ => []

def closing : List Opportunity → Task
  | [] => .finished (.ok .closed)
  | opp :: rest => .dueExport opp (rest.map Opportunity.id)

section Runs

variable {ι : Type*} [DecidableEq ι]

/-- The job has selected the due opportunities, in the order `due`. -/
def select (c : Config State Task (Option ι)) (due : List Opportunity) :
    Config State Task (Option ι) :=
  { c with task := Function.update c.task none (closing due) }

def Due (now : Time) (s : State) (id : UUID) : Prop :=
  ∃ o, findOpportunity s id = some o ∧ IsDue now o

/-- A commit of the job writes "closed" only to an opportunity that is due. -/
def ClosesDue (now : Time) (c : Config State Task (Option ι)) (i : Option ι) (env : Env) : Prop :=
  i = none → ∀ opp rest s', c.task none = .dueCommit opp rest → opp.status ≠ "closed" →
    commitClosed c.store env opp = .ok s' → Due now c.store opp.id

/-- A PATCH leaves an opportunity that the job has pending due, if it is. -/
def LeavesDue (now : Time) (c : Config State Task (Option ι)) (i : Option ι) (env : Env) : Prop :=
  ∀ opp data s', c.task i = .updateCommit opp data → commitUpdate c.store env opp data = .ok s' →
    opp.id ∈ pending (c.task none) → ∀ stored, findOpportunity c.store opp.id = some stored →
      IsDue now stored → IsDue now (applyUpdate opp data stored)

/-- The program selects in the order of the table. -/
theorem fire_dueRead {c : Config State Task (Option ι)} (h : c.task none = .dueRead) (env : Env) :
    fire program c none env = select c (dueOpportunities c.store env.clock) := by
  have hstep : taskStep env c.store .dueRead =
      (c.store, closing (dueOpportunities c.store env.clock)) := by
    rw [taskStep]
    rcases dueOpportunities c.store env.clock with _ | ⟨opp, rest⟩ <;> rfl
  have hfire : fire program c none env =
      { c with
        store := (taskStep env c.store (c.task none)).1
        task := Function.update c.task none (taskStep env c.store (c.task none)).2 } := by
    rw [fire, show program.onLoop (c.task none) = false from by rw [h]; rfl,
      if_neg Bool.false_ne_true]
    rfl
  rw [hfire, h, hstep, select]

/-! ## What the steps do to the pending opportunities -/

def inLoop : Task → Bool
  | .dueExport _ _ | .dueCommit _ _ | .dueReload _ _ | .finished _ => true
  | _ => false

/-- A task of a request. -/
def isRequest : Task → Bool
  | .dueRead | .dueExport _ _ | .dueCommit _ _ | .dueReload _ _ => false
  | _ => true

theorem isRequest_start (user : CurrentUser) (request : Request) :
    isRequest (Task.start (.request user request)) = true := by
  cases request <;>
    rw [Task.start] <;>
    split <;>
    rfl

theorem isRequest_step (env : Env) (s : State) {t : Task} (h : isRequest t = true) :
    isRequest (taskStep env s t).2 = true := by
  cases t with
  | dueRead | dueExport | dueCommit | dueReload => cases h
  | opportunityRefresh | registrationRefresh | finished => rfl
  | _ =>
    simp only [taskStep]
    repeat' split
    all_goals rfl

/-- Closing one opportunity leaves the others as they are. -/
theorem due_commitClosed {s s' : State} {env : Env} {opp : Opportunity} {now : Time} {id : UUID}
    (hcommit : commitClosed s env opp = .ok s') (hne : id ≠ opp.id) (h : Due now s id) :
    Due now s' id := by
  obtain ⟨o, hfound, hdue⟩ := h
  refine ⟨o, ?_, hdue⟩
  have hid : o.id ≠ opp.id := fun heq => hne ((Table.key_of_lookup hfound).symm.trans heq)
  rw [find_commitUpdate hcommit, hfound, Option.map_some, if_neg hid]

theorem pending_job (env : Env) {s : State} {t : Task} {now : Time} (hloop : inLoop t = true)
    (hnodup : (pending t).Nodup) (hdue : ∀ id ∈ pending t, Due now s id) :
    inLoop (taskStep env s t).2 = true ∧ (pending (taskStep env s t).2).Nodup ∧
      ∀ id ∈ pending (taskStep env s t).2, Due now (taskStep env s t).1 id := by
  have hended : ∀ (s : State) (result : Except ServiceError Response),
      inLoop (.finished result) = true ∧ (pending (.finished result)).Nodup ∧
        ∀ id ∈ pending (.finished result), Due now s id :=
    fun _ _ => ⟨rfl, List.nodup_nil, fun _ hid => absurd hid List.not_mem_nil⟩
  cases t with
  | dueExport opp rest =>
    rw [taskStep]
    split
    · exact hended _ _
    · exact ⟨rfl, hnodup, hdue⟩
  | dueCommit opp rest =>
    obtain ⟨hnot, hrest⟩ := List.nodup_cons.mp hnodup
    rw [taskStep]
    split
    · exact hended _ _
    rename_i s' hcommit
    rcases refreshOpportunity s' env opp.id with e | logged
    · exact hended _ _
    cases rest with
    | nil => exact hended _ _
    | cons next rest =>
      refine ⟨rfl, hrest, ?_⟩
      intro id hid
      have hne : id ≠ opp.id := fun heq => hnot (heq ▸ hid)
      exact due_commitClosed hcommit hne (hdue id (List.mem_cons_of_mem _ hid))
  | dueReload id rest =>
    rw [taskStep]
    split
    · exact hended _ _
    · rename_i opp hopp
      have hid : opp.id = id := Table.key_of_lookup (refreshOpportunity_eq_ok.mp hopp).2
      rw [pending, hid]
      exact ⟨rfl, hnodup, hdue⟩
  | finished result => exact hended s result
  | _ => cases hloop

/-- A request leaves an opportunity due, unless it is a PATCH that does not. -/
theorem due_request (env : Env) {s : State} {t : Task} {now : Time} {id : UUID}
    (hrequest : isRequest t = true)
    (hleaves : ∀ opp data s', t = .updateCommit opp data → commitUpdate s env opp data = .ok s' →
      opp.id = id → ∀ stored, findOpportunity s opp.id = some stored →
        IsDue now stored → IsDue now (applyUpdate opp data stored))
    (h : Due now s id) : Due now (taskStep env s t).1 id := by
  obtain ⟨o, hfound, hdue⟩ := h
  rcases taskStep_cases env s t with heq | ⟨coordinatorId, data, s', -, hins, heq⟩ |
    ⟨opp, data, s', ht, hcommit, heq⟩ | ⟨opp, rest, s', rfl, -, -⟩ |
    ⟨opportunityId, studentId, data, s', -, hins, heq⟩
  · rw [heq]
    exact ⟨o, hfound, hdue⟩
  · rw [heq]
    obtain ⟨o', hfound', hsame⟩ := follows_insert hins id o hfound
    exact ⟨o', hfound', hsame ▸ hdue⟩
  · rw [heq]
    have hid : o.id = id := Table.key_of_lookup hfound
    refine ⟨_, by rw [find_commitUpdate hcommit, hfound, Option.map_some], ?_⟩
    by_cases hrow : o.id = opp.id
    · rw [if_pos hrow]
      have hopp : opp.id = id := hrow.symm.trans hid
      exact hleaves opp data s' ht hcommit hopp o (hopp ▸ hfound) hdue
    · rw [if_neg hrow]
      exact hdue
  · cases hrequest
  · rw [heq, (insertRegistration_ok hins).2]
    exact ⟨o, hfound, hdue⟩

/-! ## Runs -/

/-- Everything that the job has pending is due, and only the job closes. -/
structure Watching (now : Time) (c : Config State Task (Option ι)) : Prop where
  requests : ∀ i, isRequest (c.task (some i)) = true
  loop : inLoop (c.task none) = true
  nodup : (pending (c.task none)).Nodup
  due : ∀ id ∈ pending (c.task none), Due now c.store id

theorem pending_fire {now : Time} {c : Config State Task (Option ι)} {i : Option ι} {env : Env}
    (h : Watching now c) (hleaves : LeavesDue now c i env) :
    Watching now (fire program c i env) := by
  cases i with
  | none =>
    obtain ⟨hloop, hnodup, hdue⟩ := pending_job env h.loop h.nodup h.due
    refine ⟨?_, ?_, ?_, ?_⟩
    · intro j
      rw [fire_task_other program c env (Option.some_ne_none j)]
      exact h.requests j
    · rw [fire_task_same]
      exact hloop
    · rw [fire_task_same]
      exact hnodup
    · rw [fire_task_same]
      exact hdue
  | some j =>
    have hjob : (fire program c (some j) env).task none = c.task none :=
      fire_task_other program c env (Option.some_ne_none j).symm
    refine ⟨?_, ?_, ?_, ?_⟩
    · intro k
      by_cases hk : some k = some j
      · rw [hk, fire_task_same]
        exact isRequest_step env c.store (h.requests j)
      · rw [fire_task_other program c env hk]
        exact h.requests k
    · rw [hjob]
      exact h.loop
    · rw [hjob]
      exact h.nodup
    · rw [hjob]
      intro id hid
      refine due_request env (h.requests j) ?_ (h.due id hid)
      intro opp data s' ht hcommit hopp stored hstored hdue
      exact hleaves opp data s' ht hcommit (hopp ▸ hid) stored hstored hdue

omit [DecidableEq ι] in
theorem closesDue_of_watching {now : Time} {c : Config State Task (Option ι)}
    (h : Watching now c) (i : Option ι) (env : Env) : ClosesDue now c i env := by
  intro _ opp rest s' htask _ _
  refine h.due opp.id ?_
  rw [htask]
  exact List.mem_cons_self

theorem ids_taskStep (env : Env) {s : State} (t : Task)
    (h : (s.opportunities.map Opportunity.id).Nodup) :
    ((taskStep env s t).1.opportunities.map Opportunity.id).Nodup := by
  apply taskStep_preserves (I := fun s => (s.opportunities.map Opportunity.id).Nodup) h
  · intro coordinatorId data s' hins
    obtain ⟨hfresh, hadded, -⟩ := insertOpportunity_ok hins
    rw [hadded]
    exact Table.nodup_append_fresh h hfresh
  · intro opp data s' hcommit
    rw [commitUpdate_ok hcommit, Table.map_modify (f := applyUpdate opp data) fun _ => rfl]
    exact h
  · intro opportunityId studentId data s' hins
    rw [(insertRegistration_ok hins).2]
    exact h

structure Reachable (c : Config State Task (Option ι)) : Prop where
  ids : (c.store.opportunities.map Opportunity.id).Nodup
  requests : ∀ i, isRequest (c.task (some i)) = true

theorem reachable_run (requests : ι → CurrentUser × Request)
    (schedule : List (Option ι × Env)) :
    Reachable (run program (arrive (jobs requests)) schedule) := by
  refine run_invariant program ?_ ?_ schedule
  · intro c i env hc _
    refine ⟨ids_taskStep env (c.task i) hc.ids, ?_⟩
    intro j
    by_cases hj : some j = i
    · subst hj
      rw [fire_task_same]
      exact isRequest_step env c.store (hc.requests j)
    · rw [fire_task_other program c env hj]
      exact hc.requests j
  · refine ⟨List.nodup_nil, ?_⟩
    intro i
    exact isRequest_start (requests i).1 (requests i).2

theorem watching_select {now : Time} {c : Config State Task (Option ι)} {due : List Opportunity}
    (hc : Reachable c) (horder : due.Perm (dueOpportunities c.store now)) :
    Watching now (select c due) := by
  have htask : (select c due).task none = closing due := by simp [select]
  have hpending : pending (closing due) = due.map Opportunity.id := by
    cases due <;> rfl
  refine ⟨?_, ?_, ?_, ?_⟩
  · intro i
    have hother : (select c due).task (some i) = c.task (some i) := by simp [select]
    rw [hother]
    exact hc.requests i
  · rw [htask]
    cases due <;> rfl
  · rw [htask, hpending, (horder.map Opportunity.id).nodup_iff]
    exact hc.ids.sublist (List.filter_sublist.map Opportunity.id)
  · rw [htask, hpending]
    intro id hid
    obtain ⟨o, ho, rfl⟩ := List.mem_map.mp hid
    obtain ⟨hstored, hdue⟩ := mem_dueOpportunities.mp (horder.mem_iff.mp ho)
    exact ⟨o, Table.lookup_of_mem hc.ids hstored, hdue⟩

/-- **The job closes only what is still due**, in every run in which no PATCH takes an
    opportunity that the job has pending out of the due set: from every reachable state in
    which the job selects, in whatever order it gets the due opportunities, and however its
    steps and the requests' interleave from there. -/
theorem closes_only_due (requests : ι → CurrentUser × Request)
    (before after : List (Option ι × Env)) (now : Time) (due : List Opportunity)
    (horder : due.Perm
      (dueOpportunities (run program (arrive (jobs requests)) before).store now))
    (hleaves : Guarded program (LeavesDue now)
      (select (run program (arrive (jobs requests)) before) due) after) :
    Guarded program (ClosesDue now)
      (select (run program (arrive (jobs requests)) before) due) after := by
  refine guarded_imp program (fun c i env h _ hG => pending_fire h hG) ?_
    (watching_select (reachable_run requests before) horder) after hleaves
  intro c i env h _ _
  exact closesDue_of_watching h i env

end Runs

/-! ## A deadline extended in time -/

instance decidableDue (now : Time) (s : State) (id : UUID) : Decidable (Due now s id) :=
  decidable_of_iff ((findOpportunity s id).any (fun o => decide (IsDue now o)) = true)
    (by simp [Due, Option.any_eq_true])

/-- A drive with a deadline at 10, and a PATCH of it. -/
def creationAndPatch (data : OpportunityUpdate) : Bool → CurrentUser × Request
  | false =>
    (⟨.ofNat 1, .coordinator⟩, .createOpp { title := "Drive", deadline := some (.aware 10) })
  | true => (⟨.ofNat 1, .coordinator⟩, .patchOpp (.ofNat 7) data)

def at20 : Env := .untroubled (.ofNat 7) 20

/-- The drive is created, and the PATCH has loaded it. -/
def loaded (data : OpportunityUpdate) : Config State Task (Option Bool) :=
  run program (arrive (jobs (creationAndPatch data)))
    [(some false, at20), (some false, at20), (some true, at20)]

/-- The PATCH commits between the selection of the drive and its closing. -/
def patchThenClose : List (Option Bool × Env) := [(some true, at20), (none, at20), (none, at20)]

theorem closed_after_extension :
    ¬ Guarded program (ClosesDue 20)
      (select (loaded { deadline := some (some (.aware 30)) })
        (dueOpportunities (loaded { deadline := some (some (.aware 30)) }).store 20))
      patchThenClose := by
  rintro ⟨-, -, hclose, -⟩
  have hdue := hclose rfl rfl _ _ _ rfl (by decide +kernel) rfl
  exact absurd hdue (by decide +kernel)

theorem closes_only_due_renamed :
    Guarded program (ClosesDue 20)
      (select (loaded { title := some (some "Drive 2") })
        (dueOpportunities (loaded { title := some (some "Drive 2") }).store 20))
      patchThenClose := by
  refine closes_only_due (creationAndPatch { title := some (some "Drive 2") })
    [(some false, at20), (some false, at20), (some true, at20)] patchThenClose 20 _ (.refl _) ?_
  refine ⟨?_, ?_, ?_, trivial⟩
  · intro _ opp data s' htask _ _ stored _ hdue
    cases htask
    exact hdue
  · intro _ opp data s' htask
    cases htask
  · intro _ opp data s' htask
    cases htask

end CampusHire.DeadlineRace
