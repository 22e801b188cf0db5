import CampusHire.OpportunityTasks
import CampusHire.PartialUpdate

/-!
# Two updates of one opportunity

`update_opportunity` loads the row, checks the owner, assigns the fields that the body
sets and commits.  Two such calls are two partial updates in the sense of
`PartialUpdate`: an update that the database refuses assigns nothing, and a deadline without
an offset or a text longer than its column is equal to nothing that the row holds.
-/

namespace CampusHire.OpportunityService

open CampusHire Schedule TwoPhase PartialUpdate

/-! ## Columns -/

inductive Column where
  | title
  | description
  | deadline
  | status
deriving DecidableEq

def Column.Value : Column → Type
  | .title => Option String
  | .description => Option String
  | .deadline => Option Time
  | .status => Option String

instance (k : Column) : DecidableEq k.Value := by
  cases k <;> unfold Column.Value <;> infer_instance

/-- The updatable fields of a row. -/
def Opportunity.columns (opp : Opportunity) : ∀ k : Column, k.Value
  | .title => some opp.title
  | .description => opp.description
  | .deadline => opp.deadline
  | .status => some opp.status

def OpportunityUpdate.assigned (data : OpportunityUpdate) :
    ∀ k : Column, Option (Assigned k.Value)
  | .title => data.title.map fun title =>
      { value := title.map (varchar 255), always := title.any (overlong 255) }
  | .description => data.description.map fun description => { value := description }
  | .deadline => data.deadline.map fun deadline =>
      { value := deadline.map Deadline.moment, always := deadline.any Deadline.isNaive }
  | .status => data.status.map fun status =>
      { value := status.map (varchar 50), always := status.any (overlong 50) }

/-- What the columns hold. -/
structure Opportunity.Fits (opp : Opportunity) : Prop where
  title : within 255 (some opp.title) = true
  status : within 50 (some opp.status) = true

def OpportunityUpdate.accepted (data : OpportunityUpdate) : Bool :=
  data.title.all (fun v => v.isSome && fits 255 v) &&
    data.status.all (fun v => v.isSome && fits 50 v)

/-- What a request assigns: nothing, when it fails. -/
def assignedBy (env : Env) (data : OpportunityUpdate) :
    ∀ k : Column, Option (Assigned k.Value) :=
  if env.databaseFails || !data.accepted then fun _ => none else data.assigned

theorem acceptsUpdate_eq {opp : Opportunity} (h : opp.Fits) (data : OpportunityUpdate) :
    acceptsUpdate opp data = data.accepted := by
  rw [acceptsUpdate, OpportunityUpdate.accepted, written_all (by simp [fits_of_within h.title]),
    written_all (by simp [fits_of_within h.status])]

/-- A column that is not nullable. -/
theorem getD_writtenText {n : Nat} {loaded : Option String} {stored : String}
    {assigned : Option (Option String)} (h : assigned.all Option.isSome = true) :
    some (((writtenText n loaded assigned).getD none).getD stored) =
      (writtenText n loaded assigned).getD (some stored) := by
  rcases hwritten : writtenText n loaded assigned with _ | v
  · rfl
  · obtain ⟨a, ha, rfl⟩ := Option.map_eq_some_iff.mp hwritten
    rw [(Option.filter_eq_some_iff.mp ha).1] at h
    obtain ⟨x, rfl⟩ := Option.isSome_iff_exists.mp h
    rfl

theorem within_getD {n : Nat} {loaded : Option String} {stored : String}
    (hstored : within n (some stored) = true) (assigned : Option (Option String)) :
    within n (some (((writtenText n loaded assigned).getD none).getD stored)) = true := by
  have hwritten : within n ((writtenText n loaded assigned).getD (some stored)) = true :=
    within_writtenText hstored assigned
  generalize writtenText n loaded assigned = value at hwritten ⊢
  rcases value with _ | _ | x
  · exact hstored
  · exact hstored
  · exact hwritten

theorem columns_applyUpdate {data : OpportunityUpdate} (h : data.accepted = true)
    (loaded stored : Opportunity) :
    (applyUpdate loaded data stored).columns =
      write loaded.columns data.assigned stored.columns := by
  rw [OpportunityUpdate.accepted, Bool.and_eq_true] at h
  have hsome : ∀ {n : Nat} {a : Option (Option String)},
      a.all (fun v => v.isSome && fits n v) = true → a.all Option.isSome = true := by
    intro n a ha
    rcases a with _ | v
    · rfl
    · exact (Bool.and_eq_true _ _ ▸ ha).1
  funext k
  symm
  cases k with
  | title => exact (write_of_map rfl _).trans (getD_writtenText (hsome h.1)).symm
  | description => exact write_of_plain rfl _
  | deadline => exact write_of_map rfl _
  | status => exact (write_of_map rfl _).trans (getD_writtenText (hsome h.2)).symm

theorem fits_applyUpdate (loaded : Opportunity) (data : OpportunityUpdate) {stored : Opportunity}
    (hfits : stored.Fits) : (applyUpdate loaded data stored).Fits :=
  ⟨within_getD hfits.title _, within_getD hfits.status _⟩

theorem fits_commitUpdate {s s' : State} {env : Env} {row : Opportunity} {data : OpportunityUpdate}
    (h : commitUpdate s env row data = .ok s') (hrows : ∀ opp ∈ s.opportunities, opp.Fits) :
    ∀ opp ∈ s'.opportunities, opp.Fits := by
  rw [commitUpdate_ok h]
  intro opp hopp
  obtain ⟨stored, hstored, rfl⟩ := List.mem_map.mp hopp
  split
  · exact fits_applyUpdate row data (hrows stored hstored)
  · exact hrows stored hstored

theorem fits_insertOpportunity {s s' : State} {env : Env} {coordinatorId : UUID}
    {data : OpportunityCreate} (h : insertOpportunity s env coordinatorId data = .ok s')
    (hrows : ∀ opp ∈ s.opportunities, opp.Fits) : ∀ opp ∈ s'.opportunities, opp.Fits := by
  rw [(insertOpportunity_ok h).2.1]
  intro opp hopp
  rcases List.mem_append.mp hopp with hold | hnew
  · exact hrows opp hold
  · have hstatus : within 50 (some "published") = true := by decide
    rw [List.mem_singleton.mp hnew]
    exact ⟨within_varchar 255 (some data.title), hstatus⟩

/-- The database never holds a row that does not fit its columns. -/
theorem fits_run {ι : Type*} [DecidableEq ι] (jobs : ι → Job) (schedule : List (ι × Env)) :
    ∀ opp ∈ (run program (arrive jobs) schedule).store.opportunities, opp.Fits := by
  have hempty : ∀ opp ∈ State.empty.opportunities, opp.Fits := fun opp hopp => by cases hopp
  refine run_store_invariant program (I := fun s => ∀ opp ∈ s.opportunities, opp.Fits) ?_ hempty
    schedule
  intro env s t hrows
  apply taskStep_preserves (I := fun s => ∀ opp ∈ s.opportunities, opp.Fits) hrows
  · intro coordinatorId data s' hins
    exact fits_insertOpportunity hins hrows
  · intro opp data s' hcommit
    exact fits_commitUpdate hcommit hrows
  · intro opportunityId studentId data s' hins
    rw [(insertRegistration_ok hins).2]
    exact hrows

/-! ## The row -/

section Row

variable (id coordinatorId : UUID)

def storedColumns (s : State) : Option (∀ k : Column, k.Value) :=
  (findOpportunity s id).map Opportunity.columns

/-- The opportunity is there, and the requests are its owner's. -/
structure Owned (s : State) (opp : Opportunity) : Prop where
  found : findOpportunity s id = some opp
  owner : opp.coordinatorId = coordinatorId
  fits : opp.Fits

variable {id coordinatorId}

/-- In a state that requests have reached, the opportunity only has to be there. -/
theorem owned_run {ι : Type*} [DecidableEq ι] (jobs : ι → Job) (schedule : List (ι × Env))
    {opp : Opportunity}
    (hfound : findOpportunity (run program (arrive jobs) schedule).store id = some opp)
    (howner : opp.coordinatorId = coordinatorId) :
    Owned id coordinatorId (run program (arrive jobs) schedule).store opp :=
  ⟨hfound, howner, fits_run jobs schedule opp (Table.mem_of_lookup hfound)⟩

/-- The tables after the commit of an update, whether or not it succeeds. -/
def afterCommit (s : State) (env : Env) (opp : Opportunity) (data : OpportunityUpdate) : State :=
  (commitUpdate s env opp data).toOption.getD s

theorem Owned.afterCommit {s : State} {stored opp : Opportunity}
    (h : Owned id coordinatorId s stored) (hid : opp.id = id) (hfits : opp.Fits) (env : Env)
    (data : OpportunityUpdate) :
    ∃ stored', Owned id coordinatorId (afterCommit s env opp data) stored' ∧
      stored'.columns = write opp.columns (assignedBy env data) stored.columns := by
  by_cases hrefused : (env.databaseFails || !data.accepted) = true
  · have hstays : OpportunityService.afterCommit s env opp data = s := by
      rw [OpportunityService.afterCommit, commitUpdate, acceptsUpdate_eq hfits, if_pos hrefused]
      rfl
    rw [hstays, assignedBy, if_pos hrefused, write_nothing]
    exact ⟨stored, h, rfl⟩
  · have hwrites : OpportunityService.afterCommit s env opp data = { s with
        opportunities :=
          Table.modify Opportunity.id opp.id (applyUpdate opp data) s.opportunities } := by
      rw [OpportunityService.afterCommit, commitUpdate, acceptsUpdate_eq hfits, if_neg hrefused]
      rfl
    have haccepted : data.accepted = true := by
      simp only [Bool.or_eq_true, not_or, Bool.not_eq_true, Bool.not_eq_false'] at hrefused
      exact hrefused.2
    rw [hwrites, assignedBy, if_neg hrefused]
    refine ⟨applyUpdate opp data stored, ⟨?_, h.owner, fits_applyUpdate opp data h.fits⟩,
      columns_applyUpdate haccepted opp stored⟩
    have hlookup : Table.lookup Opportunity.id id
        (Table.modify Opportunity.id id (applyUpdate opp data) s.opportunities) =
          (findOpportunity s id).map (applyUpdate opp data) :=
      Table.lookup_modify_same (f := applyUpdate opp data) (fun _ => rfl) s.opportunities
    rw [findOpportunity, hid, hlookup, h.found, Option.map_some]

theorem Owned.getOpportunity {s : State} {stored : Opportunity}
    (h : Owned id coordinatorId s stored) : getOpportunity s id = .ok stored := by
  rw [OpportunityService.getOpportunity, h.found]

theorem Owned.storedColumns {s : State} {stored : Opportunity}
    (h : Owned id coordinatorId s stored) :
    storedColumns id s = some stored.columns := by
  rw [OpportunityService.storedColumns, h.found, Option.map_some]

/-- The handler reads and commits in one go. -/
theorem Owned.updateOpportunity {s : State} {stored : Opportunity}
    (h : Owned id coordinatorId s stored) (env : Env) (data : OpportunityUpdate) :
    ∃ stored', Owned id coordinatorId (updateOpportunity s env id coordinatorId data).1 stored' ∧
      stored'.columns = write stored.columns (assignedBy env data) stored.columns := by
  have hstate : (OpportunityService.updateOpportunity s env id coordinatorId data).1 =
      OpportunityService.afterCommit s env stored data := by
    rw [OpportunityService.updateOpportunity, h.getOpportunity, OpportunityService.afterCommit]
    simp only [h.owner, ne_eq, not_true_eq_false, if_false]
    rcases commitUpdate s env stored data with e | s'
    · rfl
    · rfl
  rw [hstate]
  exact h.afterCommit (Table.key_of_lookup h.found) h.fits env data

end Row

end CampusHire.OpportunityService

namespace CampusHire.OpportunityUpdates

open CampusHire OpportunityService Schedule TwoPhase PartialUpdate

/-! ## Two calls -/

section Account

variable (id coordinatorId : UUID) (updates : Bool → OpportunityUpdate) (envs : Bool → Env)

def assignments (i : Bool) : ∀ k : Column, Option (Assigned k.Value) :=
  assignedBy (envs i) (updates i)

/-- Where a call stands. -/
def At (i : Bool) : Phase (Option (∀ k : Column, k.Value)) → Task → Prop
  | .waiting, t => t = .updateRead id coordinatorId (updates i)
  | .loaded v, t => ∃ opp : Opportunity, v = some opp.columns ∧ opp.id = id ∧ opp.Fits ∧
      t = .updateCommit opp (updates i)
  | .past, t => (∃ k, t = .opportunityRefresh k) ∨ ∃ result, t = .finished result

/-- A commit resets none of the columns. -/
def Fresh (env : Env) (s : State) : Task → Prop
  | .updateCommit opp data => ∀ stored, findOpportunity s opp.id = some stored →
      ¬ Resets opp.columns stored.columns (assignedBy env data)
  | _ => True

theorem step_updateCommit (env : Env) (s : State) (opp : Opportunity) (data : OpportunityUpdate) :
    (taskStep env s (.updateCommit opp data)).1 = afterCommit s env opp data ∧
      ((∃ k, (taskStep env s (.updateCommit opp data)).2 = .opportunityRefresh k) ∨
        ∃ result, (taskStep env s (.updateCommit opp data)).2 = .finished result) := by
  simp only [taskStep, afterCommit]
  rcases commitUpdate s env opp data with e | s'
  · exact ⟨rfl, Or.inr ⟨_, rfl⟩⟩
  · exact ⟨rfl, Or.inl ⟨_, rfl⟩⟩

theorem step_read {s : State} {stored : Opportunity} (h : Owned id coordinatorId s stored)
    (env : Env) (data : OpportunityUpdate) :
    taskStep env s (.updateRead id coordinatorId data) = (s, .updateCommit stored data) := by
  simp only [taskStep, h.getOpportunity, h.owner, ne_eq, not_true_eq_false, if_false]

/-- A call that has committed or failed touches nothing. -/
theorem step_past (env : Env) (s : State) {t : Task} {i : Bool}
    (h : At id coordinatorId updates i .past t) :
    (taskStep env s t).1 = s ∧ At id coordinatorId updates i .past (taskStep env s t).2 := by
  rcases h with ⟨k, rfl⟩ | ⟨result, rfl⟩
  · exact ⟨rfl, Or.inr ⟨_, rfl⟩⟩
  · exact ⟨rfl, Or.inr ⟨_, rfl⟩⟩

/-- Whatever one call does, the row stays the owner's. -/
theorem owned_step {s : State} {t : Task} {i : Bool} {ph : Phase (Option (∀ k : Column, k.Value))}
    (env : Env) (h : ∃ stored, Owned id coordinatorId s stored)
    (hat : At id coordinatorId updates i ph t) :
    ∃ stored, Owned id coordinatorId (taskStep env s t).1 stored := by
  obtain ⟨stored, hstored⟩ := h
  cases ph with
  | waiting =>
    obtain rfl : t = _ := hat
    rw [step_read id coordinatorId hstored]
    exact ⟨stored, hstored⟩
  | loaded v =>
    obtain ⟨opp, -, hid, hfits, rfl⟩ := hat
    rw [(step_updateCommit env s opp (updates i)).1]
    obtain ⟨stored', hstored', -⟩ := hstored.afterCommit hid hfits env (updates i)
    exact ⟨stored', hstored'⟩
  | past =>
    rw [(step_past id coordinatorId updates env s hat).1]
    exact ⟨stored, hstored⟩

def account : Account program envs (Option (∀ k : Column, k.Value)) where
  data := storedColumns id
  commit := commitRow (assignments updates envs)
  stands := fun i ph s t =>
    (∃ stored, Owned id coordinatorId s stored) ∧ At id coordinatorId updates i ph t
  finished := fun t => ∃ result, t = .finished result
  fresh := Fresh
  past_of_finished := by
    rintro i ph s t ⟨-, hat⟩ ⟨result, rfl⟩
    cases ph with
    | waiting => cases hat
    | loaded v =>
      obtain ⟨_, -, -, -, ht⟩ := hat
      cases ht
    | past => rfl
  waiting_step := by
    rintro i s t ⟨⟨stored, hstored⟩, ht⟩
    obtain rfl : t = _ := ht
    have hstep := step_read id coordinatorId hstored (envs i) (updates i)
    refine ⟨trivial, congrArg (fun r => storedColumns id r.1) hstep, Or.inl ?_⟩
    rw [show program.step = taskStep from rfl, hstep]
    exact ⟨⟨stored, hstored⟩, stored, hstored.storedColumns, Table.key_of_lookup hstored.found,
      hstored.fits, rfl⟩
  loaded_step := by
    rintro i v s t ⟨⟨stored, hstored⟩, opp, rfl, hid, hfits, rfl⟩
    right
    obtain ⟨hstate, htask⟩ := step_updateCommit (envs i) s opp (updates i)
    obtain ⟨stored', hstored', hcolumns⟩ := hstored.afterCommit hid hfits (envs i) (updates i)
    rw [show program.step = taskStep from rfl, hstate, hstored.storedColumns,
      hstored'.storedColumns, hcolumns]
    refine ⟨?_, rfl, ⟨stored', hstored'⟩, htask⟩
    rw [commitRow_eq_iff]
    exact forall_found_iff (hid ▸ hstored.found)
  past_step := by
    rintro i s t ⟨hstored, hat⟩
    obtain ⟨hstate, hpast⟩ := step_past id coordinatorId updates (envs i) s hat
    rw [show program.step = taskStep from rfl, hstate]
    refine ⟨?_, rfl, hstored, hpast⟩
    rcases hat with ⟨k, rfl⟩ | ⟨result, rfl⟩
    · trivial
    · trivial
  stable := by
    rintro i ph ph' s t u ⟨hstored, hat⟩ ⟨-, hat'⟩
    exact ⟨owned_step id coordinatorId updates (envs i) hstored hat, hat'⟩

/-! ## Serialization -/

def tasks (i : Bool) : Task := .updateRead id coordinatorId (updates i)

def together (s : State) (order : List Bool) : Config State Task Bool :=
  run program (start s (tasks id coordinatorId updates)) (interleave envs order)

/-- Call `i`, then the other one. -/
def inOrder (i : Bool) (s : State) : State :=
  (updateOpportunity (updateOpportunity s (envs i) id coordinatorId (updates i)).1 (envs !i) id
    coordinatorId (updates !i)).1

/-- A commit does not reset a column and overrule the other call as well. -/
def Unmixed (c : Config State Task Bool) (i : Bool) : Prop :=
  match c.task i with
  | .updateCommit opp data => ∀ stored, findOpportunity c.store opp.id = some stored →
      ¬ Mixes opp.columns stored.columns (assignedBy (envs i) data)
        (assignments updates envs !i)
  | _ => True

variable {id coordinatorId updates envs}

theorem storedColumns_inOrder {s : State} {opp : Opportunity} (h : Owned id coordinatorId s opp)
    (i : Bool) :
    storedColumns id (inOrder id coordinatorId updates envs i s) =
      (account id coordinatorId updates envs).serial i (some opp.columns) := by
  obtain ⟨first, hfirst, hcolumns⟩ := h.updateOpportunity (envs i) (updates i)
  obtain ⟨second, hsecond, hcolumns'⟩ := hfirst.updateOpportunity (envs !i) (updates !i)
  rw [inOrder, hsecond.storedColumns, hcolumns', hcolumns,
    serial_eq (account id coordinatorId updates envs) rfl]
  rfl

theorem unmixed_of_fresh {c : Config State Task Bool} {i : Bool}
    (h : Fresh (envs i) c.store (c.task i)) : Unmixed updates envs c i := by
  unfold Unmixed
  split
  · rename_i opp data ht
    intro stored hstored hmixes
    rw [ht] at h
    exact h stored hstored hmixes.1
  · trivial

theorem unmixed_iff {c : Config State Task Bool} {i : Bool}
    {loaded stored : ∀ k : Column, k.Value}
    (hat : At id coordinatorId updates i (.loaded (some loaded)) (c.task i))
    (hdata : storedColumns id c.store = some stored) :
    Unmixed updates envs c i ↔
      ¬ Mixes loaded stored (assignments updates envs i) (assignments updates envs !i) := by
  obtain ⟨opp, hloaded, hid, -, ht⟩ := hat
  obtain rfl := Option.some_inj.mp hloaded
  obtain ⟨row, hrow, rfl⟩ := Option.map_eq_some_iff.mp hdata
  simp only [Unmixed, ht, hid]
  exact forall_found_iff hrow

/-- **Two updates of an opportunity by its owner serialize exactly in the runs in which
    no commit mixes them**, and disjoint ones both take full effect. -/
theorem row_serializes_iff {s : State} {opp : Opportunity} (h : Owned id coordinatorId s opp)
    (order : List Bool)
    (hdone : ∀ i, ∃ result,
      (together id coordinatorId updates envs s order).task i = .finished result) :
    ((∃ i, storedColumns id (together id coordinatorId updates envs s order).store =
        storedColumns id (inOrder id coordinatorId updates envs i s)) ↔
      Guarded program (fun c i _ => Unmixed updates envs c i)
        (start s (tasks id coordinatorId updates)) (interleave envs order)) ∧
    (Disjoint (assignments updates envs true) (assignments updates envs false) →
      storedColumns id (together id coordinatorId updates envs s order).store =
        some (merge (assignments updates envs true) (assignments updates envs false)
          opp.columns)) := by
  have hstart : ∀ i, (account id coordinatorId updates envs).stands i .waiting s
      (tasks id coordinatorId updates i) := fun i => ⟨⟨opp, h⟩, rfl⟩
  constructor
  · simp only [storedColumns_inOrder h]
    exact serializes_iff (account id coordinatorId updates envs) rfl
      (fun c i hfresh => unmixed_of_fresh hfresh)
      (fun c i loaded stored hat hdata _ => unmixed_iff hat.2 hdata) hstart h.storedColumns order
      hdone
  · intro hdisjoint
    exact data_of_disjoint (account id coordinatorId updates envs) rfl hstart h.storedColumns
      hdisjoint order hdone

end Account

end CampusHire.OpportunityUpdates
