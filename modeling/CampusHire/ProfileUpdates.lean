import CampusHire.AccountTransactions
import CampusHire.PartialUpdate

/-!
# Two updates of one profile

`update_profile` for a user whose profile exists: it loads the row, assigns the fields
that the body sets, and the flush of the commit sends the `UPDATE`.  Two such calls are
two partial updates in the sense of `PartialUpdate`; a cgpa of `nan` and a text longer than
its column are equal to none that the row holds.
-/

namespace CampusHire.Profiles

open CampusHire AuthService Schedule TwoPhase PartialUpdate

/-! ## Columns -/

inductive Column where
  | name
  | cgpa
  | branch
  | year
  | phone
  | skills
deriving DecidableEq

def Column.Value : Column → Type
  | .name => Option String
  | .cgpa => Option PythonText.FloatValue
  | .branch => Option String
  | .year => Option Int
  | .phone => Option String
  | .skills => Option (List String)

instance (k : Column) : DecidableEq k.Value := by
  cases k <;> unfold Column.Value <;> infer_instance

def columns (profile : StudentProfile) : ∀ k : Column, k.Value
  | .name => profile.name
  | .cgpa => profile.cgpa
  | .branch => profile.branch
  | .year => profile.year
  | .phone => profile.phone
  | .skills => profile.skills

def ProfileUpdate.assigned (data : ProfileUpdate) : ∀ k : Column, Option (Assigned k.Value)
  | .name => data.name.map fun name =>
      { value := name.map (varchar 255), always := name.any (overlong 255) }
  | .cgpa => data.cgpa.map fun cgpa =>
      { value := cgpa, always := cgpa.any PythonText.FloatValue.isNan }
  | .branch => data.branch.map fun branch =>
      { value := branch.map (varchar 100), always := branch.any (overlong 100) }
  | .year => data.year.map fun year => { value := year }
  | .phone => data.phone.map fun phone =>
      { value := phone.map (varchar 20), always := phone.any (overlong 20) }
  | .skills => data.skills.map fun skills => { value := skills }

def fitsYear (year : Option Int) : Bool :=
  year.all fun y => decide (-2 ^ 31 ≤ y) && decide (y < 2 ^ 31)

/-- What the columns hold. -/
structure Fits (profile : StudentProfile) : Prop where
  name : within 255 profile.name = true
  branch : within 100 profile.branch = true
  phone : within 20 profile.phone = true
  year : fitsYear profile.year = true

def ProfileUpdate.accepted (data : ProfileUpdate) : Bool :=
  data.name.all (fits 255) && data.branch.all (fits 100) && data.phone.all (fits 20) &&
    data.year.all fitsYear

/-- What a request assigns: nothing, when it fails. -/
def assignedBy (env : Env) (data : ProfileUpdate) : ∀ k : Column, Option (Assigned k.Value) :=
  if env.fails .query || (env.fails .update || !data.accepted) then fun _ => none
  else data.assigned

theorem acceptsUpdate_eq {profile : StudentProfile} (h : Fits profile) (data : ProfileUpdate) :
    acceptsUpdate profile data = data.accepted := by
  rw [acceptsUpdate, ProfileUpdate.accepted, written_all (fits_of_within h.name),
    written_all (fits_of_within h.branch), written_all (fits_of_within h.phone)]
  exact congrArg _ (written_all h.year data.year)

theorem columns_applyUpdate (loaded : StudentProfile) (data : ProfileUpdate)
    (stored : StudentProfile) :
    columns (applyUpdate loaded data stored) =
      write (columns loaded) data.assigned (columns stored) := by
  funext k
  symm
  cases k with
  | name | cgpa | branch | phone => exact write_of_map rfl _
  | year | skills => exact write_of_plain rfl _

/-- What an accepted column holds after the write. -/
theorem all_getD {α : Type} {stored : α} {value : Option α} {p : α → Bool}
    (h : value.all p = true) (hstored : p stored = true) : p (value.getD stored) = true := by
  rcases value with _ | v
  · exact hstored
  · exact h

theorem fits_applyUpdate {loaded : StudentProfile} {data : ProfileUpdate}
    (h : acceptsUpdate loaded data = true) {stored : StudentProfile} (hfits : Fits stored) :
    Fits (applyUpdate loaded data stored) := by
  simp only [acceptsUpdate, Bool.and_eq_true] at h
  exact ⟨within_writtenText hfits.name _, within_writtenText hfits.branch _,
    within_writtenText hfits.phone _, all_getD h.2 hfits.year⟩

/-! ## What the database holds fits -/

def Fitting : Task → Prop
  | .registerCommit _ profile => ∀ p ∈ profile, Fits p
  | .profileCommit profile _ => Fits profile
  | .updateCommit loaded data => acceptsUpdate loaded data = true
  | _ => True

theorem fits_newProfile (env : Env) (userId : UUID) : Fits (newProfile env userId) :=
  ⟨rfl, rfl, rfl, rfl⟩

section Runs

variable (d : Deployment)

/-- A transaction commits a profile that it has made or whose update was flushed. -/
theorem fitting_step (env : Env) (s : State) (t : Task) : Fitting (taskStep d env s t).2 := by
  cases t with
  | registerFlush data =>
    simp only [taskStep, Task.registers, if_true, registerStep]
    split
    · trivial
    split
    · trivial
    · exact fun p hp => by cases hp
  | registerInsert user =>
    simp only [taskStep, Task.registers, if_true, registerStep]
    split
    · trivial
    · intro p hp
      rw [← Option.mem_some_iff.mp hp]
      exact fits_newProfile env user.id
  | profileInsert user data =>
    simp only [taskStep, Task.registers, Bool.false_eq_true, if_false, profileStep]
    split
    · trivial
    · exact fits_newProfile env user.id
  | updateFlush loaded data =>
    simp only [taskStep, Task.registers, Bool.false_eq_true, if_false, profileStep]
    split
    · trivial
    · rename_i haccepts
      simp only [Bool.or_eq_true, not_or, Bool.not_eq_true, Bool.not_eq_false'] at haccepts
      exact haccepts.2
  | registered | registerRaised | registerUnloaded | updateReload | ended => trivial
  | registerQuery | registerCommit | registerReload =>
    simp only [taskStep, Task.registers, if_true, registerStep]
    repeat' split
    all_goals trivial
  | profileUser | profileCommit | updateCommit =>
    simp only [taskStep, Task.registers, Bool.false_eq_true, if_false, profileStep]
    repeat' split
    all_goals trivial
  | profileQuery _ data | profileReload _ data =>
    simp only [taskStep, Task.registers, Bool.false_eq_true, if_false, profileStep]
    repeat' split
    all_goals first | trivial | (cases data <;> trivial)

def fitting : Annotation (program d) where
  inv := fun s => ∀ p ∈ s.profiles, Fits p
  own := fun _ t => Fitting t
  step_inv := by
    intro env s t hrows hfitting
    change ∀ p ∈ (taskStep d env s t).1.profiles, Fits p
    rcases taskStep_cases d env s t with heq | ⟨user, profile, s', rfl, hstore, heq⟩ |
      ⟨profile, data, s', rfl, hstore, heq⟩ | ⟨loaded, data, rfl, heq⟩
    · rw [heq]
      exact hrows
    · rw [heq, (storeAccount_ok hstore).2.2.2.2]
      intro p hp
      rcases List.mem_append.mp hp with hold | hnew
      · exact hrows p hold
      · exact hfitting p (Option.mem_toList.mp hnew)
    · rw [heq, (storeProfile_ok hstore).2.2.2.2]
      intro p hp
      rcases List.mem_append.mp hp with hold | hnew
      · exact hrows p hold
      · exact List.mem_singleton.mp hnew ▸ hfitting
    · rw [heq]
      intro p hp
      obtain ⟨stored, hstored, rfl⟩ := List.mem_map.mp hp
      split
      · exact fits_applyUpdate hfitting (hrows stored hstored)
      · exact hrows stored hstored
  step_own := fun env s t _ _ => fitting_step d env s t
  stable := fun _ _ _ _ _ _ hu _ => hu

theorem fitting_arrive {ι : Type*} (jobs : ι → Job) : (fitting d).Holds (arrive jobs) := by
  refine (fitting d).holds_start (fun _ => rfl) (fun p hp => by cases hp) ?_
  intro i
  change Fitting (Task.start (jobs i))
  rcases jobs i with data | userId | ⟨user, data⟩
  · trivial
  · trivial
  · rw [Task.start]
    split <;> trivial

end Runs

/-! ## The row -/

section Row

variable (userId profileId : UUID)

def storedColumns (s : State) : Option (∀ k : Column, k.Value) :=
  (Table.lookup StudentProfile.userId userId s.profiles).map columns

/-- The user has the profile. -/
structure Has (s : State) (profile : StudentProfile) : Prop where
  found : Table.lookup StudentProfile.userId userId s.profiles = some profile
  id : profile.id = profileId
  fits : Fits profile

variable {userId profileId}

/-- In a state that requests have reached, the profile only has to be there. -/
theorem has_run {ι : Type*} [DecidableEq ι] (d : Deployment) (jobs : ι → Job)
    (schedule : List (ι × Env)) {profile : StudentProfile}
    (hfound : Table.lookup StudentProfile.userId userId
      (run (program d) (arrive jobs) schedule).store.profiles = some profile) :
    Has userId profile.id (run (program d) (arrive jobs) schedule).store profile :=
  ⟨hfound, rfl, ((fitting d).holds_run (fitting_arrive d jobs) schedule).inv profile
    (Table.mem_of_lookup hfound)⟩

theorem Has.storedColumns {s : State} {stored : StudentProfile}
    (h : Has userId profileId s stored) :
    storedColumns userId s = some (columns stored) := by
  rw [Profiles.storedColumns, h.found, Option.map_some]

theorem Has.updateRow {s : State} {stored loaded : StudentProfile}
    (h : Has userId profileId s stored) (hid : loaded.id = profileId) {data : ProfileUpdate}
    (haccepted : acceptsUpdate loaded data = true) :
    Has userId profileId (updateRow s loaded data) (applyUpdate loaded data stored) := by
  refine ⟨?_, h.id, fits_applyUpdate haccepted h.fits⟩
  have hlookup : Table.lookup StudentProfile.userId userId
      (Profiles.updateRow s loaded data).profiles =
      (Table.lookup StudentProfile.userId userId s.profiles).map fun r =>
        if r.id = loaded.id then applyUpdate loaded data r else r :=
    Table.lookup_modify_column (f := applyUpdate loaded data) (fun _ => rfl) s.profiles
  rw [hlookup, h.found, Option.map_some, if_pos (h.id.trans hid.symm)]

theorem assignedBy_of_refused {env : Env} {data : ProfileUpdate}
    (h : (env.fails .query || (env.fails .update || !data.accepted)) = true) :
    assignedBy env data = fun _ => none :=
  if_pos h

/-- A call that the database refuses assigns nothing; any other one assigns its fields. -/
theorem assignedBy_cases (env : Env) (data : ProfileUpdate) :
    (assignedBy env data = (fun _ => none) ∧
      (env.fails .query || (env.fails .update || !data.accepted)) = true) ∨
    (assignedBy env data = data.assigned ∧ env.fails .query = false ∧ env.fails .update = false ∧
      data.accepted = true) := by
  rcases hrefused : env.fails .query || (env.fails .update || !data.accepted) with _ | _
  · right
    simp only [Bool.or_eq_false_iff, Bool.not_eq_false'] at hrefused
    refine ⟨?_, hrefused.1, hrefused.2.1, hrefused.2.2⟩
    simp [assignedBy, hrefused]
  · exact Or.inl ⟨assignedBy_of_refused hrefused, rfl⟩

/-- The function reads and commits in one go. -/
theorem Has.updateProfile {s : State} {stored : StudentProfile} {user : User}
    (h : Has user.id profileId s stored) (env : Env) (data : ProfileUpdate) :
    ∃ stored', Has user.id profileId (updateProfile s env user data).1 stored' ∧
      columns stored' = write (columns stored) (assignedBy env data) (columns stored) := by
  have hstate : (Profiles.updateProfile s env user data).1 =
      if env.fails .query || (env.fails .update || !data.accepted) then s
      else Profiles.updateRow s stored data := by
    rw [Profiles.updateProfile, getOrCreateProfile]
    rcases env.fails .query with _ | _
    · simp only [Bool.false_eq_true, if_false, h.found, acceptsUpdate_eq h.fits, Bool.false_or]
      split
      · rfl
      · rfl
    · rfl
  rw [hstate]
  rcases assignedBy_cases env data with ⟨hnone, hrefused⟩ | ⟨hassigned, hquery, hupdate, haccepted⟩
  · rw [if_pos hrefused, hnone, write_nothing]
    exact ⟨stored, h, rfl⟩
  · rw [hquery, hupdate, haccepted, hassigned]
    exact ⟨_, h.updateRow h.id (by rw [acceptsUpdate_eq h.fits, haccepted]),
      columns_applyUpdate stored data stored⟩

end Row

end CampusHire.Profiles

namespace CampusHire.ProfileUpdates

open CampusHire AuthService Profiles Schedule TwoPhase PartialUpdate

/-! ## Two calls -/

section Account

variable (d : Deployment) (user : User) (profileId : UUID) (updates : Bool → ProfileUpdate)
  (envs : Bool → Env)

def assignments (i : Bool) : ∀ k : Column, Option (Assigned k.Value) :=
  assignedBy (envs i) (updates i)

/-- Where a call stands: it has loaded the profile from an earlier state, and once it has
    sent its `UPDATE` nothing has failed. -/
def At (i : Bool) : Phase (Option (∀ k : Column, k.Value)) → Task → Prop
  | .waiting, t => t = .profileQuery user (some (updates i))
  | .loaded v, t => ∃ earlier loaded, Has user.id profileId earlier loaded ∧
      v = some (columns loaded) ∧ (envs i).fails .query = false ∧
      (t = .updateFlush loaded (updates i) ∨
        t = .updateCommit loaded (updates i) ∧ (envs i).fails .update = false ∧
          (updates i).accepted = true)
  | .past, t => (∃ k, t = .updateReload k) ∨ ∃ result, t = .ended result

/-- A commit resets none of the columns. -/
def Fresh (env : Env) (s : State) : Task → Prop
  | .updateCommit loaded data => ∀ stored,
      Table.lookup StudentProfile.userId loaded.userId s.profiles = some stored →
      ¬ Resets (columns loaded) (columns stored) (assignedBy env data)
  | _ => True

theorem step_query {s : State} {stored : StudentProfile} (h : Has user.id profileId s stored)
    (env : Env) (data : ProfileUpdate) :
    taskStep d env s (.profileQuery user (some data)) =
      if env.fails .query then (s, .ended (.error .database)) else (s, .updateFlush stored data) := by
  rw [taskStep, if_neg (by simp [Task.registers]), profileStep, h.found]
  rfl

theorem step_flush {loaded : StudentProfile} (h : Fits loaded) (env : Env) (s : State)
    (data : ProfileUpdate) :
    taskStep d env s (.updateFlush loaded data) =
      if env.fails .update || !data.accepted then (s, .ended (.error .database))
      else (s, .updateCommit loaded data) := by
  rw [taskStep, if_neg (by simp [Task.registers]), profileStep, acceptsUpdate_eq h]

theorem step_commit {env : Env} (h : env.fails .update = false) (s : State)
    (loaded : StudentProfile) (data : ProfileUpdate) :
    taskStep d env s (.updateCommit loaded data) =
      (updateRow s loaded data, .updateReload loaded.id) := by
  rw [taskStep, if_neg (by simp [Task.registers]), profileStep, h]
  rfl

/-- A call that has committed or failed touches nothing. -/
theorem step_past (env : Env) (s : State) {t : Task} {i : Bool}
    (h : At user profileId updates envs i .past t) :
    (taskStep d env s t).1 = s ∧
      At user profileId updates envs i .past (taskStep d env s t).2 := by
  rcases h with ⟨k, rfl⟩ | ⟨result, rfl⟩
  · exact ⟨rfl, Or.inr ⟨_, rfl⟩⟩
  · exact ⟨rfl, Or.inr ⟨_, rfl⟩⟩

/-- Whatever one call does, the user keeps the profile. -/
theorem has_step {s : State} {t : Task} {i : Bool} {ph : Phase (Option (∀ k : Column, k.Value))}
    (h : ∃ stored, Has user.id profileId s stored)
    (hat : At user profileId updates envs i ph t) :
    ∃ stored, Has user.id profileId (taskStep d (envs i) s t).1 stored := by
  obtain ⟨stored, hstored⟩ := h
  cases ph with
  | waiting =>
    obtain rfl : t = _ := hat
    rw [step_query d user profileId hstored]
    split
    · exact ⟨stored, hstored⟩
    · exact ⟨stored, hstored⟩
  | loaded v =>
    obtain ⟨earlier, loaded, hloaded, -, -, rfl | ⟨rfl, hupdate, haccepted⟩⟩ := hat
    · rw [step_flush d hloaded.fits]
      split
      · exact ⟨stored, hstored⟩
      · exact ⟨stored, hstored⟩
    · rw [step_commit d hupdate]
      exact ⟨_, hstored.updateRow hloaded.id (by rw [acceptsUpdate_eq hloaded.fits, haccepted])⟩
  | past =>
    rw [(step_past d user profileId updates envs (envs i) s hat).1]
    exact ⟨stored, hstored⟩

def account : Account (program d) envs (Option (∀ k : Column, k.Value)) where
  data := storedColumns user.id
  commit := commitRow (assignments updates envs)
  stands := fun i ph s t =>
    (∃ stored, Has user.id profileId s stored) ∧ At user profileId updates envs i ph t
  finished := fun t => ∃ result, t = .ended result
  fresh := Fresh
  past_of_finished := by
    rintro i ph s t ⟨-, hat⟩ ⟨result, rfl⟩
    cases ph with
    | waiting => cases hat
    | loaded v =>
      obtain ⟨_, _, -, -, -, ht | ⟨ht, -⟩⟩ := hat
      · cases ht
      · cases ht
    | past => rfl
  waiting_step := by
    rintro i s t ⟨⟨stored, hstored⟩, ht⟩
    obtain rfl : t = _ := ht
    rw [show (program d).step = taskStep d from rfl, step_query d user profileId hstored]
    rcases hquery : (envs i).fails .query with _ | _
    · exact ⟨trivial, rfl, Or.inl ⟨⟨stored, hstored⟩, s, stored, hstored, hstored.storedColumns,
        hquery, Or.inl rfl⟩⟩
    · refine ⟨trivial, rfl, Or.inr ⟨⟨⟨stored, hstored⟩, Or.inr ⟨_, rfl⟩⟩, fun row => ?_⟩⟩
      have hnone : assignments updates envs i = fun _ => none :=
        assignedBy_of_refused (by rw [hquery]; rfl)
      exact commitRow_nothing hnone _ _
  loaded_step := by
    rintro i v s t ⟨⟨stored, hstored⟩, earlier, loaded, hloaded, rfl, hquery,
      rfl | ⟨rfl, hupdate, haccepted⟩⟩
    · rw [show (program d).step = taskStep d from rfl, step_flush d hloaded.fits]
      rcases hrefused : (envs i).fails .update || !(updates i).accepted with _ | _
      · obtain ⟨hupdate, haccepted⟩ := Bool.or_eq_false_iff.mp hrefused
        exact Or.inl ⟨trivial, rfl, ⟨stored, hstored⟩, earlier, loaded, hloaded, rfl, hquery,
          Or.inr ⟨rfl, hupdate, by simpa using haccepted⟩⟩
      · -- the flush fails, and nothing was assigned
        have hnone : assignments updates envs i = fun _ => none :=
          assignedBy_of_refused (by rw [hrefused, Bool.or_true])
        refine Or.inr ⟨iff_of_true trivial ?_, ?_, ⟨stored, hstored⟩, Or.inr ⟨_, rfl⟩⟩
        · exact (commitRow_nothing hnone _ _).trans (commitRow_nothing hnone _ _).symm
        · exact (commitRow_nothing hnone _ _).symm
    · right
      have hassigned : assignments updates envs i = (updates i).assigned := by
        rw [assignments, assignedBy, hquery, hupdate, haccepted]
        rfl
      have hstored' := hstored.updateRow hloaded.id
        ((acceptsUpdate_eq hloaded.fits (updates i)).trans haccepted)
      have howner : loaded.userId = user.id := Table.key_of_lookup hloaded.found
      rw [show (program d).step = taskStep d from rfl, step_commit d hupdate,
        hstored.storedColumns, hstored'.storedColumns, columns_applyUpdate, ← hassigned]
      refine ⟨?_, rfl, ⟨_, hstored'⟩, Or.inl ⟨_, rfl⟩⟩
      rw [commitRow_eq_iff]
      exact forall_found_iff (howner ▸ hstored.found)
  past_step := by
    rintro i s t ⟨hstored, hat⟩
    obtain ⟨hstate, hpast⟩ := step_past d user profileId updates envs (envs i) s hat
    rw [show (program d).step = taskStep d from rfl, hstate]
    refine ⟨?_, rfl, hstored, hpast⟩
    rcases hat with ⟨k, rfl⟩ | ⟨result, rfl⟩
    · trivial
    · trivial
  stable := by
    rintro i ph ph' s t u ⟨hstored, hat⟩ ⟨-, hat'⟩
    exact ⟨has_step d user profileId updates envs hstored hat, hat'⟩

/-! ## Serialization -/

def tasks (i : Bool) : Task := .profileQuery user (some (updates i))

def together (s : State) (order : List Bool) : Config State Task Bool :=
  run (program d) (start s (tasks user updates)) (interleave envs order)

/-- Call `i`, then the other one. -/
def inOrder (i : Bool) (s : State) : State :=
  (updateProfile (updateProfile s (envs i) user (updates i)).1 (envs !i) user (updates !i)).1

/-- A commit does not reset a column and overrule the other call as well. -/
def Unmixed (c : Config State Task Bool) (i : Bool) : Prop :=
  match c.task i with
  | .updateCommit loaded data => ∀ stored,
      Table.lookup StudentProfile.userId loaded.userId c.store.profiles = some stored →
      ¬ Mixes (columns loaded) (columns stored) (assignedBy (envs i) data)
        (assignments updates envs !i)
  | _ => True

variable {d user profileId updates envs}

theorem storedColumns_inOrder {s : State} {profile : StudentProfile}
    (h : Has user.id profileId s profile) (i : Bool) :
    storedColumns user.id (inOrder user updates envs i s) =
      (account d user profileId updates envs).serial i (some (columns profile)) := by
  obtain ⟨first, hfirst, hcolumns⟩ := h.updateProfile (envs i) (updates i)
  obtain ⟨second, hsecond, hcolumns'⟩ := hfirst.updateProfile (envs !i) (updates !i)
  rw [inOrder, hsecond.storedColumns, hcolumns', hcolumns,
    serial_eq (account d user profileId updates envs) rfl]
  rfl

theorem unmixed_of_fresh {c : Config State Task Bool} {i : Bool}
    (h : Fresh (envs i) c.store (c.task i)) : Unmixed updates envs c i := by
  unfold Unmixed
  split
  · rename_i loaded data ht
    intro stored hstored hmixes
    rw [ht] at h
    exact h stored hstored hmixes.1
  · trivial

/-- A flush is fresh, so only a commit can mix the calls. -/
theorem unmixed_iff {c : Config State Task Bool} {i : Bool}
    {loaded stored : ∀ k : Column, k.Value}
    (hat : At user profileId updates envs i (.loaded (some loaded)) (c.task i))
    (hdata : storedColumns user.id c.store = some stored)
    (hstale : ¬ Fresh (envs i) c.store (c.task i)) :
    Unmixed updates envs c i ↔
      ¬ Mixes loaded stored (assignments updates envs i) (assignments updates envs !i) := by
  obtain ⟨earlier, profile, hprofile, hloaded, -, ht | ⟨ht, -⟩⟩ := hat
  · rw [ht] at hstale
    exact absurd trivial hstale
  obtain rfl := Option.some_inj.mp hloaded
  obtain ⟨row, hrow, rfl⟩ := Option.map_eq_some_iff.mp hdata
  have howner : profile.userId = user.id := Table.key_of_lookup hprofile.found
  simp only [Unmixed, ht, howner]
  exact forall_found_iff hrow

/-- **Two updates of an existing profile serialize exactly in the runs in which no commit
    mixes them**, and disjoint ones both take full effect. -/
theorem row_serializes_iff {s : State} {profile : StudentProfile}
    (h : Has user.id profileId s profile) (order : List Bool)
    (hdone : ∀ i, ∃ result, (together d user updates envs s order).task i = .ended result) :
    ((∃ i, storedColumns user.id (together d user updates envs s order).store =
        storedColumns user.id (inOrder user updates envs i s)) ↔
      Guarded (program d) (fun c i _ => Unmixed updates envs c i)
        (start s (tasks user updates)) (interleave envs order)) ∧
    (Disjoint (assignments updates envs true) (assignments updates envs false) →
      storedColumns user.id (together d user updates envs s order).store =
        some (merge (assignments updates envs true) (assignments updates envs false)
          (columns profile))) := by
  have hstart : ∀ i, (account d user profileId updates envs).stands i .waiting s
      (tasks user updates i) := fun i => ⟨⟨profile, h⟩, rfl⟩
  constructor
  · simp only [storedColumns_inOrder (d := d) h]
    exact serializes_iff (account d user profileId updates envs) rfl
      (fun c i hfresh => unmixed_of_fresh hfresh)
      (fun c i loaded stored hat hdata hstale => unmixed_iff hat.2 hdata hstale) hstart
      h.storedColumns order hdone
  · intro hdisjoint
    exact data_of_disjoint (account d user profileId updates envs) rfl hstart h.storedColumns
      hdisjoint order hdone

end Account

end CampusHire.ProfileUpdates
