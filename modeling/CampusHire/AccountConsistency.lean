import CampusHire.AccountTransactions

/-!
# Accounts and profiles stay consistent

Registrations and profile requests check before they insert, in transactions of their own,
and any statement of any of them may fail.  `Keyed` is what the commits keep whatever the
checks have seen: the unique columns hold, a profile refers to a user, and a student has a
profile, because a registration commits both rows at once (`Prepared`).

A registration that raises has added nothing, unless it raises after its commit, in the
reload of its user (`consistent_accounts`, `registered_and_raised`).
-/

namespace CampusHire.AccountConsistency

open CampusHire AuthService Profiles Schedule

def profilesOf (s : State) (userId : UUID) : List StudentProfile :=
  s.profiles.filter fun p => decide (p.userId = userId)

structure Consistent (s : State) : Prop where
  emails : (s.users.map User.email).Nodup
  student : ∀ u ∈ s.users, u.role = .student → (profilesOf s u.id).length = 1
  atMostOne : ∀ u ∈ s.users, (profilesOf s u.id).length ≤ 1
  owners : ∀ p ∈ s.profiles, ∃ u ∈ s.users, u.id = p.userId

/-! ## What the commits keep -/

structure Keyed (s : State) : Prop where
  emails : (s.users.map User.email).Nodup
  single : (s.profiles.map StudentProfile.userId).Nodup
  owners : ∀ p ∈ s.profiles, p.userId ∈ s.users.map User.id
  students : ∀ u ∈ s.users, u.role = .student → u.id ∈ s.profiles.map StudentProfile.userId

theorem keyed_empty : Keyed State.empty where
  emails := List.nodup_nil
  single := List.nodup_nil
  owners := by simp [State.empty]
  students := by simp [State.empty]

theorem length_profilesOf (s : State) (userId : UUID) :
    (profilesOf s userId).length = (s.profiles.map StudentProfile.userId).count userId := by
  rw [profilesOf, List.count_eq_countP, List.countP_map, List.countP_eq_length_filter]
  congr 1

theorem Keyed.consistent {s : State} (h : Keyed s) : Consistent s where
  emails := h.emails
  student := by
    intro u hu hrole
    rw [length_profilesOf]
    exact List.count_eq_one_of_mem h.single (h.students u hu hrole)
  atMostOne := by
    intro u _
    rw [length_profilesOf]
    exact List.nodup_iff_count_le_one.mp h.single u.id
  owners := by
    intro p hp
    obtain ⟨u, hu, heq⟩ := List.mem_map.mp (h.owners p hp)
    exact ⟨u, hu, heq⟩

/-- A registration commits the user together with the profile of a student. -/
structure Paired (user : User) (profile : Option StudentProfile) : Prop where
  owner : ∀ p ∈ profile, p.userId = user.id
  student : user.role = .student → profile.isSome = true

theorem keyed_account {s t : State} {user : User} {profile : Option StudentProfile} (h : Keyed s)
    (hpaired : Paired user profile) (hstore : storeAccount s user profile = .ok t) : Keyed t := by
  obtain ⟨-, hemail, hsingle, husers, hprofiles⟩ := storeAccount_ok hstore
  have hids : user.id ∈ t.users.map User.id := by
    rw [husers]
    exact List.mem_map_of_mem List.mem_concat_self
  have hold : s.users.map User.id ⊆ t.users.map User.id := by
    rw [husers, List.map_append]
    exact List.subset_append_left _ _
  refine ⟨?_, ?_, ?_, ?_⟩
  · rw [husers]
    exact Table.nodup_append_fresh h.emails hemail
  · rw [hprofiles]
    rcases profile with _ | profile
    · rw [Option.toList_none, List.append_nil]
      exact h.single
    · exact Table.nodup_append_fresh h.single (hsingle profile rfl)
  · intro p hp
    rw [hprofiles] at hp
    rcases List.mem_append.mp hp with hp | hp
    · exact hold (h.owners p hp)
    · rw [hpaired.owner p (Option.mem_toList.mp hp)]
      exact hids
  · intro u hu hrole
    rw [hprofiles, List.map_append]
    rw [husers] at hu
    rcases List.mem_append.mp hu with hu | hu
    · exact List.mem_append_left _ (h.students u hu hrole)
    · rw [List.mem_singleton.mp hu] at hrole ⊢
      obtain ⟨p, hp⟩ := Option.isSome_iff_exists.mp (hpaired.student hrole)
      apply List.mem_append_right
      rw [← hpaired.owner p hp]
      exact List.mem_map_of_mem (Option.mem_toList.mpr hp)

theorem keyed_profile {s t : State} {profile : StudentProfile} (h : Keyed s)
    (hstore : storeProfile s profile = .ok t) : Keyed t := by
  obtain ⟨howner, -, hsingle, husers, hprofiles⟩ := storeProfile_ok hstore
  refine ⟨husers ▸ h.emails, ?_, ?_, ?_⟩
  · rw [hprofiles]
    exact Table.nodup_append_fresh h.single hsingle
  · rw [hprofiles, husers]
    exact Table.refers_append h.owners (List.Subset.refl _) howner
  · intro u hu hrole
    rw [husers] at hu
    rw [hprofiles, List.map_append]
    exact List.mem_append_left _ (h.students u hu hrole)

theorem keyed_update {s : State} (h : Keyed s) (loaded : StudentProfile) (data : ProfileUpdate) :
    Keyed (updateRow s loaded data) where
  emails := h.emails
  single := by
    rw [updateRow_userIds]
    exact h.single
  owners := Table.refers_of_map_eq h.owners (updateRow_userIds s loaded data)
  students := by
    intro u hu hrole
    rw [updateRow_userIds]
    exact h.students u hu hrole

/-! ## What the transactions know -/

def Prepared (s : State) : Task → Prop
  | .registerCommit user profile => Paired user profile
  | .registerReload user => user ∈ s.users
  | .registerUnloaded user => user ∈ s.users
  | _ => True

section Runs

variable (d : Deployment)

theorem users_step (env : Env) (s : State) (t : Task) : s.users ⊆ (taskStep d env s t).1.users := by
  rcases taskStep_cases d env s t with heq | ⟨user, profile, s', -, hstore, heq⟩ |
    ⟨profile, data, s', -, hstore, heq⟩ | ⟨loaded, data, -, heq⟩
  · rw [heq]
    exact List.Subset.refl _
  · rw [heq, (storeAccount_ok hstore).2.2.2.1]
    exact List.subset_append_left _ _
  · rw [heq, (storeProfile_ok hstore).2.2.2.1]
    exact List.Subset.refl _
  · rw [heq, updateRow_users]
    exact List.Subset.refl _

theorem prepared_step (env : Env) {s : State} {t : Task} (h : Prepared s t) :
    Prepared (taskStep d env s t).1 (taskStep d env s t).2 := by
  cases t with
  | registerFlush data =>
    simp only [taskStep, Task.registers, if_true, registerStep]
    split
    · trivial
    split
    · trivial
    · rename_i hrole
      exact ⟨by simp, fun hstudent => absurd hstudent hrole⟩
  | registerInsert user =>
    simp only [taskStep, Task.registers, if_true, registerStep]
    split
    · trivial
    · refine ⟨?_, fun _ => rfl⟩
      intro p hp
      rw [← Option.mem_some_iff.mp hp, newProfile_userId]
  | registerCommit user profile =>
    simp only [taskStep, Task.registers, if_true, registerStep]
    split
    · trivial
    split
    · trivial
    · rename_i s' hstore
      change user ∈ s'.users
      rw [(storeAccount_ok hstore).2.2.2.1]
      exact List.mem_concat_self
  | registerReload user =>
    simp only [taskStep, Task.registers, if_true, registerStep]
    split
    · exact h
    split
    · trivial
    · exact h
  | registerUnloaded user => exact h
  | registered | registerRaised | updateReload | ended => trivial
  | registerQuery =>
    simp only [taskStep, Task.registers, if_true, registerStep]
    repeat' split
    all_goals trivial
  | profileUser | profileInsert | profileCommit | updateFlush | updateCommit =>
    simp only [taskStep, Task.registers, Bool.false_eq_true, if_false, profileStep]
    repeat' split
    all_goals trivial
  | profileQuery _ data | profileReload _ data =>
    simp only [taskStep, Task.registers, Bool.false_eq_true, if_false, profileStep]
    repeat' split
    all_goals first | trivial | (cases data <;> trivial)

/-- The tables are keyed, and every registration commits what belongs together. -/
def keyed : Annotation (program d) where
  inv := Keyed
  own := Prepared
  step_inv := by
    intro env s t hkeyed hprepared
    change Keyed (taskStep d env s t).1
    rcases taskStep_cases d env s t with heq | ⟨user, profile, s', rfl, hstore, heq⟩ |
      ⟨profile, data, s', -, hstore, heq⟩ | ⟨loaded, data, -, heq⟩
    · rw [heq]
      exact hkeyed
    · rw [heq]
      exact keyed_account hkeyed hprepared hstore
    · rw [heq]
      exact keyed_profile hkeyed hstore
    · rw [heq]
      exact keyed_update hkeyed loaded data
  step_own := fun env _ _ _ hprepared => prepared_step d env hprepared
  stable := by
    intro env s t u _ _ hu _
    -- other transactions only add users
    cases u with
    | registerReload user | registerUnloaded user => exact users_step d env s t hu
    | _ => exact hu

theorem keyed_arrive {ι : Type*} (jobs : ι → Job) : (keyed d).Holds (arrive jobs) := by
  refine (keyed d).holds_start (fun _ => rfl) keyed_empty ?_
  intro i
  change Prepared State.empty (Task.start (jobs i))
  rcases jobs i with data | userId | ⟨user, data⟩
  · trivial
  · trivial
  · rw [Task.start]
    split <;> trivial

/-! ## A registration that raises -/

/-- No step of transaction `i` changes a table. -/
def AddsNothing {ι : Type*} [DecidableEq ι] (jobs : ι → Job) (schedule : List (ι × Env)) (i : ι) :
    Prop :=
  Guarded (program d) (fun c j env => j = i → (fire (program d) c j env).store = c.store)
    (arrive jobs) schedule

/-- A registration that has committed nothing. -/
def Uncommitted : Task → Bool
  | .registerQuery _ | .registerFlush _ | .registerInsert _ | .registerCommit _ _
  | .registerRaised _ => true
  | _ => false

/-- A registration that has committed stays so. -/
theorem uncommitted_of_step {env : Env} {s : State} {t : Task}
    (h : Uncommitted (taskStep d env s t).2 = true) : Uncommitted t = true := by
  by_contra hcommitted
  cases t with
  | registerQuery | registerFlush | registerInsert | registerCommit | registerRaised =>
    exact hcommitted rfl
  | registered | registerUnloaded | updateReload | ended => cases h
  | registerReload =>
    simp only [taskStep, Task.registers, if_true, registerStep] at h
    repeat' split at h
    all_goals cases h
  | profileQuery _ data | profileReload _ data =>
    simp only [taskStep, Task.registers, Bool.false_eq_true, if_false, profileStep] at h
    repeat' split at h
    all_goals first | cases h | (cases data <;> cases h)
  | _ =>
    simp only [taskStep, Task.registers, Bool.false_eq_true, if_false, profileStep] at h
    repeat' split at h
    all_goals cases h

theorem store_of_uncommitted {env : Env} {s : State} {t : Task}
    (h : Uncommitted (taskStep d env s t).2 = true) : (taskStep d env s t).1 = s := by
  have ht := uncommitted_of_step d h
  rcases taskStep_cases d env s t with heq | ⟨user, profile, s', rfl, -, heq⟩ |
    ⟨profile, data, s', rfl, -, -⟩ | ⟨loaded, data, rfl, -⟩
  · exact heq
  · rw [heq] at h
    cases h
  · cases ht
  · cases ht

theorem registers_step {env : Env} {s : State} {t : Task} (h : t.registers = true) :
    (taskStep d env s t).2.registers = true := by
  rw [taskStep, if_pos h]
  cases t with
  | registered | registerRaised | registerUnloaded => rfl
  | registerQuery | registerFlush | registerInsert | registerCommit | registerReload =>
    simp only [registerStep]
    repeat' split
    all_goals rfl
  | _ => cases h

variable {ι : Type*} [DecidableEq ι]

theorem registers_run {jobs : ι → Job} {i : ι} {data : RegisterRequest}
    (hjob : jobs i = .register data) (schedule : List (ι × Env)) :
    ((run (program d) (arrive jobs) schedule).task i).registers = true := by
  refine run_invariant (program d) (I := fun c => (c.task i).registers = true) ?_ ?_ schedule
  · intro c j env hc _
    by_cases hj : i = j
    · subst hj
      rw [fire_task_same]
      exact registers_step d hc
    · rw [fire_task_other _ _ _ hj]
      exact hc
  · change (Task.start (jobs i)).registers = true
    rw [hjob]
    rfl

theorem uncommitted_of_run {c : Config State Task ι} {i : ι} (schedule : List (ι × Env))
    (h : Uncommitted ((run (program d) c schedule).task i) = true) :
    Uncommitted (c.task i) = true ∧
      Guarded (program d) (fun c j env => j = i → (fire (program d) c j env).store = c.store) c
        schedule := by
  induction schedule generalizing c with
  | nil => exact ⟨h, trivial⟩
  | cons choice rest ih =>
    obtain ⟨j, env⟩ := choice
    rw [run_cons] at h
    obtain ⟨hnext, hrest⟩ := ih h
    have hready : ready (program d) c j = true := rfl
    rw [advance_of_ready _ _ hready] at hnext
    by_cases hj : j = i
    · subst hj
      rw [fire_task_same] at hnext
      exact ⟨uncommitted_of_step d hnext, fun _ _ => store_of_uncommitted d hnext, hrest⟩
    · rw [fire_task_other _ _ _ (Ne.symm hj)] at hnext
      exact ⟨hnext, fun _ heq => absurd heq hj, hrest⟩

/-- **Accounts and profiles stay consistent**, whatever jobs the service is given, however
    their statements interleave and whichever fail; and a registration that raises has
    added nothing, unless it raises in the reload after its commit, which has added the
    user, and for a student the profile. -/
theorem consistent_accounts (jobs : ι → Job) (schedule : List (ι × Env)) :
    Consistent (run (program d) (arrive jobs) schedule).store ∧
    ∀ i data, jobs i = .register data → ∀ e,
      ((run (program d) (arrive jobs) schedule).task i).result = some (.error e) →
      AddsNothing d jobs schedule i ∨
      ∃ user, (run (program d) (arrive jobs) schedule).task i = .registerUnloaded user ∧
        user ∈ (run (program d) (arrive jobs) schedule).store.users ∧
        (user.role = .student →
          (profilesOf (run (program d) (arrive jobs) schedule).store user.id).length = 1) := by
  have hholds := (keyed d).holds_run (keyed_arrive d jobs) schedule
  have hconsistent : Consistent (run (program d) (arrive jobs) schedule).store :=
    Keyed.consistent hholds.inv
  refine ⟨hconsistent, ?_⟩
  intro i data hjob e hresult
  have hregisters := registers_run d hjob schedule
  have hown : Prepared (run (program d) (arrive jobs) schedule).store
      ((run (program d) (arrive jobs) schedule).task i) := hholds.own i
  rcases htask : (run (program d) (arrive jobs) schedule).task i <;>
    rw [htask] at hresult hregisters hown
  case registerRaised raised =>
    refine Or.inl (uncommitted_of_run d schedule ?_).2
    rw [htask]
    rfl
  case registerUnloaded user => exact Or.inr ⟨user, rfl, hown, hconsistent.student user hown⟩
  -- no other registration has raised
  all_goals first | cases hresult | cases hregisters

end Runs

/-! ## A registration that raises after its commit -/

def plain : Deployment where
  jose := .ofTable []
  pwdContext := ⟨fun _ password => password, fun password hash => decide (password = hash)⟩
  settings := { jwtSecretKey := "secret" }

def oneRegistration (_ : Unit) : Job := .register { email := "s@campus", password := "password" }

/-- Everything works up to the commit, and the reload fails. -/
def reloadFails : List (Unit × Env) :=
  let fine : Env := .untroubled (.ofNat 1) 0
  [((), fine), ((), fine), ((), fine), ((), fine),
    ((), { fine with fails := fun call => decide (call = .reload) })]

theorem registered_and_raised :
    ((run (program plain) (arrive oneRegistration) reloadFails).task ()).result =
        some (.error .database) ∧
      ¬ AddsNothing plain oneRegistration reloadFails () := by
  refine ⟨rfl, ?_⟩
  rintro ⟨-, -, -, hcommit, -⟩
  have husers := congrArg State.users (hcommit rfl rfl)
  cases husers

end CampusHire.AccountConsistency
