import CampusHire.Profiles
import CampusHire.Schedule

/-!
# Accounts under concurrency

The handlers of the identity service run in threads, each with a database session of its
own.  Here one statement is one step: a query, an `INSERT` that a flush sends, an `UPDATE`,
a `COMMIT`, the reload of a row.  What a transaction has written is in its thread's local
state until the `COMMIT` puts it into the tables; the database checks the unique columns at
the `INSERT`, against what is committed then, and again at the `COMMIT`.

`serve_eq_alone` connects this view with the handlers.
-/

namespace CampusHire.Profiles

open CampusHire AuthService Schedule

inductive Job where
  | register (data : RegisterRequest)
  | getProfile (userId : UUID)
  | putProfile (user : CurrentUser) (data : ProfileUpdate)

inductive Answer where
  | user (user : User)
  | profile (profile : StudentProfile)

inductive Task where
  -- `register_user`
  | registerQuery (data : RegisterRequest)
  | registerFlush (data : RegisterRequest)
  | registerInsert (user : User)
  | registerCommit (user : User) (profile : Option StudentProfile)
  | registerReload (user : User)
  | registered (user : User)
  /-- It has raised, before or at its commit. -/
  | registerRaised (e : ServiceError)
  /-- It has raised in `db.refresh`, after its commit. -/
  | registerUnloaded (user : User)
  -- `get_or_create_profile`, with the body of `update_profile` if that called it
  | profileUser (userId : UUID) (data : Option ProfileUpdate)
  | profileQuery (user : User) (data : Option ProfileUpdate)
  | profileInsert (user : User) (data : Option ProfileUpdate)
  | profileCommit (profile : StudentProfile) (data : Option ProfileUpdate)
  | profileReload (id : UUID) (data : Option ProfileUpdate)
  -- `update_profile`
  | updateFlush (loaded : StudentProfile) (data : ProfileUpdate)
  | updateCommit (loaded : StudentProfile) (data : ProfileUpdate)
  | updateReload (id : UUID)
  | ended (result : Except ServiceError StudentProfile)

def Task.start : Job → Task
  | .register data => .registerQuery data
  | .getProfile userId => .profileUser userId none
  | .putProfile user data =>
      if user.role ≠ .student then .ended (.error (.http 403 "Only students have profiles"))
      else .profileUser user.id (some data)

/-- What the call returns or raises. -/
def Task.result : Task → Option (Except ServiceError Answer)
  | .registered user => some (.ok (.user user))
  | .registerRaised e => some (.error e)
  | .registerUnloaded _ => some (.error .database)
  | .ended result => some (result.map .profile)
  | _ => none

/-- What the routes raise without a user: `put_profile` does not check. -/
def missingUser : Option ProfileUpdate → ServiceError
  | none => .http 404 "User not found"
  | some _ => .value

/-- `get_or_create_profile` returns, to its caller or to `update_profile`. -/
def Task.loaded (profile : StudentProfile) : Option ProfileUpdate → Task
  | none => .ended (.ok profile)
  | some data => .updateFlush profile data

/-- The row that an `INSERT` sends is refused when a unique column has its value. -/
def insertsUser (s : State) (user : User) : Bool :=
  (Table.insertRow User.id user s.users).isSome && (Table.insertRow User.email user s.users).isSome

def insertsProfile (s : State) (profile : StudentProfile) : Bool :=
  (Table.insertRow StudentProfile.id profile s.profiles).isSome &&
    (Table.insertRow StudentProfile.userId profile s.profiles).isSome

section Program

variable (d : Deployment)

def registerStep (env : Env) (s : State) : Task → State × Task
  | .registerQuery data =>
    if env.fails .query then (s, .registerRaised .database)
    else if (Table.lookup User.email data.email s.users).isSome then
      (s, .registerRaised (.http 400 "Email already registered"))
    else (s, .registerFlush data)
  | .registerFlush data =>
    let user : User :=
      ⟨env.userId, data.email, d.pwdContext.hash env.salt data.password, data.role, true⟩
    if env.fails .commit || !insertsUser s user then (s, .registerRaised .database)
    else if data.role = .student then (s, .registerInsert user)
    else (s, .registerCommit user none)
  | .registerInsert user =>
    if env.fails .commit || !insertsProfile s (newProfile env user.id) then
      (s, .registerRaised .database)
    else (s, .registerCommit user (some (newProfile env user.id)))
  | .registerCommit user profile =>
    if env.fails .commit then (s, .registerRaised .database)
    else
      match storeAccount s user profile with
      | .error e => (s, .registerRaised e)
      | .ok s' => (s', .registerReload user)
  | .registerReload user =>
    if env.fails .reload then (s, .registerUnloaded user)
    else
      match Table.lookup User.id user.id s.users with
      | some stored => (s, .registered stored)
      | none => (s, .registerUnloaded user)
  | t => (s, t)

def profileStep (env : Env) (s : State) : Task → State × Task
  | .profileUser userId data =>
    match findUser s env userId with
    | .error e => (s, .ended (.error e))
    | .ok none => (s, .ended (.error (missingUser data)))
    | .ok (some user) => (s, .profileQuery user data)
  | .profileQuery user data =>
    if env.fails .query then (s, .ended (.error .database))
    else
      match Table.lookup StudentProfile.userId user.id s.profiles with
      | some profile => (s, .loaded profile data)
      | none => (s, .profileInsert user data)
  | .profileInsert user data =>
    if env.fails .commit || !insertsProfile s (newProfile env user.id) then
      (s, .ended (.error .database))
    else (s, .profileCommit (newProfile env user.id) data)
  | .profileCommit profile data =>
    if env.fails .commit then (s, .ended (.error .database))
    else
      match storeProfile s profile with
      | .error e => (s, .ended (.error e))
      | .ok s' => (s', .profileReload profile.id data)
  | .profileReload id data =>
    match refreshProfile s env id with
    | .error e => (s, .ended (.error e))
    | .ok profile => (s, .loaded profile data)
  | .updateFlush loaded data =>
    if env.fails .update || !acceptsUpdate loaded data then (s, .ended (.error .database))
    else (s, .updateCommit loaded data)
  | .updateCommit loaded data =>
    if env.fails .update then (s, .ended (.error .database))
    else (updateRow s loaded data, .updateReload loaded.id)
  | .updateReload id => (s, .ended (refreshProfile s env id))
  | t => (s, t)

/-- A transaction of `register_user`. -/
def Task.registers : Task → Bool
  | .registerQuery _ | .registerFlush _ | .registerInsert _ | .registerCommit _ _
  | .registerReload _ | .registered _ | .registerRaised _ | .registerUnloaded _ => true
  | _ => false

def taskStep (env : Env) (s : State) (t : Task) : State × Task :=
  if t.registers then registerStep d env s t else profileStep env s t

def program : Program State Task Env where
  step := taskStep d
  onLoop := fun _ => false
  running := fun _ => false
  running_onLoop := fun _ h => h
  offLoop_step := fun _ _ _ _ => rfl

/-- Jobs that arrive at an empty database. -/
def arrive {ι : Type*} (jobs : ι → Job) : Config State Task ι :=
  start State.empty fun i => Task.start (jobs i)

/-- The handlers, run to their end. -/
def serve (s : State) (env : Env) : Job → State × Except ServiceError Answer
  | .register data => ((registerUser d s env data).1, (registerUser d s env data).2.map .user)
  | .getProfile userId => ((getProfile s env userId).1, (getProfile s env userId).2.map .profile)
  | .putProfile user data =>
      ((putProfile s env user data).1, (putProfile s env user data).2.map .profile)

/-- **What a statement can do.**  It touches no table, or it is a commit. -/
theorem taskStep_cases (env : Env) (s : State) (t : Task) :
    (taskStep d env s t).1 = s ∨
    (∃ user profile s', t = .registerCommit user profile ∧
      storeAccount s user profile = .ok s' ∧ taskStep d env s t = (s', .registerReload user)) ∨
    (∃ profile data s', t = .profileCommit profile data ∧ storeProfile s profile = .ok s' ∧
      (taskStep d env s t).1 = s') ∨
    (∃ loaded data, t = .updateCommit loaded data ∧
      (taskStep d env s t).1 = updateRow s loaded data) := by
  cases t with
  | registerCommit user profile =>
    simp only [taskStep, Task.registers, if_true, registerStep]
    split
    · exact Or.inl rfl
    split
    · exact Or.inl rfl
    · rename_i s' hstore
      exact Or.inr (Or.inl ⟨user, profile, s', rfl, hstore, rfl⟩)
  | profileCommit profile data =>
    simp only [taskStep, Task.registers, Bool.false_eq_true, if_false, profileStep]
    split
    · exact Or.inl rfl
    split
    · exact Or.inl rfl
    · rename_i s' hstore
      exact Or.inr (Or.inr (Or.inl ⟨profile, data, s', rfl, hstore, rfl⟩))
  | updateCommit loaded data =>
    simp only [taskStep, Task.registers, Bool.false_eq_true, if_false, profileStep]
    split
    · exact Or.inl rfl
    · exact Or.inr (Or.inr (Or.inr ⟨loaded, data, rfl, rfl⟩))
  | registered | registerRaised | registerUnloaded | updateReload | ended => exact Or.inl rfl
  | registerQuery | registerFlush | registerInsert | registerReload =>
    apply Or.inl
    simp only [taskStep, Task.registers, if_true, registerStep]
    repeat' split
    all_goals rfl
  | profileUser | profileQuery | profileInsert | profileReload | updateFlush =>
    apply Or.inl
    simp only [taskStep, Task.registers, Bool.false_eq_true, if_false, profileStep]
    repeat' split
    all_goals rfl

/-! ## A job alone does what the handler does -/

theorem storeAccount_of_refused {s : State} {user : User} (h : insertsUser s user = false)
    (profile : Option StudentProfile) : storeAccount s user profile = .error .database := by
  unfold storeAccount
  unfold insertsUser at h
  split
  · rename_i hid hemail
    rw [hid, hemail] at h
    cases h
  · rfl

theorem storeAccount_of_profile_refused {s : State} {profile : StudentProfile}
    (h : insertsProfile s profile = false) (user : User) :
    storeAccount s user (some profile) = .error .database := by
  unfold storeAccount
  unfold insertsProfile at h
  split
  · dsimp only
    split
    · rename_i hid howner
      rw [hid, howner] at h
      cases h
    · rfl
  · rfl

theorem storeProfile_of_refused {s : State} {profile : StudentProfile}
    (h : insertsProfile s profile = false) : storeProfile s profile = .error .database := by
  unfold storeProfile
  unfold insertsProfile at h
  split
  · rename_i hid howner
    rw [hid, howner] at h
    cases h
  · rfl

/-- What the job has done and returned after `n` steps with nothing in between. -/
def outcome (env : Env) (n : Nat) (s : State) (t : Task) :
    State × Option (Except ServiceError Answer) :=
  ((alone (program d) env n (s, t)).1, (alone (program d) env n (s, t)).2.result)

theorem outcome_succ (env : Env) (n : Nat) (s : State) (t : Task) :
    outcome d env (n + 1) s t = outcome d env n (taskStep d env s t).1 (taskStep d env s t).2 :=
  rfl

theorem outcome_registerStep (env : Env) (n : Nat) (s : State) {t : Task}
    (h : t.registers = true) : outcome d env (n + 1) s t =
      outcome d env n (registerStep d env s t).1 (registerStep d env s t).2 := by
  rw [outcome_succ, taskStep, if_pos h]

theorem outcome_profileStep (env : Env) (n : Nat) (s : State) {t : Task}
    (h : t.registers = false) : outcome d env (n + 1) s t =
      outcome d env n (profileStep env s t).1 (profileStep env s t).2 := by
  rw [outcome_succ, taskStep, h]
  rfl

theorem outcome_of_result {t : Task} {result : Except ServiceError Answer}
    (h : t.result = some result) (env : Env) (n : Nat) (s : State) :
    outcome d env n s t = (s, some result) := by
  have hstays : (program d).step env s t = (s, t) := by
    cases t with
    | registered | registerRaised | registerUnloaded | ended => rfl
    | _ => cases h
  rw [outcome, alone_of_step_eq (program d) hstays, h]

theorem outcome_commit (env : Env) (n : Nat) (s : State) (user : User)
    (profile : Option StudentProfile) (hcommit : env.fails .commit = false) :
    outcome d env (n + 2) s (.registerCommit user profile) =
      match storeAccount s user profile with
      | .error e => (s, some (.error e))
      | .ok s' =>
        (s', some (if env.fails .reload then .error .database else .ok (.user user))) := by
  rw [outcome_registerStep d env _ s (by rfl), registerStep, hcommit]
  simp only [Bool.false_eq_true, if_false]
  rcases hstore : storeAccount s user profile with e | s'
  · exact outcome_of_result d rfl ..
  dsimp only
  rw [outcome_registerStep d env _ s' (by rfl), registerStep]
  rcases env.fails .reload with _ | _
  · obtain ⟨hfresh, -, -, husers, -⟩ := storeAccount_ok hstore
    have hstored : Table.lookup User.id user.id s'.users = some user := by
      rw [husers, Table.lookup_append, Table.lookup_eq_none.mpr hfresh, Option.none_or]
      simp [Table.lookup]
    simp only [Bool.false_eq_true, if_false, hstored]
    exact outcome_of_result d rfl ..
  · exact outcome_of_result d rfl ..

theorem outcome_register (env : Env) (n : Nat) (s : State) (data : RegisterRequest) :
    outcome d env (n + 5) s (.registerQuery data) =
      ((registerUser d s env data).1, some ((registerUser d s env data).2.map .user)) := by
  rw [outcome_registerStep d env _ s (by rfl), registerStep, registerUser]
  rcases env.fails .query with _ | _
  swap
  · exact outcome_of_result d rfl ..
  rcases (Table.lookup User.email data.email s.users).isSome with _ | _
  swap
  · exact outcome_of_result d rfl ..
  simp only [Bool.false_eq_true, if_false]
  rw [insertUser_eq, outcome_registerStep d env _ s (by rfl), registerStep]
  generalize huser : User.mk env.userId data.email (d.pwdContext.hash env.salt data.password)
    data.role true = user
  have hrole : user.role = data.role := by rw [← huser]
  rcases hcommit : env.fails .commit with _ | _
  swap
  · exact outcome_of_result d rfl ..
  simp only [Bool.false_or, Bool.false_eq_true, if_false]
  rcases hinserts : insertsUser s user with _ | _
  · rw [storeAccount_of_refused hinserts]
    exact outcome_of_result d rfl ..
  simp only [Bool.not_true, Bool.false_eq_true, if_false]
  by_cases hstudent : data.role = .student
  · -- a student's profile is one more `INSERT`
    rw [if_pos hstudent, hrole, if_pos hstudent, outcome_registerStep d env _ s (by rfl),
      registerStep, hcommit]
    rcases hprofile : insertsProfile s (newProfile env user.id) with _ | _
    · rw [storeAccount_of_profile_refused hprofile]
      exact outcome_of_result d rfl ..
    simp only [Bool.not_true, Bool.or_false, Bool.false_eq_true, if_false]
    rw [outcome_commit d env _ _ _ _ hcommit]
    rcases storeAccount s user (some (newProfile env user.id)) with e | s'
    · rfl
    · rcases env.fails .reload with _ | _ <;> rfl
  · rw [if_neg hstudent, hrole, if_neg hstudent, outcome_commit d env _ _ _ _ hcommit]
    rcases storeAccount s user none with e | s'
    · rfl
    · rcases env.fails .reload with _ | _ <;> rfl

/-- `get_or_create_profile`, or `update_profile` with a body. -/
def profileCall (s : State) (env : Env) (user : User) :
    Option ProfileUpdate → State × Except ServiceError StudentProfile
  | none => getOrCreateProfile s env user
  | some data => updateProfile s env user data

/-- What is left to do once the profile is loaded. -/
def afterLoad (s : State) (env : Env) (profile : StudentProfile) :
    Option ProfileUpdate → State × Except ServiceError StudentProfile
  | none => (s, .ok profile)
  | some data =>
    if env.fails .update || !acceptsUpdate profile data then (s, .error .database)
    else (updateRow s profile data, refreshProfile (updateRow s profile data) env profile.id)

theorem profileCall_eq (s : State) (env : Env) (user : User) (data : Option ProfileUpdate) :
    profileCall s env user data =
      match getOrCreateProfile s env user with
      | (s', .error e) => (s', .error e)
      | (s', .ok profile) => afterLoad s' env profile data := by
  rcases data with _ | data
  · rw [profileCall]
    rcases getOrCreateProfile s env user with ⟨s', e | profile⟩ <;> rfl
  · rw [profileCall, updateProfile]
    rcases getOrCreateProfile s env user with ⟨s', e | profile⟩ <;> rfl

theorem outcome_loaded (env : Env) (n : Nat) (s : State) (profile : StudentProfile)
    (data : Option ProfileUpdate) :
    outcome d env (n + 3) s (.loaded profile data) =
      ((afterLoad s env profile data).1, some ((afterLoad s env profile data).2.map .profile)) := by
  rcases data with _ | data
  · exact outcome_of_result d rfl ..
  rw [Task.loaded, outcome_profileStep d env _ s (by rfl), profileStep, afterLoad]
  rcases hupdate : env.fails .update with _ | _
  swap
  · exact outcome_of_result d rfl ..
  rcases acceptsUpdate profile data with _ | _
  · exact outcome_of_result d rfl ..
  simp only [Bool.false_or, Bool.not_true, Bool.false_eq_true, if_false]
  rw [outcome_profileStep d env _ s (by rfl), profileStep, hupdate]
  simp only [Bool.false_eq_true, if_false]
  rw [outcome_profileStep d env _ _ (by rfl), profileStep]
  exact outcome_of_result d rfl ..

theorem outcome_profileQuery (env : Env) (n : Nat) (s : State) (user : User)
    (data : Option ProfileUpdate) :
    outcome d env (n + 7) s (.profileQuery user data) =
      ((profileCall s env user data).1, some ((profileCall s env user data).2.map .profile)) := by
  rw [outcome_profileStep d env _ s (by rfl), profileStep, profileCall_eq, getOrCreateProfile]
  rcases env.fails .query with _ | _
  swap
  · exact outcome_of_result d rfl ..
  simp only [Bool.false_eq_true, if_false]
  rcases Table.lookup StudentProfile.userId user.id s.profiles with _ | profile
  swap
  · exact outcome_loaded d env (n + 3) s profile data
  dsimp only
  rw [outcome_profileStep d env _ s (by rfl), profileStep]
  rcases hcommit : env.fails .commit with _ | _
  swap
  · exact outcome_of_result d rfl ..
  simp only [Bool.false_or, Bool.false_eq_true, if_false]
  rcases hinserts : insertsProfile s (newProfile env user.id) with _ | _
  · rw [storeProfile_of_refused hinserts]
    exact outcome_of_result d rfl ..
  simp only [Bool.not_true, Bool.false_eq_true, if_false]
  rw [outcome_profileStep d env _ s (by rfl), profileStep, hcommit]
  simp only [Bool.false_eq_true, if_false]
  rcases storeProfile s (newProfile env user.id) with e | s'
  · exact outcome_of_result d rfl ..
  dsimp only
  rw [outcome_profileStep d env _ s' (by rfl), profileStep, newProfile_id]
  rcases refreshProfile s' env env.profileId with e | profile
  · exact outcome_of_result d rfl ..
  · exact outcome_loaded d env n s' profile data

/-- **A job that nothing interrupts does what the handler does.** -/
theorem serve_eq_alone (env : Env) (n : Nat) (s : State) (job : Job) :
    outcome d env (n + 8) s (Task.start job) =
      ((serve d s env job).1, some (serve d s env job).2) := by
  cases job with
  | register data => exact outcome_register d env (n + 3) s data
  | getProfile userId =>
    rw [Task.start, outcome_profileStep d env _ s (by rfl), profileStep, serve, getProfile]
    rcases findUser s env userId with e | _ | user
    · exact outcome_of_result d rfl ..
    · exact outcome_of_result d rfl ..
    · exact outcome_profileQuery d env n s user none
  | putProfile user data =>
    rw [Task.start, serve, putProfile]
    by_cases hrole : user.role ≠ .student
    · rw [if_pos hrole, if_pos hrole]
      exact outcome_of_result d rfl ..
    rw [if_neg hrole, if_neg hrole, outcome_profileStep d env _ s (by rfl), profileStep]
    rcases findUser s env user.id with e | _ | dbUser
    · exact outcome_of_result d rfl ..
    · exact outcome_of_result d rfl ..
    · exact outcome_profileQuery d env n s dbUser (some data)

end Program

end CampusHire.Profiles
