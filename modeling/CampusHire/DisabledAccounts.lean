import CampusHire.RefreshRotation
import Mathlib.Data.Fintype.Basic

/-!
# Accounts that are disabled

`authenticate` refuses a user whose `is_active` is `False`; `refresh_session` does not ask.
Requests run in threads, between the steps of other requests and of whoever disables and
enables accounts, so an account can also be disabled between the check and the issue.

In a run in which `refresh_session` reads active users only, and in which no user is
disabled whose login or refresh is between its read and its issue, every token pair is
issued to an active user (`issued_to_active`).
-/

namespace CampusHire.DisabledAccounts

open CampusHire AuthService Sessions Schedule
open CampusHire.RefreshRotation (Refreshing refreshStep)

/-! ## The threads -/

/-- A request, and how far it has come, or a change of a user's flag from outside. -/
inductive Task where
  | registering (data : RegisterRequest)
  | checked (user : User)
  | registered (result : Except ServiceError User)
  | loggingIn (email password : String)
  | authenticated (user : User)
  | loggedIn (result : Except ServiceError (String × String))
  | refreshing (token : String) (call : Refreshing)
  | settingActive (user : UUID) (active : Bool)
  | set

/-- The user whom a login or a refresh has read and not yet issued tokens to. -/
def Task.reads : Task → Option User
  | .authenticated user => some user
  | .refreshing _ (.userRead _ user) => some user
  | .refreshing _ (.committed user) => some user
  | _ => none

/-- The token pair that a login or a refresh has returned. -/
def Task.pair : Task → Option (String × String)
  | .loggedIn result => result.toOption
  | .refreshing _ (.returned result) => result.toOption
  | _ => none

/-- A request that has not begun, or a change that has not been made. -/
def Task.isNew : Task → Bool
  | .registering _ => true
  | .loggingIn _ _ => true
  | .refreshing _ .presented => true
  | .settingActive _ _ => true
  | _ => false

def setActive (s : State) (user : UUID) (active : Bool) : State :=
  { s with users := Table.modify User.id user (fun u => { u with isActive := active }) s.users }

section Program

variable (d : Deployment)

/-- The next step of a request, each query and each commit being one. -/
def taskStep (env : Env) (s : State) : Task → State × Task
  | .registering data =>
    if env.fails .query then (s, .registered (.error .database))
    else if (Table.lookup User.email data.email s.users).isSome then
      (s, .registered (.error (.http 400 "Email already registered")))
    else (s, .checked
      ⟨env.userId, data.email, d.pwdContext.hash env.salt data.password, data.role, true⟩)
  | .checked user =>
    match insertUser s env user with
    | .error e => (s, .registered (.error e))
    | .ok s' => (s', .registered (if env.fails .reload then .error .database else .ok user))
  | .registered result => (s, .registered result)
  | .loggingIn email password =>
    match authenticate d s env email password with
    | .error e => (s, .loggedIn (.error e))
    | .ok user => (s, .authenticated user)
  | .authenticated user =>
      ((issueTokens d s env user).1, .loggedIn (issueTokens d s env user).2)
  | .loggedIn result => (s, .loggedIn result)
  | .refreshing token call =>
      ((refreshStep d token env s call).1, .refreshing token (refreshStep d token env s call).2)
  | .settingActive user active => (setActive s user active, .set)
  | .set => (s, .set)

def program : Program State Task Env where
  step := taskStep d
  onLoop := fun _ => false
  running := fun _ => false
  running_onLoop := fun _ h => h
  offLoop_step := fun _ _ _ _ => rfl

/-- **`register_user` is its two steps run alone.** -/
theorem registerUser_eq_alone (env : Env) (s : State) (data : RegisterRequest) :
    alone (program d) env 2 (s, .registering data) =
      ((registerUser d s env data).1, .registered (registerUser d s env data).2) := by
  have hstep : ∀ n s t, alone (program d) env (n + 1) (s, t) =
      alone (program d) env n (taskStep d env s t) := fun _ _ _ => rfl
  rw [hstep, taskStep, registerUser]
  split
  · rfl
  split
  · rfl
  · rw [hstep, taskStep]
    dsimp only
    rcases insertUser s env ⟨env.userId, data.email, d.pwdContext.hash env.salt data.password,
      data.role, true⟩ with e | t
    · rfl
    · rfl

/-- **`login` is its two steps run alone.** -/
theorem login_eq_alone (env : Env) (s : State) (email password : String) :
    (alone (program d) env 2 (s, .loggingIn email password)).1 =
        (serve d s env (.login email password)).1 ∧
      (alone (program d) env 2 (s, .loggingIn email password)).2.pair =
        (serve d s env (.login email password)).2.toOption.bind Answer.cookies := by
  have hstep : ∀ n s t, alone (program d) env (n + 1) (s, t) =
      alone (program d) env n (taskStep d env s t) := fun _ _ _ => rfl
  rw [hstep, taskStep, serve]
  rcases authenticate d s env email password with e | user
  · exact ⟨rfl, rfl⟩
  · rw [hstep, taskStep]
    refine ⟨rfl, ?_⟩
    dsimp only
    rcases (issueTokens d s env user).2 with e | pair
    · rfl
    · rfl

/-- **`refresh_session` is its four steps run alone.** -/
theorem refreshSession_eq_alone (env : Env) (s : State) (token : String) :
    alone (program d) env 4 (s, .refreshing token .presented) =
      ((refreshSession d s env token).1,
        .refreshing token (.returned (refreshSession d s env token).2)) := by
  have hlift : ∀ n s call, alone (program d) env n (s, .refreshing token call) =
      ((alone (RefreshRotation.program d token) env n (s, call)).1,
        .refreshing token (alone (RefreshRotation.program d token) env n (s, call)).2) := by
    intro n
    induction n with
    | zero =>
      intro s call
      rfl
    | succ n ih =>
      intro s call
      exact ih _ _
  rw [hlift, RefreshRotation.refreshSession_eq_alone]

/-! ## Active users -/

def ActiveIn (s : State) (id : UUID) : Prop :=
  ∃ user, Table.lookup User.id id s.users = some user ∧ user.isActive = true

/-- A refresh reads an active user, if it reads one. -/
def ReadsActive (env : Env) (s : State) : Task → Prop
  | .refreshing _ (.recordRead payload _) => env.fails .query = false →
      ∀ user ∈ (tokenUser s payload).toOption, user.isActive = true
  | _ => True

variable {ι : Type*} [DecidableEq ι]

/-- A user who is disabled is not one whom a login or a refresh has read and not yet issued
    tokens to. -/
def SparesReaders (c : Config State Task ι) : Task → Prop
  | .settingActive id false => ∀ j, ∀ user ∈ (c.task j).reads, user.id ≠ id
  | _ => True

/-- The condition on a step. -/
def Careful (c : Config State Task ι) (i : ι) (env : Env) : Prop :=
  ReadsActive env c.store (c.task i) ∧ SparesReaders c (c.task i)

/-- If the step returns a token pair, it was issued to a user who is active in the state in
    which it is issued. -/
def IssuesToActive (c : Config State Task ι) (i : ι) (env : Env) : Prop :=
  ∀ pair, (c.task i).pair = none → ((fire (program d) c i env).task i).pair = some pair →
    ∃ user : User, pair = tokenPair d ⟨user, env.refreshJti, env.clock⟩ ∧
      (fire (program d) c i env).store.issued =
        c.store.issued ++ [⟨user, env.refreshJti, env.clock⟩] ∧
      ActiveIn c.store user.id

/-! ## One step -/

theorem refreshStep_users (token : String) (env : Env) (s : State) (call : Refreshing) :
    (refreshStep d token env s call).1.users = s.users := by
  rcases RefreshRotation.refreshStep_cases d token env s call with ⟨heq, -, -⟩ |
    ⟨record, user, -, -, heq⟩ | ⟨user, -, heq⟩
  · rw [heq]
  · rw [heq]
    rfl
  · rw [heq]
    exact (issueTokens_state d s env user).1

/-- What a step does to the users: nothing, or it adds one, or it sets the flag of one. -/
theorem taskStep_users (env : Env) (s : State) (t : Task) :
    (taskStep d env s t).1.users = s.users ∨
      (∃ user, Table.insertRow User.id user s.users = some (taskStep d env s t).1.users) ∨
      ∃ id active, t = .settingActive id active ∧
        (taskStep d env s t).1 = setActive s id active := by
  cases t with
  | registering data =>
    left
    simp only [taskStep]
    split
    · rfl
    · split <;> rfl
  | checked user =>
    simp only [taskStep]
    split
    · exact Or.inl rfl
    · rename_i hins
      exact Or.inr (Or.inl ⟨user, (insertUser_ok hins).1⟩)
  | loggingIn email password =>
    left
    simp only [taskStep]
    split <;> rfl
  | authenticated user => exact Or.inl (issueTokens_state d s env user).1
  | refreshing token call => exact Or.inl (refreshStep_users d token env s call)
  | settingActive id active => exact Or.inr (Or.inr ⟨id, active, rfl, rfl⟩)
  | registered _ => exact Or.inl rfl
  | loggedIn _ => exact Or.inl rfl
  | set => exact Or.inl rfl

/-- Where a read comes from: it was held before, or `authenticate` has checked the user, or
    a refresh has looked them up. -/
theorem taskStep_reads {env : Env} {s : State} {t : Task} {user : User}
    (h : (taskStep d env s t).2.reads = some user) :
    t.reads = some user ∨ (user ∈ s.users ∧ user.isActive = true) ∨
      ∃ token payload record, t = .refreshing token (.recordRead payload record) ∧
        env.fails .query = false ∧ tokenUser s payload = .ok user := by
  cases t with
  | registering data =>
    simp only [taskStep] at h
    split at h
    · cases h
    · split at h <;> cases h
  | checked user =>
    simp only [taskStep] at h
    split at h <;> cases h
  | loggingIn email password =>
    simp only [taskStep] at h
    split at h
    · cases h
    · rename_i found hfound
      cases h
      exact Or.inr (Or.inl (authenticate_ok d hfound))
  | refreshing token call =>
    simp only [taskStep] at h
    cases call with
    | presented =>
      simp only [refreshStep] at h
      split at h
      · cases h
      split at h
      · cases h
      split at h <;> cases h
    | recordRead payload record =>
      simp only [refreshStep] at h
      split at h
      · cases h
      rename_i hquery
      split at h
      · cases h
      · rename_i found hfound
        cases h
        exact Or.inr (Or.inr ⟨token, payload, record, rfl, by simpa using hquery, hfound⟩)
    | userRead record found =>
      simp only [refreshStep] at h
      split at h
      · cases h
      · exact Or.inl h
    | committed found =>
      simp only [refreshStep] at h
      split at h <;> cases h
    | returned result => cases h
  | authenticated _ => cases h
  | settingActive _ _ => cases h
  | registered _ => cases h
  | loggedIn _ => cases h
  | set => cases h

/-- A step that returns a pair has issued it to the user it had read. -/
theorem taskStep_pair {env : Env} {s : State} {t : Task} {pair : String × String}
    (hbefore : t.pair = none) (h : (taskStep d env s t).2.pair = some pair) :
    ∃ user, t.reads = some user ∧ (issueTokens d s env user).2 = .ok pair ∧
      (taskStep d env s t).1 = (issueTokens d s env user).1 := by
  have hok : ∀ result : Except ServiceError (String × String),
      result.toOption = some pair → result = .ok pair := fun _ => toOption_eq_some.mp
  cases t with
  | registering data =>
    simp only [taskStep] at h
    split at h
    · cases h
    · split at h <;> cases h
  | checked user =>
    simp only [taskStep] at h
    split at h <;> cases h
  | loggingIn email password =>
    simp only [taskStep] at h
    split at h <;> cases h
  | authenticated user => exact ⟨user, rfl, hok _ h, rfl⟩
  | refreshing token call =>
    simp only [taskStep] at h
    cases call with
    | presented =>
      simp only [refreshStep] at h
      split at h
      · cases h
      split at h
      · cases h
      split at h <;> cases h
    | recordRead payload record =>
      simp only [refreshStep] at h
      split at h
      · cases h
      split at h <;> cases h
    | userRead record found =>
      simp only [refreshStep] at h
      split at h <;> cases h
    | committed user =>
      simp only [taskStep, refreshStep] at h ⊢
      split at h
      · cases h
      · rename_i hreload
        rw [if_neg hreload]
        exact ⟨user, rfl, hok _ h, rfl⟩
    | returned result =>
      rw [show (refreshStep d token env s (.returned result)).2 = .returned result from rfl,
        hbefore] at h
      cases h
  | loggedIn result =>
    rw [show (taskStep d env s (.loggedIn result)).2 = .loggedIn result from rfl, hbefore] at h
    cases h
  | settingActive _ _ => cases h
  | registered _ => cases h
  | set => cases h

/-! ## Whoever has been read is active -/

theorem activeIn_of_mem {s : State} (hids : (s.users.map User.id).Nodup) {user : User}
    (hmem : user ∈ s.users) (hactive : user.isActive = true) : ActiveIn s user.id :=
  ⟨user, Table.lookup_of_mem hids hmem, hactive⟩

theorem lookup_setActive (s : State) (id other : UUID) (active : Bool) :
    Table.lookup User.id other (setActive s id active).users =
      (Table.lookup User.id other s.users).map fun u =>
        if u.id = id then { u with isActive := active } else u :=
  Table.lookup_modify_column (f := fun u : User => { u with isActive := active })
    (fun _ => rfl) s.users

/-- Only disabling the user makes an active user inactive. -/
theorem activeIn_step {env : Env} {s : State} {t : Task} {id : UUID} (h : ActiveIn s id)
    (hspared : t ≠ .settingActive id false) : ActiveIn (taskStep d env s t).1 id := by
  obtain ⟨user, hfound, hactive⟩ := h
  rcases taskStep_users d env s t with heq | ⟨new, hins⟩ | ⟨id', active, rfl, heq⟩
  · exact ⟨user, by rw [heq, hfound], hactive⟩
  · refine ⟨user, ?_, hactive⟩
    rw [(Table.insertRow_eq_some.mp hins).2]
    exact Table.lookup_append_of_some hfound
  · rw [heq]
    refine ⟨_, by rw [lookup_setActive, hfound, Option.map_some], ?_⟩
    split
    · rename_i hid
      rw [Table.key_of_lookup hfound] at hid
      subst hid
      -- the flag of this user is set, and not cleared
      rcases active with _ | _
      · exact absurd rfl hspared
      · rfl
    · exact hactive

/-- User ids are unique, and whom a login or a refresh has read is active. -/
structure Sound (c : Config State Task ι) : Prop where
  ids : (c.store.users.map User.id).Nodup
  active : ∀ i user, (c.task i).reads = some user → ActiveIn c.store user.id

theorem reads_of_isNew {t : Task} (h : t.isNew = true) : t.reads = none := by
  unfold Task.isNew at h
  split at h
  all_goals first | rfl | cases h

omit [DecidableEq ι] in
theorem sound_start {task : ι → Task} (hnew : ∀ i, (task i).isNew = true) :
    Sound (start State.empty task) := by
  refine ⟨List.nodup_nil, ?_⟩
  intro i user hreads
  have hnone : (task i).reads = none := reads_of_isNew (hnew i)
  rw [show (start State.empty task).task i = task i from rfl, hnone] at hreads
  cases hreads

theorem ids_step (env : Env) {s : State} (t : Task) (h : (s.users.map User.id).Nodup) :
    ((taskStep d env s t).1.users.map User.id).Nodup := by
  rcases taskStep_users d env s t with heq | ⟨user, hins⟩ | ⟨id, active, -, heq⟩
  · rw [heq]
    exact h
  · obtain ⟨hfresh, hadded⟩ := Table.insertRow_eq_some.mp hins
    rw [hadded]
    exact Table.nodup_append_fresh h hfresh
  · have hsame : (setActive s id active).users.map User.id = s.users.map User.id :=
      Table.map_modify (f := fun u : User => { u with isActive := active }) (fun _ => rfl) s.users
    rw [heq, hsame]
    exact h

theorem sound_fire {c : Config State Task ι} {i : ι} {env : Env} (h : Sound c)
    (hG : Careful c i env) : Sound (fire (program d) c i env) := by
  refine ⟨ids_step d env (c.task i) h.ids, ?_⟩
  intro j user hreads
  -- `user` is active before the step
  have hbefore : ActiveIn c.store user.id := by
    by_cases hne : j = i
    · subst hne
      rw [fire_task_same] at hreads
      rcases taskStep_reads d hreads with hold | ⟨hmem, hactive⟩ |
        ⟨token, payload, record, htask, hquery, hfound⟩
      · exact h.active j user hold
      · exact activeIn_of_mem h.ids hmem hactive
      · have hreadsActive := hG.1
        rw [htask] at hreadsActive
        obtain ⟨id, -, hlookup⟩ := tokenUser_ok hfound
        exact activeIn_of_mem h.ids (Table.mem_of_lookup hlookup)
          (hreadsActive hquery user (by rw [hfound]; rfl))
    · rw [fire_task_other _ c env hne] at hreads
      exact h.active j user hreads
  refine activeIn_step d hbefore ?_
  -- and the step does not disable them
  intro htask
  by_cases hne : j = i
  · subst hne
    rw [fire_task_same, htask] at hreads
    cases hreads
  · rw [fire_task_other _ c env hne] at hreads
    have hspares := hG.2
    rw [htask] at hspares
    exact hspares j user hreads rfl

theorem issuesToActive_of_sound {c : Config State Task ι} (h : Sound c) (i : ι) (env : Env) :
    IssuesToActive d c i env := by
  intro pair hbefore hafter
  rw [fire_task_same] at hafter
  obtain ⟨user, hreads, hok, hstore⟩ := taskStep_pair d hbefore hafter
  refine ⟨user, issueTokens_ok d hok, ?_, h.active i user hreads⟩
  rw [fire_store, show (program d).step = taskStep d from rfl, hstore]
  exact (issueTokens_state d c.store env user).2

/-- **Disabled accounts obtain no tokens in careful runs.**  Whatever requests and changes
    of flags are interleaved, in any order of their steps: if every refresh that reads its
    user finds them active, and nobody is disabled between a read and the issue that
    follows it, then whatever step comes next, a token pair that it returns is issued to a
    user who is active at that moment. -/
theorem issued_to_active (task : ι → Task) (hnew : ∀ i, (task i).isNew = true)
    (schedule : List (ι × Env))
    (h : Guarded (program d) Careful (start State.empty task) schedule) (i : ι) (env : Env) :
    IssuesToActive d (run (program d) (start State.empty task) schedule) i env :=
  issuesToActive_of_sound d (run_guarded (program d) (fun _ _ _ hs _ hG => sound_fire d hs hG)
    schedule (sound_start hnew) h) i env

end Program

/-! ## A student and an administrator -/

instance decidableReadsActive (env : Env) (s : State) : ∀ t, Decidable (ReadsActive env s t)
  | .refreshing _ (.recordRead payload _) =>
      inferInstanceAs (Decidable (env.fails .query = false →
        ∀ user ∈ (tokenUser s payload).toOption, user.isActive = true))
  | .refreshing _ .presented => isTrue trivial
  | .refreshing _ (.userRead _ _) => isTrue trivial
  | .refreshing _ (.committed _) => isTrue trivial
  | .refreshing _ (.returned _) => isTrue trivial
  | .registering _ => isTrue trivial
  | .checked _ => isTrue trivial
  | .registered _ => isTrue trivial
  | .loggingIn _ _ => isTrue trivial
  | .authenticated _ => isTrue trivial
  | .loggedIn _ => isTrue trivial
  | .settingActive _ _ => isTrue trivial
  | .set => isTrue trivial

/-- The threads of an example run. -/
inductive Thread where
  | registration
  | login
  | administrator
  | refresh
deriving DecidableEq

instance : Fintype Thread :=
  ⟨{.registration, .login, .administrator, .refresh}, by intro t; cases t <;> simp⟩

instance decidableSparesReaders (c : Config State Task Thread) :
    ∀ t, Decidable (SparesReaders c t)
  | .settingActive id false =>
      inferInstanceAs (Decidable (∀ j, ∀ user ∈ (c.task j).reads, user.id ≠ id))
  | .settingActive _ true => isTrue trivial
  | .registering _ => isTrue trivial
  | .checked _ => isTrue trivial
  | .registered _ => isTrue trivial
  | .loggingIn _ _ => isTrue trivial
  | .authenticated _ => isTrue trivial
  | .loggedIn _ => isTrue trivial
  | .refreshing _ _ => isTrue trivial
  | .set => isTrue trivial

instance decidableCareful (c : Config State Task Thread) (i : Thread) (env : Env) :
    Decidable (Careful c i env) :=
  inferInstanceAs (Decidable (_ ∧ _))

/-- A student registers, logs in and refreshes, and an administrator disables the account. -/
def threads : Thread → Task
  | .registration => .registering { email := "s@campus", password := "password" }
  | .login => .loggingIn "s@campus" "password"
  | .administrator => .settingActive (.ofNat 1) false
  | .refresh => .refreshing "refresh" .presented

def session : List (Thread × Env) :=
  [(.registration, .untroubled (.ofNat 1) 0), (.registration, .untroubled (.ofNat 1) 0),
    (.login, .untroubled (.ofNat 2) 0), (.login, .untroubled (.ofNat 2) 0)]

def refreshed : List (Thread × Env) :=
  [(.refresh, .untroubled (.ofNat 3) 1), (.refresh, .untroubled (.ofNat 3) 1),
    (.refresh, .untroubled (.ofNat 3) 1)]

theorem issued_id {before after : List Issue} {user : User} {jti id : UUID} {time : Time}
    (h : after = before ++ [⟨user, jti, time⟩])
    (hlast : (after.map fun i => i.user.id).getLast? = some id) : user.id = id := by
  rw [h, List.map_append, List.map_singleton, List.getLast?_concat] at hlast
  exact Option.some.inj hlast

/-- The account is disabled, and then the refresh token of the session gets a new pair. -/
theorem disabled_refreshes :
    ¬ IssuesToActive oneSession (run (program oneSession) (start State.empty threads)
      (session ++ (.administrator, .untroubled (.ofNat 4) 1) :: refreshed)) .refresh
      (.untroubled (.ofNat 3) 1) := by
  intro h
  obtain ⟨user, -, hissued, stored, hfound, hactive⟩ :=
    h ("", "") (by decide +kernel) (by decide +kernel)
  have hid : user.id = .ofNat 1 := issued_id hissued (by decide +kernel)
  have hdisabled : (Table.lookup User.id (.ofNat 1) (run (program oneSession)
      (start State.empty threads) (session ++ (.administrator, .untroubled (.ofNat 4) 1) ::
        refreshed)).store.users).all (fun u => !u.isActive) = true := by
    decide +kernel
  rw [← hid, hfound, Option.all_some, hactive] at hdisabled
  cases hdisabled

/-- Without the administrator the account is active at the refresh. -/
theorem active_refreshes :
    ActiveIn (run (program oneSession) (start State.empty threads) (session ++ refreshed)).store
      (.ofNat 1) := by
  obtain ⟨user, -, hissued, hactive⟩ := issued_to_active oneSession threads (by decide)
    (session ++ refreshed) (by decide +kernel) .refresh (.untroubled (.ofNat 3) 1) ("", "")
    (by decide +kernel) (by decide +kernel)
  have hid : user.id = .ofNat 1 := issued_id hissued (by decide +kernel)
  exact hid ▸ hactive

end CampusHire.DisabledAccounts
