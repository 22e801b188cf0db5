import CampusHire.AuthService
import CampusHire.Sessions
import CampusHire.Schedule

/-!
# Refresh tokens under concurrency

`refresh_session` reads the record of a token, reads the user, commits
`revoked = True` and issues the new pair.  The handlers run in threads, so another
call can commit between the read and the commit, and both issue a pair
(`two_refreshes`).

A call keeps the token single use if its commit finds the record still unrevoked
(`UpToDate`).  In a run whose commits all do, a committed call has revoked the
record, no commit comes after it, and so at most one call returns a pair
(`single_use_of_upToDate`).
-/

namespace CampusHire.RefreshRotation

open CampusHire AuthService Sessions Schedule

inductive Refreshing where
  | presented
  | recordRead (payload : Payload) (record : RefreshToken)
  | userRead (record : RefreshToken) (user : User)
  | committed (user : User)
  | returned (result : Except ServiceError (String × String))

section Program

variable (d : Deployment) (token : String)

/-- The next step of a call: each query and each commit is one. -/
def refreshStep (env : Env) (s : State) : Refreshing → State × Refreshing
  | .presented =>
    match refreshJti d env.clock token with
    | .error e => (s, .returned (.error e))
    | .ok (payload, jti) =>
      if env.fails .query then (s, .returned (.error .database))
      else
        match liveRecord s env.clock jti with
        | .error e => (s, .returned (.error e))
        | .ok record => (s, .recordRead payload record)
  | .recordRead payload record =>
    if env.fails .query then (s, .returned (.error .database))
    else
      match tokenUser s payload with
      | .error e => (s, .returned (.error e))
      | .ok user => (s, .userRead record user)
  | .userRead record user =>
    if env.fails .commit then (s, .returned (.error .database))
    else (revokeRecord s record, .committed user)
  | .committed user =>
    if env.fails .reload then (s, .returned (.error .database))
    else ((issueTokens d s env user).1, .returned (issueTokens d s env user).2)
  | .returned result => (s, .returned result)

def program : Program State Refreshing Env where
  step := refreshStep d token
  onLoop := fun _ => false
  running := fun _ => false
  running_onLoop := fun _ h => h
  offLoop_step := fun _ _ _ _ => rfl

/-- Any number of calls with the token, none of which has begun. -/
def present {ι : Type*} (s : State) : Config State Refreshing ι := start s fun _ => .presented

/-- **The handler is the call run alone.** -/
theorem refreshSession_eq_alone (env : Env) (s : State) :
    alone (program d token) env 4 (s, .presented) =
      ((refreshSession d s env token).1, .returned (refreshSession d s env token).2) := by
  have hstep : ∀ n s t, alone (program d token) env (n + 1) (s, t) =
      alone (program d token) env n (refreshStep d token env s t) := fun _ _ _ => rfl
  have hended : ∀ n s result, alone (program d token) env n (s, .returned result) =
      (s, .returned result) := fun n s result => alone_of_step_eq _ rfl n
  rw [hstep, refreshStep, refreshSession]
  rcases refreshJti d env.clock token with e | ⟨payload, jti⟩
  · exact hended ..
  dsimp only
  rcases hquery : env.fails .query with _ | _
  swap
  · exact hended ..
  simp only [Bool.false_eq_true, if_false]
  rcases liveRecord s env.clock jti with e | record
  · exact hended ..
  dsimp only
  rw [hstep, refreshStep, hquery]
  simp only [Bool.false_eq_true, if_false]
  rcases tokenUser s payload with e | user
  · exact hended ..
  dsimp only
  rw [hstep, refreshStep]
  rcases env.fails .commit with _ | _
  swap
  · exact hended ..
  simp only [Bool.false_eq_true, if_false]
  rw [hstep, refreshStep]
  rcases env.fails .reload with _ | _ <;> rfl

def Refreshing.isPair : Refreshing → Bool
  | .returned (.ok _) => true
  | _ => false

def Refreshing.hasRevoked : Refreshing → Bool
  | .committed _ => true
  | .returned (.ok _) => true
  | _ => false

/-- The record that a call has read and not yet revoked. -/
def Refreshing.holds : Refreshing → Option RefreshToken
  | .recordRead _ record => some record
  | .userRead record _ => some record
  | _ => none

/-- The condition on a step: a commit of `revoked = True` finds the record as it was
    read, unrevoked. -/
def UpToDate (env : Env) (s : State) : Refreshing → Prop
  | .userRead record _ => env.fails .commit = false →
      ∀ current, findRecord s record.tokenJti = some current → current.revoked = false
  | _ => True

/-! ## What the calls know about the record -/

/-- The `jti` that every call reads from the token. -/
def jtiOf : String :=
  ((d.jose.verify token d.settings.jwtSecretKey d.settings.jwtAlgorithm).bind
    Payload.jti).getD ""

theorem refreshJti_eq {now : Time} {payload : Payload} {jti : String}
    (h : refreshJti d now token = .ok (payload, jti)) : jti = jtiOf d token := by
  obtain ⟨hdecode, -, hjti, -⟩ := refreshJti_ok h
  rw [jtiOf, (Jose.decode_eq_some.mp hdecode).1, Option.bind_some, hjti, Option.getD_some]

/-- A held record is the stored one, up to its flag. -/
def Holds (s : State) (record : RefreshToken) : Prop :=
  record.tokenJti = jtiOf d token ∧
    ∃ current, findRecord s (jtiOf d token) = some current ∧ current.id = record.id

def Revoked (s : State) : Prop :=
  ∃ current, findRecord s (jtiOf d token) = some current ∧ current.revoked = true

/-- What holds in a run whose commits were up to date: at most one call has revoked
    the record, and then the record is revoked. -/
structure SingleUse {ι : Type*} (c : Config State Refreshing ι) : Prop where
  holds : ∀ i record, (c.task i).holds = some record → Holds d token c.store record
  revoked : ∀ i, (c.task i).hasRevoked = true → Revoked d token c.store
  unique : ∀ i j, (c.task i).hasRevoked = true → (c.task j).hasRevoked = true → i = j

/-! ## One step -/

/-- **What a step can do.**  It leaves the store alone, and then a record that the call
    holds was held before or is the stored one; or it is one of the two commits. -/
theorem refreshStep_cases (env : Env) (s : State) (t : Refreshing) :
    ((refreshStep d token env s t).1 = s ∧
      ((refreshStep d token env s t).2.hasRevoked = true → t.hasRevoked = true) ∧
      ∀ record, (refreshStep d token env s t).2.holds = some record → t.holds = some record ∨
        findRecord s (jtiOf d token) = some record) ∨
    (∃ record user, t = .userRead record user ∧ env.fails .commit = false ∧
      refreshStep d token env s t = (revokeRecord s record, .committed user)) ∨
    ∃ user, t = .committed user ∧ refreshStep d token env s t =
      ((issueTokens d s env user).1, .returned (issueTokens d s env user).2) := by
  cases t with
  | presented =>
    left
    simp only [refreshStep]
    split
    · exact ⟨rfl, nofun, nofun⟩
    rename_i payload jti hjti
    split
    · exact ⟨rfl, nofun, nofun⟩
    split
    · exact ⟨rfl, nofun, nofun⟩
    · rename_i record hrecord
      refine ⟨rfl, nofun, fun r hr => Or.inr ?_⟩
      cases hr
      rw [← refreshJti_eq d token hjti]
      exact (liveRecord_ok hrecord).1
  | recordRead payload record =>
    left
    simp only [refreshStep]
    split
    · exact ⟨rfl, nofun, nofun⟩
    split
    · exact ⟨rfl, nofun, nofun⟩
    · exact ⟨rfl, nofun, fun r hr => Or.inl hr⟩
  | userRead record user =>
    simp only [refreshStep]
    split
    · exact Or.inl ⟨rfl, nofun, nofun⟩
    · rename_i hcommit
      exact Or.inr (Or.inl ⟨record, user, rfl, by simpa using hcommit, rfl⟩)
  | committed user =>
    simp only [refreshStep]
    split
    · exact Or.inl ⟨rfl, nofun, nofun⟩
    · exact Or.inr (Or.inr ⟨user, rfl, rfl⟩)
  | returned result => exact Or.inl ⟨rfl, id, fun r hr => Or.inl hr⟩

theorem findRecord_issueTokens {s : State} {env : Env} {user : User} {jti : String}
    {current : RefreshToken} (h : findRecord s jti = some current) :
    findRecord (issueTokens d s env user).1 jti = some current := by
  simp only [issueTokens]
  split
  · exact h
  · split
    · rename_i records _ hid _
      rw [findRecord, (Table.insertRow_eq_some.mp hid).2]
      exact Table.lookup_append_of_some h
    · exact h

/-- No step removes the record or clears its flag. -/
theorem record_step (env : Env) (s : State) (t : Refreshing) {current : RefreshToken}
    (h : findRecord s (jtiOf d token) = some current) :
    ∃ current', findRecord (refreshStep d token env s t).1 (jtiOf d token) = some current' ∧
      current'.id = current.id ∧ (current.revoked = true → current'.revoked = true) := by
  rcases refreshStep_cases d token env s t with ⟨heq, -, -⟩ | ⟨record, user, rfl, -, heq⟩ |
    ⟨user, rfl, heq⟩
  · exact ⟨current, by rw [heq, h], rfl, id⟩
  · rw [heq, findRecord_revokeRecord, h, Option.map_some]
    refine ⟨_, rfl, ?_, ?_⟩
    · split <;> rfl
    · intro hrevoked
      split
      · rfl
      · exact hrevoked
  · exact ⟨current, by rw [heq]; exact findRecord_issueTokens d h, rfl, id⟩

theorem holds_step {env : Env} {s : State} {t : Refreshing} {record : RefreshToken}
    (h : Holds d token s record) : Holds d token (refreshStep d token env s t).1 record := by
  obtain ⟨hjti, current, hfound, hid⟩ := h
  obtain ⟨current', hfound', hid', -⟩ := record_step d token env s t hfound
  exact ⟨hjti, current', hfound', hid'.trans hid⟩

theorem revoked_step {env : Env} {s : State} {t : Refreshing} (h : Revoked d token s) :
    Revoked d token (refreshStep d token env s t).1 := by
  obtain ⟨current, hfound, hrevoked⟩ := h
  obtain ⟨current', hfound', -, hkept⟩ := record_step d token env s t hfound
  exact ⟨current', hfound', hkept hrevoked⟩

theorem revoked_of_commit {s : State} {record : RefreshToken} (h : Holds d token s record) :
    Revoked d token (revokeRecord s record) := by
  obtain ⟨-, current, hfound, hid⟩ := h
  refine ⟨{ current with revoked := true }, ?_, rfl⟩
  rw [findRecord_revokeRecord, hfound, Option.map_some, if_pos hid]

variable {ι : Type*} [DecidableEq ι]

theorem holds_fire {c : Config State Refreshing ι} {i j : ι} {env : Env} {record : RefreshToken}
    (h : SingleUse d token c)
    (hj : ((fire (program d token) c i env).task j).holds = some record) :
    Holds d token (fire (program d token) c i env).store record := by
  rw [fire_store]
  by_cases hne : j = i
  · subst hne
    rw [fire_task_same] at hj
    simp only [program] at hj ⊢
    rcases refreshStep_cases d token env c.store (c.task j) with ⟨heq, -, hheld⟩ |
      ⟨_, _, -, -, heq⟩ | ⟨_, -, heq⟩
    · rcases hheld record hj with hold | hfound
      · exact holds_step d token (h.holds j record hold)
      · rw [heq]
        exact ⟨Table.key_of_lookup hfound, record, hfound, rfl⟩
    · rw [heq] at hj
      cases hj
    · rw [heq] at hj
      cases hj
  · rw [fire_task_other _ c env hne] at hj
    exact holds_step d token (h.holds j record hj)

theorem revoked_fire {c : Config State Refreshing ι} {i j : ι} {env : Env}
    (h : SingleUse d token c) (hj : ((fire (program d token) c i env).task j).hasRevoked = true) :
    Revoked d token (fire (program d token) c i env).store := by
  rw [fire_store]
  by_cases hne : j = i
  · subst hne
    rw [fire_task_same] at hj
    simp only [program] at hj ⊢
    rcases refreshStep_cases d token env c.store (c.task j) with ⟨-, hold, -⟩ |
      ⟨record, user, htask, -, heq⟩ | ⟨user, htask, -⟩
    · exact revoked_step d token (h.revoked j (hold hj))
    · rw [heq]
      exact revoked_of_commit d token (h.holds j record (by rw [htask]; rfl))
    · exact revoked_step d token (h.revoked j (by rw [htask]; rfl))
  · rw [fire_task_other _ c env hne] at hj
    exact revoked_step d token (h.revoked j hj)

/-- Only an up-to-date commit adds to the calls that have revoked the record. -/
theorem hasRevoked_fire {c : Config State Refreshing ι} {i : ι} {env : Env}
    (h : SingleUse d token c) (hG : UpToDate env c.store (c.task i))
    (hi : ((fire (program d token) c i env).task i).hasRevoked = true) :
    (c.task i).hasRevoked = true ∨ ∀ j, ¬ (c.task j).hasRevoked = true := by
  rw [fire_task_same] at hi
  rcases refreshStep_cases d token env c.store (c.task i) with ⟨-, hold, -⟩ |
    ⟨record, user, htask, hcommit, -⟩ | ⟨user, htask, -⟩
  · exact Or.inl (hold hi)
  · right
    intro j hj
    obtain ⟨current, hfound, hrevoked⟩ := h.revoked j hj
    obtain ⟨hjti, -⟩ := h.holds i record (by rw [htask]; rfl)
    rw [htask] at hG
    rw [hG hcommit current (hjti ▸ hfound)] at hrevoked
    cases hrevoked
  · exact Or.inl (by rw [htask]; rfl)

theorem singleUse_fire {c : Config State Refreshing ι} {i : ι} {env : Env}
    (h : SingleUse d token c) (hG : UpToDate env c.store (c.task i)) :
    SingleUse d token (fire (program d token) c i env) := by
  have hother : ∀ {j}, j ≠ i → (fire (program d token) c i env).task j = c.task j :=
    fun hne => fire_task_other _ c env hne
  refine ⟨fun j record => holds_fire d token h, fun j => revoked_fire d token h, ?_⟩
  intro j k hj hk
  by_cases hji : j = i
  · by_cases hki : k = i
    · rw [hji, hki]
    · rw [hother hki] at hk
      rw [hji] at hj
      rcases hasRevoked_fire d token h hG hj with hi | hnone
      · exact hji.trans (h.unique i k hi hk)
      · exact absurd hk (hnone k)
  · rw [hother hji] at hj
    by_cases hki : k = i
    · rw [hki] at hk
      rcases hasRevoked_fire d token h hG hk with hi | hnone
      · exact (h.unique j i hj hi).trans hki.symm
      · exact absurd hj (hnone j)
    · rw [hother hki] at hk
      exact h.unique j k hj hk

/-! ## All runs -/

omit [DecidableEq ι] in
theorem singleUse_present (s : State) : SingleUse d token (present s : Config State Refreshing ι) :=
  ⟨nofun, nofun, nofun⟩

theorem hasRevoked_of_isPair {t : Refreshing} (h : t.isPair = true) : t.hasRevoked = true := by
  cases t with
  | returned result =>
    cases result with
    | error e => cases h
    | ok pair => rfl
  | _ => cases h

/-- **A refresh token is single use in every run whose commits are up to date**: from
    every state that requests reach, whatever the number of calls with the token
    and their interleaving, at most one of them returns a new pair. -/
theorem single_use_of_upToDate (before : List Handled) (schedule : List (ι × Env))
    (h : Guarded (program d token) (fun c i env => UpToDate env c.store (c.task i))
      (present (execute d State.empty before)) schedule) (i j : ι)
    (hi : ((run (program d token) (present (execute d State.empty before)) schedule).task
      i).isPair = true)
    (hj : ((run (program d token) (present (execute d State.empty before)) schedule).task
      j).isPair = true) : i = j :=
  (run_guarded (program d token) (fun _ _ _ hinv _ hG => singleUse_fire d token hinv hG) schedule
    (singleUse_present d token _) h).unique i j (hasRevoked_of_isPair hi) (hasRevoked_of_isPair hj)

end Program

/-! ## Two calls with one token -/

instance decidableUpToDate (env : Env) (s : State) : ∀ t, Decidable (UpToDate env s t)
  | .userRead record _ =>
      match hfound : findRecord s record.tokenJti with
      | some current => decidable_of_iff (env.fails .commit = false → current.revoked = false)
          (by simp [UpToDate, hfound])
      | none => isTrue (by simp [UpToDate, hfound])
  | .presented => isTrue trivial
  | .recordRead _ _ => isTrue trivial
  | .committed _ => isTrue trivial
  | .returned _ => isTrue trivial

def refreshEnv : Bool → Env
  | false => .untroubled (.ofNat 3) 1
  | true => .untroubled (.ofNat 4) 1

def bothRead : List (Bool × Env) :=
  [false, true, false, true, false, true, false, true].map fun i => (i, refreshEnv i)

theorem two_refreshes :
    ¬ ∀ i j, ((run (program oneSession "refresh")
        (present (execute oneSession State.empty registerAndLogin)) bothRead).task i).isPair = true →
      ((run (program oneSession "refresh")
        (present (execute oneSession State.empty registerAndLogin)) bothRead).task j).isPair = true →
      i = j := by
  decide +kernel

def oneAfterTheOther : List (Bool × Env) :=
  [false, false, false, false, true, true, true, true].map fun i => (i, refreshEnv i)

/-- The first call gets the pair, and so the second one does not. -/
theorem oneAfterTheOther_single_use :
    ((run (program oneSession "refresh")
        (present (execute oneSession State.empty registerAndLogin)) oneAfterTheOther).task
      true).isPair = false := by
  by_contra h
  have hsame := single_use_of_upToDate oneSession "refresh" registerAndLogin oneAfterTheOther
    (by decide +kernel) false true (by decide +kernel) (by simpa using h)
  cases hsame

end CampusHire.RefreshRotation
