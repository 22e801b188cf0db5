import CampusHire.AuthDeps
import CampusHire.AuthService
import CampusHire.Revocation

/-!
# Where accepted identities come from

One key signs access tokens and refresh tokens, and three decoders each check a
part of what is in them.  `Stored` links them: every call of `issue_tokens` was
for a user that is stored, and users are never changed.  A token that verifies
carries the claims of such a call (`Genuine`, which is what the signature is
for), so its `type` tells which of the two tokens of the call it is, and its
`sub` and `role` are the user's.
-/

namespace CampusHire.Sessions

open CampusHire AuthService Revocation
open CampusHire.AuthDeps (Environ decodeAccessToken decodeAccessToken_eq_some)

/-! ## Users and issues -/

/-- User ids are unique, and every call of `issue_tokens` was for a stored user. -/
structure Stored (s : State) : Prop where
  ids : (s.users.map User.id).Nodup
  issued : ∀ i ∈ s.issued, i.user ∈ s.users

theorem stored_empty : Stored State.empty where
  ids := List.nodup_nil
  issued := by simp [State.empty]

theorem Stored.congr {s t : State} (h : Stored s) (husers : t.users = s.users)
    (hissued : t.issued = s.issued) : Stored t :=
  ⟨husers ▸ h.ids, by rw [husers, hissued]; exact h.issued⟩

section Runs

variable (d : Deployment)

theorem insertUser_ok {s t : State} {env : Env} {user : User} (h : insertUser s env user = .ok t) :
    Table.insertRow User.id user s.users = some t.users ∧ t.refreshTokens = s.refreshTokens ∧
      t.issued = s.issued := by
  unfold insertUser at h
  split at h
  · cases h
  split at h
  · rename_i users _ hid _
    split at h
    · split at h
      · cases h
        exact ⟨hid, rfl, rfl⟩
      · cases h
    · cases h
      exact ⟨hid, rfl, rfl⟩
  · cases h

theorem stored_insertUser {s t : State} {env : Env} {user : User} (h : Stored s)
    (hins : insertUser s env user = .ok t) : Stored t := by
  obtain ⟨hid, -, hissued⟩ := insertUser_ok hins
  obtain ⟨hfresh, hadded⟩ := Table.insertRow_eq_some.mp hid
  constructor
  · rw [hadded]
    exact Table.nodup_append_fresh h.ids hfresh
  · intro i hi
    rw [hissued] at hi
    rw [hadded]
    exact List.mem_append_left _ (h.issued i hi)

/-- A call of `issue_tokens` is recorded whether its commit succeeds or not. -/
theorem issueTokens_state (s : State) (env : Env) (user : User) :
    (issueTokens d s env user).1.users = s.users ∧
      (issueTokens d s env user).1.issued = s.issued ++ [⟨user, env.refreshJti, env.clock⟩] := by
  simp only [issueTokens]
  split
  · exact ⟨rfl, rfl⟩
  · split <;> exact ⟨rfl, rfl⟩

theorem issueTokens_ok {s : State} {env : Env} {user : User} {pair : String × String}
    (h : (issueTokens d s env user).2 = .ok pair) :
    pair = tokenPair d ⟨user, env.refreshJti, env.clock⟩ := by
  simp only [issueTokens] at h
  split at h
  · cases h
  · split at h
    · cases h
      rfl
    · cases h

theorem stored_issueTokens {s : State} (env : Env) {user : User} (h : Stored s)
    (huser : user ∈ s.users) : Stored (issueTokens d s env user).1 := by
  obtain ⟨husers, hissued⟩ := issueTokens_state d s env user
  refine ⟨husers ▸ h.ids, ?_⟩
  rw [husers, hissued]
  intro i hi
  rcases List.mem_append.mp hi with hi | hi
  · exact h.issued i hi
  · rw [List.mem_singleton.mp hi]
    exact huser

theorem tokenUser_ok {s : State} {payload : Payload} {user : User}
    (h : tokenUser s payload = .ok user) :
    ∃ id, payload.sub.bind UUID.parse = some id ∧ Table.lookup User.id id s.users = some user := by
  unfold tokenUser at h
  split at h
  · cases h
  split at h
  · cases h
  split at h
  · cases h
  rename_i sub hsub _ id hid _ found hfound
  cases h
  exact ⟨id, by rw [hsub]; exact hid, hfound⟩

/-- What `refresh_session` does: nothing, or it revokes the record and, unless the
    reload fails, issues tokens to the user that the token names. -/
theorem refreshSession_cases (s : State) (env : Env) (token : String) :
    (∃ e, refreshSession d s env token = (s, .error e)) ∨
    ∃ payload jti record user, refreshJti d env.clock token = .ok (payload, jti) ∧
      liveRecord s env.clock jti = .ok record ∧ tokenUser s payload = .ok user ∧
      ((env.fails .reload = true ∧
          refreshSession d s env token = (revokeRecord s record, .error .database)) ∨
        refreshSession d s env token = issueTokens d (revokeRecord s record) env user) := by
  unfold refreshSession
  rcases hjti : refreshJti d env.clock token with e | ⟨payload, jti⟩
  · exact Or.inl ⟨e, rfl⟩
  dsimp only
  split
  · exact Or.inl ⟨_, rfl⟩
  rcases hrecord : liveRecord s env.clock jti with e | record
  · exact Or.inl ⟨e, rfl⟩
  rcases huser : tokenUser s payload with e | user
  · exact Or.inl ⟨e, rfl⟩
  dsimp only
  split
  · exact Or.inl ⟨_, rfl⟩
  · refine Or.inr ⟨payload, jti, record, user, rfl, hrecord, huser, ?_⟩
    split
    · rename_i hreload
      exact Or.inl ⟨hreload, rfl⟩
    · exact Or.inr rfl

theorem stored_refreshSession {s : State} (env : Env) (token : String) (h : Stored s) :
    Stored (refreshSession d s env token).1 := by
  rcases refreshSession_cases d s env token with ⟨e, heq⟩ |
    ⟨payload, jti, record, user, -, -, huser, ⟨-, heq⟩ | heq⟩
  · rw [heq]
    exact h
  · rw [heq]
    exact h.congr rfl rfl
  · obtain ⟨id, -, hfound⟩ := tokenUser_ok huser
    rw [heq]
    exact stored_issueTokens d env (h.congr rfl rfl) (Table.mem_of_lookup hfound)

theorem findRecord_revokeRecord (s : State) (record : RefreshToken) (jti : String) :
    findRecord (revokeRecord s record) jti = (findRecord s jti).map fun r =>
      if r.id = record.id then { r with revoked := true } else r :=
  Table.lookup_modify_column (f := fun r : RefreshToken => { r with revoked := true })
    (fun _ => rfl) s.refreshTokens

/-- A revocation writes the flag only. -/
theorem map_revokeRecord {α : Type} {g : RefreshToken → α}
    (hg : ∀ r, g { r with revoked := true } = g r) (s : State) (record : RefreshToken) :
    (revokeRecord s record).refreshTokens.map g = s.refreshTokens.map g :=
  Table.map_modify (f := fun r : RefreshToken => { r with revoked := true }) hg s.refreshTokens

/-- A revocation writes the records only. -/
theorem revokeRefreshToken_state (s : State) (env : Env) (token : Option String) :
    (revokeRefreshToken d s env token).1.users = s.users ∧
      (revokeRefreshToken d s env token).1.issued = s.issued ∧
      (revokeRefreshToken d s env token).1.redis = s.redis := by
  unfold revokeRefreshToken
  repeat' split
  all_goals exact ⟨rfl, rfl, rfl⟩

theorem authenticate_ok {s : State} {env : Env} {email password : String} {user : User}
    (h : authenticate d s env email password = .ok user) :
    user ∈ s.users ∧ user.isActive = true := by
  unfold authenticate at h
  split at h
  · cases h
  split at h
  · cases h
  rename_i found hfound
  split at h
  · split at h
    · rename_i hactive
      cases h
      exact ⟨Table.mem_of_lookup hfound, hactive⟩
    · cases h
  · cases h

theorem stored_handle {s : State} (h : Stored s) (handled : Handled) :
    Stored (handle d s handled) := by
  obtain ⟨request, env⟩ := handled
  cases request with
  | register data =>
    simp only [handle, serve, registerUser]
    split
    · exact h
    split
    · exact h
    split
    · exact h
    · rename_i t hins
      exact stored_insertUser h hins
  | login email password =>
    simp only [handle, serve]
    split
    · exact h
    · rename_i user huser
      exact stored_issueTokens d env h (authenticate_ok d huser).1
  | refresh cookies =>
    simp only [handle, serve]
    split
    · exact h
    split
    · exact h
    · exact stored_refreshSession d env _ h
  | logout authorization cookies =>
    simp only [handle, serve]
    obtain ⟨husers, hissued, -⟩ := revokeRefreshToken_state d _ env _
    exact h.congr husers hissued

theorem stored_execute (run : List Handled) : Stored (execute d State.empty run) := by
  suffices ∀ s, Stored s → Stored (execute d s run) from this _ stored_empty
  induction run with
  | nil =>
    intro s h
    exact h
  | cons handled rest ih =>
    intro s h
    exact ih _ (stored_handle d h handled)

/-! ## Tokens -/

/-- The signature is what makes a token genuine: what it carries was signed by a call
    of `issue_tokens`. -/
def Genuine (s : State) (token : String) : Prop :=
  ∀ claims, d.jose.verify token d.settings.jwtSecretKey d.settings.jwtAlgorithm = some claims →
    ∃ i ∈ s.issued, claims = i.accessClaims d ∨ claims = i.refreshClaims d

/-- The services read the same key and algorithm as the identity service. -/
def SharesKey (environ : Environ) : Prop :=
  environ.jwtSecretKey = d.settings.jwtSecretKey ∧ environ.jwtAlgorithm = d.settings.jwtAlgorithm

/-- One of the two validators takes the token for an identity. -/
def Accepted (environ : Environ) (redis : List RedisEntry) (now : Time) (token : String)
    (user : CurrentUser) : Prop :=
  (∃ authorization cookieToken, extractAccessToken authorization cookieToken = .ok token ∧
    validateToken d redis now authorization cookieToken = .ok user) ∨
  decodeAccessToken d.jose environ now (some token) = some user

variable {d}

theorem accepted_claims {environ : Environ} {redis : List RedisEntry} {now : Time}
    {token : String} {user : CurrentUser} (hshared : SharesKey d environ)
    (h : Accepted d environ redis now token user) :
    ∃ claims, d.decode token now = some claims ∧ claims.type = some "access" ∧
      claims.sub.bind UUID.parse = some user.id ∧
      claims.role.bind UserRole.ofValue = some user.role := by
  rcases h with ⟨authorization, cookieToken, hextract, hok⟩ | hok
  · exact ((validateToken_eq_ok hextract).mp hok).2
  · obtain ⟨claims, hdecode, hrest⟩ := decodeAccessToken_eq_some hok
    rw [hshared.1, hshared.2] at hdecode
    exact ⟨claims, hdecode, hrest⟩

theorem refreshJti_ok {now : Time} {token jti : String} {payload : Payload}
    (h : refreshJti d now token = .ok (payload, jti)) :
    d.decode token now = some payload ∧ payload.type = some "refresh" ∧
      payload.jti = some jti ∧ jti ≠ "" := by
  unfold refreshJti at h
  split at h
  · cases h
  rename_i found hfound
  split at h
  · cases h
  rename_i htype
  split at h
  · cases h
  rename_i found' hjti
  split at h
  · cases h
  · rename_i hne
    cases h
    exact ⟨hfound, not_not.mp htype, hjti, hne⟩

theorem liveRecord_ok {s : State} {now : Time} {jti : String} {record : RefreshToken}
    (h : liveRecord s now jti = .ok record) :
    findRecord s jti = some record ∧ record.revoked = false := by
  unfold liveRecord at h
  split at h
  · cases h
  · rename_i found hfound
    split at h
    · cases h
    · rename_i hlive
      cases h
      simp only [Bool.or_eq_true, not_or, Bool.not_eq_true] at hlive
      exact ⟨hfound, hlive.1⟩

theorem accepted_was_issued {environ : Environ} {s : State} {redis : List RedisEntry} {now : Time}
    {token : String} {user : CurrentUser} (hshared : SharesKey d environ) (hs : Stored s)
    (hgenuine : Genuine d s token) (h : Accepted d environ redis now token user) :
    ∃ i ∈ s.issued, i.user ∈ s.users ∧ i.user.id = user.id ∧ i.user.role = user.role ∧
      d.jose.verify token d.settings.jwtSecretKey d.settings.jwtAlgorithm =
        some (i.accessClaims d) ∧
      ∀ exp, (i.accessClaims d).exp = some exp → ⌊now⌋ ≤ exp := by
  obtain ⟨claims, hdecode, htype, hsub, hrole⟩ := accepted_claims hshared h
  obtain ⟨hverify, hlive⟩ := Jose.decode_eq_some.mp hdecode
  obtain ⟨i, hi, rfl | rfl⟩ := hgenuine claims hverify
  · refine ⟨i, hi, hs.issued i hi, ?_, ?_, hverify, Jose.expired_eq_false.mp hlive⟩
    · simpa [Issue.accessClaims, accessClaims] using hsub
    · simpa [Issue.accessClaims, accessClaims] using hrole
  · simp [Issue.refreshClaims, refreshClaims] at htype

/-- The `type` of a refresh token keeps it out of both validators. -/
theorem refresh_token_not_accepted {environ : Environ} (hjose : d.jose.ReturnsEncoded)
    (hshared : SharesKey d environ) (userId role tokenId : String) (expireDays : Int) (t now : Time)
    (redis : List RedisEntry) (user : CurrentUser) :
    ¬ Accepted d environ redis now (createRefreshToken d.jose userId role tokenId
      d.settings.jwtSecretKey d.settings.jwtAlgorithm expireDays t) user := by
  intro h
  obtain ⟨claims, hdecode, htype, -⟩ := accepted_claims hshared h
  have hclaims := hjose _ _ _ _ (Jose.decode_eq_some.mp hdecode).1
  rw [hclaims] at htype
  simp [refreshClaims] at htype

/-- The `type` of an access token keeps it out of `refresh_session`. -/
theorem access_token_not_refreshed (hjose : d.jose.ReturnsEncoded) (userId role : String)
    (expireMinutes : Int) (t : Time) (s : State) (env : Env) (pair : String × String) :
    (refreshSession d s env (createAccessToken d.jose userId role d.settings.jwtSecretKey
      d.settings.jwtAlgorithm expireMinutes t)).2 ≠ .ok pair := by
  intro h
  rcases refreshSession_cases d s env _ with ⟨e, heq⟩ | ⟨payload, jti, record, user, hjti, -⟩
  · rw [heq] at h
    cases h
  · obtain ⟨hdecode, htype, -⟩ := refreshJti_ok hjti
    have hclaims := hjose _ _ _ _ (Jose.decode_eq_some.mp hdecode).1
    rw [hclaims] at htype
    simp [accessClaims] at htype

theorem refresh_keeps_user {s : State} {env : Env} {token : String} {pair : String × String}
    (hs : Stored s) (hgenuine : Genuine d s token)
    (h : (refreshSession d s env token).2 = .ok pair) :
    ∃ i ∈ s.issued, i.user ∈ s.users ∧
      d.jose.verify token d.settings.jwtSecretKey d.settings.jwtAlgorithm =
        some (i.refreshClaims d) ∧
      pair = tokenPair d ⟨i.user, env.refreshJti, env.clock⟩ := by
  rcases refreshSession_cases d s env token with ⟨e, heq⟩ |
    ⟨payload, jti, record, user, hjti, -, huser, ⟨-, heq⟩ | heq⟩
  · rw [heq] at h
    cases h
  · rw [heq] at h
    cases h
  obtain ⟨hdecode, htype, -⟩ := refreshJti_ok hjti
  obtain ⟨hverify, -⟩ := Jose.decode_eq_some.mp hdecode
  obtain ⟨i, hi, rfl | rfl⟩ := hgenuine payload hverify
  · simp [Issue.accessClaims, accessClaims] at htype
  · obtain ⟨id, hsub, hfound⟩ := tokenUser_ok huser
    -- the stored user with the id of the token is the user of the issue
    have hid : i.user.id = id := by
      simpa [Issue.refreshClaims, refreshClaims] using hsub
    have hsame : user = i.user := by
      have hlookup := Table.lookup_of_mem hs.ids (hs.issued i hi)
      rw [hid, hfound] at hlookup
      exact Option.some.inj hlookup
    rw [heq] at h
    exact ⟨i, hi, hs.issued i hi, hverify, hsame ▸ issueTokens_ok d h⟩

variable (d)

/-- **Every accepted identity was issued, and the two kinds of token never mix.** -/
theorem identities_were_issued (environ : Environ) (hjose : d.jose.ReturnsEncoded)
    (hshared : SharesKey d environ) (run : List Handled) :
    (∀ token now user, Genuine d (execute d State.empty run) token →
      Accepted d environ (execute d State.empty run).redis now token user →
      ∃ i ∈ (execute d State.empty run).issued, i.user ∈ (execute d State.empty run).users ∧
        i.user.id = user.id ∧ i.user.role = user.role ∧
        d.jose.verify token d.settings.jwtSecretKey d.settings.jwtAlgorithm =
          some (i.accessClaims d) ∧
        ∀ exp, (i.accessClaims d).exp = some exp → ⌊now⌋ ≤ exp) ∧
    (∀ userId role tokenId expireDays t now user,
      ¬ Accepted d environ (execute d State.empty run).redis now
        (createRefreshToken d.jose userId role tokenId d.settings.jwtSecretKey
          d.settings.jwtAlgorithm expireDays t) user) ∧
    (∀ userId role expireMinutes t env pair,
      (refreshSession d (execute d State.empty run) env
        (createAccessToken d.jose userId role d.settings.jwtSecretKey d.settings.jwtAlgorithm
          expireMinutes t)).2 ≠ .ok pair) ∧
    (∀ token env pair, Genuine d (execute d State.empty run) token →
      (refreshSession d (execute d State.empty run) env token).2 = .ok pair →
      ∃ i ∈ (execute d State.empty run).issued, i.user ∈ (execute d State.empty run).users ∧
        d.jose.verify token d.settings.jwtSecretKey d.settings.jwtAlgorithm =
          some (i.refreshClaims d) ∧
        pair = tokenPair d ⟨i.user, env.refreshJti, env.clock⟩) := by
  have hs := stored_execute d run
  refine ⟨?_, ?_, ?_, ?_⟩
  · intro token now user hgenuine h
    exact accepted_was_issued hshared hs hgenuine h
  · intro userId role tokenId expireDays t now user
    exact refresh_token_not_accepted hjose hshared userId role tokenId expireDays t now _ user
  · intro userId role expireMinutes t env pair
    exact access_token_not_refreshed hjose userId role expireMinutes t _ env pair
  · intro token env pair hgenuine h
    exact refresh_keeps_user hs hgenuine h

end Runs

/-! ## A session -/

/-- A deployment whose jose knows the two tokens of one session. -/
def oneSession : Deployment where
  jose := .ofTable [("access", accessClaims (UUID.ofNat 1).str "student" 15 0),
    ("refresh", refreshClaims (UUID.ofNat 1).str "student" (UUID.ofNat 2).str 7 0)]
  pwdContext := ⟨fun _ password => password, fun password hash => decide (password = hash)⟩
  settings := { jwtSecretKey := "secret" }

def registerAndLogin : List Handled :=
  [⟨.register { email := "s@campus", password := "password" }, .untroubled (.ofNat 1) 0⟩,
    ⟨.login "s@campus" "password", .untroubled (.ofNat 2) 0⟩]

theorem registerAndLogin_issued :
    (execute oneSession State.empty registerAndLogin).issued =
      [⟨⟨.ofNat 1, "s@campus", "password", .student, true⟩, .ofNat 2, 0⟩] := by rfl

theorem oneSession_genuine :
    Genuine oneSession (execute oneSession State.empty registerAndLogin) "access" := by
  intro claims hverify
  rw [registerAndLogin_issued]
  exact ⟨_, List.mem_singleton.mpr rfl, Or.inl (Option.some.inj hverify).symm⟩

/-- The access token of the session is accepted in its last second, and was issued to
    the student. -/
theorem oneSession_accepted :
    ∃ i ∈ (execute oneSession State.empty registerAndLogin).issued,
      i.user ∈ (execute oneSession State.empty registerAndLogin).users ∧
      i.user.id = .ofNat 1 ∧ i.user.role = .student ∧
      oneSession.jose.verify "access" oneSession.settings.jwtSecretKey
        oneSession.settings.jwtAlgorithm = some (i.accessClaims oneSession) ∧
      ∀ exp, (i.accessClaims oneSession).exp = some exp → ⌊(900.5 : ℚ)⌋ ≤ exp :=
  (identities_were_issued oneSession { jwtSecretKey := "secret" }
    (Jose.returnsEncoded_ofTable (by decide +kernel) (by decide +kernel)) ⟨rfl, rfl⟩
    registerAndLogin).1 "access" 900.5 ⟨.ofNat 1, .student⟩ oneSession_genuine
    (Or.inl ⟨none, some "access", by decide +kernel, by decide +kernel⟩)

end CampusHire.Sessions
