import CampusHire.Perimeter
import CampusHire.SerialRun
import CampusHire.WithdrawalFinality

/-!
# Who did it

Whatever the services keep goes back to a request that came in over HTTP, and the request to
somebody: it carried an access token of a pair that was issued to the user in whose name the
handler has run, and that user had logged in with the password of a registered account
(`SignedBy`).  The rows of applications, queries and registrations name that user.

This rests on one assumption: a token that verifies was signed by the identity service
(`Unforged`).
-/

namespace CampusHire.Accountability

open CampusHire AuthService Gateway GatewayIdentity Schemas PublicApi Perimeter SerialRun
open CampusHire.Sessions (Stored Genuine)
open CampusHire.FileUploads (Disk)

section Site

variable (site : Site)

/-- The tokens that a request presents. -/
def presented (r : HttpRequest) : List String :=
  ((r.header "authorization").bind bearerToken).toList ++
    (r.cookies.lookup site.deployment.settings.accessTokenCookieName).toList ++
    (r.cookies.lookup site.deployment.settings.refreshTokenCookieName).toList

def Unforged (store : Store) : Event → Prop
  | .http r _ _ => ∀ token ∈ presented site r, Genuine site.deployment store.identity token
  | _ => True

variable (files : FileService → Disk)

/-- The state after a run that starts with empty tables. -/
def after (run : List Event) : Store := run.foldl (step site) (Store.fresh files)

def UnforgedRun (run : List Event) : Prop :=
  EveryStep (step site) (Unforged site) (Store.fresh files) run

/-! ## Accounts -/

/-- The request creates the account. -/
def Registers (u : User) (past : List Event) (e : Event) : Prop :=
  ∃ r body env data, e = .http r body env ∧
    called site (after site files past).identity.redis env.clock r body =
      .ok (.anyone (.identity (.register data))) ∧
    u = ⟨env.identity.userId, data.email,
      site.deployment.pwdContext.hash env.identity.salt data.password, data.role, true⟩

/-- The request gives the password of the account. -/
def LogsIn (u : User) (past : List Event) (e : Event) : Prop :=
  ∃ r body env password, e = .http r body env ∧
    called site (after site files past).identity.redis env.clock r body =
      .ok (.anyone (.identity (.login u.email password))) ∧
    u ∈ (after site files past).identity.users ∧ u.isActive = true ∧
    site.deployment.pwdContext.verify password u.passwordHash = true

end Site

theorem authenticate_verified {d : Deployment} {s : AuthService.State} {env : AuthService.Env}
    {email password : String} {user : User} (h : authenticate d s env email password = .ok user) :
    user ∈ s.users ∧ user.isActive = true ∧ user.email = email ∧
      d.pwdContext.verify password user.passwordHash = true := by
  obtain ⟨hmem, hactive⟩ := Sessions.authenticate_ok d h
  unfold authenticate at h
  split at h
  · cases h
  split at h
  · cases h
  rename_i found hfound
  split at h
  · rename_i hverify
    split at h
    · cases h
      exact ⟨hmem, hactive, Table.key_of_lookup hfound, hverify⟩
    · cases h
  · cases h

/-- A pair of tokens is issued to somebody who logs in, or to somebody who had one before. -/
theorem issued_serve {d : Deployment} {s : AuthService.State} {env : AuthService.Env}
    {request : AuthService.Request} {i : Issue} (hs : Stored s)
    (hgenuine : ∀ cookies token, request = .refresh cookies →
      cookies.lookup d.settings.refreshTokenCookieName = some token → Genuine d s token)
    (h : i ∈ (serve d s env request).1.issued) :
    (∃ i' ∈ s.issued, i'.user = i.user) ∨
      ∃ email password, request = .login email password ∧
        authenticate d s env email password = .ok i.user := by
  cases request with
  | register data =>
    simp only [serve, registerUser] at h
    split at h
    · exact Or.inl ⟨i, h, rfl⟩
    split at h
    · exact Or.inl ⟨i, h, rfl⟩
    split at h
    · exact Or.inl ⟨i, h, rfl⟩
    · rename_i hins
      rw [(Sessions.insertUser_ok hins).2.2] at h
      exact Or.inl ⟨i, h, rfl⟩
  | login email password =>
    simp only [serve] at h
    split at h
    · exact Or.inl ⟨i, h, rfl⟩
    · rename_i user hauth
      rw [(Sessions.issueTokens_state d s env user).2] at h
      rcases List.mem_append.mp h with hold | hnew
      · exact Or.inl ⟨i, hold, rfl⟩
      · rw [List.mem_singleton.mp hnew]
        exact Or.inr ⟨email, password, rfl, hauth⟩
  | refresh cookies =>
    left
    simp only [serve] at h
    split at h
    · exact ⟨i, h, rfl⟩
    rename_i token hcookie
    split at h
    · exact ⟨i, h, rfl⟩
    rcases Sessions.refreshSession_cases d s env token with ⟨e, heq⟩ |
      ⟨payload, jti, record, user, hjti, -, huser, ⟨-, heq⟩ | heq⟩
    · rw [heq] at h
      exact ⟨i, h, rfl⟩
    · rw [heq] at h
      exact ⟨i, h, rfl⟩
    rw [heq, (Sessions.issueTokens_state d _ env user).2] at h
    rcases List.mem_append.mp h with hold | hnew
    · exact ⟨i, hold, rfl⟩
    · -- the token names the user of the pair that it belongs to
      rw [List.mem_singleton.mp hnew]
      obtain ⟨hdecode, htype, -⟩ := Sessions.refreshJti_ok hjti
      obtain ⟨hverify, -⟩ := Jose.decode_eq_some.mp hdecode
      obtain ⟨i', hi', rfl | rfl⟩ := hgenuine cookies token rfl hcookie payload hverify
      · simp [Issue.accessClaims, accessClaims] at htype
      · obtain ⟨id, hsub, hfound⟩ := Sessions.tokenUser_ok huser
        have hid : i'.user.id = id := by
          simpa [Issue.refreshClaims, refreshClaims] using hsub
        have hlookup := Table.lookup_of_mem hs.ids (hs.issued i' hi')
        rw [hid, hfound] at hlookup
        exact ⟨i', hi', (Option.some.inj hlookup).symm⟩
  | logout authorization cookies =>
    simp only [serve] at h
    rw [(Sessions.revokeRefreshToken_state d _ env _).2.1] at h
    exact Or.inl ⟨i, h, rfl⟩

/-- An account is there from before, or a registration creates it. -/
theorem users_serve {d : Deployment} {s : AuthService.State} {env : AuthService.Env}
    {request : AuthService.Request} {u : User} (h : u ∈ (serve d s env request).1.users) :
    u ∈ s.users ∨ ∃ data, request = .register data ∧
      u = ⟨env.userId, data.email, d.pwdContext.hash env.salt data.password, data.role, true⟩ := by
  cases request with
  | register data =>
    simp only [serve, registerUser] at h
    split at h
    · exact Or.inl h
    split at h
    · exact Or.inl h
    split at h
    · exact Or.inl h
    · rename_i t hins
      rw [(Table.insertRow_eq_some.mp (Sessions.insertUser_ok hins).1).2] at h
      rcases List.mem_append.mp h with hold | hnew
      · exact Or.inl hold
      · exact Or.inr ⟨data, rfl, List.mem_singleton.mp hnew⟩
  | login email password =>
    simp only [serve] at h
    split at h
    · exact Or.inl h
    · rw [(Sessions.issueTokens_state d s env _).1] at h
      exact Or.inl h
  | refresh cookies =>
    simp only [serve] at h
    split at h
    · exact Or.inl h
    split at h
    · exact Or.inl h
    rename_i token _ _
    rcases Sessions.refreshSession_cases d s env token with ⟨e, heq⟩ |
      ⟨payload, jti, record, user, -, -, -, ⟨-, heq⟩ | heq⟩
    · rw [heq] at h
      exact Or.inl h
    · rw [heq] at h
      exact Or.inl h
    · rw [heq, (Sessions.issueTokens_state d _ env user).1] at h
      exact Or.inl h
  | logout authorization cookies =>
    simp only [serve] at h
    rw [(Sessions.revokeRefreshToken_state d _ env _).1] at h
    exact Or.inl h

/-- Profiles are no part of an account. -/
theorem accounts_getOrCreateProfile (s : AuthService.State) (env : AuthService.Env) (user : User) :
    (Profiles.getOrCreateProfile s env user).1.users = s.users ∧
      (Profiles.getOrCreateProfile s env user).1.issued = s.issued := by
  unfold Profiles.getOrCreateProfile
  split
  · exact ⟨rfl, rfl⟩
  split
  · exact ⟨rfl, rfl⟩
  split
  · exact ⟨rfl, rfl⟩
  split
  · exact ⟨rfl, rfl⟩
  · rename_i t hstore
    unfold Profiles.storeProfile at hstore
    split at hstore
    · cases hstore
      exact ⟨rfl, rfl⟩
    · cases hstore

theorem accounts_getProfile (s : AuthService.State) (env : AuthService.Env) (userId : UUID) :
    (Profiles.getProfile s env userId).1.users = s.users ∧
      (Profiles.getProfile s env userId).1.issued = s.issued := by
  unfold Profiles.getProfile
  split
  · exact ⟨rfl, rfl⟩
  · exact ⟨rfl, rfl⟩
  · exact accounts_getOrCreateProfile s env _

theorem accounts_putProfile (s : AuthService.State) (env : AuthService.Env) (user : CurrentUser)
    (data : Profiles.ProfileUpdate) :
    (Profiles.putProfile s env user data).1.users = s.users ∧
      (Profiles.putProfile s env user data).1.issued = s.issued := by
  unfold Profiles.putProfile
  split
  · exact ⟨rfl, rfl⟩
  split
  · exact ⟨rfl, rfl⟩
  · exact ⟨rfl, rfl⟩
  rename_i dbUser _
  have hsame := accounts_getOrCreateProfile s env dbUser
  unfold Profiles.updateProfile
  split
  · rename_i heq
    rw [heq] at hsame
    exact hsame
  rename_i heq
  rw [heq] at hsame
  split
  · exact hsame
  · exact hsame

/-! ## The part of the gateway -/

section Site

variable {site : Site}

/-- A handler of `refresh` reads the cookies of the request. -/
def ReadsCookies : Handler → Prop
  | .anyone call => ∀ r params body cookies,
      call r params body = some (.identity (.refresh cookies)) → cookies = r.cookies
  | .asks _ => True

theorem fileOf_ne_identity (service : FileService) (params : List (List Char))
    (request : AuthService.Request) : fileOf service params ≠ some (.identity request) := by
  intro h
  rcases params with _ | ⟨folder, _ | ⟨filename, _ | ⟨extra, more⟩⟩⟩
  · cases h
  · cases h
  · cases h
  · cases h

theorem readsCookies_of_mem {pydantic : Pydantic} {upstream : Upstream} {e : Endpoint}
    (he : e ∈ endpointsOf pydantic upstream) : ReadsCookies e.handler := by
  -- what is made of a body or of a path is another call
  have hmap : ∀ {α : Type} {value : Option α} {f : α → OpenCall}
      {cookies : List (String × String)}, (∀ a, f a ≠ .identity (.refresh cookies)) →
      value.map f ≠ some (.identity (.refresh cookies)) := by
    intro α value f cookies hf heq
    obtain ⟨a, -, ha⟩ := Option.map_eq_some_iff.mp heq
    exact hf a ha
  cases upstream with
  | identityService =>
    simp only [endpointsOf, identityEndpoints, List.mem_cons, List.not_mem_nil, or_false] at he
    rcases he with rfl | rfl | rfl | rfl | rfl | rfl | rfl | rfl | rfl
    · exact fun _ _ _ _ h => absurd h (hmap (by simp))
    · exact fun _ _ _ _ h => absurd h (hmap (by simp))
    · intro r params body cookies h
      cases h
      rfl
    · exact fun _ _ _ _ h => absurd h (by simp)
    · exact fun _ _ _ _ h => absurd h (by simp)
    · trivial
    · exact fun _ _ _ _ h => absurd h (hmap (by simp))
    · trivial
    · exact fun _ _ _ _ h => absurd h (by simp)
  | opportunityService =>
    simp only [endpointsOf, opportunityEndpoints, List.mem_cons, List.not_mem_nil, or_false] at he
    rcases he with rfl | rfl | rfl | rfl | rfl | rfl | rfl | rfl | rfl | rfl
    · trivial
    · exact fun _ _ _ _ h => absurd h (by simp)
    · exact fun _ _ _ _ h => absurd h (hmap (by simp))
    · trivial
    · trivial
    · trivial
    · trivial
    · trivial
    · exact fun _ _ _ _ h => absurd h (by simp)
    · exact fun _ _ _ _ h => absurd h (fileOf_ne_identity _ _ _)
  | applicationService =>
    simp only [endpointsOf, applicationEndpoints, List.mem_cons, List.not_mem_nil, or_false] at he
    rcases he with rfl | rfl | rfl | rfl | rfl | rfl | rfl | rfl | rfl
    · trivial
    · trivial
    · trivial
    · trivial
    · trivial
    · trivial
    · trivial
    · exact fun _ _ _ _ h => absurd h (by simp)
    · exact fun _ _ _ _ h => absurd h (fileOf_ne_identity _ _ _)
  | communicationsService =>
    simp only [endpointsOf, communicationEndpoints, List.mem_cons, List.not_mem_nil,
      or_false] at he
    rcases he with rfl | rfl | rfl | rfl | rfl | rfl | rfl
    · trivial
    · trivial
    · trivial
    · trivial
    · trivial
    · trivial
    · exact fun _ _ _ _ h => absurd h (by simp)

theorem cookies_of_refresh {redis : List RedisEntry} {now : Time} {r : HttpRequest} {body : Body}
    {cookies : List (String × String)}
    (h : called site redis now r body = .ok (.anyone (.identity (.refresh cookies)))) :
    cookies = r.cookies := by
  obtain ⟨l, upstream, -, ⟨headers, user, -, -, hdispatch⟩ | ⟨headers, -, hdispatch⟩⟩ :=
    called_eq_ok h
  · obtain ⟨e, params, he, -, -, ⟨f, c, hhandler, hc, heq⟩ | ⟨f, _, c, -, -, -, heq⟩⟩ :=
      dispatch_eq_ok hdispatch
    · cases heq
      have hreads := readsCookies_of_mem he
      rw [hhandler] at hreads
      exact hreads (forward r (some user) headers) params body cookies hc
    · cases heq
  · obtain ⟨e, params, he, -, -, ⟨f, c, hhandler, hc, heq⟩ | ⟨f, _, c, -, -, -, heq⟩⟩ :=
      dispatch_eq_ok hdispatch
    · cases heq
      have hreads := readsCookies_of_mem he
      rw [hhandler] at hreads
      exact hreads (forward r none headers) params body cookies hc
    · cases heq

/-! ## Accounts over a run -/

theorem step_http_error {store : Store} {r : HttpRequest} {body : Body} {env : PublicApi.Env}
    {answer : PublicApi.Answer}
    (h : called site store.identity.redis env.clock r body = .error answer) :
    step site store (.http r body env) = store := by
  rw [step, receive, h]

theorem step_http_ok {store : Store} {r : HttpRequest} {body : Body} {env : PublicApi.Env}
    {call : Call} (h : called site store.identity.redis env.clock r body = .ok call) :
    step site store (.http r body env) = (perform site store env call).1 := by
  rw [step, receive, h]

/-- **What a step does to the accounts**: nothing, or a request of the identity service. -/
theorem identity_step (site : Site) (store : Store) (e : Event) :
    ((step site store e).identity.users = store.identity.users ∧
        (step site store e).identity.issued = store.identity.issued) ∨
      ∃ r body env request, e = .http r body env ∧
        called site store.identity.redis env.clock r body =
          .ok (.anyone (.identity request)) ∧
        (step site store e).identity =
          (serve site.deployment store.identity env.identity request).1 := by
  cases e with
  | consume message env => exact Or.inl ⟨rfl, rfl⟩
  | processDeadlines env => exact Or.inl ⟨rfl, rfl⟩
  | http r body env =>
    rcases hcalled : called site store.identity.redis env.clock r body with answer | call
    · rw [step_http_error hcalled]
      exact Or.inl ⟨rfl, rfl⟩
    rw [step_http_ok hcalled]
    rcases call with c | ⟨user, c⟩
    · cases c with
      | identity request =>
        exact Or.inr ⟨r, body, env, request, rfl, hcalled, rfl⟩
      | getProfile userId => exact Or.inl (accounts_getProfile store.identity env.identity userId)
      | _ => exact Or.inl ⟨rfl, rfl⟩
    · cases c with
      | putProfile data => exact Or.inl (accounts_putProfile store.identity env.identity user data)
      | _ => exact Or.inl ⟨rfl, rfl⟩

theorem stored_step {store : Store} (e : Event) (h : Stored store.identity) :
    Stored (step site store e).identity := by
  rcases identity_step site store e with ⟨husers, hissued⟩ |
    ⟨r, body, env, request, -, -, heq⟩
  · exact h.congr husers hissued
  · rw [heq]
    exact Sessions.stored_handle site.deployment h ⟨request, env.identity⟩

variable {files : FileService → Disk} {run : List Event}

theorem stored_after (run : List Event) : Stored (after site files run).identity :=
  (throughout_of_step (P := fun store : Store => Stored store.identity)
    (fun _ e h => stored_step e h) Sessions.stored_empty run).last

/-- Every account was registered. -/
theorem registered {u : User} (h : u ∈ (after site files run).identity.users) :
    Took (Registers site files u) run := by
  refine took_of_new (R := fun store : Store => u ∈ store.identity.users) (P := fun _ => True)
    (G := fun _ _ => True) (fun _ _ _ _ => trivial) ?_ trivial (by simp [Store.fresh,
      AuthService.State.empty]) (everyStep_of_forall fun _ _ => trivial) h
  rintro past e - - - hu
  rcases identity_step site (past.foldl (step site) (Store.fresh files)) e with
    ⟨husers, -⟩ | ⟨r, body, env, request, rfl, hcalled, heq⟩
  · rw [husers] at hu
    exact Or.inl hu
  · rw [heq] at hu
    rcases users_serve hu with hold | ⟨data, rfl, hnew⟩
    · exact Or.inl hold
    · exact Or.inr ⟨r, body, env, data, rfl, hcalled, hnew⟩

/-- Every pair of tokens goes back to somebody who gave the password of the account. -/
theorem loggedIn {i : Issue} (hrun : UnforgedRun site files run)
    (h : i ∈ (after site files run).identity.issued) : Took (LogsIn site files i.user) run := by
  refine took_of_new (R := fun store : Store => ∃ i' ∈ store.identity.issued, i'.user = i.user)
    (P := fun store => Stored store.identity) (G := Unforged site)
    (fun _ e hs _ => stored_step e hs) ?_ Sessions.stored_empty ?_ hrun ⟨i, h, rfl⟩
  · rintro past e hs - hunforged ⟨i', hi', huser⟩
    rcases identity_step site (past.foldl (step site) (Store.fresh files)) e with
      ⟨-, hissued⟩ | ⟨r, body, env, request, rfl, hcalled, heq⟩
    · rw [hissued] at hi'
      exact Or.inl ⟨i', hi', huser⟩
    rw [heq] at hi'
    have hgenuine : ∀ cookies token, request = .refresh cookies →
        cookies.lookup site.deployment.settings.refreshTokenCookieName = some token →
        Genuine site.deployment (past.foldl (step site) (Store.fresh files)).identity token := by
      rintro cookies token rfl hcookie
      rw [cookies_of_refresh hcalled] at hcookie
      exact hunforged token (List.mem_append_right _ (by simp [hcookie]))
    rcases issued_serve hs hgenuine hi' with ⟨i'', hi'', hsame⟩ | ⟨email, password, rfl, hauth⟩
    · exact Or.inl ⟨i'', hi'', hsame.trans huser⟩
    · rw [huser] at hauth
      obtain ⟨hmem, hactive, hemail, hverify⟩ := authenticate_verified hauth
      subst hemail
      exact Or.inr ⟨r, body, env, password, rfl, hcalled, hmem, hactive, hverify⟩
  · rintro ⟨i', hi', -⟩
    cases hi'

/-! ## Signed calls -/

section Signed

variable (site files)

/-- The request carries the access token of a pair that was issued to the user, neither
    expired nor blacklisted.  The account of the user was registered, and its password given. -/
def SignedBy (past : List Event) (now : Time) (r : HttpRequest) (user : CurrentUser) : Prop :=
  ∃ token i, extractAccessToken (r.header "authorization")
      (r.cookies.lookup site.deployment.settings.accessTokenCookieName) = .ok token ∧
    isTokenBlacklisted (after site files past).identity.redis now token = false ∧
    site.deployment.jose.verify token site.deployment.settings.jwtSecretKey
      site.deployment.settings.jwtAlgorithm = some (i.accessClaims site.deployment) ∧
    (∀ exp, (i.accessClaims site.deployment).exp = some exp → ⌊now⌋ ≤ exp) ∧
    i ∈ (after site files past).identity.issued ∧ i.user.id = user.id ∧ i.user.role = user.role ∧
    Took (Registers site files i.user) past ∧ Took (LogsIn site files i.user) past

/-- The event is a request that the user has signed and that reaches the handler. -/
def SignedCall (past : List Event) (e : Event) (env : PublicApi.Env) (user : CurrentUser)
    (call : UserCall) : Prop :=
  ∃ r body, e = .http r body env ∧
    called site (after site files past).identity.redis env.clock r body = .ok (.user user call) ∧
    SignedBy site files past env.clock r user

end Signed

theorem presented_of_extract {r : HttpRequest} {token : String}
    (h : extractAccessToken (r.header "authorization")
      (r.cookies.lookup site.deployment.settings.accessTokenCookieName) = .ok token) :
    token ∈ presented site r := by
  unfold extractAccessToken at h
  unfold presented
  split at h
  · rename_i found hbearer
    cases h
    rw [hbearer]
    exact List.mem_append_left _ (List.mem_append_left _ (List.mem_singleton.mpr rfl))
  · split at h
    · rename_i found hcookie
      split at h
      · cases h
      · cases h
        rw [hcookie]
        exact List.mem_append_left _ (List.mem_append_right _ (List.mem_singleton.mpr rfl))
    · cases h

/-- **A token that validates is a signature.** -/
theorem signedBy_of_validate {past : List Event} {r : HttpRequest} {body : Body}
    {env : PublicApi.Env} {user : CurrentUser} (hpast : UnforgedRun site files past)
    (hunforged : Unforged site (after site files past) (.http r body env))
    (h : validate site.deployment (after site files past).identity.redis env.clock r =
      .ok user) : SignedBy site files past env.clock r user := by
  rcases hextract : extractAccessToken (r.header "authorization")
    (r.cookies.lookup site.deployment.settings.accessTokenCookieName) with e | token
  · simp only [validate, validateToken, hextract] at h
    cases h
  have hgenuine := hunforged token (presented_of_extract hextract)
  have hlisted := ((Revocation.validateToken_eq_ok hextract).mp h).1
  have hshared : Sessions.SharesKey site.deployment (environOf site.deployment.settings) :=
    ⟨rfl, rfl⟩
  obtain ⟨i, hi, hmem, hid, hrole, hverify, hlive⟩ :=
    Sessions.accepted_was_issued hshared (stored_after past) hgenuine
      (Or.inl ⟨_, _, hextract, h⟩)
  exact ⟨token, i, hextract, hlisted, hverify, hlive, hi, hid, hrole, registered hmem,
    loggedIn hpast hi⟩

/-- A call is signed by the user in whose name it is made, unless it is one of the two that
    believe the request's own credentials, and these are not honest. -/
theorem signedBy_of_called {past : List Event} {r : HttpRequest} {body : Body}
    {env : PublicApi.Env} {user : CurrentUser} {call : UserCall}
    (hpast : UnforgedRun site files past)
    (hunforged : Unforged site (after site files past) (.http r body env))
    (h : called site (after site files past).identity.redis env.clock r body =
      .ok (.user user call))
    (hhonest : Exposed call → Unprotected r →
      Honest site.deployment (after site files past).identity.redis env.clock r) :
    SignedBy site files past env.clock r user := by
  rcases called_cases h with ⟨user', hvalid, ⟨c, hc⟩ | ⟨c, hc⟩⟩ | ⟨c, hc, -⟩ |
    ⟨user', c, hc, hexposed, hun, hcaller⟩
  · cases hc
  · cases hc
    exact signedBy_of_validate hpast hunforged hvalid
  · cases hc
  · cases hc
    exact signedBy_of_validate hpast hunforged
      ((getCurrentUser_authentic_iff site.deployment _ env.clock r).mpr (hhonest hexposed hun)
        user hcaller)

/-- **Origin of a record.**  What is there at the end of a run was brought about by a signed
    call, if only such calls can bring it about. -/
theorem signed_origin {R : Store → Prop} {G : Store → Event → Prop}
    {P : Store → PublicApi.Env → CurrentUser → UserCall → Prop}
    (hunforged : ∀ store e, G store e → Unforged site store e)
    (hstep : ∀ past e, G (after site files past) e → R (step site (after site files past) e) →
      R (after site files past) ∨ ∃ r body env user call, e = .http r body env ∧
        called site (after site files past).identity.redis env.clock r body =
          .ok (.user user call) ∧
        (Exposed call → Unprotected r →
          Honest site.deployment (after site files past).identity.redis env.clock r) ∧
        P (after site files past) env user call)
    (hnew : ¬ R (Store.fresh files)) (hrun : EveryStep (step site) G (Store.fresh files) run)
    (h : R (after site files run)) :
    Took (fun past e => ∃ env user call, SignedCall site files past e env user call ∧
      P (after site files past) env user call) run := by
  refine took_of_new (R := R) (P := fun _ => True) (G := G) (fun _ _ _ _ => trivial) ?_ trivial
    hnew hrun h
  rintro past e - hpast hG hR
  rcases hstep past e hG hR with hold | ⟨r, body, env, user, call, rfl, hcalled, hhonest, hP⟩
  · exact Or.inl hold
  · have hsigned := signedBy_of_called (hpast.mono hunforged) (hunforged _ _ hG) hcalled hhonest
    exact Or.inr ⟨env, user, call, ⟨r, body, rfl, hcalled, hsigned⟩, hP⟩

end Site

/-! ## One user -/

/-- A site whose jose knows the two tokens of one user. -/
def siteOf (role : UserRole) : Site where
  deployment :=
    { jose := .ofTable [("access", accessClaims (UUID.ofNat 1).str role.value 15 0),
        ("refresh", refreshClaims (UUID.ofNat 1).str role.value (UUID.ofNat 2).str 7 0)]
      pwdContext := ⟨fun _ password => password, fun password hash => decide (password = hash)⟩
      settings := { jwtSecretKey := "secret" } }
  pydantic := plainPydantic
  localStoragePath := fun _ => ["storage".toList]

def emptyDisks : FileService → Disk := fun _ _ => none

def post (path : String) (cookies : List (String × String)) : HttpRequest :=
  ⟨"POST", path, [], cookies⟩

def registers (role : UserRole) : Event :=
  .http (post "/api/v1/auth/register" [])
    (.json (.obj [("email", .str "a@campus"), ("password", .str "password"),
      ("role", .str role.value)])) (.untroubled (.ofNat 1))

def logsIn : Event :=
  .http (post "/api/v1/auth/login" [])
    (.json (.obj [("email", .str "a@campus"), ("password", .str "password")]))
    (.untroubled (.ofNat 2))

/-- With the token that the login has issued. -/
def signed (path : String) (body : Json) : Event :=
  .http (post path [("access_token", "access")]) (.json body) (.untroubled (.ofNat 4))

theorem identity_loggedIn (role : UserRole) :
    (after (siteOf role) emptyDisks [registers role, logsIn]).identity.issued =
        [⟨⟨.ofNat 1, "a@campus", "password", role, true⟩, .ofNat 2, 0⟩] ∧
      (after (siteOf role) emptyDisks [registers role, logsIn]).identity.redis = [] := by
  cases role with
  | student => exact ⟨rfl, rfl⟩
  | coordinator => exact ⟨rfl, rfl⟩

theorem records_loggedIn (role : UserRole) :
    (after (siteOf role) emptyDisks [registers role, logsIn]).records = .empty ∧
      (after (siteOf role) emptyDisks [registers role, logsIn]).opportunities = .empty := by
  cases role with
  | student => exact ⟨rfl, rfl⟩
  | coordinator => exact ⟨rfl, rfl⟩

theorem unforged_signed (role : UserRole) (path : String) (body : Json) :
    UnforgedRun (siteOf role) emptyDisks [registers role, logsIn, signed path body] := by
  refine ⟨?_, ?_, ?_, trivial⟩
  · intro token h
    cases h
  · intro token h
    cases h
  · intro token h claims hverify
    obtain rfl : token = "access" := List.mem_singleton.mp h
    refine ⟨⟨⟨.ofNat 1, "a@campus", "password", role, true⟩, .ofNat 2, 0⟩, ?_,
      Or.inl (Option.some.inj hverify).symm⟩
    exact (identity_loggedIn role).1 ▸ List.mem_singleton.mpr rfl

theorem called_signed (role : UserRole) (path : String) (body : Json) {l : Location}
    {upstream : Upstream} (hselect : selectLocation path = some l)
    (htarget : l.target = .proxy upstream true setsIdentity) :
    called (siteOf role) (after (siteOf role) emptyDisks [registers role, logsIn]).identity.redis
        0 (post path [("access_token", "access")]) (.json body) =
      dispatch (siteOf role) 0 upstream (forward (post path [("access_token", "access")])
        (some ⟨.ofNat 1, role⟩) setsIdentity) (.json body) := by
  rw [(identity_loggedIn role).2]
  have hvalidate : validate (siteOf role).deployment [] 0 (post path [("access_token", "access")]) =
      .ok ⟨.ofNat 1, role⟩ := by
    have hplain : validateToken (siteOf role).deployment [] 0 none (some "access") =
        .ok ⟨.ofNat 1, role⟩ := by
      cases role with
      | student => decide +kernel
      | coordinator => decide +kernel
    exact hplain
  have hmethod : (post path [("access_token", "access")]).method ≠ "OPTIONS" := by
    simp [post]
  exact called_of_validate hmethod hselect htarget hvalidate

theorem stepped_signed {role : UserRole} {path : String} {body : Json} {call : Call}
    (h : called (siteOf role) (after (siteOf role) emptyDisks
      [registers role, logsIn]).identity.redis 0 (post path [("access_token", "access")])
      (.json body) = .ok call) :
    after (siteOf role) emptyDisks [registers role, logsIn, signed path body] =
      (perform (siteOf role) (after (siteOf role) emptyDisks [registers role, logsIn])
        (.untroubled (.ofNat 4)) call).1 :=
  step_http_ok h

end CampusHire.Accountability
