import CampusHire.Cookies
import CampusHire.GatewayLogout
import CampusHire.RefreshRotation
import CampusHire.SerialRun
import CampusHire.SessionConservation
import CampusHire.TokenTexts

/-!
# The session of a browser

`_set_auth_cookies` gives the two tokens to the browser, which sends them back with every
request, to the gateway.  The access token has no `Max-Age`, so it is gone when the browser
is closed; the refresh token lives as long as its record does.

What a user can see of a session is who logged in and when the tokens were last set.  This
much (`Session`) decides whether the browser is still signed in.  The gateway names nobody
else to the services (`session_names_iff`), whatever fails and whatever others do.  And a
refresh succeeds exactly for `refresh_token_expire_days` after the last login or refresh
(`session_refreshes_iff`), if nothing fails while the browser's own requests are handled and
nobody else has its token.  The answers that the service gives arrive.
-/

namespace CampusHire.BrowserSession

open CampusHire AuthService Gateway Cookies SerialRun
open CampusHire.GatewayIdentity (lookup_setHeader_other)
open CampusHire.GatewayLogout (logoutRequest gateway_logout)
open CampusHire.Revocation (validateToken_eq_ok)
open CampusHire.SessionConservation (newRecord presented)
open CampusHire.Sessions (Stored stored_handle stored_empty)

/-! ## Cookies of the service -/

/-- The settings of `config.py` that concern cookies only. -/
structure CookieSettings where
  cookieSecure : Bool := false
  cookieSamesite : String := "lax"
  cookieDomain : Option String := none

section Program

variable (d : Deployment) (settings : CookieSettings)

/-- `response.set_cookie(name, value, **cookie_options)` -/
def setCookie (name value : String) (maxAge : Option Int) : SetCookie where
  name := name
  value := value
  maxAge := maxAge
  httpOnly := true
  secure := settings.cookieSecure
  sameSite := settings.cookieSamesite
  domain := settings.cookieDomain
  path := "/"

def setAuthCookies (pair : String × String) : List SetCookie :=
  [setCookie settings d.settings.accessTokenCookieName pair.1 none,
    setCookie settings d.settings.refreshTokenCookieName pair.2
      (some (d.settings.refreshTokenExpireDays * 24 * 60 * 60))]

/-- `delete_cookie` sets an empty cookie with `max_age=0`. -/
def clearAuthCookies : List SetCookie :=
  [setCookie settings d.settings.accessTokenCookieName "" (some 0),
    setCookie settings d.settings.refreshTokenCookieName "" (some 0)]

/-! ## The browser, the gateway and the service -/

inductive Action where
  | login (email password : String)
  | refresh
  | logout

def Action.request (cookies : List (String × String)) : Action → HttpRequest
  | .login _ _ => ⟨"POST", "/api/v1/auth/login", [], cookies⟩
  | .refresh => ⟨"POST", "/api/v1/auth/refresh", [], cookies⟩
  | .logout => logoutRequest [] cookies

/-- The route that the forwarded request reaches. -/
def Action.call (r : HttpRequest) : Action → Request
  | .login email password => .login email password
  | .refresh => .refresh r.cookies
  | .logout => .logout (r.header "authorization") r.cookies

/-- The lines of the answer.  An error has none: its response is another one. -/
def Action.setCookies (answer : Answer) : Action → List SetCookie
  | .logout => clearAuthCookies d settings
  | .login _ _ | .refresh => (answer.cookies.map (setAuthCookies d settings)).getD []

/-- What comes back from the service, if its route returns. -/
def exchange (s : State) (env : Env) (cookies : List (String × String)) (action : Action) :
    State × Option Answer :=
  match gateway d s.redis env.clock (action.request cookies) with
  | .answered _ => (s, none)
  | .forwarded _ r =>
    let served := serve d s env (action.call r)
    (served.1, served.2.toOption)

structure System where
  service : State
  jar : List Cookie

/-- An action of the browser, which gets its answer at the time `received`; the browser is
    closed and opened again; a request of anyone else. -/
inductive Event where
  | browser (action : Action) (env : Env) (received : Time)
  | close
  | other (handled : Handled)

variable (origin : Origin)

/-- The action with the cookies that the browser has for it. -/
def answered (c : System) (env : Env) (action : Action) : State × Option Answer :=
  exchange d c.service env (send c.jar env.clock (action.request []).path) action

def step (c : System) : Event → System
  | .browser action env received =>
    let back := answered d c env action
    { service := back.1
      jar := match back.2 with
        | none => c.jar
        | some answer => origin.receive received c.jar (action.setCookies d settings answer) }
  | .close => { c with jar := close c.jar }
  | .other handled => { c with service := handle d c.service handled }

/-! ## What a user can see of it -/

/-- Who is signed in, when the tokens were last set, and whether the access token is still
    there. -/
structure Session where
  user : User
  since : Time
  access : Bool

/-- What an answer makes of the session. -/
def Action.follow (now : Time) (session : Option Session) (answer : Answer) :
    Action → Option Session
  | .login _ _ => answer.user.map fun user => ⟨user, now, true⟩
  | .refresh => session.map fun old => ⟨old.user, now, true⟩
  | .logout => none

/-- The session goes by what the browser's actions answer. -/
def follow (c : System) (session : Option Session) : Event → Option Session
  | .browser action env _ =>
    match (answered d c env action).2 with
    | none => session
    | some answer => action.follow env.clock session answer
  | .close => session.map fun old => { old with access := false }
  | .other _ => session

/-- The system with the session that it should have. -/
def observe (c : System × Option Session) (event : Event) : System × Option Session :=
  (step d settings origin c.1 event, follow d c.1 c.2 event)

/-- A service and a browser without cookies. -/
def opened : System × Option Session := (⟨State.empty, []⟩, none)

def observed (run : List Event) : System × Option Session :=
  run.foldl (observe d settings origin) opened

end Program

/-! ## What is asked of a run -/

section Conditions

variable (d : Deployment)

/-- The service reads its own tokens back until they expire. -/
structure Readable : Prop where
  access : ∀ i now, d.decode (tokenPair d i).1 now =
    if Jose.expired (i.accessClaims d) now then none else some (i.accessClaims d)
  refresh : ∀ i now, d.decode (tokenPair d i).2 now =
    if Jose.expired (i.refreshClaims d) now then none else some (i.refreshClaims d)
  accessText : ∀ i, (tokenPair d i).1 ≠ ""
  refreshText : ∀ i, (tokenPair d i).2 ≠ ""

/-- The browser takes the cookies, and they are two. -/
structure Fits (settings : CookieSettings) (origin : Origin) : Prop where
  names : d.settings.accessTokenCookieName ≠ d.settings.refreshTokenCookieName
  days : 0 < d.settings.refreshTokenExpireDays
  secure : settings.cookieSecure = true → origin.https = true
  domain : settings.cookieDomain.all (domainMatches origin.host) = true

/-- Nothing fails, and the identifiers are new. -/
structure Untroubled (s : State) (env : Env) : Prop where
  works : ∀ call, env.fails call = false
  id : env.tokenId ∉ s.refreshTokens.map RefreshToken.id
  jti : env.refreshJti.str ∉ s.refreshTokens.map RefreshToken.tokenJti

/-- The request presents no token that has the `jti` of a token in the jar. -/
def Secret (jar : List Cookie) (handled : Handled) : Prop :=
  ∀ token, presented d handled.request = some token →
    ∀ claims, d.decode token handled.env.clock = some claims →
      ∀ cookie ∈ jar, ∀ held t jti, d.decode cookie.value t = some held → held.jti = some jti →
        claims.jti ≠ some jti

def Fine (c : System × Option Session) : Event → Prop
  | .browser _ env received => Untroubled c.1.service env ∧ env.clock ≤ received
  | .close => True
  | .other handled => Secret d c.1.jar handled

end Conditions

/-! ## The record of a session -/

section Records

variable {d : Deployment}

theorem ids_issueTokens {s : State} (env : Env) (user : User)
    (h : (s.refreshTokens.map RefreshToken.id).Nodup) :
    ((issueTokens d s env user).1.refreshTokens.map RefreshToken.id).Nodup := by
  simp only [issueTokens]
  split
  · exact h
  split
  · rename_i records _ hid _
    obtain ⟨hfresh, rfl⟩ := Table.insertRow_eq_some.mp hid
    exact Table.nodup_append_fresh h hfresh
  · exact h

theorem ids_revokeRecord {s : State} (record : RefreshToken)
    (h : (s.refreshTokens.map RefreshToken.id).Nodup) :
    ((revokeRecord s record).refreshTokens.map RefreshToken.id).Nodup := by
  rw [Sessions.map_revokeRecord fun _ => rfl]
  exact h

/-- A logout revokes at most the record that the presented token leads to. -/
theorem revokeRefreshToken_records (s : State) (env : Env) (cookie : Option String) :
    (revokeRefreshToken d s env cookie).1.refreshTokens = s.refreshTokens ∨
    ∃ token claims jti record, SessionConservation.nonEmpty cookie = some token ∧
      d.decode token env.clock = some claims ∧ claims.jti = some jti ∧
      findRecord s jti = some record ∧
      (revokeRefreshToken d s env cookie).1.refreshTokens =
        (revokeRecord s record).refreshTokens := by
  rcases cookie with _ | token
  · exact Or.inl rfl
  simp only [revokeRefreshToken]
  split
  · exact Or.inl rfl
  rename_i hne
  have hpresented : SessionConservation.nonEmpty (some token) = some token := by
    simp [SessionConservation.nonEmpty, hne]
  split
  · exact Or.inl rfl
  rename_i claims hdecode
  split
  · exact Or.inl rfl
  rename_i jti hjti
  split
  · exact Or.inl rfl
  split
  · exact Or.inl rfl
  split
  · exact Or.inl rfl
  rename_i record hfound
  split
  · exact Or.inl rfl
  split
  · exact Or.inl rfl
  · exact Or.inr ⟨token, claims, jti, record, hpresented, hdecode, hjti, hfound, rfl⟩

/-- What a request does to the records, whatever fails: it revokes at most the one that the
    presented token leads to, and adds at most one. -/
theorem handle_records (s : State) (handled : Handled) :
    (∃ t, t.refreshTokens = s.refreshTokens ∧ ((handle d s handled).refreshTokens =
        t.refreshTokens ∨ ∃ user, (handle d s handled).refreshTokens =
          (issueTokens d t handled.env user).1.refreshTokens)) ∨
    ∃ token claims jti record t, presented d handled.request = some token ∧
      d.decode token handled.env.clock = some claims ∧ claims.jti = some jti ∧
      findRecord s jti = some record ∧
      t.refreshTokens = (revokeRecord s record).refreshTokens ∧
      ((handle d s handled).refreshTokens = t.refreshTokens ∨
        ∃ user, (handle d s handled).refreshTokens =
          (issueTokens d t handled.env user).1.refreshTokens) := by
  obtain ⟨request, env⟩ := handled
  cases request with
  | register data =>
    exact Or.inl ⟨s, rfl, Or.inl (SessionConservation.registerUser_records d s env data).1⟩
  | login email password =>
    simp only [handle, serve]
    split
    · exact Or.inl ⟨s, rfl, Or.inl rfl⟩
    · exact Or.inl ⟨s, rfl, Or.inr ⟨_, rfl⟩⟩
  | refresh cookies =>
    rcases hcookie : cookies.lookup d.settings.refreshTokenCookieName with _ | token
    · exact Or.inl ⟨s, rfl, Or.inl (by simp [handle, serve, hcookie])⟩
    by_cases hne : token = ""
    · exact Or.inl ⟨s, rfl, Or.inl (by simp [handle, serve, hcookie, hne])⟩
    have hserve : handle d s ⟨.refresh cookies, env⟩ = (refreshSession d s env token).1 := by
      simp [handle, serve, hcookie, hne]
    have hpresented : presented d (.refresh cookies) = some token := by
      simp [presented, SessionConservation.nonEmpty, hcookie, hne]
    rw [hserve]
    rcases Sessions.refreshSession_cases d s env token with ⟨e, heq⟩ |
      ⟨payload, jti, record, user, hjti, hlive, -, hrest⟩
    · rw [heq]
      exact Or.inl ⟨s, rfl, Or.inl rfl⟩
    · obtain ⟨hdecode, -, hpayload, -⟩ := Sessions.refreshJti_ok hjti
      refine Or.inr ⟨token, payload, jti, record, revokeRecord s record, hpresented, hdecode,
        hpayload, (Sessions.liveRecord_ok hlive).1, rfl, ?_⟩
      rcases hrest with ⟨-, heq⟩ | heq
      · rw [heq]
        exact Or.inl rfl
      · rw [heq]
        exact Or.inr ⟨user, rfl⟩
  | logout authorization cookies =>
    have hlogout : ∃ redis, (handle d s ⟨.logout authorization cookies, env⟩) =
        (revokeRefreshToken d { s with redis := redis } env
          (cookies.lookup d.settings.refreshTokenCookieName)).1 := ⟨_, rfl⟩
    obtain ⟨redis, hlogout⟩ := hlogout
    rw [hlogout]
    rcases revokeRefreshToken_records (d := d) { s with redis := redis } env
        (cookies.lookup d.settings.refreshTokenCookieName) with
      hsame | ⟨token, claims, jti, record, hpresented, hdecode, hjti, hfound, hrevoked⟩
    · exact Or.inl ⟨s, rfl, Or.inl hsame⟩
    · exact Or.inr ⟨token, claims, jti, record, revokeRecord s record, hpresented, hdecode, hjti,
        hfound, rfl, Or.inl hrevoked⟩

theorem ids_handle {s : State} (handled : Handled)
    (h : (s.refreshTokens.map RefreshToken.id).Nodup) :
    ((handle d s handled).refreshTokens.map RefreshToken.id).Nodup := by
  have hadd : ∀ t : State, (t.refreshTokens.map RefreshToken.id).Nodup →
      ((handle d s handled).refreshTokens = t.refreshTokens ∨
        ∃ user, (handle d s handled).refreshTokens =
          (issueTokens d t handled.env user).1.refreshTokens) →
      ((handle d s handled).refreshTokens.map RefreshToken.id).Nodup := by
    rintro t ht (heq | ⟨user, heq⟩)
    · rw [heq]
      exact ht
    · rw [heq]
      exact ids_issueTokens handled.env user ht
  rcases handle_records s handled with ⟨t, ht, hrest⟩ |
    ⟨token, claims, jti, record, t, -, -, -, -, ht, hrest⟩
  · exact hadd t (ht ▸ h) hrest
  · exact hadd t (ht ▸ ids_revokeRecord record h) hrest

theorem findRecord_congr {s t : State} (h : t.refreshTokens = s.refreshTokens) (jti : String) :
    findRecord t jti = findRecord s jti := by
  rw [findRecord, findRecord, h]

/-- The revocation of another record. -/
theorem findRecord_revoke_other {s : State} {record r : RefreshToken} {jti : String}
    (hids : (s.refreshTokens.map RefreshToken.id).Nodup) (hr : findRecord s jti = some r)
    (hmem : record ∈ s.refreshTokens) (hne : record.tokenJti ≠ jti) :
    findRecord (revokeRecord s record) jti = some r := by
  have hother : r.id ≠ record.id := by
    intro hid
    have hsame := List.inj_on_of_nodup_map hids (Table.mem_of_lookup hr) hmem hid
    exact hne (hsame ▸ Table.key_of_lookup hr)
  rw [Sessions.findRecord_revokeRecord, hr, Option.map_some, if_neg hother]

/-- **A record stays as it is** while nobody presents a token with its `jti`. -/
theorem findRecord_handle {s : State} {handled : Handled} {jti : String} {r : RefreshToken}
    (hids : (s.refreshTokens.map RefreshToken.id).Nodup) (hr : findRecord s jti = some r)
    (hsecret : ∀ token, presented d handled.request = some token → ∀ claims,
      d.decode token handled.env.clock = some claims → claims.jti ≠ some jti) :
    findRecord (handle d s handled) jti = some r := by
  have hadd : ∀ t : State, findRecord t jti = some r →
      ((handle d s handled).refreshTokens = t.refreshTokens ∨
        ∃ user, (handle d s handled).refreshTokens =
          (issueTokens d t handled.env user).1.refreshTokens) →
      findRecord (handle d s handled) jti = some r := by
    rintro t ht (heq | ⟨user, heq⟩)
    · rw [findRecord_congr heq]
      exact ht
    · rw [findRecord_congr heq]
      exact RefreshRotation.findRecord_issueTokens d ht
  rcases handle_records s handled with ⟨t, ht, hrest⟩ |
    ⟨token, claims, jti', record, t, hpresented, hdecode, hjti, hfound, ht, hrest⟩
  · exact hadd t (by rw [findRecord_congr ht, hr]) hrest
  · have hne : record.tokenJti ≠ jti := by
      rintro rfl
      rw [Table.key_of_lookup hfound] at hsecret
      exact hsecret token hpresented claims hdecode hjti
    refine hadd t ?_ hrest
    rw [findRecord_congr ht]
    exact findRecord_revoke_other hids hr (Table.mem_of_lookup hfound) hne

/-- A request deletes no account and changes none. -/
theorem users_handle (s : State) (handled : Handled) :
    s.users ⊆ (handle d s handled).users := by
  obtain ⟨request, env⟩ := handled
  cases request with
  | register data =>
    simp only [handle, serve, registerUser]
    split
    · exact List.Subset.refl _
    split
    · exact List.Subset.refl _
    split
    · exact List.Subset.refl _
    · rename_i t hins
      obtain ⟨-, hadded⟩ := Table.insertRow_eq_some.mp (Sessions.insertUser_ok hins).1
      rw [hadded]
      exact List.subset_append_left _ _
  | login email password =>
    simp only [handle, serve]
    split
    · exact List.Subset.refl _
    · rw [(Sessions.issueTokens_state d s env _).1]
      exact List.Subset.refl _
  | refresh cookies =>
    simp only [handle, serve]
    split
    · exact List.Subset.refl _
    split
    · exact List.Subset.refl _
    rename_i token _ _
    rcases Sessions.refreshSession_cases d s env token with ⟨e, heq⟩ |
      ⟨payload, jti, record, user, -, -, -, ⟨-, heq⟩ | heq⟩
    · rw [heq]
      exact List.Subset.refl _
    · rw [heq]
      exact List.Subset.refl _
    · rw [heq, (Sessions.issueTokens_state d _ env user).1]
      exact List.Subset.refl _
  | logout authorization cookies =>
    simp only [handle, serve]
    rw [(Sessions.revokeRefreshToken_state d _ env _).1]
    exact List.Subset.refl _

/-- With new identifiers `issue_tokens` succeeds, and the record of the pair is found. -/
theorem issueTokens_works {s t : State} {env : Env} (h : Untroubled s env)
    (hid : t.refreshTokens.map RefreshToken.id = s.refreshTokens.map RefreshToken.id)
    (hjti : t.refreshTokens.map RefreshToken.tokenJti =
      s.refreshTokens.map RefreshToken.tokenJti) (user : User) :
    findRecord (issueTokens d t env user).1 env.refreshJti.str = some (newRecord d env user) ∧
      (issueTokens d t env user).2 = .ok (tokenPair d ⟨user, env.refreshJti, env.clock⟩) := by
  have hfresh : env.refreshJti.str ∉ t.refreshTokens.map RefreshToken.tokenJti := hjti ▸ h.jti
  have hidrow : Table.insertRow RefreshToken.id (newRecord d env user) t.refreshTokens =
      some (t.refreshTokens ++ [newRecord d env user]) :=
    Table.insertRow_of_fresh (hid ▸ h.id)
  have hjtirow : Table.insertRow RefreshToken.tokenJti (newRecord d env user) t.refreshTokens =
      some (t.refreshTokens ++ [newRecord d env user]) :=
    Table.insertRow_of_fresh hfresh
  have hnone : Table.lookup RefreshToken.tokenJti env.refreshJti.str t.refreshTokens = none :=
    Table.lookup_eq_none.mpr fun r hr heq => hfresh (heq ▸ List.mem_map_of_mem hr)
  rw [newRecord] at hidrow hjtirow
  simp only [issueTokens, h.works, Bool.false_eq_true, if_false, hidrow, hjtirow, newRecord,
    findRecord, Table.lookup_append, hnone, Option.none_or, and_true]
  exact List.find?_cons_of_pos (by simp)

end Records

/-! ## What the gateway lets through -/

section Exchange

variable {d : Deployment}

theorem gateway_login (redis : List RedisEntry) (now : Time) (email password : String)
    (cookies : List (String × String)) :
    gateway d redis now ((Action.login email password).request cookies) = .forwarded
      .identityService (forward ((Action.login email password).request cookies) none setsHost) := by
  have hselect : selectLocation "/api/v1/auth/login" = some publicAuth := by
    rw [selectLocation, Option.isNone_iff_eq_none.mp (by decide +kernel :
      (locations.find? (exactMatch "/api/v1/auth/login")).isNone = true), locations,
      List.find?_cons_of_neg (by decide), List.find?_cons_of_neg (by decide),
      List.find?_cons_of_pos (by decide), Option.none_or, Option.some_or]
  rw [gateway, Action.request, if_neg (by simp), hselect]
  rfl

theorem gateway_refresh (redis : List RedisEntry) (now : Time)
    (cookies : List (String × String)) :
    gateway d redis now (Action.refresh.request cookies) = .forwarded .identityService
      (forward (Action.refresh.request cookies) none setsHost) := by
  have hselect : selectLocation "/api/v1/auth/refresh" = some publicAuth := by
    rw [selectLocation, Option.isNone_iff_eq_none.mp (by decide +kernel :
      (locations.find? (exactMatch "/api/v1/auth/refresh")).isNone = true), locations,
      List.find?_cons_of_neg (by decide), List.find?_cons_of_neg (by decide),
      List.find?_cons_of_pos (by decide), Option.none_or, Option.some_or]
  rw [gateway, Action.request, if_neg (by simp), hselect]
  rfl

theorem exchange_login (s : State) (env : Env) (cookies : List (String × String))
    (email password : String) :
    exchange d s env cookies (.login email password) =
      ((serve d s env (.login email password)).1,
        (serve d s env (.login email password)).2.toOption) := by
  rw [exchange, gateway_login]
  rfl

theorem exchange_refresh (s : State) (env : Env) (cookies : List (String × String)) :
    exchange d s env cookies .refresh =
      ((serve d s env (.refresh cookies)).1, (serve d s env (.refresh cookies)).2.toOption) := by
  rw [exchange, gateway_refresh]
  rfl

/-- A logout arrives only while the access token validates, and it has no header. -/
theorem exchange_logout (s : State) (env : Env) (cookies : List (String × String)) :
    exchange d s env cookies .logout = (s, none) ∨
      exchange d s env cookies .logout =
        ((serve d s env (.logout none cookies)).1,
          (serve d s env (.logout none cookies)).2.toOption) := by
  rw [exchange, Action.request, gateway_logout]
  rcases validate d s.redis env.clock (logoutRequest [] cookies) with e | user
  · left
    split
    · rfl
    · rename_i heq
      split at heq
      · rename_i hok
        cases hok
      · cases heq
      · cases heq
  · right
    simp only [Action.call, GatewayLogout.forward_authorization]
    rfl

/-- An exchange is a request of the service or nothing. -/
theorem exchange_handles (s : State) (env : Env) (cookies : List (String × String))
    (action : Action) :
    exchange d s env cookies action = (s, none) ∨ ∃ request,
      exchange d s env cookies action =
        (handle d s ⟨request, env⟩, (serve d s env request).2.toOption) := by
  cases action with
  | login email password => exact Or.inr ⟨_, exchange_login s env cookies email password⟩
  | refresh => exact Or.inr ⟨_, exchange_refresh s env cookies⟩
  | logout =>
    rcases exchange_logout (d := d) s env cookies with h | h
    · exact Or.inl h
    · exact Or.inr ⟨_, h⟩

/-- A login that nothing troubles opens a session or does nothing. -/
theorem login_works {c : System} {env : Env} (h : Untroubled c.service env)
    (email password : String) :
    answered d c env (.login email password) = (c.service, none) ∨ ∃ user t,
      user ∈ t.users ∧ findRecord t env.refreshJti.str = some (newRecord d env user) ∧
      answered d c env (.login email password) =
        (t, some ⟨some user, some (tokenPair d ⟨user, env.refreshJti, env.clock⟩)⟩) := by
  rw [answered, exchange_login, serve]
  rcases huser : authenticate d c.service env email password with e | user
  · exact Or.inl rfl
  · obtain ⟨hfound, hpair⟩ := issueTokens_works (d := d) h rfl rfl user
    refine Or.inr ⟨user, (issueTokens d c.service env user).1, ?_, hfound, ?_⟩
    · rw [(Sessions.issueTokens_state d c.service env user).1]
      exact (Sessions.authenticate_ok d huser).1
    · simp only [hpair]
      rfl

/-- A logout that nothing troubles is not let through or is answered. -/
theorem logout_works {c : System} {env : Env} (h : Untroubled c.service env) :
    answered d c env .logout = (c.service, none) ∨ ∃ t,
      answered d c env .logout = (t, some {}) := by
  rw [answered]
  rcases exchange_logout (d := d) c.service env
    (send c.jar env.clock (Action.logout.request []).path) with hnone | hserved
  · exact Or.inl hnone
  · have hok : ∀ (t : State) token, (revokeRefreshToken d t env token).2 = .ok () := by
      intro t token
      simp only [revokeRefreshToken, h.works, Bool.false_eq_true, if_false]
      repeat' split
      all_goals rfl
    refine Or.inr ⟨_, hserved.trans (Prod.ext rfl ?_)⟩
    simp only [serve, hok]
    rfl

end Exchange

/-! ## What stands behind a session -/

section Invariant

variable (d : Deployment) (settings : CookieSettings)

/-- The call of `issue_tokens` that set the cookies. -/
def Session.issue (session : Session) (jti : UUID) : Issue := ⟨session.user, jti, session.since⟩

def accessCookie (i : Issue) (received : Time) : Cookie :=
  (setCookie settings d.settings.accessTokenCookieName (tokenPair d i).1 none).cookie received

def refreshCookie (i : Issue) (received : Time) : Cookie :=
  (setCookie settings d.settings.refreshTokenCookieName (tokenPair d i).2
    (some (d.settings.refreshTokenExpireDays * 24 * 60 * 60))).cookie received

/-- The cookies of a call of `issue_tokens` for an account. -/
structure Held (c : System) (session : Session) (jti : UUID) (received : Time) : Prop where
  user : session.user ∈ c.service.users
  jar : c.jar = (if session.access then [accessCookie d settings (session.issue jti) received]
    else []) ++ [refreshCookie d settings (session.issue jti) received]

/-- They have their record, which nobody has revoked. -/
structure Backed (c : System) (session : Session) (jti : UUID) (received : Time) : Prop extends
    Held d settings c session jti received where
  arrived : session.since ≤ received
  record : ∃ id, findRecord c.service jti.str = some ⟨id, session.user.id, jti.str,
    session.since + d.settings.refreshTokenExpireDays * 86400, false⟩

/-- The jar holds the cookies of the session and no others. -/
structure Carried (c : System × Option Session) : Prop where
  stored : Stored c.1.service
  out : c.2 = none → c.1.jar = []
  held : ∀ session, c.2 = some session → ∃ jti received,
    Held d settings c.1 session jti received

structure Signed (c : System × Option Session) : Prop extends Carried d settings c where
  ids : (c.1.service.refreshTokens.map RefreshToken.id).Nodup
  backed : ∀ session, c.2 = some session → ∃ jti received,
    Backed d settings c.1 session jti received

variable {d settings}

theorem carried_opened : Carried d settings opened where
  stored := stored_empty
  out := fun _ => rfl
  held := by
    intro session h
    cases h

theorem signed_opened : Signed d settings opened where
  toCarried := carried_opened
  ids := List.nodup_nil
  backed := by
    intro session h
    cases h

/-! ## The cookies of a session -/

theorem takes_setCookie {origin : Origin} (hfits : Fits d settings origin) (name value : String)
    (maxAge : Option Int) : origin.takes (setCookie settings name value maxAge) = true := by
  rw [Origin.takes, Bool.and_eq_true]
  constructor
  · rcases hsecure : settings.cookieSecure with _ | _
    · simp [setCookie, hsecure]
    · simp [hfits.secure hsecure]
  · exact hfits.domain

theorem sets_cookie (name value name' value' : String) (maxAge maxAge' : Option Int) (t : Time) :
    (setCookie settings name value maxAge).sets
        ((setCookie settings name' value' maxAge').cookie t) = decide (name' = name) := by
  rw [sets_cookie_iff] <;> rfl

/-- Whatever the jar holds, the two lines of the service are about it. -/
theorem Carried.covers {c : System × Option Session} (h : Carried d settings c)
    (value value' : String) (maxAge maxAge' : Option Int) : ∀ cookie ∈ c.1.jar,
      (setCookie settings d.settings.accessTokenCookieName value maxAge).sets cookie = true ∨
        (setCookie settings d.settings.refreshTokenCookieName value' maxAge').sets cookie =
          true := by
  intro cookie hcookie
  rcases hsession : c.2 with _ | session
  · rw [h.out hsession] at hcookie
    cases hcookie
  obtain ⟨jti, received, hheld⟩ := h.held session hsession
  rw [hheld.jar, List.mem_append, List.mem_singleton] at hcookie
  rcases hcookie with haccess | rfl
  · left
    split at haccess
    · rw [List.mem_singleton.mp haccess, accessCookie, sets_cookie, decide_eq_true rfl]
    · cases haccess
  · right
    rw [refreshCookie, sets_cookie, decide_eq_true rfl]

/-- The cookies of a pair replace whatever was there. -/
theorem Carried.receive_auth {c : System × Option Session} (h : Carried d settings c)
    {origin : Origin} (hfits : Fits d settings origin) (i : Issue) (received : Time) :
    origin.receive received c.1.jar (setAuthCookies d settings (tokenPair d i)) =
      [accessCookie d settings i received, refreshCookie d settings i received] := by
  have hkept : (setCookie settings d.settings.refreshTokenCookieName (tokenPair d i).2
      (some (d.settings.refreshTokenExpireDays * 24 * 60 * 60))).drops = false := by
    have hdays := hfits.days
    simp only [SetCookie.drops, setCookie, Option.any_some, decide_eq_false_iff_not]
    omega
  have hother : (setCookie settings d.settings.refreshTokenCookieName (tokenPair d i).2
      (some (d.settings.refreshTokenExpireDays * 24 * 60 * 60))).sets
      ((setCookie settings d.settings.accessTokenCookieName (tokenPair d i).1 none).cookie
        received) = false := by
    rw [sets_cookie, decide_eq_false hfits.names]
  exact receive_pair (takes_setCookie hfits _ _ _) (takes_setCookie hfits _ _ _) rfl hkept hother
    (h.covers _ _ _ _)

theorem Carried.receive_clear {c : System × Option Session} (h : Carried d settings c)
    {origin : Origin} (hfits : Fits d settings origin) (received : Time) :
    origin.receive received c.1.jar (clearAuthCookies d settings) = [] :=
  drop_pair (takes_setCookie hfits _ _ _) (takes_setCookie hfits _ _ _) rfl rfl
    (h.covers _ _ _ _)

section Sent

variable {c : System} {session : Session} {jti : UUID} {received : Time}
  (h : Held d settings c session jti received)

include h

/-- What the browser sends: the access cookie while it is open, the refresh cookie until it
    is too old. -/
theorem Held.send_eq (now : Time) {path : String} (hpath : path.toList.head? = some '/') :
    send c.jar now path =
      (if session.access then
        [(d.settings.accessTokenCookieName, (tokenPair d (session.issue jti)).1)] else []) ++
      (if now < received + d.settings.refreshTokenExpireDays * 86400 then
        [(d.settings.refreshTokenCookieName, (tokenPair d (session.issue jti)).2)] else []) := by
  have hroot := pathMatches_root hpath
  have hage : ((d.settings.refreshTokenExpireDays * 24 * 60 * 60 : Int) : ℚ) =
      d.settings.refreshTokenExpireDays * 86400 := by
    push_cast
    ring
  have haccess : ((accessCookie d settings (session.issue jti) received).live now &&
      pathMatches path (accessCookie d settings (session.issue jti) received).path) = true := by
    simp only [accessCookie, setCookie, SetCookie.cookie, Cookie.live, hroot, Option.map_none,
      Option.all_none, Bool.and_self]
  have hrefresh : ((refreshCookie d settings (session.issue jti) received).live now &&
      pathMatches path (refreshCookie d settings (session.issue jti) received).path) =
        decide (now < received + d.settings.refreshTokenExpireDays * 86400) := by
    simp only [refreshCookie, setCookie, SetCookie.cookie, Cookie.live, hroot, Option.map_some,
      Option.all_some, hage, Bool.and_true]
  rw [send, h.jar, List.filter_append, List.map_append]
  congr 1
  · split
    · simp only [List.filter_cons, haccess, if_true, List.filter_nil]
      rfl
    · rfl
  · simp only [List.filter_cons, hrefresh, decide_eq_true_eq, List.filter_nil]
    split <;> rfl

theorem Held.lookup_access
    (hnames : d.settings.accessTokenCookieName ≠ d.settings.refreshTokenCookieName) (now : Time)
    {path : String} (hpath : path.toList.head? = some '/') :
    (send c.jar now path).lookup d.settings.accessTokenCookieName =
      if session.access then some (tokenPair d (session.issue jti)).1 else none := by
  have hbeq : (d.settings.accessTokenCookieName == d.settings.refreshTokenCookieName) = false := by
    simpa using hnames
  rw [h.send_eq now hpath, List.lookup_append]
  rcases session.access with _ | _
  · rw [if_neg Bool.false_ne_true, if_neg Bool.false_ne_true, List.lookup_nil, Option.none_or]
    split
    · rw [List.lookup_cons, hbeq]
      rfl
    · rfl
  · rw [if_pos rfl, if_pos rfl, List.lookup_cons_self, Option.some_or]

theorem Held.lookup_refresh
    (hnames : d.settings.accessTokenCookieName ≠ d.settings.refreshTokenCookieName) (now : Time)
    {path : String} (hpath : path.toList.head? = some '/') :
    (send c.jar now path).lookup d.settings.refreshTokenCookieName =
      if now < received + d.settings.refreshTokenExpireDays * 86400 then
        some (tokenPair d (session.issue jti)).2 else none := by
  have hbeq : (d.settings.refreshTokenCookieName == d.settings.accessTokenCookieName) = false := by
    simpa using hnames.symm
  have hnone : (if session.access then
      [(d.settings.accessTokenCookieName, (tokenPair d (session.issue jti)).1)] else []).lookup
        d.settings.refreshTokenCookieName = none := by
    rcases session.access with _ | _
    · rfl
    · rw [if_pos rfl, List.lookup_cons, hbeq]
      rfl
  rw [h.send_eq now hpath, List.lookup_append, hnone, Option.none_or]
  split
  · exact List.lookup_cons_self
  · rfl

end Sent

/-! ## A refresh -/

section Refreshed

variable {c : System} {session : Session} {jti : UUID} {received : Time} {env : Env}
  (h : Backed d settings c session jti received) (hread : Readable d)
  (hnames : d.settings.accessTokenCookieName ≠ d.settings.refreshTokenCookieName)

include h hread hnames

/-- Until the record expires the browser still sends the token, and gets a new pair. -/
theorem Backed.refresh_live (hids : (c.service.users.map User.id).Nodup)
    (henv : Untroubled c.service env)
    (hlive : env.clock < session.since + d.settings.refreshTokenExpireDays * 86400) :
    ∃ t, session.user ∈ t.users ∧
      findRecord t env.refreshJti.str = some (newRecord d env session.user) ∧
      answered d c env .refresh =
        (t, some ⟨none, some (tokenPair d ⟨session.user, env.refreshJti, env.clock⟩)⟩) := by
  obtain ⟨id, hrecord⟩ := h.record
  have hsent : (send c.jar env.clock "/api/v1/auth/refresh").lookup
      d.settings.refreshTokenCookieName = some (tokenPair d (session.issue jti)).2 := by
    have harrived := h.arrived
    rw [h.lookup_refresh hnames env.clock rfl, if_pos (by linarith)]
  have hjti : refreshJti d env.clock (tokenPair d (session.issue jti)).2 =
      .ok ((session.issue jti).refreshClaims d, jti.str) := by
    rw [TokenTexts.jti_of_token (hread.refresh (session.issue jti) env.clock)]
    exact if_neg (not_lt.mpr (Int.floor_le_floor hlive.le))
  have hfound : liveRecord c.service env.clock jti.str = .ok ⟨id, session.user.id, jti.str,
      session.since + d.settings.refreshTokenExpireDays * 86400, false⟩ := by
    rw [liveRecord, hrecord]
    simp [hlive]
  have huser : tokenUser c.service ((session.issue jti).refreshClaims d) = .ok session.user := by
    have hsub : ((session.issue jti).refreshClaims d).sub = some session.user.id.str := rfl
    simp only [tokenUser, hsub, UUID.parse_str, Table.lookup_of_mem hids h.user]
  obtain ⟨hnew, hpair⟩ := issueTokens_works (d := d) (t := revokeRecord c.service ⟨id,
      session.user.id, jti.str, session.since + d.settings.refreshTokenExpireDays * 86400, false⟩)
    henv (Sessions.map_revokeRecord (fun _ => rfl) _ _)
    (Sessions.map_revokeRecord (fun _ => rfl) _ _) session.user
  refine ⟨_, ?_, hnew, ?_⟩
  · rw [(Sessions.issueTokens_state d _ env session.user).1]
    exact h.user
  · rw [answered, exchange_refresh, Action.request]
    simp only [serve, hsent, hread.refreshText, if_false, refreshSession, hjti, henv.works,
      Bool.false_eq_true, hfound, huser, hpair]
    rfl

/-- After that the service refuses it, if it is sent at all. -/
theorem Backed.refresh_expired (hlive : ¬ env.clock <
      session.since + d.settings.refreshTokenExpireDays * 86400) :
    answered d c env .refresh = (c.service, none) := by
  obtain ⟨id, hrecord⟩ := h.record
  rw [answered, exchange_refresh, Action.request]
  have hpath : "/api/v1/auth/refresh".toList.head? = some '/' := rfl
  have hsent := h.lookup_refresh hnames env.clock hpath
  by_cases hcookie : env.clock < received + d.settings.refreshTokenExpireDays * 86400
  · rw [if_pos hcookie] at hsent
    have hrefused : ∃ e, refreshSession d c.service env (tokenPair d (session.issue jti)).2 =
        (c.service, .error e) := by
      rcases Sessions.refreshSession_cases d c.service env (tokenPair d (session.issue jti)).2 with
        hrefused | ⟨payload, jti', record, user, hjti, hfound, -⟩
      · exact hrefused
      · -- the token is read, so the record is the one that has expired
        rw [TokenTexts.jti_of_token (hread.refresh (session.issue jti) env.clock)] at hjti
        split at hjti
        · cases hjti
        · cases hjti
          rw [liveRecord, show (session.issue jti).jti.str = jti.str from rfl, hrecord] at hfound
          simp [not_lt.mp hlive] at hfound
    obtain ⟨e, hrefused⟩ := hrefused
    simp only [serve, hsent, hread.refreshText, if_false, hrefused]
    rfl
  · rw [if_neg hcookie] at hsent
    simp only [serve, hsent]
    rfl

end Refreshed

/-- Whatever fails, a refresh that is answered is one of the user whose cookie was sent. -/
theorem Held.refresh_answer {c : System} {session : Session} {jti : UUID} {received : Time}
    (h : Held d settings c session jti received) (hread : Readable d)
    (hnames : d.settings.accessTokenCookieName ≠ d.settings.refreshTokenCookieName)
    (hids : (c.service.users.map User.id).Nodup) {env : Env} {answer : Answer}
    (hanswer : (answered d c env .refresh).2 = some answer) :
    answer = ⟨none, some (tokenPair d ⟨session.user, env.refreshJti, env.clock⟩)⟩ := by
  rw [answered, exchange_refresh, Action.request] at hanswer
  have hsent := h.lookup_refresh hnames env.clock
    (show "/api/v1/auth/refresh".toList.head? = some '/' from rfl)
  split at hsent
  swap
  · simp only [serve, hsent] at hanswer
    cases hanswer
  simp only [serve, hsent, hread.refreshText, if_false] at hanswer
  rcases Sessions.refreshSession_cases d c.service env (tokenPair d (session.issue jti)).2 with
    ⟨e, heq⟩ | ⟨payload, jti', record, user, hjti, -, huser, ⟨-, heq⟩ | heq⟩
  · rw [heq] at hanswer
    cases hanswer
  · rw [heq] at hanswer
    cases hanswer
  -- the token is read, so the account is the one that it names
  obtain rfl : user = session.user := by
    rw [TokenTexts.jti_of_token (hread.refresh (session.issue jti) env.clock)] at hjti
    split at hjti
    · cases hjti
    cases hjti
    obtain ⟨id, hid, hfound⟩ := Sessions.tokenUser_ok huser
    have hsub : ((session.issue jti).refreshClaims d).sub = some session.user.id.str := rfl
    rw [hsub, Option.bind_some, UUID.parse_str] at hid
    cases hid
    rw [Table.lookup_of_mem hids h.user] at hfound
    exact (Option.some.inj hfound).symm
  rw [heq] at hanswer
  rcases hpair : (issueTokens d (revokeRecord c.service record) env session.user).2 with e | pair
  · rw [hpair] at hanswer
    cases hanswer
  · rw [hpair] at hanswer
    rw [Sessions.issueTokens_ok d hpair] at hanswer
    cases hanswer
    rfl

/-- The same of a login, whose user has an account. -/
theorem login_answer {c : System} {env : Env} {email password : String} {answer : Answer}
    (hanswer : (answered d c env (.login email password)).2 = some answer) :
    ∃ user ∈ c.service.users,
      answer = ⟨some user, some (tokenPair d ⟨user, env.refreshJti, env.clock⟩)⟩ := by
  rw [answered, exchange_login, serve] at hanswer
  rcases huser : authenticate d c.service env email password with e | user
  · rw [huser] at hanswer
    cases hanswer
  rw [huser] at hanswer
  refine ⟨user, (Sessions.authenticate_ok d huser).1, ?_⟩
  rcases hpair : (issueTokens d c.service env user).2 with e | pair
  · simp only [hpair] at hanswer
    cases hanswer
  · simp only [hpair] at hanswer
    rw [Sessions.issueTokens_ok d hpair] at hanswer
    cases hanswer
    rfl

/-- Without a cookie there is nothing to refresh. -/
theorem refresh_without {c : System} {env : Env} (h : c.jar = []) :
    answered d c env .refresh = (c.service, none) := by
  rw [answered, exchange_refresh, Action.request, h]
  rfl

/-! ## One event -/

theorem jar_issue_mem {c : System} {session : Session} {jti : UUID} {received : Time}
    (h : Backed d settings c session jti received) :
    refreshCookie d settings (session.issue jti) received ∈ c.jar := by
  rw [h.jar]
  exact List.mem_append_right _ List.mem_cons_self

/-- A token of the jar can be read when it is set. -/
theorem decode_refresh (hread : Readable d) (hdays : 0 < d.settings.refreshTokenExpireDays)
    (i : Issue) : d.decode (tokenPair d i).2 i.time = some (i.refreshClaims d) := by
  have hlater : i.time ≤ i.time + d.settings.refreshTokenExpireDays * 86400 := by
    have hpos : (0 : ℚ) < d.settings.refreshTokenExpireDays := by exact_mod_cast hdays
    linarith
  have hexpired : Jose.expired (i.refreshClaims d) i.time = false := by
    rw [Jose.expired_eq_false]
    rintro exp ⟨⟩
    exact Int.floor_le_floor hlater
  rw [hread.refresh, hexpired]
  rfl

/-- The record of a browser's session does not depend on what others do. -/
theorem Backed.other (hread : Readable d) (hdays : 0 < d.settings.refreshTokenExpireDays)
    {c : System} {session : Session} {jti : UUID} {received : Time} {handled : Handled}
    (h : Backed d settings c session jti received)
    (hids : (c.service.refreshTokens.map RefreshToken.id).Nodup)
    (hsecret : Secret d c.jar handled) :
    Backed d settings { c with service := handle d c.service handled } session jti received where
  user := users_handle c.service handled h.user
  arrived := h.arrived
  jar := h.jar
  record := by
    obtain ⟨id, hrecord⟩ := h.record
    refine ⟨id, findRecord_handle hids hrecord ?_⟩
    intro token hpresented claims hdecode
    exact hsecret token hpresented claims hdecode _ (jar_issue_mem h) _ _ jti.str
      (decode_refresh hread hdays (session.issue jti)) rfl

/-- Only the access cookie goes when the browser is closed. -/
theorem Held.close {c : System} {session : Session} {jti : UUID} {received : Time}
    (h : Held d settings c session jti received) :
    Held d settings { c with jar := Cookies.close c.jar } { session with access := false } jti
      received where
  user := h.user
  jar := by
    dsimp only
    rw [h.jar, Cookies.close, List.filter_append]
    split <;> rfl

theorem answered_keeps {c : System} (env : Env) (action : Action) (hstored : Stored c.service) :
    Stored (answered d c env action).1 ∧ c.service.users ⊆ (answered d c env action).1.users := by
  rw [answered]
  rcases exchange_handles (d := d) c.service env
    (send c.jar env.clock (action.request []).path) action with heq | ⟨request, heq⟩
  · rw [heq]
    exact ⟨hstored, List.Subset.refl _⟩
  · rw [heq]
    exact ⟨stored_handle d hstored _, users_handle c.service _⟩

theorem ids_answered {c : System} (env : Env) (action : Action)
    (hids : (c.service.refreshTokens.map RefreshToken.id).Nodup) :
    ((answered d c env action).1.refreshTokens.map RefreshToken.id).Nodup := by
  rw [answered]
  rcases exchange_handles (d := d) c.service env
    (send c.jar env.clock (action.request []).path) action with heq | ⟨request, heq⟩
  · rw [heq]
    exact hids
  · rw [heq]
    exact ids_handle _ hids

variable {origin : Origin} {c : System × Option Session} {env : Env} {received : Time}

/-- A pair that arrives is the session from then on. -/
theorem Carried.paired (h : Carried d settings c) (hfits : Fits d settings origin) {t : State}
    {user : User} (hstored : Stored t) (huser : user ∈ t.users) :
    Carried d settings (⟨t, origin.receive received c.1.jar
      (setAuthCookies d settings (tokenPair d ⟨user, env.refreshJti, env.clock⟩))⟩,
      some ⟨user, env.clock, true⟩) where
  stored := hstored
  out := by
    intro hnone
    cases hnone
  held := by
    rintro session ⟨⟩
    exact ⟨env.refreshJti, received, huser,
      h.receive_auth hfits ⟨user, env.refreshJti, env.clock⟩ received⟩

theorem carried_browser (hread : Readable d) (hfits : Fits d settings origin)
    (h : Carried d settings c) (action : Action) :
    Carried d settings (observe d settings origin c (.browser action env received)) := by
  obtain ⟨hstored, husers⟩ := answered_keeps (d := d) env action h.stored
  rcases hanswer : (answered d c.1 env action).2 with _ | answer
  · -- nothing arrives
    simp only [observe, step, follow, hanswer]
    refine ⟨hstored, h.out, ?_⟩
    intro session hsession
    obtain ⟨jti, arrival, hheld⟩ := h.held session hsession
    exact ⟨jti, arrival, husers hheld.user, hheld.jar⟩
  cases action with
  | login email password =>
    obtain ⟨user, huser, rfl⟩ := login_answer hanswer
    simp only [observe, step, follow, hanswer, Action.follow]
    exact h.paired hfits hstored (husers huser)
  | refresh =>
    rcases hsession : c.2 with _ | session
    · rw [refresh_without (h.out hsession)] at hanswer
      cases hanswer
    obtain ⟨jti, arrival, hheld⟩ := h.held session hsession
    obtain rfl := hheld.refresh_answer hread hfits.names h.stored.ids hanswer
    simp only [observe, step, follow, hanswer, Action.follow, hsession]
    exact h.paired hfits hstored (husers hheld.user)
  | logout =>
    simp only [observe, step, follow, hanswer, Action.follow]
    refine ⟨hstored, fun _ => h.receive_clear hfits received, ?_⟩
    intro session hnone
    cases hnone

/-- **Every event keeps the cookies**, whatever fails and whatever others do. -/
theorem carried_observe (hread : Readable d) (hfits : Fits d settings origin) (event : Event)
    (h : Carried d settings c) : Carried d settings (observe d settings origin c event) := by
  cases event with
  | browser action env received => exact carried_browser hread hfits h action
  | close =>
    refine ⟨h.stored, ?_, ?_⟩
    · intro hnone
      simp only [observe, follow, Option.map_eq_none_iff] at hnone
      simp only [observe, step, h.out hnone]
      rfl
    · intro closed hclosed
      simp only [observe, follow, Option.map_eq_some_iff] at hclosed
      obtain ⟨session, hsession, rfl⟩ := hclosed
      obtain ⟨jti, received, hheld⟩ := h.held session hsession
      exact ⟨jti, received, hheld.close⟩
  | other handled =>
    refine ⟨stored_handle d h.stored handled, h.out, ?_⟩
    intro session hsession
    obtain ⟨jti, received, hheld⟩ := h.held session hsession
    exact ⟨jti, received, users_handle c.1.service handled hheld.user, hheld.jar⟩

theorem carried_observed (hread : Readable d) (hfits : Fits d settings origin)
    (run : List Event) : Carried d settings (observed d settings origin run) :=
  (throughout_of_step (fun _ event h => carried_observe hread hfits event h) carried_opened
    run).last

/-! ## One event that nothing troubles -/

theorem observe_unanswered {action : Action}
    (h : answered d c.1 env action = (c.1.service, none)) :
    observe d settings origin c (.browser action env received) = c := by
  simp only [observe, step, follow, h]

/-- The record of a pair that arrives. -/
theorem Carried.backed_paired (h : Carried d settings c) (hfits : Fits d settings origin)
    (hreceived : env.clock ≤ received) {t : State} {user : User} (huser : user ∈ t.users)
    (hrecord : findRecord t env.refreshJti.str = some (newRecord d env user)) :
    Backed d settings ⟨t, origin.receive received c.1.jar
      (setAuthCookies d settings (tokenPair d ⟨user, env.refreshJti, env.clock⟩))⟩
      ⟨user, env.clock, true⟩ env.refreshJti received where
  user := huser
  jar := h.receive_auth hfits ⟨user, env.refreshJti, env.clock⟩ received
  arrived := hreceived
  record := ⟨env.tokenId, hrecord⟩

theorem backed_browser (hread : Readable d) (hfits : Fits d settings origin)
    (h : Signed d settings c) (action : Action) (henv : Untroubled c.1.service env)
    (hreceived : env.clock ≤ received) (session : Session)
    (hsession : (observe d settings origin c (.browser action env received)).2 = some session) :
    ∃ jti arrival, Backed d settings
      (observe d settings origin c (.browser action env received)).1 session jti arrival := by
  cases action with
  | login email password =>
    rcases login_works (d := d) henv email password with hnone |
      ⟨user, t, huser, hrecord, hanswered⟩
    · rw [observe_unanswered hnone] at hsession ⊢
      exact h.backed session hsession
    · simp only [observe, step, follow, hanswered, Action.follow, Option.map_some,
        Option.some_inj] at hsession ⊢
      subst hsession
      exact ⟨_, _, h.toCarried.backed_paired hfits hreceived huser hrecord⟩
  | refresh =>
    rcases hold : c.2 with _ | old
    · rw [observe_unanswered (refresh_without (h.out hold))] at hsession ⊢
      exact h.backed session hsession
    obtain ⟨jti, arrival, hbacked⟩ := h.backed old hold
    by_cases hlive : env.clock < old.since + d.settings.refreshTokenExpireDays * 86400
    · obtain ⟨t, huser, hrecord, hanswered⟩ :=
        hbacked.refresh_live hread hfits.names h.stored.ids henv hlive
      simp only [observe, step, follow, hanswered, Action.follow, hold, Option.map_some,
        Option.some_inj] at hsession ⊢
      subst hsession
      exact ⟨_, _, h.toCarried.backed_paired hfits hreceived huser hrecord⟩
    · rw [observe_unanswered (hbacked.refresh_expired hread hfits.names hlive)] at hsession ⊢
      exact h.backed session hsession
  | logout =>
    rcases logout_works (d := d) henv with hnone | ⟨t, hanswered⟩
    · rw [observe_unanswered hnone] at hsession ⊢
      exact h.backed session hsession
    · simp only [observe, follow, hanswered, Action.follow] at hsession
      cases hsession

/-- **Every event keeps the record of the session**, if nothing troubles the browser's own
    requests and those of the others do not present its token. -/
theorem signed_observe (hread : Readable d) (hfits : Fits d settings origin) (event : Event)
    (h : Signed d settings c) (hfine : Fine d c event) :
    Signed d settings (observe d settings origin c event) := by
  refine ⟨carried_observe hread hfits event h.toCarried, ?_, ?_⟩
  · cases event with
    | browser action env received => exact ids_answered env action h.ids
    | close => exact h.ids
    | other handled => exact ids_handle handled h.ids
  · intro session hsession
    cases event with
    | browser action env received =>
      exact backed_browser hread hfits h action hfine.1 hfine.2 session hsession
    | close =>
      simp only [observe, follow, Option.map_eq_some_iff] at hsession
      obtain ⟨old, hold, rfl⟩ := hsession
      obtain ⟨jti, received, hbacked⟩ := h.backed old hold
      exact ⟨jti, received, hbacked.toHeld.close, hbacked.arrived, hbacked.record⟩
    | other handled =>
      obtain ⟨jti, received, hbacked⟩ := h.backed session hsession
      exact ⟨jti, received, hbacked.other hread hfits.days h.ids hfine⟩

theorem signed_observed (hread : Readable d) (hfits : Fits d settings origin) {run : List Event}
    (hrun : EveryStep (observe d settings origin) (Fine d) opened run) :
    Signed d settings (observed d settings origin run) :=
  foldl_of_everyStep (fun _ event hsigned hfine => signed_observe hread hfits event hsigned hfine)
    signed_opened hrun

/-! ## Whom the gateway names -/

/-- The access token of a session.  It has no `jti`. -/
def accessToken (d : Deployment) (session : Session) : String :=
  createAccessToken d.jose session.user.id.str session.user.role.value d.settings.jwtSecretKey
    d.settings.jwtAlgorithm d.settings.accessTokenExpireMinutes session.since

/-- A request of the browser without other headers than its cookies. -/
def browserRequest (jar : List Cookie) (now : Time) (method path : String) : HttpRequest :=
  ⟨method, path, [], send jar now path⟩

theorem Held.validate_iff {c : System} {session : Session} {jti : UUID} {received : Time}
    (h : Held d settings c session jti received) (hread : Readable d)
    (hnames : d.settings.accessTokenCookieName ≠ d.settings.refreshTokenCookieName)
    (redis : List RedisEntry) (now : Time) (method : String) {path : String}
    (hpath : path.toList.head? = some '/') (user : CurrentUser) :
    validate d redis now (browserRequest c.jar now method path) = .ok user ↔
      session.access = true ∧ user = ⟨session.user.id, session.user.role⟩ ∧
        ⌊now⌋ ≤ ⌊session.since + d.settings.accessTokenExpireMinutes * 60⌋ ∧
        isTokenBlacklisted redis now (accessToken d session) = false := by
  have hsent := h.lookup_access hnames now hpath
  have hvalidate : validate d redis now (browserRequest c.jar now method path) =
      validateToken d redis now none
        ((send c.jar now path).lookup d.settings.accessTokenCookieName) := rfl
  rw [hvalidate, hsent]
  rcases haccess : session.access with _ | _
  · simp [validateToken, extractAccessToken]
  have hextract : extractAccessToken none (some (tokenPair d (session.issue jti)).1) =
      .ok (accessToken d session) := by
    rw [extractAccessToken, Option.bind_none]
    exact if_neg (hread.accessText (session.issue jti))
  have hdecode : d.decode (accessToken d session) now = if Jose.expired
      ((session.issue jti).accessClaims d) now then none
        else some ((session.issue jti).accessClaims d) := hread.access (session.issue jti) now
  have hexpired : Jose.expired ((session.issue jti).accessClaims d) now =
      decide (⌊session.since + d.settings.accessTokenExpireMinutes * 60⌋ < ⌊now⌋) := rfl
  have hnamed : ∀ claims, claims = (session.issue jti).accessClaims d →
      (claims.type = some "access" ∧ claims.sub.bind UUID.parse = some user.id ∧
        claims.role.bind UserRole.ofValue = some user.role ↔
          user = ⟨session.user.id, session.user.role⟩) := by
    rintro claims rfl
    have hclaims : ((session.issue jti).accessClaims d).type = some "access" ∧
        ((session.issue jti).accessClaims d).sub = some session.user.id.str ∧
        ((session.issue jti).accessClaims d).role = some session.user.role.value := ⟨rfl, rfl, rfl⟩
    rw [hclaims.1, hclaims.2.1, hclaims.2.2, Option.bind_some, Option.bind_some, UUID.parse_str,
      UserRole.ofValue_value]
    constructor
    · rintro ⟨-, hid, hrole⟩
      obtain ⟨id, role⟩ := user
      rw [Option.some.inj hid, Option.some.inj hrole]
    · rintro rfl
      exact ⟨rfl, rfl, rfl⟩
  rw [if_pos rfl, validateToken_eq_ok hextract, hdecode, hexpired]
  by_cases hlive : ⌊now⌋ ≤ ⌊session.since + d.settings.accessTokenExpireMinutes * 60⌋
  · rw [decide_eq_false (not_lt.mpr hlive), if_neg Bool.false_ne_true]
    constructor
    · rintro ⟨hfree, claims, hclaims, hrest⟩
      exact ⟨rfl, (hnamed claims (Option.some.inj hclaims).symm).mp hrest, hlive, hfree⟩
    · rintro ⟨-, huser, -, hfree⟩
      exact ⟨hfree, _, rfl, (hnamed _ rfl).mpr huser⟩
  · rw [decide_eq_true (not_le.mp hlive), if_pos rfl]
    constructor
    · rintro ⟨-, claims, hclaims, -⟩
      cases hclaims
    · rintro ⟨-, -, hle, -⟩
      exact absurd hle hlive

/-- Without cookies the gateway names nobody. -/
theorem validate_without (redis : List RedisEntry) (now : Time) (method path : String)
    (user : CurrentUser) : validate d redis now (browserRequest [] now method path) ≠ .ok user := by
  intro hok
  cases hok

end Invariant

/-! ## All runs -/

section Runs

variable {d : Deployment} {settings : CookieSettings} {origin : Origin}

/-- **Being signed in lasts as long as its record.**  After every run a refresh of the
    browser is answered exactly while the last login or refresh is less than
    `refresh_token_expire_days` ago and no logout has come since, and what it gives is a pair
    for the user who logged in. -/
theorem session_refreshes_iff (hread : Readable d) (hfits : Fits d settings origin)
    (run : List Event) (hrun : EveryStep (observe d settings origin) (Fine d) opened run)
    (env : Env) (henv : Untroubled (observed d settings origin run).1.service env)
    (answer : Answer) :
    (answered d (observed d settings origin run).1 env .refresh).2 = some answer ↔
      ∃ session, (observed d settings origin run).2 = some session ∧
        env.clock < session.since + d.settings.refreshTokenExpireDays * 86400 ∧
        answer = ⟨none, some (tokenPair d ⟨session.user, env.refreshJti, env.clock⟩)⟩ := by
  have hsigned := signed_observed hread hfits hrun
  rcases hsession : (observed d settings origin run).2 with _ | session
  · rw [refresh_without (hsigned.out hsession)]
    simp
  obtain ⟨jti, received, hbacked⟩ := hsigned.backed session hsession
  by_cases hlive : env.clock < session.since + d.settings.refreshTokenExpireDays * 86400
  · obtain ⟨t, -, -, hanswered⟩ :=
      hbacked.refresh_live hread hfits.names hsigned.stored.ids henv hlive
    rw [hanswered]
    simp [hlive, eq_comm]
  · rw [hbacked.refresh_expired hread hfits.names hlive]
    simp [hlive]

/-- **The gateway names the user who is signed in, or nobody.**  After every run, whatever
    fails in it and whatever others do, the cookies of the browser validate exactly while it
    has not been closed since they were set, the access token has not expired, in whole
    seconds, and it is not blacklisted; and the identity is that of the user who logged in. -/
theorem session_names_iff (hread : Readable d) (hfits : Fits d settings origin)
    (run : List Event) (now : Time) (method path : String)
    (hpath : path.toList.head? = some '/') (user : CurrentUser) :
    validate d (observed d settings origin run).1.service.redis now
        (browserRequest (observed d settings origin run).1.jar now method path) = .ok user ↔
      ∃ session, (observed d settings origin run).2 = some session ∧ session.access = true ∧
        user = ⟨session.user.id, session.user.role⟩ ∧
        ⌊now⌋ ≤ ⌊session.since + d.settings.accessTokenExpireMinutes * 60⌋ ∧
        isTokenBlacklisted (observed d settings origin run).1.service.redis now
          (accessToken d session) = false := by
  have hcarried := carried_observed hread hfits run
  rcases hsession : (observed d settings origin run).2 with _ | session
  · rw [hcarried.out hsession]
    simp [validate_without]
  · obtain ⟨jti, received, hheld⟩ := hcarried.held session hsession
    rw [hheld.validate_iff hread hfits.names _ now method hpath user]
    simp

end Runs

/-! ## A week -/

/-- The tokens of python-jose are readable. -/
theorem readable_deployment (hmac : TokenTexts.Hmac) (pwdContext : PwdContext)
    (settings : Settings) (h : settings.jwtAlgorithm ≠ "") :
    Readable (TokenTexts.deployment hmac pwdContext settings) where
  access _ _ := TokenTexts.decode_encode hmac h _ settings.jwtSecretKey _
  refresh _ _ := TokenTexts.decode_encode hmac h _ settings.jwtSecretKey _
  accessText _ := TokenTexts.sign_ne_empty hmac _ settings.jwtSecretKey settings.jwtAlgorithm
  refreshText _ := TokenTexts.sign_ne_empty hmac _ settings.jwtSecretKey settings.jwtAlgorithm

open CampusHire.TokenTexts (firstDeployment joined)

theorem readable_first : Readable firstDeployment :=
  readable_deployment joined ⟨fun _ password => password, fun _ _ => true⟩
    { jwtSecretKey := "secret" } (by decide)

def campusOrigin : Origin := ⟨"campus", false⟩

theorem fits_first : Fits firstDeployment {} campusOrigin := ⟨by decide, by decide, nofun, rfl⟩

/-- A student registers elsewhere and logs in. -/
def signIn : List Event :=
  [.other ⟨.register { email := "s@campus", password := "password" }, .untroubled (.ofNat 1) 0⟩,
    .browser (.login "s@campus" "password") (.untroubled (.ofNat 2) 10) 11]

theorem signIn_session : (observed firstDeployment {} campusOrigin signIn).2 =
    some ⟨⟨.ofNat 1, "s@campus", "password", .student, true⟩, 10, true⟩ := by
  simp only [signIn, observed, List.foldl_cons, List.foldl_nil, observe, step, follow, answered,
    exchange_login]
  rfl

theorem signIn_fine :
    EveryStep (observe firstDeployment {} campusOrigin) (Fine firstDeployment) opened signIn := by
  refine ⟨?_, ⟨⟨fun _ => rfl, ?_, ?_⟩, ?_⟩, trivial⟩
  · intro token hpresented
    cases hpresented
  · exact List.not_mem_nil
  · exact List.not_mem_nil
  · norm_num [Env.untroubled]

/-- A minute later the gateway names the student. -/
theorem signIn_names_student :
    validate firstDeployment
        (observed firstDeployment {} campusOrigin signIn).1.service.redis 70
        (browserRequest (observed firstDeployment {} campusOrigin signIn).1.jar 70 "GET"
          "/api/v1/applications") = .ok ⟨.ofNat 1, .student⟩ :=
  (session_names_iff readable_first fits_first signIn 70 "GET" "/api/v1/applications"
    rfl ⟨.ofNat 1, .student⟩).mpr ⟨_, signIn_session, rfl, rfl, by decide +kernel, rfl⟩

/-- Then the browser is closed. -/
def signInAndClose : List Event := signIn ++ [.close]

theorem signInAndClose_observed : observed firstDeployment {} campusOrigin signInAndClose =
    observe firstDeployment {} campusOrigin (observed firstDeployment {} campusOrigin signIn)
      .close :=
  List.foldl_append

theorem signInAndClose_fine : EveryStep (observe firstDeployment {} campusOrigin)
    (Fine firstDeployment) opened signInAndClose := by
  obtain ⟨hother, hlogin, -⟩ := signIn_fine
  exact ⟨hother, hlogin, trivial, trivial⟩

theorem signInAndClose_records : (observed firstDeployment {} campusOrigin
    signInAndClose).1.service.refreshTokens =
      [⟨.ofNat 2, .ofNat 1, (UUID.ofNat 2).str, 10 + 7 * 86400, false⟩] := by
  rfl

/-- Five days later the student is still signed in. -/
theorem closed_browser_refreshes :
    (answered firstDeployment (observed firstDeployment {} campusOrigin signInAndClose).1
      (.untroubled (.ofNat 3) 432000) .refresh).2 =
        some ⟨none, some (tokenPair firstDeployment
          ⟨⟨.ofNat 1, "s@campus", "password", .student, true⟩, .ofNat 3, 432000⟩)⟩ := by
  have henv : Untroubled (observed firstDeployment {} campusOrigin signInAndClose).1.service
      (.untroubled (.ofNat 3) 432000) := by
    refine ⟨fun _ => rfl, ?_, ?_⟩
    · rw [signInAndClose_records]
      decide
    · rw [signInAndClose_records]
      decide
  refine (session_refreshes_iff readable_first fits_first signInAndClose signInAndClose_fine _
    henv _).mpr ⟨⟨⟨.ofNat 1, "s@campus", "password", .student, true⟩, 10, false⟩, ?_, ?_, rfl⟩
  · rw [signInAndClose_observed, observe, follow, signIn_session]
    rfl
  · norm_num [Env.untroubled, firstDeployment, TokenTexts.deployment]

end CampusHire.BrowserSession
