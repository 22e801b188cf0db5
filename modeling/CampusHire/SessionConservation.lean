import CampusHire.Sessions

/-!
# Sessions are conserved

A login opens a session, a refresh replaces the record of a session by a new one, and a
logout revokes it.  In between there are forged, expired and used tokens, which change
nothing.  A token carries the `jti` of the call of `issue_tokens` that signed it, and the
record with that `jti` is of the user of that call (`Linked`), so the record that a token
leads to is one of the user whom the token names.

`Effect` says once what a request can do to the records; the count of the unrevoked ones
follows (`sessions_conserved`).
-/

namespace CampusHire.SessionConservation

open CampusHire AuthService Sessions

section Runs

variable (d : Deployment)

/-! ## What a request presents -/

/-- An empty cookie is none. -/
def nonEmpty (cookie : Option String) : Option String :=
  cookie.bind fun token => if token = "" then none else some token

/-- The refresh token of a request, if it has one. -/
def presented : Request → Option String
  | .refresh cookies => nonEmpty (cookies.lookup d.settings.refreshTokenCookieName)
  | .logout _ cookies => nonEmpty (cookies.lookup d.settings.refreshTokenCookieName)
  | _ => none

/-- The record of a correctly signed, unexpired refresh token. -/
def recordOf (s : State) (now : Time) (token : String) : Option RefreshToken :=
  (d.decode token now).bind fun claims =>
    if claims.type = some "refresh" then claims.jti.bind (findRecord s) else none

/-! ## What is counted -/

/-- The user of a successful login. -/
def loginOf (s : State) (h : Handled) : Option UUID :=
  match h.request with
  | .login _ _ => (serve d s h.env h.request).2.toOption.bind fun answer => answer.user.map User.id
  | _ => none

/-- The user whose session a logout ends: the one of an unrevoked record that a correctly
    signed, unexpired refresh token leads to. -/
def logoutOf (s : State) (h : Handled) : Option UUID :=
  match h.request with
  | .logout _ _ =>
      ((presented d h.request).bind (recordOf d s h.env.clock)).bind fun record =>
        if record.revoked then none else some record.userId
  | _ => none

/-- How often a request of the run is for the user, in the state in which it is handled. -/
def occurrences (userOf : State → Handled → Option UUID) (user : UUID) : State → List Handled → Nat
  | _, [] => 0
  | s, h :: rest =>
      (if userOf s h = some user then 1 else 0) + occurrences userOf user (handle d s h) rest

/-- The records of the user with `revoked = False`. -/
def unrevoked (user : UUID) (s : State) : Nat :=
  s.refreshTokens.countP fun r => decide (r.userId = user) && !r.revoked

/-! ## Runs -/

/-- No infrastructure failure, fresh identifiers, and a signature that nobody else can
    make. -/
structure Sound (run : List Handled) : Prop where
  untroubled : ∀ h ∈ run, ∀ call, h.env.fails call = false
  jtis : (run.map fun h => h.env.refreshJti).Nodup
  ids : (run.map fun h => h.env.tokenId).Nodup
  genuine : ∀ before h after, run = before ++ h :: after →
    ∀ token, presented d h.request = some token → Genuine d (execute d State.empty before) token

/-! ## What a request does to the records -/

def newRecord (env : Env) (user : User) : RefreshToken :=
  ⟨env.tokenId, user.id, env.refreshJti.str,
    env.clock + d.settings.refreshTokenExpireDays * 86400, false⟩

/-- A request leaves the records as they are, or it adds one, or it replaces an unrevoked
    one by one of the same user, or it revokes an unrevoked one. -/
inductive Effect (s : State) (h : Handled) (t : State) : Prop where
  | nothing (hlogin : loginOf d s h = none) (hlogout : logoutOf d s h = none)
      (hrecords : t.refreshTokens = s.refreshTokens) (hissued : t.issued = s.issued)
  | login (user : User) (hlogin : loginOf d s h = some user.id) (hlogout : logoutOf d s h = none)
      (hrecords : t.refreshTokens = s.refreshTokens ++ [newRecord d h.env user])
      (hissued : t.issued = s.issued ++ [⟨user, h.env.refreshJti, h.env.clock⟩])
  | refresh (record : RefreshToken) (user : User) (hlogin : loginOf d s h = none)
      (hlogout : logoutOf d s h = none) (hmem : record ∈ s.refreshTokens)
      (hlive : record.revoked = false) (hsame : record.userId = user.id)
      (hrecords : t.refreshTokens =
        (revokeRecord s record).refreshTokens ++ [newRecord d h.env user])
      (hissued : t.issued = s.issued ++ [⟨user, h.env.refreshJti, h.env.clock⟩])
  | logout (record : RefreshToken) (hlogin : loginOf d s h = none)
      (hlogout : logoutOf d s h = some record.userId) (hmem : record ∈ s.refreshTokens)
      (hlive : record.revoked = false)
      (hrecords : t.refreshTokens = (revokeRecord s record).refreshTokens)
      (hissued : t.issued = s.issued)

/-- What links tokens to records after the requests `used`. -/
structure Linked (used : List Handled) (s : State) : Prop where
  ids : (s.refreshTokens.map RefreshToken.id).Nodup
  idUsed : ∀ r ∈ s.refreshTokens, r.id ∈ used.map fun h => h.env.tokenId
  jtiUsed : ∀ r ∈ s.refreshTokens, r.tokenJti ∈ used.map fun h => h.env.refreshJti.str
  issueUsed : ∀ i ∈ s.issued, i.jti ∈ used.map fun h => h.env.refreshJti
  owner : ∀ i ∈ s.issued, ∀ r ∈ s.refreshTokens, r.tokenJti = i.jti.str → r.userId = i.user.id

/-- The identifiers of the request are not among those of the requests before. -/
structure Fresh (used : List Handled) (env : Env) : Prop where
  jti : env.refreshJti ∉ used.map fun h => h.env.refreshJti
  id : env.tokenId ∉ used.map fun h => h.env.tokenId

theorem fresh_jti_str {used : List Handled} {env : Env} (h : Fresh used env) :
    env.refreshJti.str ∉ used.map fun h => h.env.refreshJti.str := by
  intro hmem
  obtain ⟨other, hother, heq⟩ := List.mem_map.mp hmem
  refine h.jti (List.mem_map.mpr ⟨other, hother, ?_⟩)
  have hparse := congrArg UUID.parse heq
  rw [UUID.parse_str, UUID.parse_str] at hparse
  exact Option.some.inj hparse

omit d in
theorem linked_empty : Linked [] State.empty where
  ids := List.nodup_nil
  idUsed := by simp [State.empty]
  jtiUsed := by simp [State.empty]
  issueUsed := by simp [State.empty]
  owner := by simp [State.empty]

omit d in
theorem Linked.id_ne {used : List Handled} {s : State} {env : Env} (h : Linked used s)
    (hfresh : Fresh used env) : ∀ r ∈ s.refreshTokens, r.id ≠ env.tokenId := by
  intro r hr heq
  exact hfresh.id (heq ▸ h.idUsed r hr)

omit d in
theorem Linked.jti_ne {used : List Handled} {s : State} {env : Env} (h : Linked used s)
    (hfresh : Fresh used env) : ∀ r ∈ s.refreshTokens, r.tokenJti ≠ env.refreshJti.str := by
  intro r hr heq
  exact fresh_jti_str hfresh (heq ▸ h.jtiUsed r hr)

omit d in
theorem Linked.more {used : List Handled} {s t : State} (h : Linked used s) (next : Handled)
    (hrecords : t.refreshTokens = s.refreshTokens) (hissued : t.issued = s.issued) :
    Linked (used ++ [next]) t := by
  refine ⟨hrecords ▸ h.ids, ?_, ?_, ?_, ?_⟩
  · intro r hr
    rw [List.map_append]
    exact List.mem_append_left _ (h.idUsed r (hrecords ▸ hr))
  · intro r hr
    rw [List.map_append]
    exact List.mem_append_left _ (h.jtiUsed r (hrecords ▸ hr))
  · intro i hi
    rw [List.map_append]
    exact List.mem_append_left _ (h.issueUsed i (hissued ▸ hi))
  · intro i hi r hr
    exact h.owner i (hissued ▸ hi) r (hrecords ▸ hr)

omit d in
theorem Linked.revoke {used : List Handled} {s : State} (h : Linked used s)
    (record : RefreshToken) : Linked used (revokeRecord s record) := by
  refine ⟨?_, ?_, ?_, h.issueUsed, ?_⟩
  · rw [map_revokeRecord fun _ => rfl]
    exact h.ids
  · exact Table.refers_of_map_eq h.idUsed (map_revokeRecord (fun _ => rfl) s record)
  · exact Table.refers_of_map_eq h.jtiUsed (map_revokeRecord (fun _ => rfl) s record)
  · intro i hi r hr hjti
    rcases Table.mem_modify.mp hr with ⟨hold, -⟩ | ⟨old, hold, -, rfl⟩
    · exact h.owner i hi r hold hjti
    · exact h.owner i hi old hold hjti

theorem Linked.issue {used : List Handled} {s t : State} {next : Handled} (h : Linked used s)
    (hfresh : Fresh used next.env) (user : User)
    (hrecords : t.refreshTokens = s.refreshTokens ++ [newRecord d next.env user])
    (hissued : t.issued = s.issued ++ [⟨user, next.env.refreshJti, next.env.clock⟩]) :
    Linked (used ++ [next]) t := by
  refine ⟨?_, ?_, ?_, ?_, ?_⟩
  · rw [hrecords]
    exact Table.nodup_append_fresh h.ids (h.id_ne hfresh)
  · rw [hrecords, List.map_append]
    exact Table.refers_append h.idUsed (List.subset_append_left _ _) (by simp [newRecord])
  · rw [hrecords, List.map_append]
    exact Table.refers_append h.jtiUsed (List.subset_append_left _ _) (by simp [newRecord])
  · rw [hissued, List.map_append]
    exact Table.refers_append h.issueUsed (List.subset_append_left _ _) (by simp)
  · -- the new record is of the new issue, and of no other
    intro i hi r hr hjti
    rw [hissued] at hi
    rw [hrecords] at hr
    rcases List.mem_append.mp hi with hi | hi
    · rcases List.mem_append.mp hr with hr | hr
      · exact h.owner i hi r hr hjti
      · rw [List.mem_singleton.mp hr] at hjti
        refine absurd (List.mem_map.mpr ?_) (fresh_jti_str hfresh)
        obtain ⟨other, hother, heq⟩ := List.mem_map.mp (h.issueUsed i hi)
        exact ⟨other, hother, (congrArg UUID.str heq).trans hjti.symm⟩
    · rw [List.mem_singleton.mp hi] at hjti ⊢
      rcases List.mem_append.mp hr with hr | hr
      · exact absurd hjti (h.jti_ne hfresh r hr)
      · rw [List.mem_singleton.mp hr]
        rfl

/-- `issue_tokens` succeeds with fresh identifiers. -/
theorem issueTokens_fresh {used : List Handled} {s : State} {env : Env} (user : User)
    (hlinked : Linked used s) (hfresh : Fresh used env) (hfails : env.fails .issue = false) :
    (issueTokens d s env user).1.refreshTokens = s.refreshTokens ++ [newRecord d env user] ∧
      (issueTokens d s env user).2 = .ok (tokenPair d ⟨user, env.refreshJti, env.clock⟩) := by
  have hid : Table.insertRow RefreshToken.id (newRecord d env user) s.refreshTokens =
      some (s.refreshTokens ++ [newRecord d env user]) :=
    Table.insertRow_eq_some.mpr ⟨hlinked.id_ne hfresh, rfl⟩
  have hjti : Table.insertRow RefreshToken.tokenJti (newRecord d env user) s.refreshTokens =
      some (s.refreshTokens ++ [newRecord d env user]) :=
    Table.insertRow_eq_some.mpr ⟨hlinked.jti_ne hfresh, rfl⟩
  rw [newRecord] at hid hjti
  simp only [issueTokens, hfails, Bool.false_eq_true, if_false, hid, hjti, newRecord, and_self]

/-! ## One request -/

theorem registerUser_records (s : State) (env : Env) (data : RegisterRequest) :
    (registerUser d s env data).1.refreshTokens = s.refreshTokens ∧
      (registerUser d s env data).1.issued = s.issued := by
  simp only [registerUser]
  split
  · exact ⟨rfl, rfl⟩
  split
  · exact ⟨rfl, rfl⟩
  split
  · exact ⟨rfl, rfl⟩
  · rename_i hins
    exact (insertUser_ok hins).2

variable {d}

/-- The record of a genuine token is the one with its `jti`: an access token has none. -/
theorem recordOf_eq {s : State} {now : Time} {token : String} {claims : Payload}
    (hgenuine : Genuine d s token) (hdecode : d.decode token now = some claims) :
    recordOf d s now token = claims.jti.bind (findRecord s) := by
  obtain ⟨i, -, rfl | rfl⟩ := hgenuine claims (Jose.decode_eq_some.mp hdecode).1
  · rw [recordOf, hdecode]
    simp [Issue.accessClaims, accessClaims]
  · rw [recordOf, hdecode]
    simp [Issue.refreshClaims, refreshClaims]

theorem recordOf_mem {s : State} {now : Time} {token : String} {record : RefreshToken}
    (h : recordOf d s now token = some record) : record ∈ s.refreshTokens := by
  obtain ⟨claims, -, hrecord⟩ := Option.bind_eq_some_iff.mp h
  split at hrecord
  · obtain ⟨jti, -, hfound⟩ := Option.bind_eq_some_iff.mp hrecord
    exact Table.mem_of_lookup hfound
  · cases hrecord

/-- The record that a genuine token leads to is of the user whom the token names: both are
    of the call of `issue_tokens` that signed the token. -/
theorem userId_of_token {s : State} {now : Time} {token jti : String} {payload : Payload}
    {record : RefreshToken} {user : User}
    (howner : ∀ i ∈ s.issued, ∀ r ∈ s.refreshTokens, r.tokenJti = i.jti.str → r.userId = i.user.id)
    (hgenuine : Genuine d s token) (hjti : refreshJti d now token = .ok (payload, jti))
    (hrecord : findRecord s jti = some record) (huser : tokenUser s payload = .ok user) :
    record.userId = user.id := by
  obtain ⟨hdecode, htype, hpayload, -⟩ := refreshJti_ok hjti
  obtain ⟨id, hsub, hlookup⟩ := tokenUser_ok huser
  obtain ⟨i, hi, rfl | rfl⟩ := hgenuine payload (Jose.decode_eq_some.mp hdecode).1
  · simp [Issue.accessClaims, accessClaims] at htype
  have hrecordUser : record.userId = i.user.id := by
    apply howner i hi record (Table.mem_of_lookup hrecord)
    rw [Table.key_of_lookup hrecord]
    exact (Option.some.inj hpayload).symm
  have hid : i.user.id = id := by
    simpa [Issue.refreshClaims, refreshClaims] using hsub
  rw [hrecordUser, hid, Table.key_of_lookup hlookup]

/-- **A refresh**: it fails and changes nothing, or it replaces the record of the presented
    token by a new one of the same user. -/
theorem refreshSession_effect {used : List Handled} {s : State} {env : Env} {token : String}
    (hlinked : Linked used s) (hfresh : Fresh used env) (hfails : ∀ call, env.fails call = false)
    (hgenuine : Genuine d s token) :
    (∃ e, refreshSession d s env token = (s, .error e)) ∨
      ∃ record user pair, recordOf d s env.clock token = some record ∧ record.revoked = false ∧
        record.userId = user.id ∧
        (refreshSession d s env token).1.refreshTokens =
          (revokeRecord s record).refreshTokens ++ [newRecord d env user] ∧
        (refreshSession d s env token).1.issued =
          s.issued ++ [⟨user, env.refreshJti, env.clock⟩] ∧
        (refreshSession d s env token).2 = .ok pair := by
  rcases refreshSession_cases d s env token with herror | ⟨payload, jti, record, user, hjti, hlive,
    huser, ⟨hreload, -⟩ | heq⟩
  · exact Or.inl herror
  · rw [hfails] at hreload
    cases hreload
  right
  obtain ⟨hdecode, -, hpayload, -⟩ := refreshJti_ok hjti
  obtain ⟨hfound, hunrevoked⟩ := liveRecord_ok hlive
  have hsame : record.userId = user.id :=
    userId_of_token hlinked.owner hgenuine hjti hfound huser
  obtain ⟨hrecords, hok⟩ :=
    issueTokens_fresh d user (hlinked.revoke record) hfresh (hfails .issue)
  refine ⟨record, user, tokenPair d ⟨user, env.refreshJti, env.clock⟩, ?_, hunrevoked, hsame,
    ?_, ?_, ?_⟩
  · rw [recordOf_eq hgenuine hdecode, hpayload, Option.bind_some, hfound]
  · rw [heq, hrecords]
  · rw [heq]
    exact (issueTokens_state d _ env user).2
  · rw [heq, hok]

/-- **A logout**: it revokes the record of the presented token, unless there is none or it
    is revoked. -/
theorem revokeRefreshToken_effect {s : State} {env : Env} {cookie : Option String}
    (hfails : ∀ call, env.fails call = false)
    (hgenuine : ∀ token, nonEmpty cookie = some token →
      Genuine d s token) :
    (∃ record, (nonEmpty cookie).bind (recordOf d s env.clock) =
        some record ∧ record.revoked = false ∧
        (revokeRefreshToken d s env cookie).1 = revokeRecord s record) ∨
      ((∀ record, (nonEmpty cookie).bind
          (recordOf d s env.clock) = some record → record.revoked = true) ∧
        (revokeRefreshToken d s env cookie).1 = s) := by
  unfold revokeRefreshToken
  rcases cookie with _ | token
  · exact Or.inr ⟨by simp [nonEmpty], rfl⟩
  by_cases hne : token = ""
  · exact Or.inr ⟨by simp [nonEmpty, hne], by simp [hne]⟩
  have hpresented : nonEmpty (some token) = some token := by
    simp [nonEmpty, hne]
  simp only [hpresented, if_neg hne, Option.bind_some]
  rcases hdecode : d.decode token env.clock with _ | claims
  · exact Or.inr ⟨by simp [recordOf, hdecode], rfl⟩
  rw [recordOf_eq (hgenuine token hpresented) hdecode]
  rcases hjti : claims.jti with _ | jti
  · exact Or.inr ⟨by simp, by simp [hjti]⟩
  have hempty : jti ≠ "" := by
    obtain ⟨i, -, rfl | rfl⟩ := hgenuine token hpresented claims (Jose.decode_eq_some.mp hdecode).1
    · cases hjti
    · rw [← Option.some.inj hjti]
      exact UUID.str_ne_empty i.jti
  simp only [hjti, if_neg hempty, hfails, Bool.false_eq_true, if_false, Option.bind_some]
  rcases hfound : findRecord s jti with _ | record
  · exact Or.inr ⟨by simp, rfl⟩
  rcases hrevoked : record.revoked with _ | _
  · exact Or.inl ⟨record, rfl, hrevoked, by simp [hrevoked]⟩
  · refine Or.inr ⟨?_, by simp [hrevoked]⟩
    intro other hother
    rw [← Option.some.inj hother]
    exact hrevoked

theorem effect_handle {used : List Handled} {s : State} {h : Handled} (hlinked : Linked used s)
    (hfresh : Fresh used h.env) (hfails : ∀ call, h.env.fails call = false)
    (hgenuine : ∀ token, presented d h.request = some token → Genuine d s token) :
    Effect d s h (handle d s h) := by
  obtain ⟨request, env⟩ := h
  cases request with
  | register data =>
    obtain ⟨hrecords, hissued⟩ := registerUser_records d s env data
    exact .nothing rfl rfl hrecords hissued
  | login email password =>
    rcases hauth : authenticate d s env email password with e | user
    · refine .nothing ?_ rfl ?_ ?_
      · simp [loginOf, serve, hauth, Except.toOption]
      · simp [handle, serve, hauth]
      · simp [handle, serve, hauth]
    · obtain ⟨hrecords, hok⟩ := issueTokens_fresh d user hlinked hfresh (hfails .issue)
      refine .login user ?_ rfl ?_ ?_
      · simp [loginOf, serve, hauth, hok, Except.toOption, Except.map]
      · simp only [handle, serve, hauth, hrecords]
      · simp only [handle, serve, hauth]
        exact (issueTokens_state d s env user).2
  | refresh cookies =>
    rcases hcookie : cookies.lookup d.settings.refreshTokenCookieName with _ | token
    · exact .nothing rfl rfl (by simp [handle, serve, hcookie]) (by simp [handle, serve, hcookie])
    by_cases hne : token = ""
    · exact .nothing rfl rfl (by simp [handle, serve, hcookie, hne])
        (by simp [handle, serve, hcookie, hne])
    have hserve : handle d s ⟨.refresh cookies, env⟩ = (refreshSession d s env token).1 := by
      simp [handle, serve, hcookie, hne]
    rw [hserve]
    rcases refreshSession_effect hlinked hfresh hfails
      (hgenuine token (by simp [presented, nonEmpty, hcookie, hne])) with
      ⟨e, heq⟩ | ⟨record, user, pair, hrecord, hlive, hsame, hrecords, hissued, -⟩
    · rw [heq]
      exact .nothing rfl rfl rfl rfl
    · exact .refresh record user rfl rfl (recordOf_mem hrecord) hlive hsame hrecords hissued
  | logout authorization cookies =>
    have hrevoke : ∀ redis, Effect d s ⟨.logout authorization cookies, env⟩
        (revokeRefreshToken d { s with redis := redis } env
          (cookies.lookup d.settings.refreshTokenCookieName)).1 := by
      intro redis
      rcases revokeRefreshToken_effect (s := { s with redis := redis }) hfails hgenuine with
        ⟨record, hrecord, hlive, heq⟩ | ⟨hrevoked, heq⟩
      · have hlogout : logoutOf d s ⟨.logout authorization cookies, env⟩ = some record.userId := by
          change ((nonEmpty _).bind (recordOf d s env.clock)).bind _ = _
          rw [show (nonEmpty _).bind (recordOf d s env.clock) = some record from hrecord]
          simp [hlive]
        obtain ⟨token, -, hfound⟩ := Option.bind_eq_some_iff.mp hrecord
        rw [heq]
        exact .logout record rfl hlogout (recordOf_mem hfound) hlive rfl rfl
      · have hlogout : logoutOf d s ⟨.logout authorization cookies, env⟩ = none := by
          change ((nonEmpty _).bind (recordOf d s env.clock)).bind _ = _
          rw [Option.bind_eq_none_iff]
          intro record hrecord
          exact if_pos (hrevoked record hrecord)
        rw [heq]
        exact .nothing rfl hlogout rfl rfl
    exact hrevoke _

/-! ## The laws of one request -/

/-- A successful refresh revokes the record of the presented token and no other, and adds an
    unrevoked one of the same user; a failing one changes no record. -/
structure RefreshLaw (s : State) (h : Handled) : Prop where
  success : ∀ answer, (serve d s h.env h.request).2 = .ok answer →
    ∃ token record new, presented d h.request = some token ∧
      recordOf d s h.env.clock token = some record ∧ record.revoked = false ∧
      (handle d s h).refreshTokens =
        (s.refreshTokens.map fun r => if r = record then { r with revoked := true } else r) ++
          [new] ∧
      new.userId = record.userId ∧ new.revoked = false
  failure : ∀ e, (serve d s h.env h.request).2 = .error e →
    (handle d s h).refreshTokens = s.refreshTokens

theorem refreshLaw_of_linked {used : List Handled} {s : State} {env : Env}
    {cookies : List (String × String)} (hlinked : Linked used s) (hfresh : Fresh used env)
    (hfails : ∀ call, env.fails call = false)
    (hgenuine : ∀ token, presented d (.refresh cookies) = some token → Genuine d s token) :
    RefreshLaw (d := d) s ⟨.refresh cookies, env⟩ := by
  rcases hcookie : cookies.lookup d.settings.refreshTokenCookieName with _ | token
  · refine ⟨?_, ?_⟩
    · intro answer hok
      simp [serve, hcookie] at hok
    · intro e _
      simp [handle, serve, hcookie]
  by_cases hne : token = ""
  · refine ⟨?_, ?_⟩
    · intro answer hok
      simp [serve, hcookie, hne] at hok
    · intro e _
      simp [handle, serve, hcookie, hne]
  have hpresented : presented d (.refresh cookies) = some token := by
    simp [presented, nonEmpty, hcookie, hne]
  have hserve : serve d s env (.refresh cookies) = ((refreshSession d s env token).1,
      (refreshSession d s env token).2.map fun pair => { cookies := some pair }) := by
    simp [serve, hcookie, hne]
  rcases refreshSession_effect hlinked hfresh hfails (hgenuine token hpresented) with
    ⟨e, heq⟩ | ⟨record, user, pair, hrecord, hlive, hsame, hrecords, -, hok⟩
  · refine ⟨?_, ?_⟩
    · intro answer hanswer
      rw [hserve, heq] at hanswer
      cases hanswer
    · intro e' _
      rw [handle, hserve, heq]
  · refine ⟨?_, ?_⟩
    · intro answer _
      refine ⟨token, record, newRecord d env user, hpresented, hrecord, hlive, ?_, hsame.symm, rfl⟩
      rw [handle, hserve, hrecords, revokeRecord,
        Table.modify_eq_map hlinked.ids (recordOf_mem hrecord)]
    · intro e herror
      rw [hserve, hok] at herror
      cases herror

theorem linked_step {used : List Handled} {s t : State} {h : Handled} (hlinked : Linked used s)
    (hfresh : Fresh used h.env) (heffect : Effect d s h t) : Linked (used ++ [h]) t := by
  cases heffect with
  | nothing _ _ hrecords hissued => exact hlinked.more h hrecords hissued
  | login user _ _ hrecords hissued => exact hlinked.issue d hfresh user hrecords hissued
  | refresh record user _ _ _ _ _ hrecords hissued =>
    exact (hlinked.revoke record).issue d hfresh user hrecords hissued
  | logout record _ _ _ _ hrecords hissued => exact (hlinked.revoke record).more h hrecords hissued

/-- A revoked record is kept as it is. -/
theorem revoked_step {s t : State} {h : Handled} {r : RefreshToken} (heffect : Effect d s h t)
    (hr : r ∈ s.refreshTokens) (hrevoked : r.revoked = true) : r ∈ t.refreshTokens := by
  have hkept : ∀ record, r ∈ (revokeRecord s record).refreshTokens := by
    intro record
    by_cases hid : r.id = record.id
    · refine Table.mem_modify.mpr (Or.inr ⟨r, hr, hid, ?_⟩)
      obtain ⟨id, userId, jti, expiresAt, revoked⟩ := r
      cases hrevoked
      rfl
    · exact Table.mem_modify.mpr (Or.inl ⟨hr, hid⟩)
  cases heffect with
  | nothing _ _ hrecords _ => rwa [hrecords]
  | login user _ _ hrecords _ =>
    rw [hrecords]
    exact List.mem_append_left _ hr
  | refresh record user _ _ _ _ _ hrecords _ =>
    rw [hrecords]
    exact List.mem_append_left _ (hkept record)
  | logout record _ _ _ _ hrecords _ =>
    rw [hrecords]
    exact hkept record

theorem unrevoked_add (user : UUID) (rows : List RefreshToken) (env : Env) (u : User) :
    (rows ++ [newRecord d env u]).countP (fun r => decide (r.userId = user) && !r.revoked) =
      rows.countP (fun r => decide (r.userId = user) && !r.revoked) +
        (if some u.id = some user then 1 else 0) := by
  rw [List.countP_append, List.countP_singleton]
  by_cases hsame : u.id = user <;> simp [newRecord, hsame]

theorem unrevoked_revoke {s : State} {record : RefreshToken} (user : UUID)
    (hids : (s.refreshTokens.map RefreshToken.id).Nodup) (hmem : record ∈ s.refreshTokens)
    (hlive : record.revoked = false) :
    unrevoked user (revokeRecord s record) + (if some record.userId = some user then 1 else 0) =
      unrevoked user s := by
  have hcount := Table.countP_modify (f := fun r : RefreshToken => { r with revoked := true })
    (fun r => decide (r.userId = user) && !r.revoked) hids hmem
  simpa [unrevoked, revokeRecord, hlive] using hcount

/-- **Conservation of sessions, one request.** -/
theorem unrevoked_step {s t : State} {h : Handled} (user : UUID)
    (hids : (s.refreshTokens.map RefreshToken.id).Nodup) (heffect : Effect d s h t) :
    unrevoked user t + (if logoutOf d s h = some user then 1 else 0) =
      unrevoked user s + (if loginOf d s h = some user then 1 else 0) := by
  cases heffect with
  | nothing hlogin hlogout hrecords _ => simp [hlogin, hlogout, unrevoked, hrecords]
  | login u hlogin hlogout hrecords _ =>
    rw [hlogin, hlogout, unrevoked, hrecords, unrevoked_add]
    rfl
  | refresh record u hlogin hlogout hmem hlive hsame hrecords _ =>
    have hrevoke := unrevoked_revoke user hids hmem hlive
    rw [hsame] at hrevoke
    rw [hlogin, hlogout, unrevoked, hrecords, unrevoked_add]
    exact hrevoke
  | logout record hlogin hlogout hmem hlive hrecords _ =>
    have hrevoke := unrevoked_revoke user hids hmem hlive
    rw [hlogin, hlogout, unrevoked, hrecords]
    exact hrevoke

/-! ## All runs -/

theorem execute_concat (s : State) (run : List Handled) (h : Handled) :
    execute d s (run ++ [h]) = handle d (execute d s run) h := by
  rw [execute, List.foldl_append]
  rfl

theorem occurrences_concat (userOf : State → Handled → Option UUID) (user : UUID) (s : State)
    (run : List Handled) (h : Handled) :
    occurrences d userOf user s (run ++ [h]) = occurrences d userOf user s run +
      (if userOf (execute d s run) h = some user then 1 else 0) := by
  induction run generalizing s with
  | nil => exact Nat.add_comm _ 0
  | cons first run ih =>
    simp only [List.cons_append, occurrences, ih (handle d s first)]
    rw [Nat.add_assoc]
    rfl

theorem fresh_of_sound {run before after : List Handled} {h : Handled} (hsound : Sound d run)
    (heq : run = before ++ h :: after) : Fresh before h.env := by
  have hjtis := hsound.jtis
  have hids := hsound.ids
  rw [heq, List.map_append, List.map_cons, List.nodup_middle, List.nodup_cons] at hjtis hids
  exact ⟨fun hmem => hjtis.1 (List.mem_append_left _ hmem),
    fun hmem => hids.1 (List.mem_append_left _ hmem)⟩

theorem effect_of_sound {run before after : List Handled} {h : Handled} (hsound : Sound d run)
    (heq : run = before ++ h :: after) (hlinked : Linked before (execute d State.empty before)) :
    Effect d (execute d State.empty before) h (execute d State.empty (before ++ [h])) := by
  rw [execute_concat]
  exact effect_handle hlinked (fresh_of_sound hsound heq)
    (hsound.untroubled h (by simp [heq])) (hsound.genuine before h after heq)

theorem linked_of_sound {run : List Handled} (hsound : Sound d run) (before after : List Handled)
    (heq : run = before ++ after) : Linked before (execute d State.empty before) := by
  induction before using List.reverseRecOn generalizing after with
  | nil => exact linked_empty
  | append_singleton before h ih =>
    have heq' : run = before ++ h :: after := by simp [heq]
    have hbefore := ih (h :: after) heq'
    exact linked_step hbefore (fresh_of_sound hsound heq') (effect_of_sound hsound heq' hbefore)

theorem conserved_of_sound {run : List Handled} (hsound : Sound d run) (user : UUID)
    (before after : List Handled) (heq : run = before ++ after) :
    unrevoked user (execute d State.empty before) +
        occurrences d (logoutOf d) user State.empty before =
      occurrences d (loginOf d) user State.empty before := by
  induction before using List.reverseRecOn generalizing after with
  | nil => rfl
  | append_singleton before h ih =>
    have heq' : run = before ++ h :: after := by simp [heq]
    have hlinked := linked_of_sound hsound before (h :: after) heq'
    have hstep := unrevoked_step user hlinked.ids (effect_of_sound hsound heq' hlinked)
    have hbefore := ih (h :: after) heq'
    rw [occurrences_concat, occurrences_concat]
    omega

theorem revoked_of_sound {run : List Handled} (hsound : Sound d run) {r : RefreshToken}
    (hrevoked : r.revoked = true) (before more after : List Handled)
    (heq : run = before ++ more ++ after) (hr : r ∈ (execute d State.empty before).refreshTokens) :
    r ∈ (execute d State.empty (before ++ more)).refreshTokens := by
  induction more using List.reverseRecOn generalizing after with
  | nil => rwa [List.append_nil]
  | append_singleton more h ih =>
    have heq' : run = before ++ more ++ h :: after := by simp [heq]
    rw [← List.append_assoc]
    exact revoked_step (effect_of_sound hsound heq' (linked_of_sound hsound _ _ heq'))
      (ih (h :: after) heq') hrevoked

variable (d)

/-- **Sessions are conserved.**  In every run, and so in every state it passes through: a
    user's unrevoked records are the user's logins less the logouts that ended a session;
    every refresh on the way obeys its law; and a revoked record stays as it is, being the
    only one with its id. -/
theorem sessions_conserved (run : List Handled) (hsound : Sound d run) :
    (∀ user, unrevoked user (execute d State.empty run) +
        occurrences d (logoutOf d) user State.empty run =
      occurrences d (loginOf d) user State.empty run) ∧
    (∀ before h after cookies, run = before ++ h :: after → h.request = .refresh cookies →
      RefreshLaw (d := d) (execute d State.empty before) h) ∧
    (∀ before after, run = before ++ after →
      ∀ r ∈ (execute d State.empty before).refreshTokens, r.revoked = true →
        r ∈ (execute d State.empty run).refreshTokens ∧
          ∀ r' ∈ (execute d State.empty run).refreshTokens, r'.id = r.id → r'.revoked = true) := by
  refine ⟨?_, ?_, ?_⟩
  · intro user
    exact conserved_of_sound hsound user run [] (List.append_nil run).symm
  · intro before h after cookies heq hrequest
    have hgenuine := hsound.genuine before h after heq
    have hfails := hsound.untroubled h (by simp [heq])
    have hfresh := fresh_of_sound hsound heq
    obtain ⟨request, env⟩ := h
    cases hrequest
    exact refreshLaw_of_linked (linked_of_sound hsound before _ heq) hfresh hfails hgenuine
  · intro before after heq r hr hrevoked
    have hkept := revoked_of_sound hsound hrevoked before after [] (by simp [heq]) hr
    rw [← heq] at hkept
    refine ⟨hkept, ?_⟩
    intro r' hr' hid
    have hids := (linked_of_sound hsound run [] (List.append_nil run).symm).ids
    rw [List.inj_on_of_nodup_map hids hr' hkept hid]
    exact hrevoked

end Runs

/-! ## One session, refreshed once -/

/-- A student registers, logs in, refreshes, and logs out with the token that has been
    used. -/
def refreshAndLogout : List Handled :=
  registerAndLogin ++
    [⟨.refresh [("refresh_token", "refresh")], .untroubled (.ofNat 3) 1⟩,
      ⟨.logout none [("refresh_token", "refresh")], .untroubled (.ofNat 4) 2⟩]

theorem refreshAndLogout_sound : Sound oneSession refreshAndLogout := by
  refine ⟨?_, by decide +kernel, by decide +kernel, ?_⟩
  · intro h hmem call
    simp only [refreshAndLogout, registerAndLogin, List.cons_append, List.nil_append, List.mem_cons,
      List.not_mem_nil, or_false] at hmem
    rcases hmem with rfl | rfl | rfl | rfl <;> rfl
  · -- only the last two requests present a token, that of the login
    intro before h after heq token hpresented
    have hlogin : ∀ s : State, (∃ i ∈ s.issued,
        i.user = ⟨.ofNat 1, "s@campus", "password", .student, true⟩ ∧ i.jti = .ofNat 2 ∧
          i.time = 0) → Genuine oneSession s "refresh" := by
      rintro s ⟨⟨_, _, _⟩, hissued, rfl, rfl, rfl⟩ claims hverify
      exact ⟨_, hissued, Or.inr (Option.some.inj hverify).symm⟩
    rcases before with _ | ⟨first, _ | ⟨second, _ | ⟨third, _ | ⟨fourth, rest⟩⟩⟩⟩
    · cases heq
      cases hpresented
    · cases heq
      cases hpresented
    · cases heq
      cases hpresented
      exact hlogin _ (by decide +kernel)
    · cases heq
      cases hpresented
      exact hlogin _ (by decide +kernel)
    · simp [refreshAndLogout, registerAndLogin] at heq

/-- The session goes on, with its new record. -/
theorem refreshAndLogout_conserved :
    unrevoked (.ofNat 1) (execute oneSession State.empty refreshAndLogout) = 1 := by
  have h := (sessions_conserved oneSession refreshAndLogout refreshAndLogout_sound).1 (.ofNat 1)
  have hlogouts : occurrences oneSession (logoutOf oneSession) (.ofNat 1) State.empty
      refreshAndLogout = 0 := by decide +kernel
  have hlogins : occurrences oneSession (loginOf oneSession) (.ofNat 1) State.empty
      refreshAndLogout = 1 := by decide +kernel
  rw [hlogouts, hlogins] at h
  exact h

end CampusHire.SessionConservation
