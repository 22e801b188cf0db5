import CampusHire.Gateway
import CampusHire.Revocation

/-!
# Who the services take the caller for

Behind a location with `auth_request` the identity headers are those of the token
that `/validate` accepted, whatever the client sent (`forwarded_identity`).  The two
locations that are declared as public opportunity reads have no `auth_request` and
forward every method and every header, so the handlers behind them that ask for the
caller believe the client's own headers, or a token that has been revoked.

`authentic_iff` says exactly which requests this concerns.
-/

namespace CampusHire.GatewayIdentity

open CampusHire AuthService Revocation Gateway Pattern
open CampusHire.AuthDeps (Environ Credentials getCurrentUser identityHeaders decodeAccessToken
  decodeAccessToken_eq_some)

/-- The services are deployed with the identity service's key, algorithm and cookie
    name. -/
def environOf (settings : Settings) : Environ :=
  ⟨settings.jwtSecretKey, settings.jwtAlgorithm, settings.accessTokenCookieName⟩

section Deployed

variable (d : Deployment)

/-- Whom the handler that a request reaches takes the caller for, if it asks. -/
def callerOf (redis : List RedisEntry) (now : Time) (r : HttpRequest) : Option CurrentUser :=
  match gateway d redis now r with
  | .answered _ => none
  | .forwarded upstream r' =>
    match routeOf upstream r'.method r'.path with
    | none => none
    | some route =>
      if route.knowsCaller then
        (getCurrentUser d.jose (environOf d.settings) now r'.credentials).toOption
      else none

/-- The caller is who the identity service says. -/
def Authentic (redis : List RedisEntry) (now : Time) (r : HttpRequest) : Prop :=
  ∀ user, callerOf d redis now r = some user → validate d redis now r = .ok user

/-- A mutation on a path that has been declared for public reads: `create_opp` and
    `patch_opp`. -/
def Unprotected (r : HttpRequest) : Prop :=
  (r.method = "POST" ∧ r.path = "/api/v1/opportunities") ∨
    (r.method = "PATCH" ∧ regexMatch r.path opportunityRead = true)

/-- The client's identity headers, if it sends both, cannot be read or name the identity
    of its own valid token; if not, its token is not a revoked one. -/
def Honest (redis : List RedisEntry) (now : Time) (r : HttpRequest) : Prop :=
  match identityHeaders r.credentials with
  | some (userId, role) => ∀ id role', UUID.parse userId = some id →
      UserRole.ofValue role = some role' → validate d redis now r = .ok ⟨id, role'⟩
  | none => ∀ token, AuthDeps.extractAccessToken (environOf d.settings)
        (r.header "authorization") r.cookies = some token →
      (decodeAccessToken d.jose (environOf d.settings) now (some token)).isSome = true →
      isTokenBlacklisted redis now token = false

/-! ## What is forwarded -/

theorem lookup_append_single (l : List (String × String)) (name value : String) (other : String) :
    (l ++ [(name, value)]).lookup other =
      (l.lookup other).or (if other = name then some value else none) := by
  induction l with
  | nil =>
    by_cases h : other = name
    · simp [h]
    · have hb : (other == name) = false := by simpa using h
      simp [List.lookup_cons, h, hb]
  | cons p l ih =>
    obtain ⟨k, v⟩ := p
    by_cases h : other == k
    · simp [List.lookup_cons, h]
    · simp only [List.cons_append, List.lookup_cons, h, ih]

theorem lookup_filter_name (l : List (String × String)) (name other : String) :
    (l.filter fun h => decide (h.1 ≠ name)).lookup other =
      if other = name then none else l.lookup other := by
  induction l with
  | nil => simp
  | cons p l ih =>
    obtain ⟨k, v⟩ := p
    by_cases hk : k = name
    · rw [List.filter_cons_of_neg (by simp [hk]), ih]
      by_cases ho : other = name
      · rw [if_pos ho, if_pos ho]
      · have hb : (other == k) = false := by simpa [hk] using ho
        rw [if_neg ho, if_neg ho, List.lookup_cons, hb]
    · rw [List.filter_cons_of_pos (by simp [hk]), List.lookup_cons, List.lookup_cons, ih]
      by_cases ho : other = k
      · have hne : other ≠ name := fun h => hk (ho.symm.trans h)
        simp [ho, hk]
      · have hb : (other == k) = false := by simpa using ho
        simp [hb]

theorem lookup_setHeader_other {headers : List (String × String)} {name value other : String}
    (h : other ≠ name) : (setHeader headers name value).lookup other = headers.lookup other := by
  unfold setHeader
  dsimp only
  split
  · rw [lookup_filter_name, if_neg h]
  · rw [lookup_append_single, lookup_filter_name, if_neg h, if_neg h, Option.or_none]

/-- A `proxy_set_header` replaces what the client sent. -/
theorem lookup_setHeader_same {headers : List (String × String)} {name value : String}
    (h : value ≠ "") : (setHeader headers name value).lookup name = some value := by
  unfold setHeader
  dsimp only
  rw [if_neg h, lookup_append_single, lookup_filter_name, if_pos rfl, if_pos rfl, Option.none_or]

/-- With the identity headers set, the caller is the user that `/validate` answered. -/
theorem forwarded_identity (now : Time) (r : HttpRequest) (user : CurrentUser) :
    getCurrentUser d.jose (environOf d.settings) now
      (forward r (some user) setsIdentity).credentials = .ok user := by
  have hid : (forward r (some user) setsIdentity).header "x-user-id" = some user.id.str := by
    simp only [HttpRequest.header, forward, setsIdentity, List.foldl_cons, List.foldl_nil]
    rw [lookup_setHeader_other (by decide)]
    exact lookup_setHeader_same (UUID.str_ne_empty user.id)
  have hrole : (forward r (some user) setsIdentity).header "x-user-role" =
      some user.role.value := by
    simp only [HttpRequest.header, forward, setsIdentity, List.foldl_cons, List.foldl_nil]
    exact lookup_setHeader_same (UserRole.value_ne_empty user.role)
  have hheaders : identityHeaders (forward r (some user) setsIdentity).credentials =
      some (user.id.str, user.role.value) := by
    simp only [identityHeaders, HttpRequest.credentials, hid, hrole]
    rw [if_neg (by simp [UUID.str_ne_empty, UserRole.value_ne_empty])]
  simp only [getCurrentUser, hheaders, UUID.parse_str, UserRole.ofValue_value]

/-- Where only `Host` is set, the service sees the client's own credentials. -/
theorem forwarded_credentials (r : HttpRequest) :
    (forward r none setsHost).credentials = r.credentials := by
  simp only [HttpRequest.credentials, HttpRequest.header, forward, setsHost, List.foldl_cons,
    List.foldl_nil]
  rw [lookup_setHeader_other (by decide), lookup_setHeader_other (by decide),
    lookup_setHeader_other (by decide)]

/-! ## Which location -/

theorem longestInitial_mem {path : String} {ls : List Location} {l : Location}
    (h : longestInitial path ls = some l) : l ∈ ls ∧ (initialLength path l).isSome = true := by
  induction ls generalizing l with
  | nil => cases h
  | cons first rest ih =>
    simp only [longestInitial] at h
    split at h
    · exact ⟨List.mem_cons_of_mem _ (ih h).1, (ih h).2⟩
    · rename_i hlen _
      cases h
      exact ⟨List.mem_cons_self, by rw [hlen]; rfl⟩
    · rename_i n best hlen hbest
      split at h
      · cases h
        exact ⟨List.mem_cons_of_mem _ (ih hbest).1, (ih hbest).2⟩
      · cases h
        exact ⟨List.mem_cons_self, by rw [hlen]; rfl⟩

theorem selectLocation_mem {path : String} {l : Location} (h : selectLocation path = some l) :
    l ∈ locations ∧ (exactMatch path l = true ∨ regexMatch path l = true ∨
      (initialLength path l).isSome = true) := by
  unfold selectLocation at h
  rcases hexact : locations.find? (exactMatch path) with _ | found
  · rw [hexact, Option.none_or] at h
    rcases hregex : locations.find? (regexMatch path) with _ | found
    · rw [hregex, Option.none_or] at h
      obtain ⟨hmem, hlen⟩ := longestInitial_mem h
      exact ⟨hmem, Or.inr (Or.inr hlen)⟩
    · rw [hregex, Option.some_or] at h
      cases h
      exact ⟨List.mem_of_find?_eq_some hregex, Or.inr (Or.inl (List.find?_some hregex))⟩
  · rw [hexact, Option.some_or] at h
    cases h
    exact ⟨List.mem_of_find?_eq_some hexact, Or.inl (List.find?_some hexact)⟩

theorem files_route {method path : String} {route : Route}
    (hselect : selectLocation path = some files)
    (hroute : routeOf .applicationService method path = some route) :
    route.knowsCaller = false := by
  have hstart : "/api/v1/files/".toList <+: path.toList := by
    rcases (selectLocation_mem hselect).2 with h | h | h
    · cases h
    · cases h
    · simp only [initialLength, files] at h
      split at h
      · rename_i hpre
        exact List.isPrefixOf_iff_prefix.mp hpre
      · cases h
  have htest := List.find?_some hroute
  simp only [Bool.and_eq_true] at htest
  -- the pattern of a handler that asks for the caller starts otherwise
  have hheads : ∀ r ∈ applicationRoutes, r.knowsCaller = true →
      (r.path.head.isPrefixOf "/api/v1/files/".toList ||
        "/api/v1/files/".toList.isPrefixOf r.path.head) = false := by decide
  by_contra hknows
  have hhead := hheads route (List.mem_of_find?_eq_some hroute) (by simpa using hknows)
  rw [Regex.test_eq_false_of_prefix hstart hhead] at htest
  exact absurd htest.2 Bool.false_ne_true

/-! ## Which requests are unprotected -/

/-- The handler that takes the request asks for the caller. -/
def AsksCaller (upstream : Upstream) (method path : String) : Prop :=
  ∃ route, routeOf upstream method path = some route ∧ route.knowsCaller = true

theorem selectLocation_list_iff {path : String} :
    selectLocation path = some opportunityList ↔ path = "/api/v1/opportunities" := by
  constructor
  · intro h
    rcases (selectLocation_mem h).2 with hexact | hregex | hlen
    · exact (of_decide_eq_true hexact).symm
    · cases hregex
    · cases hlen
  · rintro rfl
    rfl

theorem selectLocation_read_iff {path : String} :
    selectLocation path = some opportunityRead ↔ regexMatch path opportunityRead = true := by
  constructor
  · intro h
    rcases (selectLocation_mem h).2 with hexact | hregex | hlen
    · cases hexact
    · exact hregex
    · cases hlen
  · intro h
    have hstart : "/api/v1/opportunities/".toList <+: path.toList := Regex.head_prefix h
    -- no exact location has a path that the pattern matches
    have hexact : locations.find? (exactMatch path) = none := by
      rw [List.find?_eq_none]
      intro l hmem hl
      simp only [locations, List.mem_cons, List.not_mem_nil, or_false] at hmem
      rcases hmem with rfl | rfl | rfl | rfl | rfl | rfl | rfl | rfl | rfl | rfl | rfl | rfl | rfl
      all_goals first
        | cases hl
        | rw [← of_decide_eq_true hl] at h
          exact absurd h (by decide)
    -- the patterns before it start with the path of the identity service
    have hpublic : regexMatch path publicAuth = false :=
      Regex.test_eq_false_of_prefix hstart (by decide)
    have hprotected : regexMatch path protectedAuth = false :=
      Regex.test_eq_false_of_prefix hstart (by decide)
    have hprofile : regexMatch path authProfileOf = false :=
      Regex.test_eq_false_of_prefix hstart (by decide)
    have hregex : locations.find? (regexMatch path) = some opportunityRead := by
      simp only [locations, List.find?_cons, show regexMatch path health = false from rfl,
        show regexMatch path authValidate = false from rfl, hpublic, hprotected,
        show regexMatch path authProfile = false from rfl, hprofile,
        show regexMatch path opportunityList = false from rfl, h]
    rw [selectLocation, hexact, hregex]
    rfl

theorem asksCaller_list {method : String} :
    AsksCaller .opportunityService method "/api/v1/opportunities" ↔ method = "POST" := by
  constructor
  · rintro ⟨route, hroute, hknows⟩
    have htest := List.find?_some hroute
    simp only [Bool.and_eq_true, decide_eq_true_eq] at htest
    have hpost : ∀ r ∈ opportunityRoutes, r.knowsCaller = true →
        r.path.test "/api/v1/opportunities".toList = true → r.method = "POST" := by decide
    rw [← htest.1]
    exact hpost route (List.mem_of_find?_eq_some hroute) hknows htest.2
  · rintro rfl
    exact ⟨_, rfl, rfl⟩

/-- The characters of a path that is declared for public reads. -/
theorem mem_of_read {path : String} {c : Char} (h : regexMatch path opportunityRead = true)
    (hc : c ∈ path.toList) :
    c ∈ "/api/v1/opportunities/".toList ∨ isHexOrHyphen c = true ∨ c = '\n' := by
  obtain ⟨first, word, rest, hpath, hword, hrest⟩ := exists_word_of_test h
  rw [hpath, List.mem_append, List.mem_append] at hc
  rcases hc with hc | hc | hc
  · exact Or.inl hc
  · exact Or.inr (Or.inl (hword c hc))
  · exact Or.inr (Or.inr (eq_newline_of_atEnd hrest hc))

/-- A pattern with a letter that such a path does not have. -/
theorem test_eq_false_of_read {path s : String} {r : Regex} {c : Char}
    (h : regexMatch path opportunityRead = true) (hmem : text s ∈ r.pieces) (hc : c ∈ s.toList)
    (hletter : c ∉ "/api/v1/opportunities/".toList ∧ isHexOrHyphen c = false ∧ c ≠ '\n') :
    r.test path.toList = false := by
  by_contra htest
  have hpath := mem_of_matchPieces (Bool.not_eq_false _ ▸ htest) hmem hc
  rcases mem_of_read h hpath with hstart | hword | hnewline
  · exact hletter.1 hstart
  · rw [hletter.2.1] at hword
    cases hword
  · exact hletter.2.2 hnewline

theorem asksCaller_read {method path : String} (h : regexMatch path opportunityRead = true) :
    AsksCaller .opportunityService method path ↔ method = "PATCH" := by
  constructor
  · rintro ⟨route, hroute, hknows⟩
    have hmem := List.mem_of_find?_eq_some hroute
    have htest := List.find?_some hroute
    simp only [Bool.and_eq_true, decide_eq_true_eq] at htest
    obtain ⟨hmethod, htest⟩ := htest
    simp only [routesOf, opportunityRoutes, List.mem_cons, List.not_mem_nil, or_false] at hmem
    rcases hmem with rfl | rfl | rfl | rfl | rfl | rfl | rfl | rfl | rfl | rfl
    · -- create_opp: its text ends where the path goes on with a slash
      obtain ⟨rest, hpath⟩ := Regex.head_prefix h
      have hslash : '/' ∈ path.toList.drop "/api/v1/opportunities".toList.length := by
        rw [← hpath]
        exact List.mem_cons_self
      cases drop_mem_newline_of_test htest hslash
    · cases hknows
    · cases hknows
    · exact hmethod.symm
    · -- create_registration
      rw [test_eq_false_of_read (s := "/registrations") (c := 'g') h (by simp [route]) (by decide)
        (by decide)] at htest
      cases htest
    · -- list_registrations
      rw [test_eq_false_of_read (s := "/registrations") (c := 'g') h (by simp [route]) (by decide)
        (by decide)] at htest
      cases htest
    · -- export_registrations
      rw [test_eq_false_of_read (s := "/export") (c := 'x') h (by simp [route]) (by decide)
        (by decide)] at htest
      cases htest
    · -- upload_drive_file
      rw [test_eq_false_of_read (s := "/api/v1/opportunities/files/upload") (c := 'l') h
        (by simp [route]) (by decide) (by decide)] at htest
      cases htest
    · cases hknows
    · cases hknows
  · rintro rfl
    have htest : Regex.test ⟨[text "/api/v1/opportunities/", parameter], true⟩ path.toList =
        true := by
      refine test_plus_mono ?_ h
      intro c hc
      -- a hexadecimal digit or a hyphen is no slash
      by_contra hslash
      rw [show c = '/' by simpa using hslash] at hc
      exact absurd hc (by decide)
    refine ⟨route "PATCH" [text "/api/v1/opportunities/", parameter] true, ?_, rfl⟩
    simp [routeOf, routesOf, opportunityRoutes, route, htest]

theorem unprotected_of_list {r : HttpRequest} (h : selectLocation r.path = some opportunityList) :
    Unprotected r ↔ AsksCaller .opportunityService r.method r.path := by
  have hpath := selectLocation_list_iff.mp h
  have hread : regexMatch r.path opportunityRead = false := by
    rw [hpath]
    decide
  simp only [Unprotected, hread, Bool.false_eq_true, and_false, or_false]
  rw [hpath, asksCaller_list]
  exact and_iff_left rfl

theorem unprotected_of_read {r : HttpRequest} (h : selectLocation r.path = some opportunityRead) :
    Unprotected r ↔ AsksCaller .opportunityService r.method r.path := by
  have hread := selectLocation_read_iff.mp h
  have hpath : r.path ≠ "/api/v1/opportunities" := by
    intro hpath
    rw [selectLocation_list_iff.mpr hpath] at h
    cases h
  simp only [Unprotected, hread, hpath, and_false, and_true, false_or, asksCaller_read hread]

theorem public_of_unprotected {r : HttpRequest} (h : Unprotected r) :
    r.method ≠ "OPTIONS" ∧
      (selectLocation r.path = some opportunityList ∨
        selectLocation r.path = some opportunityRead) := by
  rcases h with ⟨hmethod, hpath⟩ | ⟨hmethod, hread⟩
  · exact ⟨by rw [hmethod]; decide, Or.inl (selectLocation_list_iff.mpr hpath)⟩
  · exact ⟨by rw [hmethod]; decide, Or.inr (selectLocation_read_iff.mpr hread)⟩

/-! ## Which requests are authentic -/

/-- A location with `auth_request` forwards only requests of an identity that the
    identity service confirms. -/
theorem authentic_of_authRequest {redis : List RedisEntry} {now : Time} {r : HttpRequest}
    {l : Location} {upstream : Upstream} (hselect : selectLocation r.path = some l)
    (htarget : l.target = .proxy upstream true setsIdentity) : Authentic d redis now r := by
  intro user hcaller
  simp only [callerOf, gateway, hselect, htarget] at hcaller
  by_cases hmethod : r.method = "OPTIONS"
  · simp [hmethod] at hcaller
  rw [if_neg hmethod] at hcaller
  rcases hvalidate : validate d redis now r with e | valid
  · rw [hvalidate] at hcaller
    split at hcaller
    · cases hcaller
    · rename_i heq
      split at heq
      · rename_i hok
        cases hok
      · cases heq
      · cases heq
  · rw [hvalidate] at hcaller
    dsimp only at hcaller
    split at hcaller
    · cases hcaller
    · split at hcaller
      · rw [forwarded_identity] at hcaller
        exact congrArg Except.ok (Option.some.inj hcaller)
      · cases hcaller

/-- Where nothing is forwarded to a handler that asks for the caller, there is nothing
    to believe. -/
theorem authentic_of_no_caller {redis : List RedisEntry} {now : Time} {r : HttpRequest}
    (h : callerOf d redis now r = none) : Authentic d redis now r := by
  intro user hcaller
  rw [h] at hcaller
  cases hcaller

/-- Through a location without `auth_request`, the handler asks the client's own
    credentials. -/
theorem callerOf_direct {redis : List RedisEntry} {now : Time} {r : HttpRequest} {l : Location}
    {upstream : Upstream} (hselect : selectLocation r.path = some l)
    (htarget : l.target = .proxy upstream false setsHost) (hmethod : r.method ≠ "OPTIONS") :
    callerOf d redis now r =
      match routeOf upstream r.method r.path with
      | none => none
      | some route =>
        if route.knowsCaller then
          (getCurrentUser d.jose (environOf d.settings) now r.credentials).toOption
        else none := by
  simp only [callerOf, gateway, hselect, htarget, if_neg hmethod, forwarded_credentials]
  rfl

/-- The token that a service extracts is the one that the identity service extracts. -/
theorem extract_agrees {authorization : Option String} {cookies : List (String × String)}
    {token : String} (hne : token ≠ "")
    (h : AuthDeps.extractAccessToken (environOf d.settings) authorization cookies = some token) :
    AuthService.extractAccessToken authorization
      (cookies.lookup d.settings.accessTokenCookieName) = .ok token := by
  unfold AuthDeps.extractAccessToken at h
  unfold AuthService.extractAccessToken
  rcases hbearer : authorization.bind bearerToken with _ | found
  · rw [hbearer] at h
    rw [show cookies.lookup d.settings.accessTokenCookieName = some token from h]
    exact if_neg hne
  · rw [hbearer] at h
    cases h
    rfl

/-- Both validators read the same claims; only the blacklist makes a difference. -/
theorem validate_iff_not_blacklisted {redis : List RedisEntry} {now : Time}
    {authorization : Option String} {cookies : List (String × String)} {token : String}
    {user : CurrentUser}
    (hextract : AuthDeps.extractAccessToken (environOf d.settings) authorization cookies =
      some token)
    (hdecode : decodeAccessToken d.jose (environOf d.settings) now (some token) = some user) :
    validateToken d redis now authorization (cookies.lookup d.settings.accessTokenCookieName) =
      .ok user ↔ isTokenBlacklisted redis now token = false := by
  have hne : token ≠ "" := by
    rintro rfl
    simp [decodeAccessToken] at hdecode
  obtain ⟨claims, hclaims, hrest⟩ := decodeAccessToken_eq_some hdecode
  rw [validateToken_eq_ok (extract_agrees d hne hextract)]
  exact ⟨fun h => h.1, fun h => ⟨h, claims, hclaims, hrest⟩⟩

theorem getCurrentUser_authentic_iff (redis : List RedisEntry) (now : Time) (r : HttpRequest) :
    (∀ user, getCurrentUser d.jose (environOf d.settings) now r.credentials = .ok user →
      validate d redis now r = .ok user) ↔ Honest d redis now r := by
  unfold Honest getCurrentUser
  rcases identityHeaders r.credentials with _ | ⟨userId, role⟩
  · -- the caller comes from the token
    dsimp only
    constructor
    · intro h token hextract hsome
      obtain ⟨user, hdecode⟩ := Option.isSome_iff_exists.mp hsome
      refine (validate_iff_not_blacklisted d hextract hdecode).mp (h user ?_)
      rw [show AuthDeps.extractAccessToken (environOf d.settings) r.credentials.authorization
        r.credentials.cookies = some token from hextract, hdecode]
    · intro h user hok
      rcases hextract : AuthDeps.extractAccessToken (environOf d.settings)
        (r.header "authorization") r.cookies with _ | token
      · rw [show AuthDeps.extractAccessToken (environOf d.settings) r.credentials.authorization
          r.credentials.cookies = none from hextract] at hok
        cases hok
      · rw [show AuthDeps.extractAccessToken (environOf d.settings) r.credentials.authorization
          r.credentials.cookies = some token from hextract] at hok
        rcases hdecode : decodeAccessToken d.jose (environOf d.settings) now (some token) with
          _ | found
        · rw [hdecode] at hok
          cases hok
        · rw [hdecode] at hok
          cases hok
          exact (validate_iff_not_blacklisted d hextract hdecode).mpr
            (h token hextract (by rw [hdecode]; rfl))
  · -- the caller comes from the client's headers
    dsimp only
    rcases UUID.parse userId with _ | id
    · simp
    rcases UserRole.ofValue role with _ | role'
    · simp
    · simp [eq_comm]

/-- Through a location for public reads, a request whose handler asks for the caller is
    authentic exactly when it is honest. -/
theorem authentic_iff_of_public {redis : List RedisEntry} {now : Time} {r : HttpRequest}
    {l : Location} (hselect : selectLocation r.path = some l)
    (htarget : l.target = .proxy .opportunityService false setsHost)
    (hmethod : r.method ≠ "OPTIONS") :
    Authentic d redis now r ↔
      (AsksCaller .opportunityService r.method r.path → Honest d redis now r) := by
  unfold Authentic AsksCaller
  rw [callerOf_direct d hselect htarget hmethod]
  rcases routeOf .opportunityService r.method r.path with _ | route
  · -- no handler takes the request
    constructor
    · rintro - ⟨route, hroute, -⟩
      cases hroute
    · intro _ user hcaller
      cases hcaller
  dsimp only
  by_cases hknows : route.knowsCaller = true
  · rw [if_pos hknows, ← getCurrentUser_authentic_iff]
    simp only [toOption_eq_some]
    constructor
    · intro h _
      exact h
    · intro h
      exact h ⟨route, rfl, hknows⟩
  · -- the handler does not ask
    rw [if_neg hknows]
    constructor
    · rintro - ⟨other, hroute, hother⟩
      cases hroute
      exact absurd hother hknows
    · intro _ user hcaller
      cases hcaller

theorem authentic_of_not_public {redis : List RedisEntry} {now : Time} {r : HttpRequest}
    (hmethod : r.method ≠ "OPTIONS")
    (hlist : selectLocation r.path ≠ some opportunityList)
    (hread : selectLocation r.path ≠ some opportunityRead) : Authentic d redis now r := by
  rcases hselect : selectLocation r.path with _ | l
  · exact authentic_of_no_caller d (by simp only [callerOf, gateway, hselect, if_neg hmethod])
  have hmem := (selectLocation_mem hselect).1
  simp only [locations, List.mem_cons, List.not_mem_nil, or_false] at hmem
  rcases hmem with rfl | rfl | rfl | rfl | rfl | rfl | rfl | rfl | rfl | rfl | rfl | rfl | rfl
  · -- health
    exact authentic_of_no_caller d
      (by simp only [callerOf, gateway, hselect, if_neg hmethod, health])
  · -- authValidate
    exact authentic_of_no_caller d
      (by simp only [callerOf, gateway, hselect, if_neg hmethod, authValidate])
  · -- publicAuth
    exact authentic_of_no_caller d (callerOf_direct d hselect rfl hmethod)
  · -- protectedAuth
    exact authentic_of_authRequest d hselect rfl
  · -- authProfile
    exact authentic_of_authRequest d hselect rfl
  · -- authProfileOf
    exact authentic_of_no_caller d (callerOf_direct d hselect rfl hmethod)
  · exact absurd hselect hlist
  · exact absurd hselect hread
  · -- opportunityMutations
    exact authentic_of_authRequest d hselect rfl
  · -- applications
    exact authentic_of_authRequest d hselect rfl
  · -- queries
    exact authentic_of_authRequest d hselect rfl
  · -- notifications
    exact authentic_of_authRequest d hselect rfl
  · -- files
    apply authentic_of_no_caller
    rw [callerOf_direct d hselect rfl hmethod]
    rcases hroute : routeOf .applicationService r.method r.path with _ | route
    · rfl
    · exact if_neg (by rw [files_route hselect hroute]; exact Bool.false_ne_true)

/-- **Who the caller is.**  For every request to the gateway, in every state of the
    blacklist and at every time: the caller is who the identity service says,
    unless the request is a mutation on a path declared for public reads and is
    not honest. -/
theorem authentic_iff (redis : List RedisEntry) (now : Time) (r : HttpRequest) :
    Authentic d redis now r ↔ (Unprotected r → Honest d redis now r) := by
  by_cases hmethod : r.method = "OPTIONS"
  · have hauth : Authentic d redis now r := by
      apply authentic_of_no_caller
      simp only [callerOf, gateway, if_pos hmethod]
    constructor
    · intro _ hun
      exact absurd hmethod (public_of_unprotected hun).1
    · intro _
      exact hauth
  by_cases hlist : selectLocation r.path = some opportunityList
  · rw [authentic_iff_of_public d hlist rfl hmethod, unprotected_of_list hlist]
  by_cases hread : selectLocation r.path = some opportunityRead
  · rw [authentic_iff_of_public d hread rfl hmethod, unprotected_of_read hread]
  · constructor
    · intro _ hun
      rcases (public_of_unprotected hun).2 with h | h
      · exact absurd h hlist
      · exact absurd h hread
    · intro _
      exact authentic_of_not_public d hmethod hlist hread

end Deployed

def forgedCreate : HttpRequest where
  method := "POST"
  path := "/api/v1/opportunities"
  headers := [("x-user-id", (UUID.ofNat 7).str), ("x-user-role", "coordinator")]
  cookies := []

/-- The handler takes the client's word, although no token has been sent. -/
theorem forged_identity : ¬ Authentic oneToken [] 0 forgedCreate := by
  intro h
  have hcaller : callerOf oneToken [] 0 forgedCreate = some ⟨UUID.ofNat 7, .coordinator⟩ := by
    decide +kernel
  have hrefused : validate oneToken [] 0 forgedCreate ≠ .ok ⟨UUID.ofNat 7, .coordinator⟩ := by
    decide +kernel
  exact hrefused (h _ hcaller)

end CampusHire.GatewayIdentity
