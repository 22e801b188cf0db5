import CampusHire.PublicApi
import CampusHire.Sessions

/-!
# What needs a token

A request without a token that validates gets no further than the handlers of `Open`
(`called_cases`): registration, login and refresh, the two reads of opportunities, the files,
and, although they ask for the caller, `create_opp` and `patch_opp`, which are behind the
locations of these reads.
-/

namespace CampusHire.Perimeter

open CampusHire AuthService Gateway GatewayIdentity Pattern PathTemplate Schemas PublicApi
open CampusHire.AuthDeps (getCurrentUser)
open CampusHire.Revocation (oneToken)

/-! ## Paths -/

theorem withoutNewline_slash (first second : List Char) :
    withoutNewline (first ++ '/' :: second) = first ++ '/' :: withoutNewline second := by
  rcases List.eq_nil_or_concat second with rfl | ⟨init, c, rfl⟩
  · have hlast : (first ++ ['/']).getLast? = some '/' := List.getLast?_concat
    rw [withoutNewline, hlast]
    rfl
  · have hsplit : first ++ '/' :: (init ++ [c]) = (first ++ '/' :: init) ++ [c] := by simp
    simp only [withoutNewline, List.concat_eq_append]
    rw [hsplit, List.getLast?_concat, List.getLast?_concat, List.dropLast_concat,
      List.dropLast_concat]
    split
    · rfl
    · rw [hsplit]

theorem withoutNewline_subset (text : List Char) : withoutNewline text ⊆ text := by
  unfold withoutNewline
  split
  · exact List.dropLast_subset text
  · exact List.Subset.refl text

/-- The parameters of a path that is known up to a slash. -/
theorem matchParts_of_paramsOf {template : List Part} {first second : List Char}
    {params : List (List Char)} (h : paramsOf template (first ++ '/' :: second) = some params) :
    ∃ last, last ⊆ second ∧
      matchParts template (segments first ++ segments last) = some params := by
  rcases Option.or_eq_some_iff.mp h with hmatch | ⟨-, hmatch⟩
  · rw [matchPath, segments_append] at hmatch
    exact ⟨second, List.Subset.refl second, hmatch⟩
  · rw [withoutNewline_slash, matchPath, segments_append] at hmatch
    exact ⟨withoutNewline second, withoutNewline_subset second, hmatch⟩

/-- The path of one more segment fits templates of one more part. -/
theorem length_of_paramsOf {template : List Part} {first last : List Char}
    {params : List (List Char)} (hlast : '/' ∉ last)
    (h : paramsOf template (first ++ '/' :: last) = some params) :
    template.length = (segments first).length + 1 := by
  obtain ⟨word, hsub, hmatch⟩ := matchParts_of_paramsOf h
  have hword : '/' ∉ word := fun hmem => hlast (hsub hmem)
  rw [← length_of_matchParts hmatch, List.length_append, segments_of_not_mem hword]
  rfl

/-! ## Routes -/

section Site

variable {site : Site}

theorem route_eq_some {pydantic : Pydantic} {upstream : Upstream} {method text : String}
    {e : Endpoint} {params : List (List Char)}
    (h : route pydantic upstream method text = some (e, params)) :
    e ∈ endpointsOf pydantic upstream ∧ e.method = method ∧
      paramsOf e.path text.toList = some params := by
  obtain ⟨found, hmem, hfound⟩ := List.exists_of_findSome?_eq_some h
  split at hfound
  · rename_i hmethod
    obtain ⟨params', hparams, heq⟩ := Option.map_eq_some_iff.mp hfound
    cases heq
    exact ⟨hmem, hmethod, hparams⟩
  · cases hfound

/-- **How a handler is reached** in a service. -/
theorem dispatch_eq_ok {now : Time} {upstream : Upstream} {r : HttpRequest} {body : Body}
    {call : Call} (h : dispatch site now upstream r body = .ok call) :
    ∃ e params, e ∈ endpointsOf site.pydantic upstream ∧ e.method = r.method ∧
      paramsOf e.path r.path.toList = some params ∧
      ((∃ f c, e.handler = .anyone f ∧ f r params body = some c ∧ call = .anyone c) ∨
        ∃ f user c, e.handler = .asks f ∧
          getCurrentUser site.deployment.jose (environOf site.deployment.settings) now
            r.credentials = .ok user ∧
          f params body = some c ∧ call = .user user c) := by
  unfold dispatch at h
  split at h
  · cases h
  rename_i e params hroute
  obtain ⟨hmem, hmethod, hparams⟩ := route_eq_some hroute
  refine ⟨e, params, hmem, hmethod, hparams, ?_⟩
  split at h
  · cases h
  split at h
  · rename_i f hhandler
    split at h
    · cases h
    · rename_i c hc
      cases h
      exact Or.inl ⟨f, c, hhandler, hc, rfl⟩
  · rename_i f hhandler
    split at h
    · cases h
    rename_i user huser
    split at h
    · cases h
    · rename_i c hc
      cases h
      exact Or.inr ⟨f, user, c, hhandler, huser, hc, rfl⟩

theorem dispatch_asks {now : Time} {upstream : Upstream} {r : HttpRequest} {body : Body}
    {e : Endpoint} {params : List (List Char)} {f : List (List Char) → Body → Option UserCall}
    {user : CurrentUser} {c : UserCall}
    (hroute : route site.pydantic upstream r.method r.path = some (e, params))
    (hhandler : e.handler = .asks f) (hbody : body.isMalformed = false)
    (huser : getCurrentUser site.deployment.jose (environOf site.deployment.settings) now
      r.credentials = .ok user) (hc : f params body = some c) :
    dispatch site now upstream r body = .ok (.user user c) := by
  simp only [dispatch, hroute, hhandler, hbody, huser, hc, Bool.and_false, Bool.false_eq_true,
    if_false]

/-- **How a handler is reached** from outside: through a location with `auth_request`, with a
    token that validates, or through one without. -/
theorem called_eq_ok {redis : List RedisEntry} {now : Time} {r : HttpRequest} {body : Body}
    {call : Call} (h : called site redis now r body = .ok call) :
    ∃ l upstream, selectLocation r.path = some l ∧
      ((∃ headers user, l.target = .proxy upstream true headers ∧
          validate site.deployment redis now r = .ok user ∧
          dispatch site now upstream (forward r (some user) headers) body = .ok call) ∨
        ∃ headers, l.target = .proxy upstream false headers ∧
          dispatch site now upstream (forward r none headers) body = .ok call) := by
  unfold called at h
  split at h
  · cases h
  rename_i upstream r' hgateway
  unfold gateway at hgateway
  by_cases hmethod : r.method = "OPTIONS"
  · rw [if_pos hmethod] at hgateway
    cases hgateway
  rw [if_neg hmethod] at hgateway
  split at hgateway
  · cases hgateway
  rename_i l hselect
  split at hgateway
  · cases hgateway
  · cases hgateway
  · rename_i headers htarget
    cases hgateway
    exact ⟨l, upstream, hselect, Or.inr ⟨headers, htarget, h⟩⟩
  · rename_i headers htarget
    split at hgateway
    · rename_i user hvalidate
      cases hgateway
      exact ⟨l, upstream, hselect, Or.inl ⟨headers, user, htarget, hvalidate, h⟩⟩
    · cases hgateway
    · cases hgateway

theorem called_of_validate {redis : List RedisEntry} {now : Time} {r : HttpRequest} {body : Body}
    {l : Location} {upstream : Upstream} {headers : List (String × Variable)} {user : CurrentUser}
    (hmethod : r.method ≠ "OPTIONS") (hselect : selectLocation r.path = some l)
    (htarget : l.target = .proxy upstream true headers)
    (hvalidate : validate site.deployment redis now r = .ok user) :
    called site redis now r body =
      dispatch site now upstream (forward r (some user) headers) body := by
  rw [called, gateway, if_neg hmethod, hselect]
  dsimp only
  rw [htarget]
  dsimp only
  rw [hvalidate]

/-! ## Behind the locations without `auth_request` -/

/-- What anybody may call. -/
def Open : OpenCall → Prop
  | .identity (.register _) | .identity (.login ..) | .identity (.refresh _) | .listOpps
  | .getOpp _ | .serveLocalFile .applicationService .. => True
  | _ => False

/-- What asks for the caller behind a location without `auth_request`. -/
def Exposed : UserCall → Prop
  | .opportunity (.createOpp _) | .opportunity (.patchOpp ..) => True
  | _ => False

def publicAuthPaths : List (List Char) :=
  ["/api/v1/auth/register", "/api/v1/auth/login", "/api/v1/auth/refresh"].flatMap fun text =>
    [text.toList, text.toList ++ ['\n']]

theorem mem_publicAuthPaths {text : String} (h : regexMatch text publicAuth = true) :
    text.toList ∈ publicAuthPaths := by
  obtain ⟨choice, hchoice, rest, hpath, hend⟩ := exists_choice_of_test h
  rw [hpath]
  simp only [List.mem_cons, List.not_mem_nil, or_false] at hchoice
  rcases eq_nil_or_newline_of_atEnd hend with rfl | rfl
  · rcases hchoice with rfl | rfl | rfl <;> decide
  · rcases hchoice with rfl | rfl | rfl <;> decide

/-- Whatever the handler makes of the parameters and the body is one of these calls. -/
def Leads (P : OpenCall → Prop) (Q : UserCall → Prop) : Handler → Prop
  | .anyone call => ∀ r params body c, call r params body = some c → P c
  | .asks call => ∀ params body c, call params body = some c → Q c

theorem Leads.mono {P P' : OpenCall → Prop} {Q Q' : UserCall → Prop} {handler : Handler}
    (h : Leads P Q handler) (hP : ∀ c, P c → P' c) (hQ : ∀ c, Q c → Q' c) :
    Leads P' Q' handler := by
  cases handler with
  | anyone call => exact fun r params body c hc => hP c (h r params body c hc)
  | asks call => exact fun params body c hc => hQ c (h params body c hc)

/-- Of the routes of the identity service, only the first three take a public path. -/
theorem endpoints_publicAuth {text : List Char} (htext : text ∈ publicAuthPaths) {e : Endpoint}
    {params : List (List Char)} (he : e ∈ identityEndpoints site.pydantic)
    (hparams : paramsOf e.path text = some params) :
    e ∈ (identityEndpoints site.pydantic).take 3 := by
  have hothers : ((identityEndpoints site.pydantic).drop 3).all (fun e =>
      publicAuthPaths.all fun text => (paramsOf e.path text).isNone) = true := rfl
  rw [← List.take_append_drop 3 (identityEndpoints _), List.mem_append] at he
  refine he.resolve_right ?_
  intro hdrop
  have hnone := List.all_eq_true.mp (List.all_eq_true.mp hothers e hdrop) text htext
  rw [hparams] at hnone
  cases hnone

theorem leads_publicAuth {e : Endpoint} {r : HttpRequest} {params : List (List Char)}
    (hpath : regexMatch r.path publicAuth = true)
    (he : e ∈ endpointsOf site.pydantic .identityService)
    (hparams : paramsOf e.path r.path.toList = some params) :
    Leads Open (fun _ => False) e.handler := by
  have hpublic := endpoints_publicAuth (mem_publicAuthPaths hpath) he hparams
  simp only [identityEndpoints, List.take_succ_cons, List.take_zero, List.mem_cons,
    List.not_mem_nil, or_false] at hpublic
  rcases hpublic with rfl | rfl | rfl
  · -- register
    intro r' params' body c hc
    obtain ⟨data, -, rfl⟩ := Option.map_eq_some_iff.mp hc
    trivial
  · -- login
    intro r' params' body c hc
    obtain ⟨data, -, rfl⟩ := Option.map_eq_some_iff.mp hc
    trivial
  · -- refresh
    intro r' params' body c hc
    cases hc
    trivial

/-- The routes of the list: `create_opp` and `list_opps`. -/
theorem endpoints_opportunityList {e : Endpoint} {params : List (List Char)}
    (he : e ∈ opportunityEndpoints site.pydantic)
    (hparams : paramsOf e.path "/api/v1/opportunities".toList = some params) :
    e ∈ (opportunityEndpoints site.pydantic).take 2 := by
  have hfilter : (opportunityEndpoints site.pydantic).filter (fun e =>
      (paramsOf e.path "/api/v1/opportunities".toList).isSome) =
        (opportunityEndpoints site.pydantic).take 2 := rfl
  rw [← hfilter]
  exact List.mem_filter.mpr ⟨he, Option.isSome_of_mem hparams⟩

/-- The routes of five segments: `get_opp` and `patch_opp`. -/
theorem endpoints_opportunityRead {e : Endpoint} (he : e ∈ opportunityEndpoints site.pydantic)
    (hlength : e.path.length = 5) : e ∈ ((opportunityEndpoints site.pydantic).drop 2).take 2 := by
  have hfilter : (opportunityEndpoints site.pydantic).filter (fun e => e.path.length = 5) =
      ((opportunityEndpoints site.pydantic).drop 2).take 2 := rfl
  rw [← hfilter]
  exact List.mem_filter.mpr ⟨he, decide_eq_true hlength⟩

theorem leads_opportunityList {e : Endpoint} {r : HttpRequest} {params : List (List Char)}
    (hselect : selectLocation r.path = some opportunityList)
    (he : e ∈ endpointsOf site.pydantic .opportunityService) (hmethod : e.method = r.method)
    (hparams : paramsOf e.path r.path.toList = some params) :
    Leads Open (fun c => Exposed c ∧ Unprotected r) e.handler := by
  have hpath := selectLocation_list_iff.mp hselect
  rw [hpath] at hparams
  have htaken := endpoints_opportunityList he hparams
  simp only [opportunityEndpoints, List.take_succ_cons, List.take_zero, List.mem_cons,
    List.not_mem_nil, or_false] at htaken
  rcases htaken with rfl | rfl
  · -- create_opp
    intro params' body c hc
    obtain ⟨data, -, rfl⟩ := Option.map_eq_some_iff.mp hc
    exact ⟨trivial, Or.inl ⟨hmethod.symm, hpath⟩⟩
  · -- list_opps
    intro r' params' body c hc
    cases hc
    trivial

/-- The path of one opportunity has five segments. -/
theorem length_of_opportunityRead {template : List Part} {text : String}
    {params : List (List Char)} (hmatch : regexMatch text opportunityRead = true)
    (hparams : paramsOf template text.toList = some params) : template.length = 5 := by
  obtain ⟨first, word, rest, hpath, hword, hrest⟩ := exists_word_of_test hmatch
  have hslash : '/' ∉ first :: word ++ rest := by
    intro hmem
    rcases List.mem_append.mp hmem with hmem | hmem
    · exact absurd (hword '/' hmem) (by decide)
    · exact absurd (eq_newline_of_atEnd hrest hmem) (by decide)
  have htext : "/api/v1/opportunities/".toList = "/api/v1/opportunities".toList ++ ['/'] := by
    decide
  rw [hpath, htext, List.append_assoc, List.singleton_append] at hparams
  exact length_of_paramsOf hslash hparams

theorem leads_opportunityRead {e : Endpoint} {r : HttpRequest} {params : List (List Char)}
    (hselect : selectLocation r.path = some opportunityRead)
    (he : e ∈ endpointsOf site.pydantic .opportunityService) (hmethod : e.method = r.method)
    (hparams : paramsOf e.path r.path.toList = some params) :
    Leads Open (fun c => Exposed c ∧ Unprotected r) e.handler := by
  have hmatch := selectLocation_read_iff.mp hselect
  have htaken := endpoints_opportunityRead he (length_of_opportunityRead hmatch hparams)
  simp only [opportunityEndpoints, List.drop_succ_cons, List.drop_zero, List.take_succ_cons,
    List.take_zero, List.mem_cons, List.not_mem_nil, or_false] at htaken
  rcases htaken with rfl | rfl
  · -- get_opp
    intro r' params' body c hc
    obtain ⟨id, -, rfl⟩ := Option.map_eq_some_iff.mp hc
    trivial
  · -- patch_opp
    intro params' body c hc
    obtain ⟨id, -, hc⟩ := Option.bind_eq_some_iff.mp hc
    obtain ⟨data, -, hc⟩ := Option.bind_eq_some_iff.mp hc
    cases hc
    exact ⟨trivial, Or.inr ⟨hmethod.symm, hmatch⟩⟩

theorem leads_files {e : Endpoint} {r : HttpRequest} {params : List (List Char)}
    (hselect : selectLocation r.path = some files)
    (he : e ∈ endpointsOf site.pydantic .applicationService)
    (hparams : paramsOf e.path r.path.toList = some params) :
    Leads Open (fun _ => False) e.handler := by
  have hstart : "/api/v1/files/".toList <+: r.path.toList := by
    rcases (selectLocation_mem hselect).2 with h | h | h
    · cases h
    · cases h
    · simp only [initialLength, files] at h
      split at h
      · rename_i hpre
        exact List.isPrefixOf_iff_prefix.mp hpre
      · cases h
  obtain ⟨tail, hpath⟩ := hstart
  have htext : "/api/v1/files/".toList = "/api/v1/files".toList ++ ['/'] := by decide
  rw [← hpath, htext, List.append_assoc, List.singleton_append] at hparams
  obtain ⟨last, -, hmatch⟩ := matchParts_of_paramsOf hparams
  -- the first segments of the other routes are not those of the files
  have hfirst : segments "/api/v1/files".toList =
      [[], "api".toList, "v1".toList, "files".toList] := by decide
  rw [hfirst] at hmatch
  have hother : ∀ parts rest, matchParts (path "/api/v1/applications" ++ parts)
      ([[], "api".toList, "v1".toList, "files".toList] ++ rest) = none := fun _ _ => rfl
  have hhealth : ∀ rest, matchParts (path "/health")
      ([[], "api".toList, "v1".toList, "files".toList] ++ rest) = none := fun _ => rfl
  simp only [endpointsOf, applicationEndpoints, List.mem_cons, List.not_mem_nil, or_false] at he
  rcases he with rfl | rfl | rfl | rfl | rfl | rfl | rfl | rfl | rfl
  · cases (hother [] _).symm.trans hmatch
  · cases (hother [] _).symm.trans hmatch
  · cases (hother _ _).symm.trans hmatch
  · cases (hother _ _).symm.trans hmatch
  · cases (hother _ _).symm.trans hmatch
  · cases (hother _ _).symm.trans hmatch
  · cases (hother (path "files/resume") _).symm.trans hmatch
  · cases (hhealth _).symm.trans hmatch
  · -- serve_local_file
    intro r' params' body c hc
    rcases params' with _ | ⟨folder, _ | ⟨filename, _ | ⟨extra, more⟩⟩⟩
    · cases hc
    · cases hc
    · cases hc
      trivial
    · cases hc

/-! ## Who gets how far -/

/-- `/api/v1/auth/profile/` is a path of the protected endpoints before it is its own. -/
theorem selectLocation_ne_authProfileOf (text : String) :
    selectLocation text ≠ some authProfileOf := by
  intro h
  rcases (selectLocation_mem h).2 with hexact | hregex | hlen
  · cases hexact
  · -- a pattern before it matches too
    have hprotected : regexMatch text protectedAuth = true := by
      obtain ⟨tail, htail⟩ := List.isPrefixOf_iff_prefix.mp (Bool.and_eq_true_iff.mp hregex).1
      have htext : text.toList = "/api/v1/auth/".toList ++ ("profile".toList ++ ('/' :: tail)) := by
        rw [← htail]
        rfl
      simp only [regexMatch, protectedAuth, Regex.test, htext, matchPieces, Gateway.text,
        List.drop_left, List.any_cons]
      simp
    have hfirst : ∀ l, locations.find? (regexMatch text) = some l →
        l = publicAuth ∨ l = protectedAuth := by
      intro l hl
      simp only [locations, List.find?_cons, show regexMatch text health = false from rfl,
        show regexMatch text authValidate = false from rfl, hprotected] at hl
      split at hl
      · exact Or.inl (Option.some.inj hl).symm
      · exact Or.inr (Option.some.inj hl).symm
    have hpublic : publicAuth ≠ authProfileOf := by
      intro heq
      have hlogin : regexMatch "/api/v1/auth/login" publicAuth =
          regexMatch "/api/v1/auth/login" authProfileOf := by rw [heq]
      exact absurd hlogin (by decide)
    have hprotectedNe : protectedAuth ≠ authProfileOf := by
      intro heq
      cases congrArg Location.target heq
    unfold selectLocation at h
    rcases hexact : locations.find? (exactMatch text) with _ | l
    · rw [hexact, Option.none_or] at h
      rcases hfind : locations.find? (regexMatch text) with _ | l
      · exact absurd hregex (List.find?_eq_none.mp hfind authProfileOf (by simp [locations]))
      · rw [hfind, Option.some_or] at h
        cases h
        rcases hfirst _ hfind with heq | heq
        · exact hpublic heq.symm
        · exact hprotectedNe heq.symm
    · rw [hexact, Option.some_or] at h
      cases h
      cases List.find?_some hexact
  · cases hlen

/-- Behind `auth_request`, the identity headers are those of the token. -/
theorem setsIdentity_of_guarded {text : String} {l : Location} {upstream : Upstream}
    {headers : List (String × Variable)} (hselect : selectLocation text = some l)
    (htarget : l.target = .proxy upstream true headers) : headers = setsIdentity := by
  have hmem := (selectLocation_mem hselect).1
  simp only [locations, List.mem_cons, List.not_mem_nil, or_false] at hmem
  rcases hmem with rfl | rfl | rfl | rfl | rfl | rfl | rfl | rfl | rfl | rfl | rfl | rfl | rfl
  all_goals
    cases htarget
    try rfl

/-- What a location without `auth_request` leads to. -/
theorem leads_unguarded {l : Location} {upstream : Upstream} {headers : List (String × Variable)}
    {e : Endpoint} {r : HttpRequest} {params : List (List Char)}
    (hselect : selectLocation r.path = some l) (htarget : l.target = .proxy upstream false headers)
    (he : e ∈ endpointsOf site.pydantic upstream) (hmethod : e.method = r.method)
    (hparams : paramsOf e.path r.path.toList = some params) :
    headers = setsHost ∧ Leads Open (fun c => Exposed c ∧ Unprotected r) e.handler := by
  have hmem := (selectLocation_mem hselect).1
  simp only [locations, List.mem_cons, List.not_mem_nil, or_false] at hmem
  rcases hmem with rfl | rfl | rfl | rfl | rfl | rfl | rfl | rfl | rfl | rfl | rfl | rfl | rfl
  all_goals first | cases htarget; done | skip
  · -- publicAuth
    cases htarget
    have hmatch : regexMatch r.path publicAuth = true := by
      rcases (selectLocation_mem hselect).2 with h | h | h
      · cases h
      · exact h
      · cases h
    refine ⟨rfl, (leads_publicAuth hmatch he hparams).mono (fun _ h => h) ?_⟩
    intro c hc
    exact hc.elim
  · exact absurd hselect (selectLocation_ne_authProfileOf r.path)
  · cases htarget
    exact ⟨rfl, leads_opportunityList hselect he hmethod hparams⟩
  · cases htarget
    exact ⟨rfl, leads_opportunityRead hselect he hmethod hparams⟩
  · -- files
    cases htarget
    refine ⟨rfl, (leads_files hselect he hparams).mono (fun _ h => h) ?_⟩
    intro c hc
    exact hc.elim

/-- **Who gets how far.**  A request reaches its handler with a token that validates, and as
    the user whom the token names; or the handler is open to all; or it is one of the two that
    believe the request's own credentials. -/
theorem called_cases {redis : List RedisEntry} {now : Time} {r : HttpRequest} {body : Body}
    {call : Call} (h : called site redis now r body = .ok call) :
    (∃ user, validate site.deployment redis now r = .ok user ∧
        ((∃ c, call = .anyone c) ∨ ∃ c, call = .user user c)) ∨
      (∃ c, call = .anyone c ∧ Open c) ∨
      ∃ user c, call = .user user c ∧ Exposed c ∧ Unprotected r ∧
        getCurrentUser site.deployment.jose (environOf site.deployment.settings) now
          r.credentials = .ok user := by
  obtain ⟨l, upstream, hselect, ⟨headers, user, htarget, hvalidate, hdispatch⟩ |
    ⟨headers, htarget, hdispatch⟩⟩ := called_eq_ok h
  · obtain rfl := setsIdentity_of_guarded hselect htarget
    refine Or.inl ⟨user, hvalidate, ?_⟩
    obtain ⟨e, params, -, -, -, ⟨f, c, -, -, rfl⟩ | ⟨f, user', c, -, huser, -, rfl⟩⟩ :=
      dispatch_eq_ok hdispatch
    · exact Or.inl ⟨c, rfl⟩
    · rw [forwarded_identity] at huser
      cases huser
      exact Or.inr ⟨c, rfl⟩
  · obtain ⟨e, params, he, hmethod, hparams, hcall⟩ := dispatch_eq_ok hdispatch
    obtain ⟨rfl, hleads⟩ := leads_unguarded hselect htarget he hmethod hparams
    right
    rcases hcall with ⟨f, c, hhandler, hc, rfl⟩ | ⟨f, user, c, hhandler, huser, hc, rfl⟩
    · rw [hhandler] at hleads
      exact Or.inl ⟨c, rfl, hleads _ _ _ c hc⟩
    · rw [hhandler] at hleads
      rw [forwarded_credentials] at huser
      obtain ⟨hexposed, hun⟩ := hleads _ _ c hc
      exact Or.inr ⟨user, c, rfl, hexposed, hun, huser⟩

/-! ## Without a token -/

/-- Accounts, profiles and refresh tokens come in, none goes, and nothing is blacklisted.  Of
    the rows that were there, at most the flag of a refresh token has changed. -/
structure Grown (s t : AuthService.State) : Prop where
  users : s.users <+: t.users
  profiles : s.profiles <+: t.profiles
  refreshTokens : s.refreshTokens.map RefreshToken.tokenJti <+:
    t.refreshTokens.map RefreshToken.tokenJti
  redis : t.redis = s.redis

theorem Grown.refl (s : AuthService.State) : Grown s s :=
  ⟨List.prefix_rfl, List.prefix_rfl, List.prefix_rfl, rfl⟩

theorem Grown.trans {s t u : AuthService.State} (hst : Grown s t) (htu : Grown t u) : Grown s u :=
  ⟨hst.users.trans htu.users, hst.profiles.trans htu.profiles,
    hst.refreshTokens.trans htu.refreshTokens, htu.redis.trans hst.redis⟩

theorem grown_issueTokens (d : Deployment) (s : AuthService.State) (env : AuthService.Env)
    (user : User) : Grown s (issueTokens d s env user).1 := by
  simp only [issueTokens]
  split
  · exact ⟨List.prefix_rfl, List.prefix_rfl, List.prefix_rfl, rfl⟩
  · split
    · rename_i records _ hins _
      refine ⟨List.prefix_rfl, List.prefix_rfl, ?_, rfl⟩
      rw [(Table.insertRow_eq_some.mp hins).2, List.map_append]
      exact List.prefix_append _ _
    · exact ⟨List.prefix_rfl, List.prefix_rfl, List.prefix_rfl, rfl⟩

theorem grown_revokeRecord (s : AuthService.State) (record : RefreshToken) :
    Grown s (revokeRecord s record) := by
  refine ⟨List.prefix_rfl, List.prefix_rfl, ?_, rfl⟩
  have hsame := Sessions.map_revokeRecord (g := RefreshToken.tokenJti) (fun _ => rfl) s record
  exact hsame ▸ List.prefix_rfl

theorem grown_registerUser (d : Deployment) (s : AuthService.State) (env : AuthService.Env)
    (data : RegisterRequest) : Grown s (registerUser d s env data).1 := by
  simp only [registerUser]
  split
  · exact Grown.refl s
  split
  · exact Grown.refl s
  split
  · exact Grown.refl s
  rename_i t hins
  rw [Profiles.insertUser_eq] at hins
  split at hins
  · cases hins
  · obtain ⟨-, -, -, husers, hprofiles⟩ := Profiles.storeAccount_ok hins
    obtain ⟨hrecords, hredis, -⟩ := Profiles.storeAccount_records hins
    exact ⟨husers ▸ List.prefix_append _ _, hprofiles ▸ List.prefix_append _ _,
      hrecords ▸ List.prefix_rfl, hredis⟩

theorem grown_serve (d : Deployment) (s : AuthService.State) (env : AuthService.Env)
    {request : AuthService.Request} (h : Open (.identity request)) :
    Grown s (serve d s env request).1 := by
  cases request with
  | register data => exact grown_registerUser d s env data
  | login email password =>
    simp only [serve]
    split
    · exact Grown.refl s
    · exact grown_issueTokens d s env _
  | refresh cookies =>
    simp only [serve]
    split
    · exact Grown.refl s
    split
    · exact Grown.refl s
    rename_i token _ _
    rcases Sessions.refreshSession_cases d s env token with ⟨e, heq⟩ |
      ⟨payload, jti, record, user, -, -, -, ⟨-, heq⟩ | heq⟩
    · rw [heq]
      exact Grown.refl s
    · rw [heq]
      exact grown_revokeRecord s record
    · rw [heq]
      exact (grown_revokeRecord s record).trans (grown_issueTokens d _ env user)
  | logout authorization cookies => exact h.elim

/-- Creating and changing opportunities leaves the registrations as they are. -/
theorem registrations_exposed (s : OpportunityService.State) (env : OpportunityService.Env)
    (user : CurrentUser) {request : OpportunityService.Request}
    (h : Exposed (.opportunity request)) :
    (OpportunityService.serve s env (.request user request)).1.registrations =
      s.registrations := by
  cases request with
  | createOpp data =>
    simp only [OpportunityService.serve, OpportunityService.createOpportunity]
    split
    · rfl
    split
    · rfl
    · rename_i hins
      exact (OpportunityService.insertOpportunity_ok hins).2.2
  | patchOpp opportunityId data =>
    simp only [OpportunityService.serve, OpportunityService.updateOpportunity]
    split
    · rfl
    split
    · rfl
    split
    · rfl
    split
    · rfl
    · rename_i hcommit
      rw [OpportunityService.commitUpdate_ok hcommit]
  | createRegistration opportunityId data => exact h.elim

/-- **What a request without a valid token can change.**  The records of students, the files
    and the registrations stay as they are, and no account or profile is touched.  Only a
    request that makes up its caller can change an opportunity. -/
theorem receive_without_token {store : Store} {env : PublicApi.Env} {r : HttpRequest} {body : Body}
    (hno : ∀ user, validate site.deployment store.identity.redis env.clock r ≠ .ok user) :
    let after := (receive site store env r body).1
    after.records = store.records ∧ after.files = store.files ∧
      Grown store.identity after.identity ∧
      after.opportunities.registrations = store.opportunities.registrations ∧
      ((Unprotected r → Honest site.deployment store.identity.redis env.clock r) →
        after.opportunities = store.opportunities) := by
  have hrefl := Grown.refl store.identity
  dsimp only
  unfold receive
  split
  · exact ⟨rfl, rfl, hrefl, rfl, fun _ => rfl⟩
  rename_i call hcalled
  rcases called_cases hcalled with ⟨user, hvalid, -⟩ | ⟨c, rfl, hopen⟩ |
    ⟨user, c, rfl, hexposed, hun, hcaller⟩
  · exact absurd hvalid (hno user)
  · -- a handler that is open to all
    cases c with
    | identity request =>
      exact ⟨rfl, rfl, grown_serve site.deployment store.identity env.identity hopen, rfl,
        fun _ => rfl⟩
    | listOpps => exact ⟨rfl, rfl, hrefl, rfl, fun _ => rfl⟩
    | getOpp opportunityId => exact ⟨rfl, rfl, hrefl, rfl, fun _ => rfl⟩
    | serveLocalFile service folder filename => exact ⟨rfl, rfl, hrefl, rfl, fun _ => rfl⟩
    | validate authorization cookies => exact hopen.elim
    | getProfile userId => exact hopen.elim
    | health => exact hopen.elim
  · -- a handler that believes the request's own credentials
    cases c with
    | opportunity request =>
      refine ⟨rfl, rfl, hrefl, registrations_exposed store.opportunities env.opportunity user
        hexposed, ?_⟩
      intro hhonest
      have hauthentic := (getCurrentUser_authentic_iff site.deployment store.identity.redis
        env.clock r).mpr (hhonest hun)
      exact absurd (hauthentic user hcaller) (hno user)
    | _ => exact hexposed.elim

end Site

/-- A site of one student, to whom jose has given a token. -/
def forgedSite : Site := ⟨oneToken, plainPydantic, fun _ => []⟩

/-- Somebody publishes an opportunity in a coordinator's name. -/
theorem forgedCreate_confined :
    let store := Store.fresh fun _ _ => none
    let after := (receive forgedSite store (.untroubled (.ofNat 4)) forgedCreate
      (.json (.obj [("title", .str "Drive")]))).1
    after.records = store.records ∧ after.files = store.files ∧
      Grown store.identity after.identity ∧
      after.opportunities.registrations = store.opportunities.registrations ∧
      ((Unprotected forgedCreate → Honest oneToken [] 0 forgedCreate) →
        after.opportunities = store.opportunities) := by
  refine receive_without_token ?_
  intro user h
  cases h

end CampusHire.Perimeter
