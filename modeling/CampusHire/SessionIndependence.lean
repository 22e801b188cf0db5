import CampusHire.Revocation

/-!
# Whether sessions are independent

The blacklist is keyed by the text of a token.  An access token says who the user is, in
which role and in which second it expires, and nothing else (a refresh token has its
`jti`), so the sessions that a user opens within one second have one access token, and a
logout from one of them revokes them all (`siblings_logged_out`).

`independent_iff` says that nothing else ties two sessions together.
-/

namespace CampusHire.SessionIndependence

open CampusHire AuthService Revocation

/-! ## Sessions -/

/-- The service, and the sessions that `issue_tokens` has opened, in order. -/
structure Service where
  state : State
  sessions : List Issue

/-- A call of `issue_tokens`, or the logout of the holder of a session. -/
inductive Call where
  | issueTokens (user : User) (env : Env)
  | logout (session : Nat) (now : Time)

def Call.time : Call → Time
  | .issueTokens _ env => env.clock
  | .logout _ now => now

section Runs

variable (d : Deployment)

def accessToken (i : Issue) : String := (tokenPair d i).1

def call (s : Service) : Call → Service
  | .issueTokens user env =>
    match AuthService.issueTokens d s.state env user with
    | (state, .ok _) => ⟨state, s.sessions ++ [⟨user, env.refreshJti, env.clock⟩]⟩
    | (state, .error _) => ⟨state, s.sessions⟩
  | .logout session now =>
    match s.sessions[session]? with
    | none => s
    | some i =>
      { s with state :=
          { s.state with redis := blacklistToken d s.state.redis now (accessToken d i) } }

def Service.empty : Service := ⟨State.empty, []⟩

def calls (run : List Call) : Service := run.foldl (call d) .empty

/-- Only the holder of session `k` logs out. -/
def othersStay (k : Nat) (run : List Call) : List Call :=
  run.filter fun
    | .issueTokens _ _ => true
    | .logout session _ => decide (session = k)

/-- At every point of the run from which session `k` is open, and at every time from then
    on, its access token is accepted if it would be had no other session logged out. -/
def Independent (run : List Call) (k : Nat) : Prop :=
  ∀ before after i now, run = before ++ after → (calls d before).sessions[k]? = some i →
    (∀ c ∈ before, c.time ≤ now) →
    ¬ Refused d (calls d (othersStay k before)).state.redis now (accessToken d i) →
    ¬ Refused d (calls d before).state.redis now (accessToken d i)

/-- A logout of session `j` at time `now` takes `i` along: the two are of one user, in one
    role and to one second, and the token is still one that `blacklist_token` writes. -/
def TakesAlong (i j : Issue) (now : Time) : Prop :=
  i.accessClaims d = j.accessClaims d ∧ Writes d (accessToken d j) now

/-- No logout of the run takes session `k` along. -/
def Undisturbed (run : List Call) (k : Nat) : Prop :=
  ∀ before after session now i j, run = before ++ .logout session now :: after →
    (calls d run).sessions[k]? = some i → (calls d before).sessions[session]? = some j →
    ¬ TakesAlong d i j now

/-! ## One call -/

theorem calls_concat (run : List Call) (c : Call) :
    calls d (run ++ [c]) = call d (calls d run) c := by
  rw [calls, List.foldl_append]
  rfl

/-- What a call does to the sessions: nothing, or it opens one at its time. -/
theorem call_sessions (s : Service) (c : Call) :
    (call d s c).sessions = s.sessions ∨
      ∃ user env, c = .issueTokens user env ∧
        (call d s c).sessions = s.sessions ++ [⟨user, env.refreshJti, env.clock⟩] := by
  cases c with
  | issueTokens user env =>
    simp only [call]
    split
    · exact Or.inr ⟨user, env, rfl, rfl⟩
    · exact Or.inl rfl
  | logout session now =>
    simp only [call]
    split
    · exact Or.inl rfl
    · exact Or.inl rfl

theorem issueTokens_redis (s : State) (env : Env) (user : User) :
    (AuthService.issueTokens d s env user).1.redis = s.redis := by
  simp only [AuthService.issueTokens]
  split
  · rfl
  · split <;> rfl

/-- What a call does to the blacklist: nothing, or it blacklists the token of a session. -/
theorem call_redis (s : Service) (c : Call) :
    (call d s c).state.redis = s.state.redis ∨
      ∃ session now j, c = .logout session now ∧ s.sessions[session]? = some j ∧
        (call d s c).state.redis = blacklistToken d s.state.redis now (accessToken d j) := by
  cases c with
  | issueTokens user env =>
    have hredis := issueTokens_redis d s.state env user
    simp only [call]
    split
    · rename_i state pair heq
      rw [heq] at hredis
      exact Or.inl hredis
    · rename_i state e heq
      rw [heq] at hredis
      exact Or.inl hredis
  | logout session now =>
    simp only [call]
    split
    · exact Or.inl rfl
    · rename_i j hj
      exact Or.inr ⟨session, now, j, rfl, hj, rfl⟩

theorem call_logout {s : Service} {session : Nat} {now : Time} {j : Issue}
    (h : s.sessions[session]? = some j) : (call d s (.logout session now)).state.redis =
      blacklistToken d s.state.redis now (accessToken d j) := by
  simp only [call, h]

/-! ## Runs -/

theorem session_stays {run : List Call} {k : Nat} {i : Issue} (more : List Call)
    (h : (calls d run).sessions[k]? = some i) : (calls d (run ++ more)).sessions[k]? = some i := by
  induction more using List.reverseRecOn with
  | nil => rwa [List.append_nil]
  | append_singleton more c ih =>
    rw [← List.append_assoc, calls_concat]
    rcases call_sessions d (calls d (run ++ more)) c with heq | ⟨user, env, -, heq⟩
    · rw [heq, ih]
    · rw [heq, List.getElem?_append_left (List.getElem?_eq_some_iff.mp ih).1, ih]

/-- A session was opened by a call of its time. -/
theorem session_opened {run : List Call} {k : Nat} {i : Issue}
    (h : (calls d run).sessions[k]? = some i) :
    ∃ before c after, run = before ++ c :: after ∧ c.time = i.time ∧
      (calls d (before ++ [c])).sessions[k]? = some i := by
  induction run using List.reverseRecOn with
  | nil => cases h
  | append_singleton run c ih =>
    by_cases hold : (calls d run).sessions[k]? = some i
    · obtain ⟨before, c', after, heq, htime, hopen⟩ := ih hold
      exact ⟨before, c', after ++ [c], by simp [heq], htime, hopen⟩
    · refine ⟨run, c, [], rfl, ?_, h⟩
      rw [calls_concat] at h
      rcases call_sessions d (calls d run) c with heq | ⟨user, env, rfl, heq⟩
      · rw [heq] at h
        exact absurd h hold
      · rw [heq] at h
        -- the session is not an old one, so it is the new one
        have hlast : k = (calls d run).sessions.length := by
          have hlt := (List.getElem?_eq_some_iff.mp h).1
          rw [List.length_append, List.length_singleton] at hlt
          by_contra hne
          have hbefore : k < (calls d run).sessions.length := by omega
          rw [List.getElem?_append_left hbefore] at h
          exact hold h
        rw [hlast, List.getElem?_concat_length] at h
        cases h
        rfl

/-- Some logout of the run has written the token's key. -/
def LoggedOut (run : List Call) (token : String) : Prop :=
  ∃ before after session time j, run = before ++ .logout session time :: after ∧
    (calls d before).sessions[session]? = some j ∧ accessToken d j = token ∧ Writes d token time

theorem loggedOut_of_blacklisted {run : List Call} {token : String} {now : Time}
    (h : isTokenBlacklisted (calls d run).state.redis now token = true) :
    LoggedOut d run token := by
  induction run using List.reverseRecOn with
  | nil => cases h
  | append_singleton run c ih =>
    have hearlier : isTokenBlacklisted (calls d run).state.redis now token = true →
        LoggedOut d (run ++ [c]) token := by
      intro hlisted
      obtain ⟨before, after, session, time, j, heq, hrest⟩ := ih hlisted
      exact ⟨before, after ++ [c], session, time, j, by simp [heq], hrest⟩
    rw [calls_concat] at h
    rcases call_redis d (calls d run) c with heq | ⟨session, time, j, rfl, hj, heq⟩
    · rw [heq] at h
      exact hearlier h
    rw [heq] at h
    rcases blacklistToken_cases d (calls d run).state.redis time (accessToken d j) with
      ⟨-, hset⟩ | ⟨hwrites, ttl, -, hset⟩
    · rw [hset] at h
      exact hearlier h
    · by_cases hsame : token = accessToken d j
      · exact ⟨run, [], session, time, j, rfl, hj, hsame.symm, hsame ▸ hwrites⟩
      · rw [hset, isTokenBlacklisted, redisExists_setex_other fun hkey =>
          hsame (blacklistKey_injective hkey)] at h
        exact hearlier h

/-- With nobody else logging out the blacklist is empty. -/
theorem othersStay_redis {run : List Call} {k : Nat} (hown : ∀ now, .logout k now ∉ run) :
    (calls d (othersStay k run)).state.redis = [] := by
  have hissues : ∀ c ∈ othersStay k run, ∃ user env, c = .issueTokens user env := by
    intro c hc
    obtain ⟨hmem, hkeeps⟩ := List.mem_filter.mp hc
    cases c with
    | issueTokens user env => exact ⟨user, env, rfl⟩
    | logout session now =>
      have hsession : session = k := by simpa using hkeeps
      exact absurd (hsession ▸ hmem) (hown now)
  generalize othersStay k run = issues at hissues
  induction issues using List.reverseRecOn with
  | nil => rfl
  | append_singleton issues c ih =>
    rw [calls_concat]
    rcases call_redis d (calls d issues) c with heq | ⟨session, now, j, rfl, -, -⟩
    · rw [heq]
      exact ih fun c' hc' => hissues c' (List.mem_append_left _ hc')
    · obtain ⟨user, env, hcall⟩ := hissues _ (List.mem_append_right _ (List.mem_singleton.mpr rfl))
      cases hcall

/-- A key that a logout has written lives for a second at least, whatever comes next. -/
theorem blacklisted_for_a_second {before more : List Call} {session : Nat} {time now : Time}
    {j : Issue} (hj : (calls d before).sessions[session]? = some j)
    (hwrites : Writes d (accessToken d j) time) (hlater : ∀ c ∈ more, time ≤ c.time)
    (hpast : ∀ c ∈ more, c.time ≤ now) (hle : time ≤ now) (hlt : now < time + 1) :
    isTokenBlacklisted (calls d (before ++ [.logout session time] ++ more)).state.redis now
      (accessToken d j) = true := by
  induction more using List.reverseRecOn with
  | nil =>
    rw [List.append_nil, calls_concat, call_logout d hj]
    rcases blacklistToken_cases d (calls d before).state.redis time (accessToken d j) with
      ⟨hnot, -⟩ | ⟨-, ttl, hone, hset⟩
    · exact absurd hwrites hnot
    · have hone' : (1 : ℚ) ≤ ttl := by exact_mod_cast hone
      rw [hset, isTokenBlacklisted, redisExists_setex hle]
      linarith
  | append_singleton more c ih =>
    have hrest := ih (fun c' hc' => hlater c' (List.mem_append_left _ hc'))
      (fun c' hc' => hpast c' (List.mem_append_left _ hc'))
    have hc : c ∈ more ++ [c] := List.mem_append_right _ (List.mem_singleton.mpr rfl)
    rw [← List.append_assoc, calls_concat]
    rcases call_redis d (calls d (before ++ [.logout session time] ++ more)) c with
      heq | ⟨session', time', j', rfl, -, heq⟩
    · rw [heq]
      exact hrest
    rw [heq]
    rcases blacklistToken_cases d (calls d (before ++ [.logout session time] ++ more)).state.redis
      time' (accessToken d j') with ⟨-, hset⟩ | ⟨-, ttl, hone, hset⟩
    · rw [hset]
      exact hrest
    rw [hset, isTokenBlacklisted]
    by_cases hsame : accessToken d j = accessToken d j'
    · -- the same key, written again
      have hone' : (1 : ℚ) ≤ ttl := by exact_mod_cast hone
      have htime' : time ≤ time' := hlater _ hc
      have hnow : time' ≤ now := hpast _ hc
      rw [hsame, redisExists_setex hnow]
      linarith
    · rw [redisExists_setex_other fun hkey => hsame (blacklistKey_injective hkey)]
      exact hrest

/-! ## What two tokens have in common -/

variable {d}

theorem decode_accessToken (hjose : d.jose.ReturnsEncoded) {i : Issue} {now : Time}
    {claims : Payload} (h : d.decode (accessToken d i) now = some claims) :
    claims = i.accessClaims d :=
  hjose _ _ _ _ (Jose.decode_eq_some.mp h).1

theorem accessClaims_exp (i : Issue) : (i.accessClaims d).exp =
    some ⌊i.time + d.settings.accessTokenExpireMinutes * 60⌋ := rfl

theorem isAccess_accessClaims (i : Issue) : IsAccess (i.accessClaims d) :=
  ⟨rfl, ⟨i.user.id, i.user.role⟩, by simp [Issue.accessClaims, accessClaims],
    by simp [Issue.accessClaims, accessClaims]⟩

theorem accessToken_eq {i j : Issue} (h : i.accessClaims d = j.accessClaims d) :
    accessToken d i = accessToken d j := by
  have heq : ∀ i : Issue, accessToken d i =
      d.jose.encode (i.accessClaims d) d.settings.jwtSecretKey d.settings.jwtAlgorithm :=
    fun _ => rfl
  rw [heq, heq, h]

/-- A token that still decodes is accepted if nobody has logged out. -/
theorem accepted_of_decode (hjose : d.jose.ReturnsEncoded) {i : Issue} {now : Time}
    {claims : Payload} (h : d.decode (accessToken d i) now = some claims) :
    ¬ Refused d [] now (accessToken d i) := by
  intro hrefused
  have hlisted := refused_iff_blacklisted.mp hrefused claims h
    (decode_accessToken hjose h ▸ isAccess_accessClaims i)
  cases hlisted

/-- Sessions that share a token were opened within a second. -/
theorem time_lt_of_claims {i j : Issue} (h : i.accessClaims d = j.accessClaims d) :
    i.time < j.time + 1 := by
  have hexp : ⌊i.time + d.settings.accessTokenExpireMinutes * 60⌋ =
      ⌊j.time + d.settings.accessTokenExpireMinutes * 60⌋ := by
    have hsome := congrArg Payload.exp h
    rw [accessClaims_exp, accessClaims_exp] at hsome
    exact Option.some.inj hsome
  have hi := Int.lt_floor_add_one (i.time + d.settings.accessTokenExpireMinutes * 60)
  have hj := Int.floor_le (j.time + d.settings.accessTokenExpireMinutes * 60)
  rw [hexp] at hi
  linarith only [hi, hj]

/-- If a session's token decodes after it was opened, every session's token that has its
    claims decodes when it is opened. -/
theorem decode_when_opened (hjose : d.jose.ReturnsEncoded) {i j : Issue} {now : Time}
    {claims : Payload} (hclaims : i.accessClaims d = j.accessClaims d) (hle : j.time ≤ now)
    (h : d.decode (accessToken d j) now = some claims) :
    d.decode (accessToken d i) i.time = some claims := by
  obtain ⟨hverify, hlive⟩ := Jose.decode_eq_some.mp h
  have heq := decode_accessToken hjose h
  -- the lifetime is not negative
  have hminutes : 0 ≤ d.settings.accessTokenExpireMinutes := by
    by_contra hneg
    have hfloor : ⌊now⌋ ≤ ⌊j.time + d.settings.accessTokenExpireMinutes * 60⌋ :=
      Jose.expired_eq_false.mp hlive _ (by rw [heq, accessClaims_exp])
    have hminutes : (d.settings.accessTokenExpireMinutes : ℚ) ≤ -1 := by
      exact_mod_cast Int.le_sub_one_of_lt (not_le.mp hneg)
    have hshort : j.time + d.settings.accessTokenExpireMinutes * 60 ≤ now - 60 := by
      linarith only [hminutes, hle]
    have hsub : ⌊now - 60⌋ = ⌊now⌋ - 60 := by exact_mod_cast Int.floor_sub_intCast now 60
    have hless := hfloor.trans (Int.floor_le_floor hshort)
    omega
  rw [← accessToken_eq hclaims] at hverify
  refine Jose.decode_eq_some.mpr ⟨hverify, Jose.expired_eq_false.mpr ?_⟩
  intro exp hexp
  rw [heq, ← hclaims, accessClaims_exp] at hexp
  have hpos : (0 : ℚ) ≤ d.settings.accessTokenExpireMinutes := by exact_mod_cast hminutes
  rw [← Option.some.inj hexp]
  exact Int.floor_le_floor (by linarith only [hpos])

/-! ## Independence -/

/-- A run in the order of time: the calls up to one are not later than it. -/
theorem time_le_last {run before after : List Call} {c : Call}
    (hordered : (run.map Call.time).Pairwise (· ≤ ·)) (heq : run = before ++ c :: after) :
    ∀ c' ∈ before ++ [c], c'.time ≤ c.time := by
  intro c' hc'
  rw [heq, List.map_append, List.pairwise_append] at hordered
  rcases List.mem_append.mp hc' with hmem | hmem
  · exact hordered.2.2 _ (List.mem_map_of_mem hmem) _ (by simp)
  · rw [List.mem_singleton.mp hmem]

theorem independent_of_undisturbed (hjose : d.jose.ReturnsEncoded) {run : List Call} {k : Nat}
    (h : Undisturbed d run k) : Independent d run k := by
  intro before after i now heq hopen _ haccepted hrefused
  apply haccepted
  rw [refused_iff_blacklisted] at hrefused ⊢
  intro claims hdecode haccess
  obtain ⟨earlier, later, session, time, j, hbefore, hj, hsame, hwrites⟩ :=
    loggedOut_of_blacklisted d (hrefused claims hdecode haccess)
  -- the token of the logout is that of session `k`, and so are its claims
  obtain ⟨claims', exp, hdecode', -⟩ := id hwrites
  have hi := decode_accessToken hjose hdecode'
  rw [← hsame] at hdecode' hwrites
  have hclaims := hi.symm.trans (decode_accessToken hjose hdecode')
  refine absurd ⟨hclaims, hwrites⟩ (h earlier (later ++ after) session time i j ?_ ?_ hj)
  · rw [heq, hbefore]
    simp
  · rw [heq]
    exact session_stays d after hopen

theorem undisturbed_of_independent (hjose : d.jose.ReturnsEncoded) {run : List Call} {k : Nat}
    (hordered : (run.map Call.time).Pairwise (· ≤ ·)) (hown : ∀ now, .logout k now ∉ run)
    (h : Independent d run k) : Undisturbed d run k := by
  intro before after session time i j heq hi hj ⟨hclaims, hwrites⟩
  obtain ⟨claims, exp, hdecode, -⟩ := id hwrites
  -- at no later point can session `k` be open while its token decodes and the key lives
  have hconflict : ∀ more rest now, run = before ++ [.logout session time] ++ more ++ rest →
      (calls d (before ++ [.logout session time] ++ more)).sessions[k]? = some i →
      (∀ c ∈ before ++ [.logout session time] ++ more, c.time ≤ now) → now < time + 1 →
      d.decode (accessToken d i) now = some claims → False := by
    intro more rest now hrun hopen hpast hlt hnow
    refine h _ rest i now hrun hopen hpast ?_ ?_
    · rw [othersStay_redis d fun t hmem => hown t (by
        rw [hrun]
        exact List.mem_append_left _ hmem)]
      exact accepted_of_decode hjose hnow
    · rw [refused_iff_blacklisted]
      intro _ _ _
      rw [accessToken_eq hclaims]
      have hlater : ∀ c ∈ more, time ≤ c.time := by
        rw [hrun, List.append_assoc, List.map_append, List.pairwise_append] at hordered
        intro c hc
        exact hordered.2.2 _ (by simp [Call.time]) _ (List.mem_map_of_mem (by simp [hc]))
      exact blacklisted_for_a_second d hj hwrites hlater
        (fun c hc => hpast c (by simp [hc])) (hpast (.logout session time) (by simp)) hlt
  have hpast := time_le_last hordered heq
  have hopened : j.time ≤ time := by
    obtain ⟨earlier, c, later, hbefore, htime, -⟩ := session_opened d hj
    rw [← htime]
    exact hpast c (by simp [hbefore])
  obtain ⟨earlier, c, later, hrun, htime, hopen⟩ := session_opened d hi
  rcases List.prefix_or_prefix_of_prefix
    (⟨later, by simp [hrun]⟩ : earlier ++ [c] <+: run)
    (⟨after, by simp [heq]⟩ : before ++ [.logout session time] <+: run) with ⟨more, hmore⟩ |
    ⟨more, hmore⟩
  · -- the session was open when the other one was logged out
    refine hconflict [] after time (by simp [heq]) ?_ ?_ (lt_add_one time) ?_
    · rw [List.append_nil, ← hmore]
      exact session_stays d more hopen
    · rw [List.append_nil]
      exact hpast
    · rw [accessToken_eq hclaims]
      exact hdecode
  · -- it was opened later, in the same second
    refine hconflict more later i.time (by rw [hmore, hrun]; simp) ?_ ?_ ?_ ?_
    · rw [hmore]
      exact hopen
    · rw [hmore, ← htime]
      exact time_le_last hordered hrun
    · linarith only [time_lt_of_claims hclaims, hopened]
    · exact decode_when_opened hjose hclaims hopened hdecode

/-- **Sessions are independent up to shared tokens.**  In every run of `issue_tokens` and
    logouts in the order of time, the access token of a session whose holder does not log
    out is accepted whenever it would be had nobody else logged out, exactly when no logout
    is from a session of the same user, in the same role and to the same second, while
    their token is still one that `blacklist_token` writes. -/
theorem independent_iff (hjose : d.jose.ReturnsEncoded) (run : List Call) (k : Nat)
    (hordered : (run.map Call.time).Pairwise (· ≤ ·)) (hown : ∀ now, .logout k now ∉ run) :
    Independent d run k ↔ Undisturbed d run k := by
  constructor
  · exact undisturbed_of_independent hjose hordered hown
  · exact independent_of_undisturbed hjose

end Runs

/-! ## Two sessions of one student -/

/-- A deployment whose jose knows the access tokens that the student gets at 0 and at 1. -/
def twoTokens : Deployment where
  jose := .ofTable [("first", accessClaims (UUID.ofNat 1).str "student" 15 0),
    ("second", accessClaims (UUID.ofNat 1).str "student" 15 1)]
  pwdContext := ⟨fun _ password => password, fun password hash => decide (password = hash)⟩
  settings := { jwtSecretKey := "secret" }

def student : User := ⟨.ofNat 1, "s@campus", "password", .student, true⟩

/-- Two logins, the second one at the given time, and the logout of the first. -/
def loginsAt (time : Time) : List Call :=
  [.issueTokens student (.untroubled (.ofNat 2) 0),
    .issueTokens student (.untroubled (.ofNat 3) time), .logout 0 1]

/-- Half a second apart the second session loses its access token. -/
theorem siblings_logged_out : ¬ Independent twoTokens (loginsAt 0.5) 1 := by
  intro h
  refine h (loginsAt 0.5) [] ⟨student, .ofNat 3, 0.5⟩ 1 rfl (by rfl) (by decide +kernel) ?_ ?_
  · intro hrefused
    exact hrefused none (some "first") ⟨.ofNat 1, .student⟩ (by decide +kernel) (by decide +kernel)
  · rw [refused_iff_blacklisted]
    intro _ _ _
    decide +kernel

/-- A second apart it keeps it. -/
theorem loginsApart_independent : Independent twoTokens (loginsAt 1) 1 := by
  refine (independent_iff (Jose.returnsEncoded_ofTable (by decide +kernel) (by decide +kernel))
    (loginsAt 1) 1 (by decide +kernel) (by simp [loginsAt])).mpr ?_
  rintro before after session now i j heq hi hj ⟨hclaims, -⟩
  have hsessions : (calls twoTokens (loginsAt 1)).sessions =
      [⟨student, .ofNat 2, 0⟩, ⟨student, .ofNat 3, 1⟩] := by rfl
  have hi' : i = ⟨student, .ofNat 3, 1⟩ := by
    rw [hsessions] at hi
    exact (Option.some.inj hi).symm
  -- every session that can log out expires a second earlier
  have hj' : j = ⟨student, .ofNat 2, 0⟩ := by
    rcases before with _ | ⟨first, _ | ⟨second, _ | ⟨third, rest⟩⟩⟩
    · cases heq
    · cases heq
    · cases heq
      exact (Option.some.inj hj).symm
    · simp [loginsAt] at heq
  rw [hi', hj'] at hclaims
  exact absurd hclaims (by decide +kernel)

end CampusHire.SessionIndependence
