import CampusHire.AuthService
import Mathlib.Tactic.Linarith

/-!
# How long a revoked access token stays revoked

`blacklist_token` sets a key that lives for the rest of the token's life, rounded
down to seconds and at least one second; jose accepts the token to the end of the
second in which it expires.  The key is therefore gone before the token is, unless
the logout comes in that last second (`revoked_for_life_iff`).
-/

namespace CampusHire.Revocation

open CampusHire AuthService

/-! ## The key and the token -/

def IsAccess (claims : Payload) : Prop :=
  claims.type = some "access" ∧
    ∃ user : CurrentUser, claims.sub.bind UUID.parse = some user.id ∧
      claims.role.bind UserRole.ofValue = some user.role

/-- A token is accepted to the end of the second in which it expires. -/
theorem decode_isSome_iff {d : Deployment} {token : String} {claims : Payload} {exp : Int}
    {t t' : Time} (h : d.decode token t = some claims) (hexp : claims.exp = some exp) :
    d.decode token t' = some claims ↔ t' < exp + 1 := by
  have hverify := (Jose.decode_eq_some.mp h).1
  rw [Deployment.decode, Jose.decode_eq_some, Jose.expired_eq_false]
  constructor
  · rintro ⟨-, hlive⟩
    have hle : (⌊t'⌋ : ℚ) ≤ exp := by exact_mod_cast hlive exp hexp
    linarith [Int.lt_floor_add_one t']
  · intro hlt
    refine ⟨hverify, ?_⟩
    intro e he
    rw [hexp] at he
    cases he
    have hfloor : ⌊t'⌋ < exp + 1 := Int.floor_lt.mpr (by exact_mod_cast hlt)
    omega

theorem redisExists_setex {redis : List RedisEntry} {key : String} {ttl : Int} {now t : Time}
    (h : now ≤ t) : redisExists (setex redis key ttl now) key t = true ↔ t < now + ttl := by
  have hrest : (redis.filter fun e => decide (e.key ≠ key)).any
      (fun e => decide (e.key = key) && decide (e.since ≤ t) && decide (t < e.till)) = false := by
    rw [List.any_eq_false]
    intro e he
    have hne : e.key ≠ key := by simpa using (List.mem_filter.mp he).2
    simp [hne]
  rw [redisExists, setex, List.any_append, hrest]
  simp [h]

theorem redisExists_setex_other {redis : List RedisEntry} {key other : String} {ttl : Int}
    {now t : Time} (hne : other ≠ key) :
    redisExists (setex redis key ttl now) other t = redisExists redis other t := by
  have hnew : [(⟨key, now, now + ttl⟩ : RedisEntry)].any (fun e =>
      decide (e.key = other) && decide (e.since ≤ t) && decide (t < e.till)) = false := by
    simp [Ne.symm hne]
  rw [redisExists, setex, List.any_append, hnew, Bool.or_false, redisExists, List.any_filter]
  congr 1
  funext e
  by_cases hkey : e.key = other
  · simp [hkey, hne]
  · simp [hkey]

theorem blacklistKey_injective {token other : String}
    (h : blacklistKey token = blacklistKey other) : token = other := by
  simpa [blacklistKey] using h

/-- `blacklist_token` sets a key. -/
def Writes (d : Deployment) (token : String) (now : Time) : Prop :=
  ∃ claims exp, d.decode token now = some claims ∧ claims.exp = some exp ∧ exp ≠ 0

theorem blacklistToken_cases (d : Deployment) (redis : List RedisEntry) (now : Time)
    (token : String) :
    (¬ Writes d token now ∧ blacklistToken d redis now token = redis) ∨
      (Writes d token now ∧ ∃ ttl : Int, 1 ≤ ttl ∧
        blacklistToken d redis now token = setex redis (blacklistKey token) ttl now) := by
  unfold blacklistToken
  rcases hdecode : d.decode token now with _ | claims
  · exact Or.inl ⟨by simp [Writes, hdecode], rfl⟩
  rcases hexp : claims.exp with _ | exp
  · exact Or.inl ⟨by simp [Writes, hdecode, hexp], by simp only [hexp]⟩
  simp only [hexp]
  by_cases hzero : exp = 0
  · exact Or.inl ⟨by simp [Writes, hdecode, hexp, hzero], if_pos hzero⟩
  · exact Or.inr ⟨⟨claims, exp, hdecode, hexp, hzero⟩, _, le_max_right _ _, if_neg hzero⟩

/-- The time to live covers the token's last second only if that second has begun. -/
theorem ttl_covers_iff (exp : Int) (t : Time) :
    (exp : ℚ) + 1 ≤ t + (max (truncate (exp - t)) 1 : Int) ↔ (exp : ℚ) ≤ t := by
  constructor
  · intro hcover
    by_contra hlt
    have hpos : (0 : ℚ) ≤ exp - t := by linarith
    have hfloor : ((truncate (exp - t) : Int) : ℚ) ≤ exp - t := by
      rw [truncate, if_pos hpos]
      exact Int.floor_le _
    rcases max_choice (truncate (exp - t)) 1 with hmax | hmax
    · rw [hmax] at hcover
      linarith
    · rw [hmax] at hcover
      push_cast at hcover
      linarith
  · intro hle
    have hone : (1 : ℚ) ≤ (max (truncate (exp - t)) 1 : Int) := by
      exact_mod_cast le_max_right _ _
    linarith

/-! ## Validation -/

theorem exists_presentation (token : String) :
    ∃ authorization cookieToken, extractAccessToken authorization cookieToken = .ok token := by
  by_cases hempty : token = ""
  · exact ⟨some "Bearer ", none, by rw [hempty]; rfl⟩
  · exact ⟨none, some token, by simp [extractAccessToken, hempty]⟩

theorem validateToken_eq_ok {d : Deployment} {redis : List RedisEntry} {now : Time}
    {authorization cookieToken : Option String} {token : String} {user : CurrentUser}
    (h : extractAccessToken authorization cookieToken = .ok token) :
    validateToken d redis now authorization cookieToken = .ok user ↔
      isTokenBlacklisted redis now token = false ∧ ∃ claims, d.decode token now = some claims ∧
        claims.type = some "access" ∧ claims.sub.bind UUID.parse = some user.id ∧
        claims.role.bind UserRole.ofValue = some user.role := by
  simp only [validateToken, h]
  by_cases hlisted : isTokenBlacklisted redis now token = true
  · simp [hlisted]
  rw [if_neg hlisted]
  rcases d.decode token now with _ | claims
  · simp
  by_cases htype : claims.type ≠ some "access"
  · simp [htype]
  rcases hsub : claims.sub.bind UUID.parse with _ | id
  · simp [htype, hsub]
  rcases hrole : claims.role.bind UserRole.ofValue with _ | role
  · simp [htype, hsub, hrole]
  · obtain ⟨uid, urole⟩ := user
    simp [hlisted, hsub, hrole, not_not.mp htype]

/-- No presentation of the token validates at time `t`. -/
def Refused (d : Deployment) (redis : List RedisEntry) (t : Time) (token : String) : Prop :=
  ∀ authorization cookieToken user, extractAccessToken authorization cookieToken = .ok token →
    validateToken d redis t authorization cookieToken ≠ .ok user

/-- A token is refused while it is blacklisted or does not decode to an identity. -/
theorem refused_iff_blacklisted {d : Deployment} {redis : List RedisEntry} {now : Time}
    {token : String} :
    Refused d redis now token ↔
      ∀ claims, d.decode token now = some claims → IsAccess claims →
        isTokenBlacklisted redis now token = true := by
  constructor
  · intro hrefused claims hdecode ⟨htype, user, hsub, hrole⟩
    by_contra hfree
    obtain ⟨authorization, cookieToken, hextract⟩ := exists_presentation token
    exact hrefused authorization cookieToken user hextract ((validateToken_eq_ok hextract).mpr
      ⟨by simpa using hfree, claims, hdecode, htype, hsub, hrole⟩)
  · intro hlisted authorization cookieToken user hextract hok
    obtain ⟨hfree, claims, hdecode, htype, hsub, hrole⟩ := (validateToken_eq_ok hextract).mp hok
    rw [hlisted claims hdecode ⟨htype, user, hsub, hrole⟩] at hfree
    cases hfree

theorem refused_iff {d : Deployment} {redis : List RedisEntry} {t t' : Time} {token : String}
    {claims : Payload} {exp : Int} (h : d.decode token t = some claims) (haccess : IsAccess claims)
    (hexp : claims.exp = some exp) :
    Refused d redis t' token ↔ (t' < exp + 1 → isTokenBlacklisted redis t' token = true) := by
  rw [refused_iff_blacklisted]
  constructor
  · intro hlisted hlt
    exact hlisted claims ((decode_isSome_iff h hexp).mpr hlt) haccess
  · intro hlisted claims' hdecode _
    have hsame : claims' = claims := by
      have hverify := (Jose.decode_eq_some.mp h).1
      rw [(Jose.decode_eq_some.mp hdecode).1] at hverify
      exact Option.some.inj hverify
    exact hlisted ((decode_isSome_iff h hexp).mp (hsame ▸ hdecode))

/-- **A revoked access token stays revoked exactly when it is revoked in its last
    second.**  An `exp` of 0 is never written, so there it depends on an earlier
    entry. -/
theorem revoked_for_life_iff (d : Deployment) (redis : List RedisEntry) (token : String)
    (claims : Payload) (exp : Int) (t : Time) (h : d.decode token t = some claims)
    (haccess : IsAccess claims) (hexp : claims.exp = some exp) :
    (∀ t', t ≤ t' → Refused d (blacklistToken d redis t token) t' token) ↔
      (exp ≠ 0 ∧ (exp : ℚ) ≤ t) ∨
      (exp = 0 ∧ ∀ t', t ≤ t' → t' < 1 → isTokenBlacklisted redis t' token = true) := by
  simp only [refused_iff h haccess hexp]
  by_cases hzero : exp = 0
  · subst hzero
    simp [blacklistToken, h, hexp]
  · have hset : blacklistToken d redis t token =
        setex redis (blacklistKey token) (max (truncate (exp - t)) 1) t := by
      simp [blacklistToken, h, hexp, hzero]
    have hlive : t < exp + 1 := (decode_isSome_iff h hexp).mp h
    rw [hset, ← ttl_covers_iff exp t]
    simp only [hzero, ne_eq, not_false_eq_true, true_and, false_and, or_false]
    constructor
    · intro hall
      by_contra hshort
      -- at the moment the key goes, the token is still accepted
      have hlater : t ≤ t + (max (truncate (exp - t)) 1 : Int) := by
        have hone : (1 : ℚ) ≤ (max (truncate (exp - t)) 1 : Int) := by
          exact_mod_cast le_max_right _ _
        linarith
      have hgone := hall _ hlater (not_le.mp hshort)
      rw [isTokenBlacklisted, redisExists_setex hlater] at hgone
      exact lt_irrefl _ hgone
    · intro hcover t' hle hlt
      rw [isTokenBlacklisted, redisExists_setex hle]
      linarith

/-! ## A token that comes back -/

/-- A deployment whose jose knows one token: an access token that expires at 900. -/
def oneToken : Deployment where
  jose := .ofTable [("token", accessClaims (UUID.ofNat 1).str "student" 15 0)]
  pwdContext := ⟨fun _ password => password, fun password hash => decide (password = hash)⟩
  settings := { jwtSecretKey := "secret" }

theorem oneToken_isAccess : IsAccess (accessClaims (UUID.ofNat 1).str "student" 15 0) :=
  ⟨rfl, ⟨.ofNat 1, .student⟩, by simp [accessClaims], rfl⟩

/-- Revoked at 890.5 the token is accepted again from 899.5 on. -/
theorem revoked_token_returns :
    ¬ ∀ t', (890.5 : ℚ) ≤ t' → Refused oneToken (blacklistToken oneToken [] 890.5 "token") t'
      "token" := by
  intro hall
  have hback := hall 899.5 (by norm_num) none (some "token") ⟨.ofNat 1, .student⟩ rfl
  exact hback (by decide +kernel)

/-- Revoked at 900.25, in its last second, it is refused to the end of that second. -/
theorem revoked_in_last_second :
    Refused oneToken (blacklistToken oneToken [] 900.25 "token") 900.75 "token" :=
  (revoked_for_life_iff oneToken [] "token" (accessClaims (UUID.ofNat 1).str "student" 15 0) 900
    900.25 (by decide +kernel) oneToken_isAccess (by decide +kernel)).mpr
    (Or.inl ⟨by decide, by norm_num⟩) 900.75 (by norm_num)

end CampusHire.Revocation
