import CampusHire.GatewayIdentity
import CampusHire.Sessions

/-!
# Two validators of access tokens

The services decode an access token with `get_current_user`, the identity service with
`validate_token`.  Both take the token from the same place and read the same claims, but
only the second one asks whether the token has been revoked.

`validators_agree_iff` says that nothing else tells them apart.
-/

namespace CampusHire.ValidatorAgreement

open CampusHire AuthService Revocation GatewayIdentity Sessions
open CampusHire.AuthDeps (getCurrentUser decodeAccessToken)

section Deployed

variable (d : Deployment)

/-- `get_current_user` on a request without `X-User-*` headers. -/
def currentUserOf (now : Time) (authorization : Option String) (cookies : List (String × String)) :
    Except ServiceError CurrentUser :=
  getCurrentUser d.jose (environOf d.settings) now ⟨none, none, authorization, cookies⟩

/-- The two validators take the request for the same user, or both for nobody. -/
def Agree (redis : List RedisEntry) (now : Time) (authorization : Option String)
    (cookies : List (String × String)) : Prop :=
  ∀ user, currentUserOf d now authorization cookies = .ok user ↔
    validateToken d redis now authorization (cookies.lookup d.settings.accessTokenCookieName) =
      .ok user

variable {d}

theorem currentUserOf_eq_ok {now : Time} {authorization : Option String}
    {cookies : List (String × String)} {user : CurrentUser} :
    currentUserOf d now authorization cookies = .ok user ↔
      ∃ token, AuthDeps.extractAccessToken (environOf d.settings) authorization cookies =
          some token ∧
        decodeAccessToken d.jose (environOf d.settings) now (some token) = some user := by
  rw [currentUserOf, getCurrentUser]
  simp only [AuthDeps.identityHeaders]
  rcases AuthDeps.extractAccessToken (environOf d.settings) authorization cookies with _ | token
  · simp [decodeAccessToken]
  · rcases hdecode : decodeAccessToken d.jose (environOf d.settings) now (some token) with
      _ | found
    · simp [hdecode]
    · simp [hdecode]

/-- The token that the identity service extracts is the one that a service extracts. -/
theorem extract_agrees_back {authorization : Option String} {cookies : List (String × String)}
    {token : String}
    (h : AuthService.extractAccessToken authorization
      (cookies.lookup d.settings.accessTokenCookieName) = .ok token) :
    AuthDeps.extractAccessToken (environOf d.settings) authorization cookies = some token := by
  unfold AuthService.extractAccessToken at h
  unfold AuthDeps.extractAccessToken
  rcases hbearer : authorization.bind bearerToken with _ | found
  · rw [hbearer] at h
    rcases hcookie : cookies.lookup d.settings.accessTokenCookieName with _ | cookie
    · rw [hcookie] at h
      cases h
    · rw [hcookie] at h
      dsimp only at h
      split at h
      · cases h
      · cases h
        exact hcookie
  · rw [hbearer] at h
    cases h
    rfl

/-- What the claims of a token say is read in the same way. -/
theorem decodeAccessToken_of_claims {now : Time} {token : String} {user : CurrentUser}
    {claims : Payload} (hne : token ≠ "") (hdecode : d.decode token now = some claims)
    (htype : claims.type = some "access") (hsub : claims.sub.bind UUID.parse = some user.id)
    (hrole : claims.role.bind UserRole.ofValue = some user.role) :
    decodeAccessToken d.jose (environOf d.settings) now (some token) = some user := by
  have hdecode' : d.jose.decode token (environOf d.settings).jwtSecretKey
      (environOf d.settings).jwtAlgorithm now = some claims := hdecode
  simp only [decodeAccessToken, if_neg hne, hdecode', htype, hsub, hrole, ne_eq, not_true_eq_false,
    if_false]

theorem currentUserOf_of_validate {redis : List RedisEntry} {now : Time}
    {authorization : Option String} {cookies : List (String × String)} {user : CurrentUser}
    (hempty : d.jose.verify "" d.settings.jwtSecretKey d.settings.jwtAlgorithm = none)
    (h : validateToken d redis now authorization
      (cookies.lookup d.settings.accessTokenCookieName) = .ok user) :
    currentUserOf d now authorization cookies = .ok user := by
  rcases hextract : AuthService.extractAccessToken authorization
    (cookies.lookup d.settings.accessTokenCookieName) with e | token
  · simp [validateToken, hextract] at h
  obtain ⟨-, claims, hdecode, htype, hsub, hrole⟩ := (validateToken_eq_ok hextract).mp h
  have hne : token ≠ "" := by
    rintro rfl
    rw [(Jose.decode_eq_some.mp hdecode).1] at hempty
    cases hempty
  exact currentUserOf_eq_ok.mpr ⟨token, extract_agrees_back hextract,
    decodeAccessToken_of_claims hne hdecode htype hsub hrole⟩

variable (d)

/-- **The validators agree except on revoked tokens.**  For every header and cookie, at
    every time and for every blacklist: they take the request for the same user, or both
    for nobody, exactly when the token it carries is not a blacklisted one that still
    decodes to an identity. -/
theorem validators_agree_iff (redis : List RedisEntry) (now : Time) (authorization : Option String)
    (cookies : List (String × String))
    (hempty : d.jose.verify "" d.settings.jwtSecretKey d.settings.jwtAlgorithm = none) :
    Agree d redis now authorization cookies ↔
      ∀ token,
        AuthDeps.extractAccessToken (environOf d.settings) authorization cookies = some token →
        (decodeAccessToken d.jose (environOf d.settings) now (some token)).isSome = true →
        isTokenBlacklisted redis now token = false := by
  constructor
  · intro hagree token hextract hsome
    obtain ⟨user, hdecode⟩ := Option.isSome_iff_exists.mp hsome
    apply (validate_iff_not_blacklisted d hextract hdecode).mp
    exact (hagree user).mp (currentUserOf_eq_ok.mpr ⟨token, hextract, hdecode⟩)
  · intro hlive user
    constructor
    · intro hok
      obtain ⟨token, hextract, hdecode⟩ := currentUserOf_eq_ok.mp hok
      apply (validate_iff_not_blacklisted d hextract hdecode).mpr
      exact hlive token hextract (by rw [hdecode]; rfl)
    · exact currentUserOf_of_validate hempty

end Deployed

/-! ## A session that has been logged out -/

def registerLoginLogout : List Handled :=
  registerAndLogin ++ [⟨.logout none [("access_token", "access")], .untroubled (.ofNat 3) 1⟩]

/-- After the logout the services still know the caller, the identity service does not. -/
theorem logged_out_disagree :
    ¬ Agree oneSession (execute oneSession State.empty registerLoginLogout).redis 2 none
      [("access_token", "access")] := by
  intro h
  have hrefused : validateToken oneSession
      (execute oneSession State.empty registerLoginLogout).redis 2 none (some "access") ≠
      .ok ⟨.ofNat 1, .student⟩ := by
    decide +kernel
  exact hrefused ((h ⟨.ofNat 1, .student⟩).mp (by decide +kernel))

/-- Before the logout both do. -/
theorem logged_in_agree :
    Agree oneSession (execute oneSession State.empty registerAndLogin).redis 2 none
      [("access_token", "access")] :=
  (validators_agree_iff oneSession _ 2 none [("access_token", "access")] (by decide +kernel)).mpr
    (fun _ _ _ => rfl)

end CampusHire.ValidatorAgreement
