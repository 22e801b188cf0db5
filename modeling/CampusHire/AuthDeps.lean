import CampusHire.Jwt

/-!
# The caller of a request

`campushire_common.auth_deps`: how the services find out who calls them, from the
`X-User-*` headers that the gateway sets, or else from an access token.
-/

namespace CampusHire.AuthDeps

open CampusHire

/-- What `os.environ` says, with the defaults of the module. -/
structure Environ where
  jwtSecretKey : String := "dev_secret_change_in_production"
  jwtAlgorithm : String := "HS256"
  accessTokenCookieName : String := "access_token"

structure Credentials where
  xUserId : Option String
  xUserRole : Option String
  authorization : Option String
  cookies : List (String × String)

/-- `_extract_access_token`. -/
def extractAccessToken (environ : Environ) (authorization : Option String)
    (cookies : List (String × String)) : Option String :=
  match authorization.bind bearerToken with
  | some token => some token
  | none => cookies.lookup environ.accessTokenCookieName

/-- `_decode_access_token`, which answers `None` for every error. -/
def decodeAccessToken (jose : Jose) (environ : Environ) (now : Time) (token : Option String) :
    Option CurrentUser :=
  match token with
  | none => none
  | some token =>
    if token = "" then none
    else
      match jose.decode token environ.jwtSecretKey environ.jwtAlgorithm now with
      | none => none
      | some payload =>
        if payload.type ≠ some "access" then none
        else
          match payload.sub.bind UUID.parse, payload.role.bind UserRole.ofValue with
          | some id, some role => some ⟨id, role⟩
          | _, _ => none

/-- `if x_user_id and x_user_role`: both are there and neither is empty. -/
def identityHeaders (credentials : Credentials) : Option (String × String) :=
  match credentials.xUserId, credentials.xUserRole with
  | some userId, some role => if userId = "" ∨ role = "" then none else some (userId, role)
  | _, _ => none

def getCurrentUser (jose : Jose) (environ : Environ) (now : Time) (credentials : Credentials) :
    Except ServiceError CurrentUser :=
  match identityHeaders credentials with
  | some (userId, role) =>
    match UUID.parse userId, UserRole.ofValue role with
    | some id, some role => .ok ⟨id, role⟩
    | _, _ => .error (.http 401 "Invalid authentication headers")
  | none =>
    match decodeAccessToken jose environ now
        (extractAccessToken environ credentials.authorization credentials.cookies) with
    | some user => .ok user
    | none => .error (.http 401 "Missing authentication")

theorem decodeAccessToken_eq_some {jose : Jose} {environ : Environ} {now : Time} {token : String}
    {user : CurrentUser} (h : decodeAccessToken jose environ now (some token) = some user) :
    ∃ payload, jose.decode token environ.jwtSecretKey environ.jwtAlgorithm now = some payload ∧
      payload.type = some "access" ∧ payload.sub.bind UUID.parse = some user.id ∧
      payload.role.bind UserRole.ofValue = some user.role := by
  simp only [decodeAccessToken] at h
  split at h
  · cases h
  split at h
  · cases h
  rename_i payload hdecode
  split at h
  · cases h
  rename_i htype
  split at h
  · rename_i id role hid hrole
    cases h
    exact ⟨payload, hdecode, not_not.mp htype, hid, hrole⟩
  · cases h

end CampusHire.AuthDeps
