import CampusHire.AuthDeps
import CampusHire.AuthService
import CampusHire.Pattern

/-!
# The gateway and the routes behind it

The locations of `nginx.conf` in file order, how nginx selects one for a path, and
what it forwards; and the route tables of the three services that know their
callers by `get_current_user`.
-/

namespace CampusHire.Gateway

open CampusHire AuthService Pattern
open CampusHire.AuthDeps (Credentials getCurrentUser)

/-! ## Requests -/

/-- A request as it is sent and forwarded.  The path is decoded and normalized, header
    names are in lower case, and `cookies` is what the `Cookie` header says. -/
structure HttpRequest where
  method : String
  path : String
  headers : List (String × String)
  cookies : List (String × String)

def HttpRequest.header (r : HttpRequest) (name : String) : Option String := r.headers.lookup name

def HttpRequest.credentials (r : HttpRequest) : Credentials where
  xUserId := r.header "x-user-id"
  xUserRole := r.header "x-user-role"
  authorization := r.header "authorization"
  cookies := r.cookies

/-! ## `nginx.conf` -/

inductive Upstream where
  | identityService
  | opportunityService
  | applicationService
  | communicationsService
deriving DecidableEq, Repr

/-- The values of the `proxy_set_header` lines. -/
inductive Variable where
  | host
  | userId
  | userRole
deriving DecidableEq, Repr

inductive LocationMatch where
  | exact (path : String)
  | regex (pattern : Regex)
  | initial (text : String)

inductive Target where
  | answer (statusCode : Nat)
  | internalOnly
  | proxy (upstream : Upstream) (authRequest : Bool) (setHeaders : List (String × Variable))

structure Location where
  pattern : LocationMatch
  target : Target

def text (s : String) : Piece := .lit s.toList

def setsHost : List (String × Variable) := [("host", .host)]

def setsIdentity : List (String × Variable) :=
  [("host", .host), ("x-user-id", .userId), ("x-user-role", .userRole)]

def isHexOrHyphen (c : Char) : Bool := ('0' ≤ c && c ≤ '9') || ('a' ≤ c && c ≤ 'f') || c == '-'

def health : Location := ⟨.exact "/health", .answer 200⟩

def authValidate : Location := ⟨.exact "/auth/validate", .internalOnly⟩

-- Public auth endpoints
def publicAuth : Location :=
  ⟨.regex ⟨[text "/api/v1/auth/",
      .alt ["register".toList, "login".toList, "refresh".toList]], true⟩,
    .proxy .identityService false setsHost⟩

-- Protected auth endpoints
def protectedAuth : Location :=
  ⟨.regex ⟨[text "/api/v1/auth/", .alt ["me".toList, "profile".toList, "logout".toList]], false⟩,
    .proxy .identityService true setsIdentity⟩

def authProfile : Location :=
  ⟨.exact "/api/v1/auth/profile", .proxy .identityService true setsIdentity⟩

def authProfileOf : Location :=
  ⟨.regex ⟨[text "/api/v1/auth/profile/"], false⟩, .proxy .identityService false setsHost⟩

-- Public opportunity reads
def opportunityList : Location :=
  ⟨.exact "/api/v1/opportunities", .proxy .opportunityService false setsHost⟩

def opportunityRead : Location :=
  ⟨.regex ⟨[text "/api/v1/opportunities/", .plus isHexOrHyphen], true⟩,
    .proxy .opportunityService false setsHost⟩

-- Protected opportunity mutations
def opportunityMutations : Location :=
  ⟨.initial "/api/v1/opportunities/", .proxy .opportunityService true setsIdentity⟩

def applications : Location :=
  ⟨.initial "/api/v1/applications", .proxy .applicationService true setsIdentity⟩

def queries : Location :=
  ⟨.initial "/api/v1/queries", .proxy .communicationsService true setsIdentity⟩

def notifications : Location :=
  ⟨.initial "/api/v1/notifications", .proxy .communicationsService true setsIdentity⟩

def files : Location :=
  ⟨.initial "/api/v1/files/", .proxy .applicationService false setsHost⟩

def locations : List Location :=
  [health, authValidate, publicAuth, protectedAuth, authProfile, authProfileOf, opportunityList,
    opportunityRead, opportunityMutations, applications, queries, notifications, files]

/-! ## Which location a path selects -/

def exactMatch (path : String) (l : Location) : Bool :=
  match l.pattern with
  | .exact p => decide (p = path)
  | _ => false

def regexMatch (path : String) (l : Location) : Bool :=
  match l.pattern with
  | .regex r => r.test path.toList
  | _ => false

/-- The length of a prefix location that the path starts with. -/
def initialLength (path : String) (l : Location) : Option Nat :=
  match l.pattern with
  | .initial text => if text.toList.isPrefixOf path.toList then some text.toList.length else none
  | _ => none

def longestInitial (path : String) : List Location → Option Location
  | [] => none
  | l :: rest =>
    match initialLength path l, longestInitial path rest with
    | none, best => best
    | some _, none => some l
    | some n, some best =>
        if (initialLength path best).any (fun m => decide (n < m)) then some best else some l

/-- An exact location, else the first matching pattern, else the longest prefix. -/
def selectLocation (path : String) : Option Location :=
  (locations.find? (exactMatch path)).or
    ((locations.find? (regexMatch path)).or (longestInitial path locations))

/-! ## What is forwarded -/

/-- One `proxy_set_header`: it replaces the header, and an empty value removes it. -/
def setHeader (headers : List (String × String)) (name value : String) :
    List (String × String) :=
  let others := headers.filter fun h => decide (h.1 ≠ name)
  if value = "" then others else others ++ [(name, value)]

/-- The value of a variable; `user` is what `auth_request_set` took from the answer of
    `/validate`. -/
def Variable.value (user : Option CurrentUser) (r : HttpRequest) : Variable → String
  | .host => (r.header "host").getD ""
  | .userId => (user.map fun u => u.id.str).getD ""
  | .userRole => (user.map fun u => u.role.value).getD ""

def forward (r : HttpRequest) (user : Option CurrentUser) (setHeaders : List (String × Variable)) :
    HttpRequest :=
  { r with headers := setHeaders.foldl (fun headers line =>
      setHeader headers line.1 (line.2.value user r)) r.headers }

inductive Outcome where
  | answered (statusCode : Nat)
  | forwarded (upstream : Upstream) (request : HttpRequest)

section Gateway

variable (d : Deployment)

/-- `GET /validate` on the request's own `Authorization` header and cookies. -/
def validate (redis : List RedisEntry) (now : Time) (r : HttpRequest) :
    Except ServiceError CurrentUser :=
  validateToken d redis now (r.header "authorization")
    (r.cookies.lookup d.settings.accessTokenCookieName)

def gateway (redis : List RedisEntry) (now : Time) (r : HttpRequest) : Outcome :=
  if r.method = "OPTIONS" then .answered 204
  else
    match selectLocation r.path with
    | none => .answered 404
    | some l =>
      match l.target with
      | .answer code => .answered code
      | .internalOnly => .answered 404
      | .proxy upstream false setHeaders => .forwarded upstream (forward r none setHeaders)
      | .proxy upstream true setHeaders =>
        match validate d redis now r with
        | .ok user => .forwarded upstream (forward r (some user) setHeaders)
        | .error (.http 401 _) => .answered 401
        | .error _ => .answered 500

end Gateway

/-! ## The routes of the services -/

/-- A route, and whether its handler depends on `get_current_user`. -/
structure Route where
  method : String
  path : Regex
  knowsCaller : Bool

/-- A path parameter: `[^/]+`. -/
def parameter : Piece := .plus fun c => c != '/'

def route (method : String) (path : List Piece) (knowsCaller : Bool) : Route :=
  ⟨method, ⟨path, true⟩, knowsCaller⟩

def opportunityRoutes : List Route :=
  [route "POST" [text "/api/v1/opportunities"] true,
    route "GET" [text "/api/v1/opportunities"] false,
    route "GET" [text "/api/v1/opportunities/", parameter] false,
    route "PATCH" [text "/api/v1/opportunities/", parameter] true,
    route "POST" [text "/api/v1/opportunities/", parameter, text "/registrations"] true,
    route "GET" [text "/api/v1/opportunities/", parameter, text "/registrations"] true,
    route "GET" [text "/api/v1/opportunities/", parameter, text "/export"] true,
    route "POST" [text "/api/v1/opportunities/files/upload"] true,
    route "GET" [text "/health"] false,
    route "GET" [text "/api/v1/files/", parameter, text "/", parameter] false]

def applicationRoutes : List Route :=
  [route "POST" [text "/api/v1/applications"] true,
    route "GET" [text "/api/v1/applications"] true,
    route "GET" [text "/api/v1/applications/", parameter] true,
    route "POST" [text "/api/v1/applications/", parameter, text "/withdraw"] true,
    route "PATCH" [text "/api/v1/applications/", parameter, text "/status"] true,
    route "GET" [text "/api/v1/applications/", parameter, text "/timeline"] true,
    route "POST" [text "/api/v1/applications/files/resume"] true,
    route "GET" [text "/health"] false,
    route "GET" [text "/api/v1/files/", parameter, text "/", parameter] false]

def communicationRoutes : List Route :=
  [route "POST" [text "/api/v1/queries"] true,
    route "GET" [text "/api/v1/queries"] true,
    route "POST" [text "/api/v1/queries/", parameter, text "/reply"] true,
    route "PATCH" [text "/api/v1/queries/", parameter, text "/status"] true,
    route "GET" [text "/api/v1/notifications"] true,
    route "POST" [text "/api/v1/notifications/", parameter, text "/read"] true,
    route "GET" [text "/health"] false]

/-- The routes of the services whose handlers ask for the caller.  The identity service
    is not one of them here: it is what the gateway asks. -/
def routesOf : Upstream → List Route
  | .identityService => []
  | .opportunityService => opportunityRoutes
  | .applicationService => applicationRoutes
  | .communicationsService => communicationRoutes

/-- The route that takes a request: the first one that matches method and path. -/
def routeOf (upstream : Upstream) (method path : String) : Option Route :=
  (routesOf upstream).find? fun r => decide (r.method = method) && r.path.test path.toList

end CampusHire.Gateway
