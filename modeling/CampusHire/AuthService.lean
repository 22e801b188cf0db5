import CampusHire.Jwt
import CampusHire.Table
import Mathlib.Data.List.Induction

/-!
# The identity service

`auth_service.py` and the routes of `auth.py`: accounts, token pairs, the refresh
token records and the blacklist in Redis.  jose and passlib are parameters of a
`Deployment`; what a request receives from outside is its `Env`.
-/

namespace CampusHire.AuthService

open CampusHire

/-! ## Tables -/

structure User where
  id : UUID
  email : String
  passwordHash : String
  role : UserRole
  isActive : Bool
deriving DecidableEq

structure StudentProfile where
  id : UUID
  userId : UUID
  name : Option String := none
  cgpa : Option PythonText.FloatValue := none
  branch : Option String := none
  year : Option Int := none
  phone : Option String := none
  skills : Option (List String) := some []

structure RefreshToken where
  id : UUID
  userId : UUID
  tokenJti : String
  expiresAt : Time
  revoked : Bool
deriving DecidableEq

/-- A Redis key that was set with a time to live. -/
structure RedisEntry where
  key : String
  since : Time
  till : Time

/-- A call of `issue_tokens`: for whom, under which `jti`, and when. -/
structure Issue where
  user : User
  jti : UUID
  time : Time

/-- The committed tables and Redis.  `issued` records the calls of `issue_tokens`;
    the service does not read it. -/
structure State where
  users : List User
  profiles : List StudentProfile
  refreshTokens : List RefreshToken
  redis : List RedisEntry
  issued : List Issue

def State.empty : State := ⟨[], [], [], [], []⟩

/-! ## What a request meets -/

structure Settings where
  jwtSecretKey : String
  jwtAlgorithm : String := "HS256"
  accessTokenExpireMinutes : Int := 15
  refreshTokenExpireDays : Int := 7
  accessTokenCookieName : String := "access_token"
  refreshTokenCookieName : String := "refresh_token"

structure PwdContext where
  hash : String → String → String
  verify : String → String → Bool

structure Deployment where
  jose : Jose
  pwdContext : PwdContext
  settings : Settings

/-- The calls of the database that can fail: the queries, the first commit, the
    reload of a row that a commit has expired, and the commits of `issue_tokens` and of
    `update_profile`. -/
inductive DatabaseCall where
  | query
  | commit
  | reload
  | issue
  | update
deriving DecidableEq, Repr

structure Env where
  userId : UUID
  profileId : UUID
  tokenId : UUID
  refreshJti : UUID
  salt : String
  clock : Time
  fails : DatabaseCall → Bool

/-- Nothing fails; all fresh values come from one. -/
def Env.untroubled (fresh : UUID) (time : Time) : Env where
  userId := fresh
  profileId := fresh
  tokenId := fresh
  refreshJti := fresh
  salt := ""
  clock := time
  fails := fun _ => false

structure RegisterRequest where
  email : String
  password : String
  role : UserRole := .student

/-! ## Redis -/

/-- `SETEX key ttl "1"`. -/
def setex (redis : List RedisEntry) (key : String) (ttl : Int) (now : Time) : List RedisEntry :=
  redis.filter (fun e => decide (e.key ≠ key)) ++ [⟨key, now, now + ttl⟩]

def redisExists (redis : List RedisEntry) (key : String) (now : Time) : Bool :=
  redis.any fun e => decide (e.key = key) && decide (e.since ≤ now) && decide (now < e.till)

def blacklistKey (token : String) : String := "blacklist:" ++ token

section Functions

variable (d : Deployment)

/-- `jwt.decode` with the configured key and algorithm. -/
def Deployment.decode (token : String) (now : Time) : Option Payload :=
  d.jose.decode token d.settings.jwtSecretKey d.settings.jwtAlgorithm now

def blacklistToken (redis : List RedisEntry) (now : Time) (token : String) : List RedisEntry :=
  match d.decode token now with
  | none => redis
  | some payload =>
    match payload.exp with
    | none => redis
    | some exp =>
      -- `if not exp` also refuses 0
      if exp = 0 then redis
      else setex redis (blacklistKey token) (max (truncate (exp - now)) 1) now

def isTokenBlacklisted (redis : List RedisEntry) (now : Time) (token : String) : Bool :=
  redisExists redis (blacklistKey token) now

/-! ## Access tokens -/

def extractAccessToken (authorization cookieToken : Option String) : Except ServiceError String :=
  match authorization.bind bearerToken with
  | some token => .ok token
  | none =>
    match cookieToken with
    | some token => if token = "" then .error (.http 401 "Missing access token") else .ok token
    | none => .error (.http 401 "Missing access token")

def validateToken (redis : List RedisEntry) (now : Time)
    (authorization cookieToken : Option String) : Except ServiceError CurrentUser :=
  match extractAccessToken authorization cookieToken with
  | .error e => .error e
  | .ok token =>
    if isTokenBlacklisted redis now token then .error (.http 401 "Token revoked")
    else
      match d.decode token now with
      | none => .error (.http 401 "Invalid token")
      | some payload =>
        if payload.type ≠ some "access" then .error (.http 401 "Invalid token type")
        else
          match payload.sub.bind UUID.parse, payload.role.bind UserRole.ofValue with
          | some id, some role => .ok ⟨id, role⟩
          | _, _ => .error .value

/-! ## Accounts -/

/-- The rows of `register_user`, or nothing: `users.id`, `users.email` and
    `student_profiles.user_id` are unique. -/
def insertUser (s : State) (env : Env) (user : User) : Except ServiceError State :=
  if env.fails .commit then .error .database
  else
    match Table.insertRow User.id user s.users, Table.insertRow User.email user s.users with
    | some users, some _ =>
      if user.role = .student then
        match
            Table.insertRow StudentProfile.id { id := env.profileId, userId := user.id }
              s.profiles,
            Table.insertRow StudentProfile.userId { id := env.profileId, userId := user.id }
              s.profiles with
        | some profiles, some _ => .ok { s with users := users, profiles := profiles }
        | _, _ => .error .database
      else .ok { s with users := users }
    | _, _ => .error .database

def registerUser (s : State) (env : Env) (data : RegisterRequest) :
    State × Except ServiceError User :=
  if env.fails .query then (s, .error .database)
  else if (Table.lookup User.email data.email s.users).isSome then
    (s, .error (.http 400 "Email already registered"))
  else
    let user : User :=
      ⟨env.userId, data.email, d.pwdContext.hash env.salt data.password, data.role, true⟩
    match insertUser s env user with
    | .error e => (s, .error e)
    | .ok s' => (s', if env.fails .reload then .error .database else .ok user)

def authenticate (s : State) (env : Env) (email password : String) : Except ServiceError User :=
  if env.fails .query then .error .database
  else
    match Table.lookup User.email email s.users with
    | none => .error (.http 401 "Invalid credentials")
    | some user =>
      if d.pwdContext.verify password user.passwordHash then
        if user.isActive then .ok user else .error (.http 403 "Account disabled")
      else .error (.http 401 "Invalid credentials")

/-! ## Token pairs -/

/-- The claims that a call of `issue_tokens` signs. -/
def Issue.accessClaims (i : Issue) : Payload :=
  CampusHire.accessClaims i.user.id.str i.user.role.value d.settings.accessTokenExpireMinutes i.time

def Issue.refreshClaims (i : Issue) : Payload :=
  CampusHire.refreshClaims i.user.id.str i.user.role.value i.jti.str
    d.settings.refreshTokenExpireDays i.time

def tokenPair (i : Issue) : String × String :=
  (createAccessToken d.jose i.user.id.str i.user.role.value d.settings.jwtSecretKey
      d.settings.jwtAlgorithm d.settings.accessTokenExpireMinutes i.time,
    createRefreshToken d.jose i.user.id.str i.user.role.value i.jti.str d.settings.jwtSecretKey
      d.settings.jwtAlgorithm d.settings.refreshTokenExpireDays i.time)

def issueTokens (s : State) (env : Env) (user : User) :
    State × Except ServiceError (String × String) :=
  let issue : Issue := ⟨user, env.refreshJti, env.clock⟩
  let record : RefreshToken := ⟨env.tokenId, user.id, env.refreshJti.str,
    env.clock + d.settings.refreshTokenExpireDays * 86400, false⟩
  let signed : State := { s with issued := s.issued ++ [issue] }
  if env.fails .issue then (signed, .error .database)
  else
    match Table.insertRow RefreshToken.id record s.refreshTokens,
        Table.insertRow RefreshToken.tokenJti record s.refreshTokens with
    | some records, some _ => ({ signed with refreshTokens := records }, .ok (tokenPair d issue))
    | _, _ => (signed, .error .database)

def findRecord (s : State) (jti : String) : Option RefreshToken :=
  Table.lookup RefreshToken.tokenJti jti s.refreshTokens

/-- `token_record.revoked = True` and the commit. -/
def revokeRecord (s : State) (record : RefreshToken) : State :=
  { s with refreshTokens :=
      Table.modify RefreshToken.id record.id (fun r => { r with revoked := true }) s.refreshTokens }

/-- The `jti` of a token that `refresh_session` accepts as a refresh token. -/
def refreshJti (now : Time) (token : String) : Except ServiceError (Payload × String) :=
  match d.decode token now with
  | none => .error (.http 401 "Invalid refresh token")
  | some payload =>
    if payload.type ≠ some "refresh" then .error (.http 401 "Invalid token type")
    else
      match payload.jti with
      | none => .error (.http 401 "Invalid refresh token")
      | some jti =>
        if jti = "" then .error (.http 401 "Invalid refresh token") else .ok (payload, jti)

def liveRecord (s : State) (now : Time) (jti : String) : Except ServiceError RefreshToken :=
  match findRecord s jti with
  | none => .error (.http 401 "Refresh token expired or revoked")
  | some record =>
    if record.revoked || decide (record.expiresAt ≤ now) then
      .error (.http 401 "Refresh token expired or revoked")
    else .ok record

/-- The user of the token: PostgreSQL reads `sub` as a UUID or refuses it. -/
def tokenUser (s : State) (payload : Payload) : Except ServiceError User :=
  match payload.sub with
  | none => .error .value
  | some sub =>
    match UUID.parse sub with
    | none => .error .database
    | some id =>
      match Table.lookup User.id id s.users with
      | none => .error (.http 401 "User not found")
      | some user => .ok user

def refreshSession (s : State) (env : Env) (token : String) :
    State × Except ServiceError (String × String) :=
  match refreshJti d env.clock token with
  | .error e => (s, .error e)
  | .ok (payload, jti) =>
    if env.fails .query then (s, .error .database)
    else
      match liveRecord s env.clock jti with
      | .error e => (s, .error e)
      | .ok record =>
        match tokenUser s payload with
        | .error e => (s, .error e)
        | .ok user =>
          if env.fails .commit then (s, .error .database)
          -- the commit expires `user`, which `issue_tokens` loads again
          else if env.fails .reload then (revokeRecord s record, .error .database)
          else issueTokens d (revokeRecord s record) env user

def revokeRefreshToken (s : State) (env : Env) (token : Option String) :
    State × Except ServiceError Unit :=
  match token with
  | none => (s, .ok ())
  | some token =>
    if token = "" then (s, .ok ())
    else
      match d.decode token env.clock with
      | none => (s, .ok ())
      | some payload =>
        match payload.jti with
        | none => (s, .ok ())
        | some jti =>
          if jti = "" then (s, .ok ())
          else if env.fails .query then (s, .error .database)
          else
            match findRecord s jti with
            | none => (s, .ok ())
            | some record =>
              if record.revoked then (s, .ok ())
              else if env.fails .commit then (s, .error .database)
              else (revokeRecord s record, .ok ())

/-! ## Routes -/

inductive Request where
  | register (data : RegisterRequest)
  | login (email password : String)
  | refresh (cookies : List (String × String))
  | logout (authorization : Option String) (cookies : List (String × String))

/-- What a route answers: the user in the body, and the two cookies it sets. -/
structure Answer where
  user : Option User := none
  cookies : Option (String × String) := none

def serve (s : State) (env : Env) : Request → State × Except ServiceError Answer
  | .register data =>
      let registered := registerUser d s env data
      (registered.1, registered.2.map fun user => { user := some user })
  | .login email password =>
    match authenticate d s env email password with
    | .error e => (s, .error e)
    | .ok user =>
      let issued := issueTokens d s env user
      (issued.1, issued.2.map fun pair => { user := some user, cookies := some pair })
  | .refresh cookies =>
    match cookies.lookup d.settings.refreshTokenCookieName with
    | none => (s, .error (.http 401 "Missing refresh token"))
    | some token =>
      if token = "" then (s, .error (.http 401 "Missing refresh token"))
      else
        let refreshed := refreshSession d s env token
        (refreshed.1, refreshed.2.map fun pair => { cookies := some pair })
  | .logout authorization cookies =>
      let redis :=
        match extractAccessToken authorization
            (cookies.lookup d.settings.accessTokenCookieName) with
        | .error _ => s.redis
        | .ok token => blacklistToken d s.redis env.clock token
      let revoked := revokeRefreshToken d { s with redis := redis } env
        (cookies.lookup d.settings.refreshTokenCookieName)
      (revoked.1, revoked.2.map fun _ => {})

structure Handled where
  request : Request
  env : Env

def handle (s : State) (h : Handled) : State := (serve d s h.env h.request).1

/-- Requests handled one at a time. -/
def execute (s : State) (run : List Handled) : State := run.foldl (handle d) s

end Functions

end CampusHire.AuthService
