import CampusHire.FileUploads
import CampusHire.GatewayIdentity
import CampusHire.Schemas
import CampusHire.StudentIsolation

/-!
# The public API

What becomes of an HTTP request: the gateway answers it or forwards it to one of the four
services, the service looks for the route, `get_current_user` and the schemas make the
handler's arguments of it, and the handler runs to its end.  Besides, the consumer handles
messages and the scheduler runs `process_deadlines`.

`called` is the part before the handler: it only reads.  `perform` is the handler.
-/

namespace CampusHire.PublicApi

open CampusHire Gateway GatewayIdentity Schemas PathTemplate
open CampusHire.AuthDeps (getCurrentUser)
open CampusHire.FileUploads (Disk Path Upload UploadFile)

/-! ## Calls -/

/-- What FastAPI reads from a body: one part of a form, a JSON value, text of that media type
    which is no JSON, or nothing. -/
inductive Body where
  | nothing
  | malformed
  | json (value : Json)
  | file (file : UploadFile)

def Body.isMalformed : Body → Bool
  | .malformed => true
  | _ => false

/-- The two services that keep files. -/
inductive FileService where
  | opportunityService
  | applicationService
deriving DecidableEq

/-- A handler that does not ask who calls, with its arguments. -/
inductive OpenCall where
  | identity (request : AuthService.Request)
  | validate (authorization : Option String) (cookies : List (String × String))
  | getProfile (userId : UUID)
  | listOpps
  | getOpp (opportunityId : UUID)
  | serveLocalFile (service : FileService) (folder filename : List Char)
  | health

/-- A handler that depends on `get_current_user`, with its other arguments. -/
inductive UserCall where
  -- identity service
  | me
  | putProfile (data : Profiles.ProfileUpdate)
  -- opportunity service
  | opportunity (request : OpportunityService.Request)
  | listRegistrations (opportunityId : UUID)
  | exportRegistrations (opportunityId : UUID)
  | uploadDriveFile (file : UploadFile)
  -- application service
  | application (request : ApplicationService.Request)
  | uploadResume (file : UploadFile)
  -- communications service
  | query (request : QueryService.Request)
  | readNotification (notificationId : UUID)
  -- application and communications service
  | read (read : StudentIsolation.Read)

inductive Call where
  | anyone (call : OpenCall)
  | user (user : CurrentUser) (call : UserCall)

/-! ## Routes -/

/-- What a route makes of the path parameters and the body, `none` for a validation error. -/
inductive Handler where
  | anyone (call : HttpRequest → List (List Char) → Body → Option OpenCall)
  | asks (call : List (List Char) → Body → Option UserCall)

structure Endpoint where
  method : String
  path : List Part
  readsJson : Bool
  handler : Handler

def path (text : String) : List Part := (segments text.toList).map .fixed

/-- The pattern of a route ends with `$`, which a final newline satisfies. -/
def withoutNewline (text : List Char) : List Char :=
  if text.getLast? = some '\n' then text.dropLast else text

def paramsOf (template : List Part) (text : List Char) : Option (List (List Char)) :=
  (matchPath template text).or (matchPath template (withoutNewline text))

/-- A body that has to be a model. -/
def model {α : Type} (schema : Dict → Option α) : Body → Option α
  | .json (.obj fields) => schema fields
  | _ => none

def form : Body → Option UploadFile
  | .file file => some file
  | _ => none

/-- The two path parameters of `serve_local_file`. -/
def fileOf (service : FileService) : List (List Char) → Option OpenCall
  | [folder, filename] => some (.serveLocalFile service folder filename)
  | _ => none

section Routes

variable (pydantic : Pydantic)

/-- The one path parameter of a route, a `UUID`. -/
def idOf : List (List Char) → Option UUID
  | [text] => pydantic.uuid (.str (String.ofList text))
  | _ => none

def identityEndpoints : List Endpoint :=
  [⟨"POST", path "/api/v1/auth/register", true, .anyone fun _ _ body =>
      (model (registerRequest pydantic) body).map fun data => .identity (.register data)⟩,
    ⟨"POST", path "/api/v1/auth/login", true, .anyone fun _ _ body =>
      (model (loginRequest pydantic) body).map fun data => .identity (.login data.1 data.2)⟩,
    ⟨"POST", path "/api/v1/auth/refresh", false, .anyone fun r _ _ =>
      some (.identity (.refresh r.cookies))⟩,
    ⟨"POST", path "/api/v1/auth/logout", false, .anyone fun r _ _ =>
      some (.identity (.logout (r.header "authorization") r.cookies))⟩,
    ⟨"GET", path "/api/v1/auth/validate", false, .anyone fun r _ _ =>
      some (.validate (r.header "authorization") r.cookies)⟩,
    ⟨"GET", path "/api/v1/auth/me", false, .asks fun _ _ => some .me⟩,
    ⟨"GET", path "/api/v1/auth/profile" ++ [.param], false, .anyone fun _ params _ =>
      (idOf pydantic params).map .getProfile⟩,
    ⟨"PUT", path "/api/v1/auth/profile", true, .asks fun _ body =>
      (model (profileUpdate pydantic) body).map .putProfile⟩,
    ⟨"GET", path "/health", false, .anyone fun _ _ _ => some .health⟩]

def opportunityEndpoints : List Endpoint :=
  [⟨"POST", path "/api/v1/opportunities", true, .asks fun _ body =>
      (model (opportunityCreate pydantic) body).map fun data => .opportunity (.createOpp data)⟩,
    ⟨"GET", path "/api/v1/opportunities", false, .anyone fun _ _ _ => some .listOpps⟩,
    ⟨"GET", path "/api/v1/opportunities" ++ [.param], false, .anyone fun _ params _ =>
      (idOf pydantic params).map .getOpp⟩,
    ⟨"PATCH", path "/api/v1/opportunities" ++ [.param], true, .asks fun params body => do
      let id ← idOf pydantic params
      let data ← model (opportunityUpdate pydantic) body
      return .opportunity (.patchOpp id data)⟩,
    ⟨"POST", path "/api/v1/opportunities" ++ .param :: path "registrations", true,
      .asks fun params body => do
        let id ← idOf pydantic params
        let data ← model registrationCreate body
        return .opportunity (.createRegistration id data)⟩,
    ⟨"GET", path "/api/v1/opportunities" ++ .param :: path "registrations", false,
      .asks fun params _ => (idOf pydantic params).map .listRegistrations⟩,
    ⟨"GET", path "/api/v1/opportunities" ++ .param :: path "export", false,
      .asks fun params _ => (idOf pydantic params).map .exportRegistrations⟩,
    ⟨"POST", path "/api/v1/opportunities/files/upload", false, .asks fun _ body =>
      (form body).map .uploadDriveFile⟩,
    ⟨"GET", path "/health", false, .anyone fun _ _ _ => some .health⟩,
    ⟨"GET", path "/api/v1/files" ++ [.param, .param], false, .anyone fun _ params _ =>
      fileOf .opportunityService params⟩]

def applicationEndpoints : List Endpoint :=
  [⟨"POST", path "/api/v1/applications", true, .asks fun _ body =>
      (model (applicationCreate pydantic) body).map fun data => .application (.create data)⟩,
    ⟨"GET", path "/api/v1/applications", false, .asks fun _ _ => some (.read .listApplications)⟩,
    ⟨"GET", path "/api/v1/applications" ++ [.param], false, .asks fun params _ =>
      (idOf pydantic params).map fun id => .read (.getApplication id)⟩,
    ⟨"POST", path "/api/v1/applications" ++ .param :: path "withdraw", false,
      .asks fun params _ => (idOf pydantic params).map fun id => .application (.withdraw id)⟩,
    ⟨"PATCH", path "/api/v1/applications" ++ .param :: path "status", true,
      .asks fun params body => do
        let id ← idOf pydantic params
        let status ← model statusUpdate body
        return .application (.patchStatus id status)⟩,
    ⟨"GET", path "/api/v1/applications" ++ .param :: path "timeline", false,
      .asks fun params _ => (idOf pydantic params).map fun id => .read (.timeline id)⟩,
    ⟨"POST", path "/api/v1/applications/files/resume", false, .asks fun _ body =>
      (form body).map .uploadResume⟩,
    ⟨"GET", path "/health", false, .anyone fun _ _ _ => some .health⟩,
    ⟨"GET", path "/api/v1/files" ++ [.param, .param], false, .anyone fun _ params _ =>
      fileOf .applicationService params⟩]

def communicationEndpoints : List Endpoint :=
  [⟨"POST", path "/api/v1/queries", true, .asks fun _ body =>
      (model (queryCreate pydantic) body).map fun data => .query (.postQuery data)⟩,
    ⟨"GET", path "/api/v1/queries", false, .asks fun _ _ => some (.query .getQueries)⟩,
    ⟨"POST", path "/api/v1/queries" ++ .param :: path "reply", true,
      .asks fun params body => do
        let id ← idOf pydantic params
        let text ← model queryReply body
        return .query (.postReply id text)⟩,
    ⟨"PATCH", path "/api/v1/queries" ++ .param :: path "status", true,
      .asks fun params body => do
        let id ← idOf pydantic params
        let status ← model queryStatusUpdate body
        return .query (.patchQueryStatus id status)⟩,
    ⟨"GET", path "/api/v1/notifications", false, .asks fun _ _ =>
      some (.read .listNotifications)⟩,
    ⟨"POST", path "/api/v1/notifications" ++ .param :: path "read", false,
      .asks fun params _ => (idOf pydantic params).map .readNotification⟩,
    ⟨"GET", path "/health", false, .anyone fun _ _ _ => some .health⟩]

def endpointsOf : Upstream → List Endpoint
  | .identityService => identityEndpoints pydantic
  | .opportunityService => opportunityEndpoints pydantic
  | .applicationService => applicationEndpoints pydantic
  | .communicationsService => communicationEndpoints pydantic

/-- The first route that takes the method and the path, with the parameters. -/
def route (upstream : Upstream) (method text : String) : Option (Endpoint × List (List Char)) :=
  (endpointsOf pydantic upstream).findSome? fun e =>
    if e.method = method then (paramsOf e.path text.toList).map fun params => (e, params) else none

end Routes

/-! ## The state -/

/-- How the services are deployed. -/
structure Site where
  deployment : AuthService.Deployment
  pydantic : Pydantic
  localStoragePath : FileService → Path

structure Store where
  identity : AuthService.State
  opportunities : OpportunityService.State
  records : StudentIsolation.State
  files : FileService → Disk

/-- What a request meets while it is handled, whichever handler it is.  An event that it
    publishes becomes the message `message`. -/
structure Env where
  clock : Time
  identity : AuthService.Env
  opportunity : OpportunityService.Env
  application : ApplicationService.Env
  message : UUID
  query : QueryService.Env
  notification : CommunicationsService.Env
  uuid4 : UUID

/-- Nothing fails; all fresh values come from one. -/
def Env.untroubled (fresh : UUID) : Env where
  clock := 0
  identity := .untroubled fresh 0
  opportunity := .untroubled fresh 0
  application := .untroubled fresh fresh 0
  message := fresh
  query := ⟨fresh, fresh, 0, false, false⟩
  notification := ⟨0, fresh, fresh, 0, 0, false, false, false⟩
  uuid4 := fresh

/-- What comes back.  A path that has no route, or none for the method, is `unrouted`. -/
inductive Answer where
  | status (code : Nat)
  | unrouted
  | identity (answer : AuthService.Answer)
  | caller (user : CurrentUser)
  | user (user : AuthService.User)
  | profile (profile : AuthService.StudentProfile)
  | opportunity (response : OpportunityService.Response)
  | page (page : OpportunityService.Page)
  | application (app : ApplicationService.Application)
  | query (response : QueryService.Response)
  | notification (note : CommunicationsService.Notification)
  | records (response : StudentIsolation.Response)
  | url (url : List Char)
  | served (served : FileUploads.Served)
  | health

/-- What a handler returns, or the status of what it raises. -/
def answerOf {α : Type} (body : α → Answer) : Except ServiceError α → Answer
  | .ok value => body value
  | .error (.http code _) => .status code
  | .error _ => .status 500

section Service

variable (site : Site)

/-! ## Up to the handler -/

/-- What a service makes of a request that has reached it. -/
def dispatch (now : Time) (upstream : Upstream) (r : HttpRequest) (body : Body) :
    Except Answer Call :=
  match route site.pydantic upstream r.method r.path with
  | none => .error .unrouted
  | some (e, params) =>
    -- the body is parsed before the dependencies are
    if e.readsJson && body.isMalformed then .error (.status 422)
    else
      match e.handler with
      | .anyone call =>
        match call r params body with
        | none => .error (.status 422)
        | some call => .ok (.anyone call)
      | .asks call =>
        match getCurrentUser site.deployment.jose (environOf site.deployment.settings) now
            r.credentials with
        | .error _ => .error (.status 401)
        | .ok user =>
          match call params body with
          | none => .error (.status 422)
          | some call => .ok (.user user call)

/-- The handler that a request to the gateway reaches, or the answer that it gets instead. -/
def called (redis : List AuthService.RedisEntry) (now : Time) (r : HttpRequest) (body : Body) :
    Except Answer Call :=
  match gateway site.deployment redis now r with
  | .answered code => .error (.status code)
  | .forwarded upstream r' => dispatch site now upstream r' body

/-! ## The handlers -/

def performOpen (store : Store) (env : Env) : OpenCall → Store × Answer
  | .identity request =>
      let served := AuthService.serve site.deployment store.identity env.identity request
      ({ store with identity := served.1 }, answerOf .identity served.2)
  | .validate authorization cookies =>
      (store, answerOf .caller (AuthService.validateToken site.deployment store.identity.redis
        env.clock authorization
        (cookies.lookup site.deployment.settings.accessTokenCookieName)))
  | .getProfile userId =>
      let served := Profiles.getProfile store.identity env.identity userId
      ({ store with identity := served.1 }, answerOf .profile served.2)
  | .listOpps =>
      (store, answerOf .page (OpportunityService.read store.opportunities env.opportunity
        .listOpps))
  | .getOpp opportunityId =>
      (store, answerOf .page (OpportunityService.read store.opportunities env.opportunity
        (.getOpp opportunityId)))
  | .serveLocalFile service folder filename =>
      (store, answerOf .served (FileUploads.serveLocalFile (site.localStoragePath service)
        (store.files service) folder filename))
  | .health => (store, .health)

/-- An upload to one of the services. -/
def keep (store : Store) (env : Env) (service : FileService) (upload : Upload) :
    Store × Answer :=
  let served := FileUploads.handle (site.localStoragePath service) (store.files service)
    env.uuid4 upload
  ({ store with files := Function.update store.files service served.1 }, answerOf .url served.2)

/-- A request that `StudentIsolation.step` takes. -/
def record (store : Store) (item : StudentIsolation.Item) : Store :=
  { store with records := StudentIsolation.step store.records item }

def performUser (store : Store) (env : Env) (user : CurrentUser) : UserCall → Store × Answer
  | .me =>
      (store,
        match Profiles.findUser store.identity env.identity user.id with
        | .ok none => .status 404
        | .ok (some dbUser) => .user dbUser
        | .error e => answerOf .user (.error e))
  | .putProfile data =>
      let served := Profiles.putProfile store.identity env.identity user data
      ({ store with identity := served.1 }, answerOf .profile served.2)
  | .opportunity request =>
      let served := OpportunityService.serve store.opportunities env.opportunity
        (.request user request)
      ({ store with opportunities := served.1 }, answerOf .opportunity served.2)
  | .listRegistrations opportunityId =>
      (store, answerOf .page (OpportunityService.read store.opportunities env.opportunity
        (.listRegistrations user opportunityId)))
  | .exportRegistrations opportunityId =>
      (store, answerOf .page (OpportunityService.read store.opportunities env.opportunity
        (.exportRegistrations user opportunityId)))
  | .uploadDriveFile file => keep site store env .opportunityService (.driveFile user file)
  | .application request =>
      (record store (.application user request env.application env.message),
        answerOf .application (ApplicationService.serve store.records.application env.application
          user request).2)
  | .uploadResume file => keep site store env .applicationService (.resume user file)
  | .query request =>
      (record store (.query user request env.query),
        answerOf .query (QueryService.serve store.records.queries env.query user request).2)
  | .readNotification notificationId =>
      (record store (.markRead user notificationId env.notification),
        answerOf .notification (CommunicationsService.markRead store.records.communications
          env.notification notificationId user.id).2)
  | .read read => (store, .records (StudentIsolation.respond store.records user read))

def perform (store : Store) (env : Env) : Call → Store × Answer
  | .anyone call => performOpen site store env call
  | .user user call => performUser site store env user call

def receive (store : Store) (env : Env) (r : HttpRequest) (body : Body) : Store × Answer :=
  match called site store.identity.redis env.clock r body with
  | .error answer => (store, answer)
  | .ok call => perform site store env call

/-! ## Runs -/

/-- A request to the gateway, the handling of a message, or a run of the scheduler's job. -/
inductive Event where
  | http (r : HttpRequest) (body : Body) (env : Env)
  | consume (message : UUID) (env : CommunicationsService.Env)
  | processDeadlines (env : OpportunityService.Env)

def step (store : Store) : Event → Store
  | .http r body env => (receive site store env r body).1
  | .consume message env => record store (.handle message env)
  | .processDeadlines env =>
      { store with opportunities := (OpportunityService.serve store.opportunities env
          .processDeadlines).1 }

end Service

/-- Freshly created tables, and whatever is on the disks. -/
def Store.fresh (files : FileService → Disk) : Store := ⟨.empty, .empty, .empty, files⟩

end CampusHire.PublicApi
