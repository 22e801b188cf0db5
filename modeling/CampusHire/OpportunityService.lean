import CampusHire.Common
import CampusHire.FloatFormat
import CampusHire.Table

/-!
# The opportunity service

`opportunity_service.py`, the routes but for the upload of a file, and
`process_deadlines`, over the tables of `models.py`.  As in the application service,
everything a handler receives from outside while it runs is its `Env`.
-/

namespace CampusHire.OpportunityService

open CampusHire

/-! ## Tables -/

structure Opportunity where
  id : UUID
  title : String
  description : Option String
  coordinatorId : UUID
  deadline : Option Time
  status : String
  createdAt : Time
deriving DecidableEq

structure FormField where
  id : UUID
  opportunityId : UUID
  fieldType : String
  label : String
  required : Bool
  options : Option Dict
  mapsToProfileField : Option String
  sortOrder : Int

structure Registration where
  id : UUID
  opportunityId : UUID
  studentId : UUID
  fieldResponses : Dict
  resumeUrl : Option String
  submittedAt : Time

structure EligibilityRule where
  id : UUID
  opportunityId : UUID
  rule : Dict

structure State where
  opportunities : List Opportunity
  formFields : List FormField
  registrations : List Registration
  eligibilityRules : List EligibilityRule

def State.empty : State := ⟨[], [], [], []⟩

/-! ## Requests -/

inductive FormFieldType where
  | text
  | number
  | email
  | dropdown
  | checkbox
  | file
  | deadline
deriving DecidableEq, Repr

def FormFieldType.value : FormFieldType → String
  | .text => "text"
  | .number => "number"
  | .email => "email"
  | .dropdown => "dropdown"
  | .checkbox => "checkbox"
  | .file => "file"
  | .deadline => "deadline"

structure FormFieldCreate where
  fieldType : FormFieldType
  label : String
  required : Bool := false
  options : Option Dict := none
  mapsToProfileField : Option String := none
  sortOrder : Int := 0

/-- A deadline as a body gives it.  The database makes a moment of one without an offset,
    by the time zone of its session. -/
inductive Deadline where
  | aware (moment : Time)
  | naive (moment : Time)
deriving DecidableEq

namespace Deadline

def moment : Deadline → Time
  | .aware moment => moment
  | .naive moment => moment

/-- Python finds a `datetime` without an offset different from every one with an offset. -/
def isNaive : Deadline → Bool
  | .aware _ => false
  | .naive _ => true

end Deadline

structure OpportunityCreate where
  title : String
  description : Option String := none
  deadline : Option Deadline := none
  formFields : List FormFieldCreate := []
  eligibilityRules : List Dict := []

/-- `none` is a field that the client has not set, `some none` one set to null. -/
structure OpportunityUpdate where
  title : Option (Option String) := none
  description : Option (Option String) := none
  deadline : Option (Option Deadline) := none
  status : Option (Option String) := none

structure RegistrationCreate where
  fieldResponses : Dict := []
  resumeUrl : Option String := none

/-- What a request or a run of the deadline job meets while it is handled.  `uuid4`
    are the fresh identifiers in the order in which they are asked for,
    `exportFails` says of which opportunities the workbook refuses a cell, `reloadFails` of
    which rows the `SELECT` that reloads them after a commit fails. -/
structure Env where
  profile : HttpAnswer
  uuid4 : Nat → UUID
  txnStart : Time
  clock : Time
  databaseFails : Bool
  exportFails : UUID → Bool
  reloadFails : UUID → Bool

/-- Every service answers, the database accepts and every cell can be written. -/
def Env.untroubled (fresh : UUID) (time : Time) : Env where
  profile := .answered 200 (some (.obj []))
  uuid4 := fun _ => fresh
  txnStart := time
  clock := time
  databaseFails := false
  exportFails := fun _ => false
  reloadFails := fun _ => false

inductive Request where
  | createOpp (data : OpportunityCreate)
  | patchOpp (opportunityId : UUID) (data : OpportunityUpdate)
  | createRegistration (opportunityId : UUID) (data : RegistrationCreate)

/-- What runs in the service: requests of users, and the job of the scheduler. -/
inductive Job where
  | request (user : CurrentUser) (request : Request)
  | processDeadlines

inductive Response where
  | opportunity (opportunity : Opportunity)
  | registration (registration : Registration)
  | closed

/-! ## Eligibility -/

/-- `resp.json()` of a profile, `{}` when the identity service does not answer 200. -/
def fetchProfile : HttpAnswer → Except ServiceError Json
  | .unreachable => .error .upstream
  | .answered code body => if code ≠ 200 then .ok (.obj []) else HttpAnswer.json body

/-- `value.get(key)` on a decoded answer, `null` for `None`. -/
def get (value : Json) (key : String) : Except ServiceError Json :=
  match value with
  | .obj fields => .ok ((Dict.get fields key).getD .null)
  | _ => .error .value

/-- `item in container`: an element of a list, a part of a text, or a key of a dict. -/
def contains (container item : Json) : Except ServiceError Bool :=
  match container, item with
  | .arr items, item => .ok (items.any fun x => Json.eq item x)
  | .str text, .str part => .ok (text.toList.tails.any part.toList.isPrefixOf)
  | .obj _, .arr _ => .error .value
  | .obj _, .obj _ => .error .value
  | .obj fields, .str key => .ok (fields.any fun field => decide (field.1 = key))
  | .obj _, _ => .ok false
  | _, _ => .error .value

def meetsAllowedBranches (profile : Json) (rule : Dict) : Except ServiceError Bool := do
  match rule.get "allowed_branches" with
  | none => return true
  | some allowed =>
    let branch ← get profile "branch"
    if branch.truthy then contains allowed branch else return true

section Numbers

-- how numbers become floats
variable (round : ℚ → Option ℚ)

/-- `float(value)`, which raises on a number that is too large. -/
def floatBy : Json → Except ServiceError PythonText.FloatValue
  | .num q =>
    match round q with
    | some value => .ok (.finite value)
    | none => .error .value
  | .bool b => .ok (.finite (if b then 1 else 0))
  | .str text =>
    match PythonText.float round text.toList with
    | some value => .ok value
    | none => .error .value
  | _ => .error .value

def meetsMinCgpaBy (profile : Json) (rule : Dict) : Except ServiceError Bool := do
  match rule.get "min_cgpa" with
  | none => return true
  | some minimum =>
    match ← get profile "cgpa" with
    | .null => return true
    | cgpa =>
      let value ← floatBy round cgpa
      let bound ← floatBy round minimum
      return !value.lt bound

/-- The rules in order, up to the first one that the profile does not meet. -/
def checkEligibilityBy (profile : Json) : List Dict → Except ServiceError Bool
  | [] => .ok true
  | rule :: rules => do
    if !(← meetsMinCgpaBy round profile rule) then return false
    if !(← meetsAllowedBranches profile rule) then return false
    checkEligibilityBy profile rules

end Numbers

/-- The service's floats are doubles. -/
def float : Json → Except ServiceError PythonText.FloatValue :=
  floatBy FloatFormat.binary64.round

def meetsMinCgpa : Json → Dict → Except ServiceError Bool :=
  meetsMinCgpaBy FloatFormat.binary64.round

def checkEligibility : Json → List Dict → Except ServiceError Bool :=
  checkEligibilityBy FloatFormat.binary64.round

/-! ## Queries -/

def findOpportunity (s : State) (id : UUID) : Option Opportunity :=
  Table.lookup Opportunity.id id s.opportunities

def getOpportunity (s : State) (id : UUID) : Except ServiceError Opportunity :=
  match findOpportunity s id with
  | some opp => .ok opp
  | none => .error (.http 404 "Opportunity not found")

def rulesOf (s : State) (opportunityId : UUID) : List Dict :=
  (s.eligibilityRules.filter fun r => decide (r.opportunityId = opportunityId)).map
    EligibilityRule.rule

/-- The duplicate check of `register_student`. -/
def findExisting (s : State) (opportunityId studentId : UUID) : Option Registration :=
  s.registrations.find? fun r =>
    decide (r.opportunityId = opportunityId) && decide (r.studentId = studentId)

/-- The published opportunities whose deadline has come. -/
def dueOpportunities (s : State) (now : Time) : List Opportunity :=
  s.opportunities.filter fun o => o.deadline.any (fun d => decide (d ≤ now)) &&
    decide (o.status = "published")

/-! ## Commits -/

def insertRows {ρ : Type} (key : ρ → UUID) (rows table : List ρ) : Option (List ρ) :=
  rows.foldlM (fun table row => Table.insertRow key row table) table

def newOpportunity (env : Env) (coordinatorId : UUID) (data : OpportunityCreate) : Opportunity where
  id := env.uuid4 0
  title := varchar 255 data.title
  description := data.description
  coordinatorId := coordinatorId
  deadline := data.deadline.map Deadline.moment
  status := "published"
  createdAt := env.txnStart

def newFormField (env : Env) (opportunityId : UUID) (idx : Nat) (field : FormFieldCreate) :
    FormField where
  id := env.uuid4 (1 + idx)
  opportunityId := opportunityId
  fieldType := field.fieldType.value
  label := varchar 255 field.label
  required := field.required
  options := field.options
  mapsToProfileField := field.mapsToProfileField.map (varchar 100)
  -- `field.sort_order or idx`
  sortOrder := if field.sortOrder ≠ 0 then field.sortOrder else idx

def FormFieldCreate.fitsColumns (field : FormFieldCreate) : Bool :=
  fits 255 (some field.label) && fits 100 field.mapsToProfileField

def FormField.fitsColumns (field : FormField) : Bool :=
  decide (-2 ^ 31 ≤ field.sortOrder) && decide (field.sortOrder < 2 ^ 31)

/-- The flushes and the commit of `create_opportunity`: the opportunity with its form
    fields and rules, or nothing. -/
def insertOpportunity (s : State) (env : Env) (coordinatorId : UUID) (data : OpportunityCreate) :
    Except ServiceError State :=
  let opp := newOpportunity env coordinatorId data
  let fields := data.formFields.mapIdx (newFormField env opp.id)
  let rules : List EligibilityRule := data.eligibilityRules.mapIdx fun idx rule =>
    ⟨env.uuid4 (1 + fields.length + idx), opp.id, rule⟩
  if env.databaseFails || !fits 255 (some data.title) ||
      !data.formFields.all FormFieldCreate.fitsColumns || !fields.all FormField.fitsColumns then
    .error .database
  else
    match Table.insertRow Opportunity.id opp s.opportunities,
        insertRows FormField.id fields s.formFields,
        insertRows EligibilityRule.id rules s.eligibilityRules with
    | some opportunities, some formFields, some eligibilityRules =>
        .ok { s with
          opportunities := opportunities, formFields := formFields
          eligibilityRules := eligibilityRules }
    | _, _, _ => .error .database

/-- Title and status are not nullable. -/
def acceptsUpdate (loaded : Opportunity) (data : OpportunityUpdate) : Bool :=
  (written (some loaded.title) data.title).all (fun v => v.isSome && fits 255 v) &&
    (written (some loaded.status) data.status).all (fun v => v.isSome && fits 50 v)

/-- The row after the `UPDATE` of a session that had loaded `loaded`. -/
def applyUpdate (loaded : Opportunity) (data : OpportunityUpdate) (stored : Opportunity) :
    Opportunity :=
  { stored with
    title := ((writtenText 255 (some loaded.title) data.title).getD none).getD stored.title
    description := (written loaded.description data.description).getD stored.description
    deadline := (writtenAs (Option.map Deadline.moment) (Option.any Deadline.isNaive)
      loaded.deadline data.deadline).getD stored.deadline
    status := ((writtenText 50 (some loaded.status) data.status).getD none).getD stored.status }

/-- Closing writes the status and nothing else. -/
theorem applyUpdate_closed (loaded stored : Opportunity) :
    applyUpdate loaded { status := some (some "closed") } stored =
      { stored with status := if loaded.status = "closed" then stored.status else "closed" } := by
  have hshort : within 50 (some "closed") = true := by decide
  rw [applyUpdate, writtenText_of_within hshort]
  by_cases h : loaded.status = "closed"
  · simp [written, Option.filter, h]
  · simp [written, Option.filter, h, Ne.symm h]

/-- The commit of `update_opportunity`, on the row the session loaded. -/
def commitUpdate (s : State) (env : Env) (row : Opportunity) (data : OpportunityUpdate) :
    Except ServiceError State :=
  if env.databaseFails || !acceptsUpdate row data then .error .database
  else .ok { s with
    opportunities := Table.modify Opportunity.id row.id (applyUpdate row data) s.opportunities }

def newRegistration (env : Env) (opportunityId studentId : UUID) (data : RegistrationCreate) :
    Registration where
  id := env.uuid4 0
  opportunityId := opportunityId
  studentId := studentId
  fieldResponses := data.fieldResponses
  resumeUrl := data.resumeUrl.map (varchar 500)
  submittedAt := env.txnStart

def insertRegistration (s : State) (env : Env) (opportunityId studentId : UUID)
    (data : RegistrationCreate) : Except ServiceError State :=
  if env.databaseFails || !fits 500 data.resumeUrl then .error .database
  else
    match Table.insertRow Registration.id (newRegistration env opportunityId studentId data)
        s.registrations with
    | some registrations => .ok { s with registrations := registrations }
    | none => .error .database

/-- `opp.status = "closed"` and the commit, on the row the session loaded. -/
def commitClosed (s : State) (env : Env) (row : Opportunity) : Except ServiceError State :=
  commitUpdate s env row { status := some (some "closed") }

/-- `db.refresh` of an opportunity, and the reload of an expired one. -/
def refreshOpportunity (s : State) (env : Env) (id : UUID) : Except ServiceError Opportunity :=
  if env.reloadFails id then .error .database
  else
    match findOpportunity s id with
    | some opp => .ok opp
    | none => .error .database

def refreshRegistration (s : State) (env : Env) (id : UUID) : Except ServiceError Registration :=
  if env.reloadFails id then .error .database
  else
    match Table.lookup Registration.id id s.registrations with
    | some reg => .ok reg
    | none => .error .database

/-! ## Handlers, run to their end -/

def createOpportunity (s : State) (env : Env) (coordinatorId : UUID) (data : OpportunityCreate) :
    State × Except ServiceError Opportunity :=
  match insertOpportunity s env coordinatorId data with
  | .error e => (s, .error e)
  | .ok s' => (s', refreshOpportunity s' env (env.uuid4 0))

def updateOpportunity (s : State) (env : Env) (opportunityId coordinatorId : UUID)
    (data : OpportunityUpdate) : State × Except ServiceError Opportunity :=
  match getOpportunity s opportunityId with
  | .error e => (s, .error e)
  | .ok opp =>
    if opp.coordinatorId ≠ coordinatorId then (s, .error (.http 403 "Not your opportunity"))
    else
      match commitUpdate s env opp data with
      | .error e => (s, .error e)
      | .ok s' => (s', refreshOpportunity s' env opp.id)

def registerStudent (s : State) (env : Env) (opportunityId studentId : UUID)
    (data : RegistrationCreate) : State × Except ServiceError Registration :=
  match getOpportunity s opportunityId with
  | .error e => (s, .error e)
  | .ok opp =>
    match (fetchProfile env.profile).bind fun profile =>
        checkEligibility profile (rulesOf s opp.id) with
    | .error e => (s, .error e)
    | .ok false => (s, .error (.http 400 "Not eligible for this opportunity"))
    | .ok true =>
      match findExisting s opportunityId studentId with
      | some _ => (s, .error (.http 400 "Already registered"))
      | none =>
        match insertRegistration s env opportunityId studentId data with
        | .error e => (s, .error e)
        | .ok s' => (s', refreshRegistration s' env (env.uuid4 0))

/-- The workbook of an opportunity's registrations, up to what it says. -/
def generateExcelExport (s : State) (env : Env) (opportunityId : UUID) :
    Except ServiceError Unit :=
  match getOpportunity s opportunityId with
  | .error e => .error e
  | .ok _ => if env.exportFails opportunityId then .error .value else .ok ()

/-- The loop of `process_deadlines`: `opp` is loaded, the others are expired by the
    commit and reloaded when the loop gets to them. -/
def closeDue (env : Env) : List UUID → State → Opportunity → State × Except ServiceError Unit
  | rest, s, opp =>
    match generateExcelExport s env opp.id with
    | .error e => (s, .error e)
    | .ok () =>
      match commitClosed s env opp with
      | .error e => (s, .error e)
      | .ok s' =>
        -- the line in the log asks for the id of the row that the commit has expired
        match refreshOpportunity s' env opp.id with
        | .error e => (s', .error e)
        | .ok _ =>
          match rest with
          | [] => (s', .ok ())
          | id :: rest =>
            match refreshOpportunity s' env id with
            | .error e => (s', .error e)
            | .ok next => closeDue env rest s' next

def processDeadlines (s : State) (env : Env) : State × Except ServiceError Unit :=
  match dueOpportunities s env.clock with
  | [] => (s, .ok ())
  | opp :: rest => closeDue env (rest.map Opportunity.id) s opp

/-- A job, run to its end: the routes check the role. -/
def serve (s : State) (env : Env) : Job → State × Except ServiceError Response
  | .request user (.createOpp data) =>
      if user.role ≠ .coordinator then (s, .error (.http 403 "Coordinator only"))
      else
        let done := createOpportunity s env user.id data
        (done.1, done.2.map .opportunity)
  | .request user (.patchOpp opportunityId data) =>
      if user.role ≠ .coordinator then (s, .error (.http 403 "Coordinator only"))
      else
        let done := updateOpportunity s env opportunityId user.id data
        (done.1, done.2.map .opportunity)
  | .request user (.createRegistration opportunityId data) =>
      if user.role ≠ .student then (s, .error (.http 403 "Student only"))
      else
        let done := registerStudent s env opportunityId user.id data
        (done.1, done.2.map .registration)
  | .processDeadlines =>
      let done := processDeadlines s env
      (done.1, done.2.map fun _ => .closed)

/-! ## Routes that read -/

inductive Read where
  | listOpps
  | getOpp (opportunityId : UUID)
  | listRegistrations (user : CurrentUser) (opportunityId : UUID)
  | exportRegistrations (user : CurrentUser) (opportunityId : UUID)

/-- What a read answers: an opportunity comes with its form fields. -/
inductive Page where
  | opportunities (rows : List (Opportunity × List FormField))
  | registrations (rows : List Registration)
  | workbook

def formFieldsOf (s : State) (opportunityId : UUID) : List FormField :=
  s.formFields.filter fun f => decide (f.opportunityId = opportunityId)

def listOpportunities (s : State) : List Opportunity :=
  Table.orderByDesc Opportunity.createdAt s.opportunities

def read (s : State) (env : Env) : Read → Except ServiceError Page
  | .listOpps =>
      .ok (.opportunities ((listOpportunities s).map fun o => (o, formFieldsOf s o.id)))
  | .getOpp opportunityId =>
      (getOpportunity s opportunityId).map fun o => .opportunities [(o, formFieldsOf s o.id)]
  | .listRegistrations user opportunityId =>
    match getOpportunity s opportunityId with
    | .error e => .error e
    | .ok opp =>
      if user.role = .coordinator ∧ opp.coordinatorId ≠ user.id then
        .error (.http 403 "Not your opportunity")
      else .ok (.registrations (s.registrations.filter fun r => decide (r.opportunityId = opp.id)))
  | .exportRegistrations user opportunityId =>
    match getOpportunity s opportunityId with
    | .error e => .error e
    | .ok opp =>
      if user.role ≠ .coordinator ∨ opp.coordinatorId ≠ user.id then
        .error (.http 403 "Coordinator only")
      else (generateExcelExport s env opportunityId).map fun _ => .workbook

/-! ## What a commit does -/

theorem insertRows_ok {ρ : Type} {key : ρ → UUID} {rows table table' : List ρ}
    (h : insertRows key rows table = some table') : table' = table ++ rows := by
  induction rows generalizing table with
  | nil =>
    cases h
    exact (List.append_nil _).symm
  | cons row rows ih =>
    obtain ⟨first, hfirst, hrest⟩ := Option.bind_eq_some_iff.mp h
    rw [ih hrest, (Table.insertRow_eq_some.mp hfirst).2, List.append_assoc, List.singleton_append]

theorem insertOpportunity_ok {s s' : State} {env : Env} {coordinatorId : UUID}
    {data : OpportunityCreate} (h : insertOpportunity s env coordinatorId data = .ok s') :
    (∀ o ∈ s.opportunities, o.id ≠ env.uuid4 0) ∧
      s'.opportunities = s.opportunities ++ [newOpportunity env coordinatorId data] ∧
      s'.registrations = s.registrations := by
  simp only [insertOpportunity] at h
  split at h
  · cases h
  split at h
  · rename_i hopp hfields hrules
    cases h
    obtain ⟨hfresh, hadded⟩ := Table.insertRow_eq_some.mp hopp
    exact ⟨hfresh, hadded, rfl⟩
  · cases h

/-- The form fields and the rules that come with an opportunity are its own. -/
theorem insertOpportunity_parts {s s' : State} {env : Env} {coordinatorId : UUID}
    {data : OpportunityCreate} (h : insertOpportunity s env coordinatorId data = .ok s') :
    (∃ fields : List FormField, s'.formFields = s.formFields ++ fields ∧
        ∀ f ∈ fields, f.opportunityId = env.uuid4 0) ∧
      ∃ rules : List EligibilityRule, s'.eligibilityRules = s.eligibilityRules ++ rules ∧
        ∀ r ∈ rules, r.opportunityId = env.uuid4 0 := by
  simp only [insertOpportunity] at h
  split at h
  · cases h
  split at h
  · rename_i hopp hfields hrules
    cases h
    refine ⟨⟨_, insertRows_ok hfields, ?_⟩, ⟨_, insertRows_ok hrules, ?_⟩⟩
    · intro f hf
      obtain ⟨idx, hidx, rfl⟩ := List.mem_mapIdx.mp hf
      rfl
    · intro r hr
      obtain ⟨idx, hidx, rfl⟩ := List.mem_mapIdx.mp hr
      rfl
  · cases h

theorem refreshOpportunity_eq_ok {s : State} {env : Env} {id : UUID} {opp : Opportunity} :
    refreshOpportunity s env id = .ok opp ↔
      env.reloadFails id = false ∧ findOpportunity s id = some opp := by
  unfold refreshOpportunity
  rcases env.reloadFails id with _ | _
  · rcases findOpportunity s id with _ | found <;> simp
  · simp

theorem refreshRegistration_eq_ok {s : State} {env : Env} {id : UUID} {reg : Registration} :
    refreshRegistration s env id = .ok reg ↔
      env.reloadFails id = false ∧ Table.lookup Registration.id id s.registrations = some reg := by
  unfold refreshRegistration
  rcases env.reloadFails id with _ | _
  · rcases Table.lookup Registration.id id s.registrations with _ | found <;> simp
  · simp

theorem commitUpdate_ok {s s' : State} {env : Env} {row : Opportunity} {data : OpportunityUpdate}
    (h : commitUpdate s env row data = .ok s') :
    s' = { s with
      opportunities := Table.modify Opportunity.id row.id (applyUpdate row data)
        s.opportunities } := by
  unfold commitUpdate at h
  split at h
  · cases h
  · cases h
    rfl

theorem insertRegistration_ok {s s' : State} {env : Env} {opportunityId studentId : UUID}
    {data : RegistrationCreate}
    (h : insertRegistration s env opportunityId studentId data = .ok s') :
    (∀ r ∈ s.registrations, r.id ≠ env.uuid4 0) ∧
      s' = { s with
        registrations :=
          s.registrations ++ [newRegistration env opportunityId studentId data] } := by
  unfold insertRegistration at h
  split at h
  · cases h
  split at h
  · rename_i registrations hins
    cases h
    obtain ⟨hfresh, hadded⟩ := Table.insertRow_eq_some.mp hins
    exact ⟨hfresh, by rw [hadded]⟩
  · cases h

theorem accepts_of_insertRegistration {s s' : State} {env : Env} {opportunityId studentId : UUID}
    {data : RegistrationCreate}
    (h : insertRegistration s env opportunityId studentId data = .ok s') :
    env.databaseFails = false ∧ fits 500 data.resumeUrl = true := by
  unfold insertRegistration at h
  split at h
  · cases h
  · rename_i haccepts
    simpa using haccepts

theorem insertRegistration_of_fresh {s : State} {env : Env} (opportunityId studentId : UUID)
    {data : RegistrationCreate} (hdatabase : env.databaseFails = false)
    (hurl : fits 500 data.resumeUrl = true)
    (hfresh : env.uuid4 0 ∉ s.registrations.map Registration.id) :
    insertRegistration s env opportunityId studentId data =
      .ok { s with
        registrations :=
          s.registrations ++ [newRegistration env opportunityId studentId data] } := by
  have hins : Table.insertRow Registration.id (newRegistration env opportunityId studentId data)
      s.registrations =
        some (s.registrations ++ [newRegistration env opportunityId studentId data]) :=
    Table.insertRow_of_fresh hfresh
  rw [insertRegistration, hdatabase, hurl, if_neg (by decide), hins]

/-- The deadline job writes to the table of opportunities only. -/
theorem closeDue_others (env : Env) (rest : List UUID) (s : State) (opp : Opportunity) :
    ∃ opportunities, (closeDue env rest s opp).1 = { s with opportunities := opportunities } := by
  induction rest generalizing s opp with
  | nil =>
    rw [closeDue]
    rcases generateExcelExport s env opp.id with e | ⟨⟩
    · exact ⟨s.opportunities, rfl⟩
    rcases hcommit : commitClosed s env opp with e | s'
    · exact ⟨s.opportunities, rfl⟩
    dsimp only
    rcases refreshOpportunity s' env opp.id with e | logged
    · exact ⟨_, commitUpdate_ok hcommit⟩
    · exact ⟨_, commitUpdate_ok hcommit⟩
  | cons id rest ih =>
    rw [closeDue]
    rcases generateExcelExport s env opp.id with e | ⟨⟩
    · exact ⟨s.opportunities, rfl⟩
    rcases hcommit : commitClosed s env opp with e | s'
    · exact ⟨s.opportunities, rfl⟩
    have hsame := commitUpdate_ok hcommit
    dsimp only
    rcases refreshOpportunity s' env opp.id with e | logged
    · exact ⟨_, hsame⟩
    dsimp only
    rcases refreshOpportunity s' env id with e | next
    · exact ⟨_, hsame⟩
    · obtain ⟨opportunities, heq⟩ := ih s' next
      exact ⟨opportunities, heq.trans (hsame ▸ rfl)⟩

theorem processDeadlines_others (s : State) (env : Env) :
    ∃ opportunities,
      (processDeadlines s env).1 = { s with opportunities := opportunities } := by
  rw [processDeadlines]
  rcases dueOpportunities s env.clock with _ | ⟨opp, rest⟩
  · exact ⟨s.opportunities, rfl⟩
  · exact closeDue_others env (rest.map Opportunity.id) s opp

end CampusHire.OpportunityService
