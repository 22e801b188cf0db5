import CampusHire.OpportunityService
import CampusHire.ApplicationService
import CampusHire.QueryService
import CampusHire.Profiles

/-!
# Request bodies

The request models of the four `schemas.py`: which fields a JSON body must or may have, what
a missing one stands for, and which values the fields take.  How pydantic reads a single
value that is no text, list, object or enumeration is left to `Pydantic`.

In an update a missing field and a field that is set to null are two things, since
`model_dump(exclude_unset=True)` tells them apart.
-/

namespace CampusHire.Schemas

open CampusHire
open CampusHire.AuthService (RegisterRequest)
open CampusHire.Profiles (ProfileUpdate)
open CampusHire.OpportunityService (Deadline FormFieldType FormFieldCreate OpportunityCreate
  OpportunityUpdate RegistrationCreate)
open CampusHire.ApplicationService (ApplicationCreate)
open CampusHire.QueryService (QueryStatus QueryCreate)

/-! ## Values -/

/-- What pydantic makes of a value, `none` for an error. -/
structure Pydantic where
  uuid : Json → Option UUID
  datetime : Json → Option Deadline
  emailStr : Json → Option String
  bool : Json → Option Bool
  int : Json → Option Int
  float : Json → Option PythonText.FloatValue

section Values

variable {α : Type}

def str : Json → Option String
  | .str text => some text
  | _ => none

def dict : Json → Option Dict
  | .obj fields => some fields
  | _ => none

def list (item : Json → Option α) : Json → Option (List α)
  | .arr items => items.mapM item
  | _ => none

/-- `T | None` -/
def orNone (value : Json → Option α) : Json → Option (Option α)
  | .null => some none
  | json => (value json).map some

/-- A member of an enumeration is given by its value. -/
def enumeration (members : List α) (value : α → String) : Json → Option α
  | .str text => members.find? fun member => decide (value member = text)
  | _ => none

/-- `Field(min_length=n)` -/
def minLength (n : Nat) (text : String) : Option String :=
  if n ≤ text.length then some text else none

/-! ## Fields -/

def required (value : Json → Option α) (fields : Dict) (name : String) : Option α :=
  (fields.get name).bind value

def withDefault (value : Json → Option α) (absent : α) (fields : Dict) (name : String) :
    Option α :=
  match fields.get name with
  | none => some absent
  | some json => value json

/-- A field of an update, which remembers whether it is set. -/
def ifSet (value : Json → Option α) (fields : Dict) (name : String) : Option (Option α) :=
  match fields.get name with
  | none => some none
  | some json => (value json).map some

end Values

def userRoles : List UserRole := [.student, .coordinator]

def applicationStatuses : List ApplicationStatus :=
  [.applied, .shortlisted, .assessment, .technicalInterview, .hrInterview, .selected, .rejected]

def queryStatuses : List QueryStatus := [.open, .inProgress, .resolved, .closed]

def formFieldTypes : List FormFieldType :=
  [.text, .number, .email, .dropdown, .checkbox, .file, .deadline]

theorem enumeration_value {α : Type} {members : List α} {value : α → String}
    (hvalues : (members.map value).Nodup) {member : α} (hmem : member ∈ members) :
    enumeration members value (.str (value member)) = some member := by
  rcases hfound : members.find? (fun other => decide (value other = value member)) with _ | found
  · have hnone := List.find?_eq_none.mp hfound member hmem
    simp at hnone
  · have hvalue : value found = value member := by simpa using List.find?_some hfound
    have hsame : found = member :=
      List.inj_on_of_nodup_map hvalues (List.mem_of_find?_eq_some hfound) hmem hvalue
    rw [enumeration, hfound, hsame]

/-- Every member of the four enumerations is read back from its value. -/
theorem members_read_back :
    (∀ role, enumeration userRoles UserRole.value (.str role.value) = some role) ∧
    (∀ status, enumeration applicationStatuses ApplicationStatus.value (.str status.value) =
      some status) ∧
    (∀ status, enumeration queryStatuses QueryStatus.value (.str status.value) = some status) ∧
    ∀ type, enumeration formFieldTypes FormFieldType.value (.str type.value) = some type := by
  refine ⟨?_, ?_, ?_, ?_⟩
  · intro role
    apply enumeration_value (by decide)
    cases role <;> decide
  · intro status
    apply enumeration_value (by decide)
    cases status <;> decide
  · intro status
    apply enumeration_value (by decide)
    cases status <;> decide
  · intro type
    apply enumeration_value (by decide)
    cases type <;> decide

/-! ## Models -/

section Models

variable (pydantic : Pydantic)

def registerRequest (body : Dict) : Option RegisterRequest := do
  let email ← required pydantic.emailStr body "email"
  let password ← required (fun json => (str json).bind (minLength 8)) body "password"
  let role ← withDefault (enumeration userRoles UserRole.value) .student body "role"
  return { email := email, password := password, role := role }

/-- `email` and `password` of a `LoginRequest`. -/
def loginRequest (body : Dict) : Option (String × String) := do
  let email ← required pydantic.emailStr body "email"
  let password ← required str body "password"
  return (email, password)

def profileUpdate (body : Dict) : Option ProfileUpdate := do
  let name ← ifSet (orNone str) body "name"
  let cgpa ← ifSet (orNone pydantic.float) body "cgpa"
  let branch ← ifSet (orNone str) body "branch"
  let year ← ifSet (orNone pydantic.int) body "year"
  let phone ← ifSet (orNone str) body "phone"
  let skills ← ifSet (orNone (list str)) body "skills"
  return { name := name, cgpa := cgpa, branch := branch, year := year, phone := phone,
           skills := skills }

def formFieldCreate (body : Dict) : Option FormFieldCreate := do
  let fieldType ← required (enumeration formFieldTypes FormFieldType.value) body "field_type"
  let label ← required str body "label"
  let isRequired ← withDefault pydantic.bool false body "required"
  let options ← withDefault (orNone dict) none body "options"
  let mapsToProfileField ← withDefault (orNone str) none body "maps_to_profile_field"
  let sortOrder ← withDefault pydantic.int 0 body "sort_order"
  return { fieldType := fieldType, label := label, required := isRequired, options := options,
           mapsToProfileField := mapsToProfileField, sortOrder := sortOrder }

def opportunityCreate (body : Dict) : Option OpportunityCreate := do
  let title ← required str body "title"
  let description ← withDefault (orNone str) none body "description"
  let deadline ← withDefault (orNone pydantic.datetime) none body "deadline"
  let formFields ← withDefault
    (list fun json => (dict json).bind (formFieldCreate pydantic)) [] body "form_fields"
  let eligibilityRules ← withDefault (list dict) [] body "eligibility_rules"
  return { title := title, description := description, deadline := deadline,
           formFields := formFields, eligibilityRules := eligibilityRules }

def opportunityUpdate (body : Dict) : Option OpportunityUpdate := do
  let title ← ifSet (orNone str) body "title"
  let description ← ifSet (orNone str) body "description"
  let deadline ← ifSet (orNone pydantic.datetime) body "deadline"
  let status ← ifSet (orNone str) body "status"
  return { title := title, description := description, deadline := deadline, status := status }

def registrationCreate (body : Dict) : Option RegistrationCreate := do
  let fieldResponses ← withDefault dict [] body "field_responses"
  let resumeUrl ← withDefault (orNone str) none body "resume_url"
  return { fieldResponses := fieldResponses, resumeUrl := resumeUrl }

def applicationCreate (body : Dict) : Option ApplicationCreate := do
  let opportunityId ← required pydantic.uuid body "opportunity_id"
  let overrides ← withDefault dict [] body "overrides"
  let resumeUrl ← withDefault (orNone str) none body "resume_url"
  return ⟨opportunityId, overrides, resumeUrl⟩

def statusUpdate (body : Dict) : Option ApplicationStatus :=
  required (enumeration applicationStatuses ApplicationStatus.value) body "status"

def queryCreate (body : Dict) : Option QueryCreate := do
  let subject ← required str body "subject"
  let text ← required str body "body"
  let coordinatorId ← withDefault (orNone pydantic.uuid) none body "coordinator_id"
  let opportunityId ← withDefault (orNone pydantic.uuid) none body "opportunity_id"
  return { subject := subject, body := text, coordinatorId := coordinatorId,
           opportunityId := opportunityId }

def queryReply (body : Dict) : Option String := required str body "body"

def queryStatusUpdate (body : Dict) : Option QueryStatus :=
  required (enumeration queryStatuses QueryStatus.value) body "status"

end Models

/-- pydantic, as far as plain values go. -/
def plainPydantic : Pydantic where
  uuid
    | .str text => UUID.validate text
    | _ => none
  datetime
    | .num time => some (.aware time)
    | _ => none
  emailStr := str
  bool
    | .bool b => some b
    | _ => none
  int := fun _ => none
  float
    | .num q => some (.finite q)
    | _ => none

end CampusHire.Schemas
