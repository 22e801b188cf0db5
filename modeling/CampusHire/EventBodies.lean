import CampusHire.JsonText
import CampusHire.NotificationDelivery

/-!
# The bodies of messages

`EventPublisher.publish` sends `event.model_dump_json().encode()`, and the consumer reads
`json.loads(message.body.decode())` before it validates.  So an event arrives as it was
sent when its payload survives its text: the keys of every dict differ, and no number
needs a fraction (`decode_encode`).

Every event that the application service publishes is of this kind.  The two services
over real bodies therefore take, in every run, the same steps as over values
(`bytes_refine_values`), and what is proved of the one holds of the other.
-/

namespace CampusHire.EventBodies

open CampusHire Schedule EventDelivery
open JsonText (Value)

/-! ## Values and their texts -/

/-- How pydantic writes a float, and how the reader rounds what is written. -/
structure Floats where
  write : ℚ → List Char
  read : List Char → ℚ

section Texts

variable (floats : Floats)

mutual

def valueOf : Json → Value
  | .null => .null
  | .bool b => .bool b
  | .num q => if q.den = 1 then .int q.num else .float (floats.write q)
  | .str text => .str text
  | .arr items => .arr (valueItems items)
  | .obj fields => .obj (valueFields fields)
termination_by structural j => j

def valueItems : List Json → List Value
  | [] => []
  | j :: rest => valueOf j :: valueItems rest
termination_by structural l => l

def valueFields : List (String × Json) → List (String × Value)
  | [] => []
  | field :: rest => valueField field :: valueFields rest
termination_by structural l => l

def valueField : String × Json → String × Value
  | (key, j) => (key, valueOf j)
termination_by structural field => field

end

mutual

def jsonOf : Value → Json
  | .null => .null
  | .bool b => .bool b
  | .int z => .num z
  | .float literal => .num (floats.read literal)
  | .str text => .str text
  | .arr items => .arr (jsonItems items)
  | .obj fields => .obj (jsonFields fields)
termination_by structural v => v

def jsonItems : List Value → List Json
  | [] => []
  | v :: rest => jsonOf v :: jsonItems rest
termination_by structural l => l

def jsonFields : List (String × Value) → List (String × Json)
  | [] => []
  | field :: rest => jsonField field :: jsonFields rest
termination_by structural l => l

def jsonField : String × Value → String × Json
  | (key, v) => (key, jsonOf v)
termination_by structural field => field

end

/-- The text of the value is read as the value: it holds no float, and no dict has a key
    twice. -/
structure Survives (j : Json) : Prop where
  exact : (valueOf floats j).Exact
  distinct : (valueOf floats j).Distinct

mutual

theorem jsonOf_valueOf : ∀ j : Json, (valueOf floats j).Exact →
    jsonOf floats (valueOf floats j) = j
  | .null, _ => by rw [valueOf, jsonOf]
  | .bool b, _ => by rw [valueOf, jsonOf]
  | .num q, h => by
    rw [valueOf] at h ⊢
    split
    · rename_i hwhole
      rw [jsonOf, Rat.coe_int_num_of_den_eq_one hwhole]
    · rename_i hfraction
      rw [if_neg hfraction] at h
      exact absurd rfl (h (floats.write q))
  | .str text, _ => by rw [valueOf, jsonOf]
  | .arr items, h => by
    rw [valueOf] at h ⊢
    rw [jsonOf, jsonItems_valueItems items h.2]
  | .obj fields, h => by
    rw [valueOf] at h ⊢
    rw [jsonOf, jsonFields_valueFields fields h.2]
termination_by structural j => j

theorem jsonItems_valueItems : ∀ items : List Json,
    JsonText.EveryItem (fun v => ∀ literal, v ≠ .float literal) (valueItems floats items) →
      jsonItems floats (valueItems floats items) = items
  | [], _ => by rw [valueItems, jsonItems]
  | j :: rest, h => by
    rw [valueItems] at h ⊢
    rw [jsonItems, jsonOf_valueOf j h.1, jsonItems_valueItems rest h.2]
termination_by structural items => items

theorem jsonFields_valueFields : ∀ fields : List (String × Json),
    JsonText.EveryField (fun v => ∀ literal, v ≠ .float literal) (valueFields floats fields) →
      jsonFields floats (valueFields floats fields) = fields
  | [], _ => by rw [valueFields, jsonFields]
  | field :: rest, h => by
    rw [valueFields] at h ⊢
    rw [jsonFields, jsonField_valueField field h.1, jsonFields_valueFields rest h.2]
termination_by structural fields => fields

theorem jsonField_valueField : ∀ field : String × Json,
    JsonText.FieldEvery (fun v => ∀ literal, v ≠ .float literal) (valueField floats field) →
      jsonField floats (valueField floats field) = field
  | (key, j), h => by
    rw [valueField] at h ⊢
    rw [jsonField, jsonOf_valueOf j h]
termination_by structural field => field

end

/-! ## Bodies -/

/-- `event.model_dump_json().encode()` -/
def bodyOf (event : DomainEvent) : ByteArray :=
  (String.ofList (JsonText.write false (valueOf floats event.modelDump))).toByteArray

/-- `DomainEvent.model_validate(json.loads(body.decode()))` -/
def readBody (body : ByteArray) : Except ServiceError DomainEvent :=
  match (String.fromUTF8? body).bind fun text => JsonText.loads text.toList with
  | some v => DomainEvent.modelValidate (jsonOf floats v)
  | none => .error .value

theorem readBody_of_loads {body : ByteArray} {v : Value}
    (h : ((String.fromUTF8? body).bind fun text => JsonText.loads text.toList) = some v) :
    readBody floats body = DomainEvent.modelValidate (jsonOf floats v) := by
  unfold readBody
  rw [h]

/-- Messages as they travel. -/
def wire : Codec ByteArray := ⟨bodyOf floats, readBody floats⟩

theorem wire_encode (event : DomainEvent) : (wire floats).encode event = bodyOf floats event := by
  rw [wire]

theorem wire_decode (body : ByteArray) : (wire floats).decode body = readBody floats body := by
  rw [wire]

theorem fromUTF8_toByteArray (text : String) : String.fromUTF8? text.toByteArray = some text := by
  rw [String.fromUTF8?, dif_pos text.isValidUTF8]
  rfl

theorem valueOf_modelDump (event : DomainEvent) :
    valueOf floats event.modelDump =
      .obj [("event_type", .str event.eventType.value),
        ("payload", valueOf floats (.obj event.payload)),
        ("actor_id", (event.actorId.map fun id => Value.str id.str).getD .null),
        ("correlation_id", (event.correlationId.map Value.str).getD .null)] := by
  rcases event with ⟨eventType, payload, _ | actorId, _ | correlationId⟩
  all_goals simp [DomainEvent.modelDump, valueOf, valueFields, valueField]

theorem every_optional {p : Value → Prop} (hnull : p .null) (hstr : ∀ text, p (.str text))
    (o : Option String) : ((o.map Value.str).getD .null).Every p := by
  cases o with
  | none => exact hnull
  | some text => exact hstr text

/-- The fields that the event adds to its payload are texts or null. -/
theorem every_modelDump {p : Value → Prop} (hnull : p .null) (hstr : ∀ text, p (.str text))
    {event : DomainEvent} (hpayload : (valueOf floats (.obj event.payload)).Every p)
    (hdump : p (valueOf floats event.modelDump)) : (valueOf floats event.modelDump).Every p := by
  have hactor := every_optional hnull hstr (event.actorId.map UUID.str)
  rw [Option.map_map] at hactor
  rw [valueOf_modelDump] at hdump ⊢
  exact ⟨hdump, hstr _, hpayload, hactor, every_optional hnull hstr event.correlationId, trivial⟩

theorem survives_modelDump {event : DomainEvent} (h : Survives floats (.obj event.payload)) :
    Survives floats event.modelDump where
  exact := by
    refine every_modelDump floats (fun _ h => by cases h) (fun _ _ h => by cases h) h.exact ?_
    rw [valueOf_modelDump]
    intro literal h
    cases h
  distinct := by
    refine every_modelDump floats (fun _ h => by cases h) (fun _ _ h => by cases h) h.distinct ?_
    rw [valueOf_modelDump]
    intro fields hfields
    cases hfields
    exact (by decide : ["event_type", "payload", "actor_id", "correlation_id"].Nodup)

/-- **An event is read back from its body**, when its payload survives its text. -/
theorem decode_encode {event : DomainEvent} (h : Survives floats (.obj event.payload)) :
    (wire floats).decode ((wire floats).encode event) = .ok event := by
  have hdump := survives_modelDump floats h
  have hloads := JsonText.loads_write false hdump.exact hdump.distinct
  have hread : (String.fromUTF8? (bodyOf floats event)).bind
      (fun text => JsonText.loads text.toList) = some (valueOf floats event.modelDump) := by
    rw [bodyOf, fromUTF8_toByteArray, Option.bind_some, String.toList_ofList, hloads]
  rw [wire_decode, wire_encode, readBody_of_loads floats hread, jsonOf_valueOf floats _ hdump.exact,
    DomainEvent.modelValidate_modelDump]

/-! ## What the services publish -/

/-- The payload is a dict of texts. -/
structure Plain (event : DomainEvent) : Prop where
  text : event.HasTextPayload
  keys : (event.payload.map Prod.fst).Nodup

theorem map_valueFields (fields : List (String × Json)) :
    (valueFields floats fields).map Prod.fst = fields.map Prod.fst := by
  induction fields with
  | nil => rfl
  | cons field rest ih =>
    obtain ⟨key, j⟩ := field
    rw [valueFields, List.map_cons, List.map_cons, ih, valueField]

theorem every_texts {p : Value → Prop} (hstr : ∀ text, p (.str text))
    {fields : List (String × Json)} (h : ∀ field ∈ fields, ∃ text, field.2 = .str text) :
    JsonText.EveryField p (valueFields floats fields) := by
  induction fields with
  | nil => trivial
  | cons field rest ih =>
    obtain ⟨key, j⟩ := field
    obtain ⟨text, rfl⟩ : ∃ text, j = .str text := h (key, j) List.mem_cons_self
    rw [valueFields, valueField, valueOf]
    exact ⟨hstr text, ih fun field hfield => h field (List.mem_cons_of_mem _ hfield)⟩

theorem Plain.survives {event : DomainEvent} (h : Plain event) :
    Survives floats (.obj event.payload) where
  exact := by
    rw [valueOf]
    refine ⟨?_, every_texts floats ?_ h.text⟩
    · intro literal heq
      cases heq
    · intro text literal heq
      cases heq
  distinct := by
    rw [valueOf]
    refine ⟨?_, every_texts floats ?_ h.text⟩
    · intro fields hfields
      cases hfields
      rw [map_valueFields]
      exact h.keys
    · intro text fields heq
      cases heq

theorem Plain.receive {event : DomainEvent} (h : Plain event) :
    (wire floats).decode ((wire floats).encode event) =
      Codec.tree.decode (Codec.tree.encode event) :=
  (decode_encode floats (h.survives floats)).trans event.modelValidate_modelDump.symm

end Texts

theorem plain_submitted (app : ApplicationService.Application) (studentId : UUID)
    (data : ApplicationService.ApplicationCreate) :
    Plain (ApplicationService.submittedEvent app studentId data) :=
  ⟨ApplicationService.submittedEvent_textPayload app studentId data,
    (by decide : ["application_id", "student_id", "opportunity_id"].Nodup)⟩

theorem plain_status (eventType : EventType) (app : ApplicationService.Application)
    (actorId : UUID) : Plain (ApplicationService.statusEvent eventType app actorId) :=
  ⟨ApplicationService.statusEvent_textPayload eventType app actorId,
    (by decide : ["application_id", "student_id"].Nodup)⟩

/-- A request is about to publish one of the two events. -/
theorem plain_step {env : ApplicationService.Env} {s : ApplicationService.State}
    {t : ApplicationService.Task} {app : ApplicationService.Application} {event : DomainEvent}
    (h : (ApplicationService.taskStep env s t).2 = .publishing app event) : Plain event := by
  cases t with
  | applyRefresh studentId data id =>
    simp only [ApplicationService.taskStep] at h
    split at h
    · cases h
    · cases h
      exact plain_submitted _ studentId data
  | statusRefresh id actorId status =>
    simp only [ApplicationService.taskStep] at h
    split at h
    · cases h
    split at h
    · cases h
      exact plain_status _ _ actorId
    · cases h
  | _ =>
    exfalso
    revert h
    simp only [ApplicationService.taskStep]
    repeat' split
    all_goals
      intro h
      cases h

/-- What is in the exchange, or about to be published, is plain. -/
def plain : Annotation (program Codec.tree) where
  inv s := ∀ event ∈ s.application.published, Plain event
  own _ t := ∀ app event, t = .application (.publishing app event) → Plain event
  step_inv env s t hinv hown := by
    cases t with
    | application t =>
      intro event hevent
      rcases NotificationProvenance.mem_published_step hevent with hold | ⟨app, rfl⟩
      · exact hinv event hold
      · exact hown app event rfl
    | communications handler =>
      simp only [program, taskStep]
      split
      · exact hinv
      · exact hinv
  step_own env s t _ _ := by
    intro app event h
    cases t with
    | application t =>
      simp only [program, taskStep, Task.application.injEq] at h
      exact plain_step h
    | communications handler =>
      simp only [program, taskStep] at h
      split at h
      · cases h
      · cases h
  stable _ _ _ _ _ _ hown _ := hown

theorem receive_wire (floats : Floats) {exchange : List DomainEvent}
    (h : ∀ event ∈ exchange, Plain event) (message : Nat) :
    CommunicationsService.receive (wire floats) exchange message =
      CommunicationsService.receive Codec.tree exchange message := by
  unfold CommunicationsService.receive
  rcases hsent : exchange[message]? with _ | sent
  · rfl
  · dsimp only
    rw [(h sent (List.mem_of_getElem? hsent)).receive floats]

theorem program_onLoop {Body : Type} (codec : Codec Body) :
    (program codec).onLoop = Task.onLoop := rfl

theorem program_running {Body : Type} (codec : Codec Body) :
    (program codec).running = Task.running := rfl

theorem program_step {Body : Type} (codec : Codec Body) (env : Env) (s : State) (t : Task) :
    (program codec).step env s t = taskStep codec env s t := rfl

theorem step_wire (floats : Floats) (env : Env) {s : State} (t : Task)
    (h : ∀ event ∈ s.application.published, Plain event) :
    taskStep (wire floats) env s t = taskStep Codec.tree env s t := by
  cases t with
  | application t => rfl
  | communications handler =>
    cases handler with
    | consume => simp only [taskStep, handlerStep, receive_wire floats h]
    | _ => rfl

/-- **The services over the bodies of messages are the services over events.**  Every run
    takes the same steps. -/
theorem bytes_refine_values {ι : Type*} [DecidableEq ι] (floats : Floats) (jobs : ι → Job)
    (schedule : List (ι × Env)) :
    run (program (wire floats)) (arrive jobs) schedule =
      run (program Codec.tree) (arrive jobs) schedule := by
  have hstart : plain.Holds (arrive jobs) := by
    refine plain.holds_start (fun i => Task.start_not_running (jobs i)) (fun _ h => by cases h) ?_
    intro i app event h
    rcases hjob : jobs i with ⟨user, request⟩ | _ | _
    all_goals
      rw [hjob] at h
      first
        | exact absurd (Task.application.inj h)
            (NotificationDelivery.start_not_publishing user request app event)
        | cases h
  refine plain.run_congr ?_ ?_ ?_ hstart schedule
  · rw [program_onLoop, program_onLoop]
  · rw [program_running, program_running]
  · intro env s t hinv _
    rw [program_step, program_step, step_wire floats env t hinv]

end CampusHire.EventBodies
