import CampusHire.Common

/-!
# Domain events

`campushire_events.schemas`: the events that the services exchange over the
topic exchange `campushire.events`.
-/

namespace CampusHire

inductive EventType where
  | applicationSubmitted
  | applicationWithdrawn
  | applicationShortlisted
  | applicationRejected
  | driveCreated
  | driveUpdated
  | queryCreated
  | queryResponded
  | registrationDeadlineReached
deriving DecidableEq, Repr

def EventType.value : EventType → String
  | .applicationSubmitted => "APPLICATION_SUBMITTED"
  | .applicationWithdrawn => "APPLICATION_WITHDRAWN"
  | .applicationShortlisted => "APPLICATION_SHORTLISTED"
  | .applicationRejected => "APPLICATION_REJECTED"
  | .driveCreated => "DRIVE_CREATED"
  | .driveUpdated => "DRIVE_UPDATED"
  | .queryCreated => "QUERY_CREATED"
  | .queryResponded => "QUERY_RESPONDED"
  | .registrationDeadlineReached => "REGISTRATION_DEADLINE_REACHED"

theorem EventType.value_injective {a b : EventType} (h : a.value = b.value) : a = b := by
  cases a <;> cases b <;> first | rfl | exact absurd h (by decide)

structure DomainEvent where
  eventType : EventType
  payload : Dict
  actorId : Option UUID := none
  correlationId : Option String := none

/-- How a call of `EventPublisher.publish` ends: the broker confirms the message,
    the message does not leave (the publisher is not connected or the broker
    refuses it), or it leaves and the confirmation is lost. -/
inductive PublishOutcome where
  | confirmed
  | refused
  | unconfirmed
deriving DecidableEq, Repr

/-- `publish`: what the exchange has received afterwards, and whether the call
    returns or raises. -/
def publish (exchange : List DomainEvent) (outcome : PublishOutcome) (event : DomainEvent) :
    List DomainEvent × Except ServiceError Unit :=
  match outcome with
  | .confirmed => (exchange ++ [event], .ok ())
  | .refused => (exchange, .error .publisher)
  | .unconfirmed => (exchange ++ [event], .error .publisher)

theorem mem_publish {exchange : List DomainEvent} {outcome : PublishOutcome}
    {event e : DomainEvent} (h : e ∈ (publish exchange outcome event).1) :
    e ∈ exchange ∨ e = event := by
  cases outcome with
  | confirmed => simpa [publish] using h
  | refused => exact Or.inl (by simpa [publish] using h)
  | unconfirmed => simpa [publish] using h

/-! ## What travels -/

/-- How an event becomes the body of a message and is read back:
    `model_dump_json().encode()`, and `model_validate(json.loads(body.decode()))`. -/
structure Codec (Body : Type) where
  encode : DomainEvent → Body
  decode : Body → Except ServiceError DomainEvent

def DomainEvent.HasTextPayload (event : DomainEvent) : Prop :=
  ∀ entry ∈ event.payload, ∃ text, entry.2 = .str text

/-- An event whose payload values are strings arrives as it was sent. -/
def Codec.RoundTrips {Body : Type} (codec : Codec Body) : Prop :=
  ∀ event : DomainEvent, event.HasTextPayload → codec.decode (codec.encode event) = .ok event

def EventType.ofValue (text : String) : Option EventType :=
  [.applicationSubmitted, .applicationWithdrawn, .applicationShortlisted, .applicationRejected,
    .driveCreated, .driveUpdated, .queryCreated, .queryResponded,
    .registrationDeadlineReached].find? fun eventType : EventType => decide (eventType.value = text)

@[simp] theorem EventType.ofValue_value (eventType : EventType) :
    EventType.ofValue eventType.value = some eventType := by
  cases eventType <;> decide

def DomainEvent.modelDump (event : DomainEvent) : Json :=
  .obj [("event_type", .str event.eventType.value), ("payload", .obj event.payload),
    ("actor_id", (event.actorId.map fun id => Json.str id.str).getD .null),
    ("correlation_id", (event.correlationId.map Json.str).getD .null)]

/-- A field that may be null or absent. -/
def optionalField {α : Type} (read : String → Option α) :
    Option Json → Except ServiceError (Option α)
  | none | some .null => .ok none
  | some (.str text) =>
    match read text with
    | some value => .ok (some value)
    | none => .error .value
  | some _ => .error .value

theorem optionalField_dump {α : Type} {read : String → Option α} {write : α → String}
    (h : ∀ a, read (write a) = some a) (o : Option α) :
    optionalField read (some ((o.map fun a => Json.str (write a)).getD .null)) = .ok o := by
  cases o with
  | none => rfl
  | some a => simp [optionalField, h]

def DomainEvent.modelValidate : Json → Except ServiceError DomainEvent
  | .obj fields =>
    match Dict.get fields "event_type", (Dict.get fields "payload").getD (.obj []),
        optionalField UUID.validate (Dict.get fields "actor_id"),
        optionalField some (Dict.get fields "correlation_id") with
    | some (.str text), .obj payload, .ok actorId, .ok correlationId =>
      match EventType.ofValue text with
      | some eventType => .ok ⟨eventType, payload, actorId, correlationId⟩
      | none => .error .value
    | _, _, _, _ => .error .value
  | _ => .error .value

theorem DomainEvent.modelValidate_modelDump (event : DomainEvent) :
    DomainEvent.modelValidate event.modelDump = .ok event := by
  have hactor := optionalField_dump UUID.validate_str event.actorId
  have hcorrelation : optionalField some
      (some ((event.correlationId.map Json.str).getD .null)) = .ok event.correlationId :=
    optionalField_dump (fun _ => rfl) event.correlationId
  simp [DomainEvent.modelDump, DomainEvent.modelValidate, Dict.get, List.lookup_cons, hactor,
    hcorrelation]

/-- Messages as JSON values: only the text of the body is left out. -/
def Codec.tree : Codec Json := ⟨DomainEvent.modelDump, DomainEvent.modelValidate⟩

theorem Codec.tree_roundTrips : Codec.tree.RoundTrips :=
  fun event _ => event.modelValidate_modelDump

end CampusHire
