import CampusHire.Common
import CampusHire.Table

/-!
# Queries

The half of the communications service that students and coordinators talk
through: `create_query`, `reply_query`, `update_query_status` and `list_queries`
with their routes, over the tables of queries and messages.
-/

namespace CampusHire.QueryService

open CampusHire

/-! ## Tables -/

inductive QueryStatus where
  | open
  | inProgress
  | resolved
  | closed
deriving DecidableEq, Repr

def QueryStatus.value : QueryStatus → String
  | .open => "Open"
  | .inProgress => "In Progress"
  | .resolved => "Resolved"
  | .closed => "Closed"

structure Query where
  id : UUID
  studentId : UUID
  coordinatorId : Option UUID
  opportunityId : Option UUID
  subject : String
  status : String
  createdAt : Time
deriving DecidableEq

structure QueryMessage where
  id : UUID
  queryId : UUID
  senderId : UUID
  body : String
  createdAt : Time
deriving DecidableEq

structure State where
  queries : List Query
  messages : List QueryMessage

def State.empty : State := ⟨[], []⟩

/-! ## Requests -/

structure QueryCreate where
  subject : String
  body : String
  coordinatorId : Option UUID := none
  opportunityId : Option UUID := none

/-- The database may refuse the commit, and it may fail in the `SELECT`s that reload the
    query after it. -/
structure Env where
  queryId : UUID
  messageId : UUID
  txnStart : Time
  databaseFails : Bool
  reloadFails : Bool

inductive Request where
  | postQuery (data : QueryCreate)
  | getQueries
  | postReply (queryId : UUID) (body : String)
  | patchQueryStatus (queryId : UUID) (status : QueryStatus)

/-- A query with its messages. -/
structure QueryResponse where
  query : Query
  messages : List QueryMessage
deriving DecidableEq

inductive Response where
  | query (response : QueryResponse)
  | queries (responses : List QueryResponse)
deriving DecidableEq

/-! ## Reads -/

def findQuery (s : State) (id : UUID) : Option Query := Table.lookup Query.id id s.queries

def messagesOf (s : State) (id : UUID) : List QueryMessage :=
  s.messages.filter fun m => decide (m.queryId = id)

def respond (s : State) (q : Query) : QueryResponse := ⟨q, messagesOf s q.id⟩

/-- `db.refresh`, and the messages that the response model asks for. -/
def refresh (s : State) (env : Env) (id : UUID) : Except ServiceError QueryResponse :=
  if env.reloadFails then .error .database
  else
    match findQuery s id with
    | some q => .ok (respond s q)
    | none => .error .database

theorem refresh_of_find {s t : State} {env : Env} {id : UUID} {q : Query}
    (hreload : env.reloadFails = false) (hqueries : t.queries = s.queries)
    (h : findQuery s id = some q) : refresh t env id = .ok (respond t q) := by
  rw [refresh, hreload, if_neg Bool.false_ne_true, findQuery, hqueries,
    show Table.lookup Query.id id s.queries = some q from h]

theorem refresh_eq_error {s : State} {env : Env} {id : UUID} (hreload : env.reloadFails = true) :
    refresh s env id = .error .database := by
  rw [refresh, hreload, if_pos rfl]

/-- The filter of `list_queries`. -/
def visible (userId : UUID) (role : UserRole) (q : Query) : Bool :=
  match role with
  | .student => decide (q.studentId = userId)
  | .coordinator => decide (q.coordinatorId = some userId) || q.coordinatorId.isNone

def listQueries (s : State) (userId : UUID) (role : UserRole) : List Query :=
  Table.orderByDesc Query.createdAt (s.queries.filter (visible userId role))

/-! ## Commits -/

def newQuery (env : Env) (studentId : UUID) (data : QueryCreate) : Query where
  id := env.queryId
  studentId := studentId
  coordinatorId := data.coordinatorId
  opportunityId := data.opportunityId
  subject := varchar 255 data.subject
  status := QueryStatus.open.value
  createdAt := env.txnStart

def newMessage (env : Env) (queryId senderId : UUID) (body : String) : QueryMessage :=
  ⟨env.messageId, queryId, senderId, body, env.txnStart⟩

/-- The flush and the commit of `create_query`.  `subject` is a `VARCHAR(255)`. -/
def insertQuery (s : State) (env : Env) (studentId : UUID) (data : QueryCreate) :
    Except ServiceError State :=
  if env.databaseFails || !fits 255 (some data.subject) then .error .database
  else
    match Table.insertRow Query.id (newQuery env studentId data) s.queries,
        Table.insertRow QueryMessage.id (newMessage env env.queryId studentId data.body)
          s.messages with
    | some queries, some messages => .ok ⟨queries, messages⟩
    | _, _ => .error .database

/-- The `UPDATE` of a session that has turned `loaded` into `assigned`: only the
    columns whose value differs from the loaded one are written. -/
def writeColumns (loaded assigned stored : Query) : Query :=
  { stored with
    coordinatorId :=
      if assigned.coordinatorId = loaded.coordinatorId then stored.coordinatorId
      else assigned.coordinatorId
    status := if assigned.status = loaded.status then stored.status else assigned.status }

def updateQuery (s : State) (loaded assigned : Query) : State :=
  { s with queries := Table.modify Query.id loaded.id (writeColumns loaded assigned) s.queries }

/-- What `reply_query` assigns to the query it has loaded. -/
def replied (loaded : Query) (senderId : UUID) (role : UserRole) : Query :=
  match role with
  | .student => loaded
  | .coordinator =>
    { loaded with
      coordinatorId := some senderId
      status := if loaded.status = QueryStatus.open.value then QueryStatus.inProgress.value
        else loaded.status }

def commitReply (s : State) (env : Env) (loaded : Query) (senderId : UUID) (role : UserRole)
    (body : String) : Except ServiceError State :=
  if env.databaseFails then .error .database
  else
    match Table.insertRow QueryMessage.id (newMessage env loaded.id senderId body) s.messages with
    | some messages =>
        .ok { updateQuery s loaded (replied loaded senderId role) with messages := messages }
    | none => .error .database

def commitStatus (s : State) (env : Env) (loaded : Query) (status : QueryStatus) :
    Except ServiceError State :=
  if env.databaseFails then .error .database
  else .ok (updateQuery s loaded { loaded with status := status.value })

/-! ## Handlers -/

def createQuery (s : State) (env : Env) (studentId : UUID) (data : QueryCreate) :
    State × Except ServiceError QueryResponse :=
  match insertQuery s env studentId data with
  | .error e => (s, .error e)
  | .ok s' => (s', refresh s' env env.queryId)

def replyQuery (s : State) (env : Env) (queryId senderId : UUID) (role : UserRole)
    (body : String) : State × Except ServiceError QueryResponse :=
  match findQuery s queryId with
  | none => (s, .error (.http 404 "Query not found"))
  | some q =>
    if role = .student ∧ q.studentId ≠ senderId then (s, .error (.http 403 "Forbidden"))
    else
      match commitReply s env q senderId role body with
      | .error e => (s, .error e)
      | .ok s' => (s', refresh s' env q.id)

def updateQueryStatus (s : State) (env : Env) (queryId coordinatorId : UUID)
    (status : QueryStatus) : State × Except ServiceError QueryResponse :=
  match findQuery s queryId with
  | none => (s, .error (.http 404 "Query not found"))
  | some q =>
    if q.coordinatorId.any (fun id => decide (id ≠ coordinatorId)) then
      (s, .error (.http 403 "Forbidden"))
    else
      match commitStatus s env q status with
      | .error e => (s, .error e)
      | .ok s' => (s', refresh s' env q.id)

def serve (s : State) (env : Env) (user : CurrentUser) :
    Request → State × Except ServiceError Response
  | .postQuery data =>
      if user.role ≠ .student then (s, .error (.http 403 "Student only"))
      else
        let created := createQuery s env user.id data
        (created.1, created.2.map .query)
  | .getQueries => (s, .ok (.queries ((listQueries s user.id user.role).map (respond s))))
  | .postReply queryId body =>
      let replied := replyQuery s env queryId user.id user.role body
      (replied.1, replied.2.map .query)
  | .patchQueryStatus queryId status =>
      if user.role ≠ .coordinator then (s, .error (.http 403 "Coordinator only"))
      else
        let updated := updateQueryStatus s env queryId user.id status
        (updated.1, updated.2.map .query)

structure Handled where
  user : CurrentUser
  request : Request
  env : Env

def handle (s : State) (h : Handled) : State := (serve s h.env h.user h.request).1

/-- Requests handled one at a time. -/
def execute (s : State) (run : List Handled) : State := run.foldl handle s

/-! ## What a commit does -/

theorem insertQuery_ok {s t : State} {env : Env} {studentId : UUID} {data : QueryCreate}
    (h : insertQuery s env studentId data = .ok t) :
    (∀ q ∈ s.queries, q.id ≠ env.queryId) ∧ (∀ m ∈ s.messages, m.id ≠ env.messageId) ∧
      t = ⟨s.queries ++ [newQuery env studentId data],
        s.messages ++ [newMessage env env.queryId studentId data.body]⟩ := by
  unfold insertQuery at h
  split at h
  · cases h
  split at h
  · rename_i hquery hmessage
    cases h
    obtain ⟨hfresh, rfl⟩ := Table.insertRow_eq_some.mp hquery
    obtain ⟨hfresh', rfl⟩ := Table.insertRow_eq_some.mp hmessage
    exact ⟨hfresh, hfresh', rfl⟩
  · cases h

theorem commitReply_ok {s t : State} {env : Env} {loaded : Query} {senderId : UUID}
    {role : UserRole} {body : String} (h : commitReply s env loaded senderId role body = .ok t) :
    (∀ m ∈ s.messages, m.id ≠ env.messageId) ∧
      t.queries = (updateQuery s loaded (replied loaded senderId role)).queries ∧
      t.messages = s.messages ++ [newMessage env loaded.id senderId body] := by
  unfold commitReply at h
  split at h
  · cases h
  split at h
  · rename_i hmessage
    cases h
    obtain ⟨hfresh, rfl⟩ := Table.insertRow_eq_some.mp hmessage
    exact ⟨hfresh, rfl, rfl⟩
  · cases h

theorem databaseFails_of_reply {s t : State} {env : Env} {loaded : Query} {senderId : UUID}
    {role : UserRole} {body : String} (h : commitReply s env loaded senderId role body = .ok t) :
    env.databaseFails = false := by
  by_contra hfails
  simp [commitReply, Bool.not_eq_false _ ▸ hfails] at h

/-- A reply that the database accepts, and what it stores. -/
theorem commitReply_of_fresh {s : State} {env : Env} {loaded : Query} (senderId : UUID)
    (role : UserRole) (body : String) (hfails : env.databaseFails = false)
    (hfresh : ∀ m ∈ s.messages, m.id ≠ env.messageId) :
    commitReply s env loaded senderId role body =
      .ok { updateQuery s loaded (replied loaded senderId role) with
        messages := s.messages ++ [newMessage env loaded.id senderId body] } := by
  have hinsert : Table.insertRow QueryMessage.id (newMessage env loaded.id senderId body)
      s.messages = some (s.messages ++ [newMessage env loaded.id senderId body]) :=
    Table.insertRow_eq_some.mpr ⟨hfresh, rfl⟩
  simp only [commitReply, hfails, Bool.false_eq_true, if_false, hinsert]

/-- A reply that the database refuses. -/
theorem commitReply_of_not_fresh {s : State} {env : Env} {loaded : Query} (senderId : UUID)
    (role : UserRole) (body : String)
    (h : ¬ (env.databaseFails = false ∧ ∀ m ∈ s.messages, m.id ≠ env.messageId)) :
    commitReply s env loaded senderId role body = .error .database := by
  rcases hresult : commitReply s env loaded senderId role body with e | t
  · simp only [commitReply] at hresult
    split at hresult
    · exact hresult.symm
    · split at hresult
      · cases hresult
      · exact hresult.symm
  · exact absurd ⟨databaseFails_of_reply hresult, (commitReply_ok hresult).1⟩ h

/-- What is found after the commit of a session that has loaded the query, which may have
    changed since. -/
theorem findQuery_after_commit {s t : State} {id : UUID} {loaded stored assigned : Query}
    (hid : loaded.id = id) (hfound : findQuery s id = some stored)
    (hqueries : t.queries = (updateQuery s loaded assigned).queries) :
    findQuery t id = some (writeColumns loaded assigned stored) := by
  have hkey : ∀ q, (writeColumns loaded assigned q).id = q.id := fun _ => rfl
  rw [findQuery, hqueries, updateQuery, hid, Table.lookup_modify_same hkey]
  exact congrArg (Option.map (writeColumns loaded assigned)) hfound

theorem commitStatus_ok {s t : State} {env : Env} {loaded : Query} {status : QueryStatus}
    (h : commitStatus s env loaded status = .ok t) :
    t = updateQuery s loaded { loaded with status := status.value } := by
  unfold commitStatus at h
  split at h
  · cases h
  · cases h
    rfl

/-- **What a request can do.**  It changes nothing, or it commits once: a new query of a
    student, a reply of a coordinator or of the query's student, or a status that a
    coordinator sets on a query that is unassigned or assigned to the caller. -/
theorem serve_cases (s : State) (env : Env) (user : CurrentUser) (request : Request) :
    (serve s env user request).1 = s ∨
    (∃ data, request = .postQuery data ∧ user.role = .student ∧
      insertQuery s env user.id data = .ok (serve s env user request).1) ∨
    (∃ id body q, request = .postReply id body ∧ findQuery s id = some q ∧
      (user.role = .student → q.studentId = user.id) ∧
      commitReply s env q user.id user.role body = .ok (serve s env user request).1) ∨
    (∃ id status q, request = .patchQueryStatus id status ∧ user.role = .coordinator ∧
      findQuery s id = some q ∧ (∀ c, q.coordinatorId = some c → c = user.id) ∧
      commitStatus s env q status = .ok (serve s env user request).1) := by
  cases request with
  | postQuery data =>
    simp only [serve, createQuery]
    split
    · exact Or.inl rfl
    rename_i hrole
    split
    · exact Or.inl rfl
    · rename_i hins
      exact Or.inr (Or.inl ⟨data, rfl, not_not.mp hrole, hins⟩)
  | getQueries => exact Or.inl rfl
  | postReply id body =>
    simp only [serve, replyQuery]
    split
    · exact Or.inl rfl
    rename_i q hq
    split
    · exact Or.inl rfl
    rename_i hown
    split
    · exact Or.inl rfl
    · rename_i hcommit
      refine Or.inr (Or.inr (Or.inl ⟨id, body, q, rfl, hq, ?_, hcommit⟩))
      intro hrole
      by_contra hne
      exact hown ⟨hrole, hne⟩
  | patchQueryStatus id status =>
    simp only [serve, updateQueryStatus]
    split
    · exact Or.inl rfl
    rename_i hrole
    split
    · exact Or.inl rfl
    rename_i q hq
    split
    · exact Or.inl rfl
    rename_i hother
    split
    · exact Or.inl rfl
    · rename_i hcommit
      refine Or.inr (Or.inr (Or.inr ⟨id, status, q, rfl, not_not.mp hrole, hq, ?_, hcommit⟩))
      intro c hc
      simpa [hc] using hother

/-! ## Ids stay unique -/

theorem map_updateQuery {α : Type*} {g : Query → α}
    (hg : ∀ (q : Query) (c : Option UUID) (status : String),
      g { q with coordinatorId := c, status := status } = g q)
    (s : State) (loaded assigned : Query) :
    (updateQuery s loaded assigned).queries.map g = s.queries.map g :=
  Table.map_modify (fun q => hg q _ _) s.queries

theorem ids_updateQuery (s : State) (loaded assigned : Query) :
    (updateQuery s loaded assigned).queries.map Query.id = s.queries.map Query.id :=
  map_updateQuery (fun _ _ _ => rfl) s loaded assigned

theorem nodup_ids_handle {s : State} (h : (s.queries.map Query.id).Nodup) (request : Handled) :
    ((handle s request).queries.map Query.id).Nodup := by
  rcases serve_cases s request.env request.user request.request with hsame |
    ⟨data, -, -, hins⟩ | ⟨id, body, q, -, -, -, hcommit⟩ | ⟨id, status, q, -, -, -, -, hcommit⟩
  · rw [handle, hsame]
    exact h
  · obtain ⟨hfresh, -, heq⟩ := insertQuery_ok hins
    rw [handle, heq]
    exact Table.nodup_append_fresh h hfresh
  · rw [handle, (commitReply_ok hcommit).2.1, ids_updateQuery]
    exact h
  · rw [handle, commitStatus_ok hcommit, ids_updateQuery]
    exact h

theorem nodup_ids_execute (run : List Handled) :
    ((execute State.empty run).queries.map Query.id).Nodup := by
  refine List.foldlRecOn run handle (motive := fun s => (s.queries.map Query.id).Nodup) ?_ ?_
  · exact List.nodup_nil
  · intro s h request _
    exact nodup_ids_handle h request

end CampusHire.QueryService
