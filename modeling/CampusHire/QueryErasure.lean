import CampusHire.Ownership
import CampusHire.QueryService

/-!
# Queries without those of a student

What the tables of queries and messages hold when a student's queries are taken out with
their messages.  As for applications, the student's requests leave it as it is
(`serve_own`) and requests of anybody else do to it what they do to the tables
(`serve_other`).
-/

namespace CampusHire.QueryErasure

open CampusHire QueryService Ownership

def isOf (studentId : UUID) (q : Query) : Bool := decide (q.studentId = studentId)

def ownsQuery (s : State) (studentId id : UUID) : Bool :=
  owns Query.id (isOf studentId) s.queries id

def without (studentId : UUID) (s : State) : State where
  queries := others (isOf studentId) s.queries
  messages := othersOf Query.id (isOf studentId) QueryMessage.queryId s.queries s.messages

/-- Ids are unique, and every message belongs to a query. -/
structure Sound (s : State) : Prop where
  ids : (s.queries.map Query.id).Nodup
  messages : ∀ m ∈ s.messages, m.queryId ∈ s.queries.map Query.id

theorem sound_serve {s : State} (h : Sound s) (env : Env) (user : CurrentUser)
    (request : Request) : Sound (serve s env user request).1 := by
  refine ⟨nodup_ids_handle h.ids ⟨user, request, env⟩, ?_⟩
  rcases serve_cases s env user request with hsame | ⟨data, -, -, hins⟩ |
    ⟨id, body, q, -, hfound, -, hcommit⟩ | ⟨id, status, q, -, -, -, -, hcommit⟩
  · rw [hsame]
    exact h.messages
  · rw [(insertQuery_ok hins).2.2, List.map_append]
    exact Table.refers_append h.messages (List.subset_append_left _ _) List.mem_concat_self
  · obtain ⟨-, hqueries, hmessages⟩ := commitReply_ok hcommit
    rw [hqueries, hmessages, ids_updateQuery]
    exact Table.refers_append h.messages (List.Subset.refl _)
      (List.mem_map_of_mem (Table.mem_of_lookup hfound))
  · rw [commitStatus_ok hcommit, ids_updateQuery]
    exact h.messages

section Student

variable {b : UUID} {s : State}

/-! ## Reads -/

theorem ownsQuery_of_find (h : Sound s) {id : UUID} {q : Query} (hfound : findQuery s id = some q) :
    ownsQuery s b q.id = isOf b q :=
  owns_of_mem h.ids (Table.mem_of_lookup hfound)

theorem find_without (h : Sound s) (id : UUID) :
    findQuery (without b s) id = (findQuery s id).filter fun q => !isOf b q :=
  lookup_others h.ids id

theorem messagesOf_without {id : UUID} (hother : ownsQuery s b id = false) :
    messagesOf (without b s) id = messagesOf s id := by
  have hfilter : (without b s).messages.filter (fun m => decide (m.queryId = id) && true) =
      s.messages.filter fun m => decide (m.queryId = id) && true :=
    filter_ref_othersOf hother fun _ => true
  simp only [Bool.and_true] at hfilter
  exact hfilter

/-! ## Commits -/

theorem without_append {queries : List Query} (message : QueryMessage)
    (hqueries : ∀ id, owns Query.id (isOf b) queries id = ownsQuery s b id)
    (hother : ownsQuery s b message.queryId = false) :
    without b ⟨queries, s.messages ++ [message]⟩ =
      ⟨others (isOf b) queries, (without b s).messages ++ [message]⟩ := by
  have hmessages : othersOf Query.id (isOf b) QueryMessage.queryId queries
      (s.messages ++ [message]) = (without b s).messages ++ [message] := by
    rw [othersOf_congr fun m _ => hqueries m.queryId]
    exact othersOf_append_other hother
  rw [without, hmessages]

theorem insertQuery_of_fresh {env : Env} (studentId : UUID) (data : QueryCreate)
    (hid : env.queryId ∉ s.queries.map Query.id)
    (hmessage : env.messageId ∉ s.messages.map QueryMessage.id) :
    insertQuery s env studentId data =
      if env.databaseFails || !fits 255 (some data.subject) then .error .database
      else .ok ⟨s.queries ++ [newQuery env studentId data],
        s.messages ++ [newMessage env env.queryId studentId data.body]⟩ := by
  have hquery : Table.insertRow Query.id (newQuery env studentId data) s.queries =
      some (s.queries ++ [newQuery env studentId data]) := Table.insertRow_of_fresh hid
  have hnew : Table.insertRow QueryMessage.id (newMessage env env.queryId studentId data.body)
      s.messages = some (s.messages ++ [newMessage env env.queryId studentId data.body]) :=
    Table.insertRow_of_fresh hmessage
  simp only [insertQuery, hquery, hnew]

theorem insertQuery_without {env : Env} {studentId : UUID} (hne : studentId ≠ b)
    (data : QueryCreate) (hid : env.queryId ∉ s.queries.map Query.id)
    (hmessage : env.messageId ∉ s.messages.map QueryMessage.id) :
    insertQuery (without b s) env studentId data =
      (insertQuery s env studentId data).map (without b) := by
  have hother : isOf b (newQuery env studentId data) = false := decide_eq_false hne
  have hid' : env.queryId ∉ (without b s).queries.map Query.id := fun hmem =>
    hid ((List.filter_sublist.map _).subset hmem)
  have hmessage' : env.messageId ∉ (without b s).messages.map QueryMessage.id := fun hmem =>
    hmessage ((List.filter_sublist.map _).subset hmem)
  rw [insertQuery_of_fresh studentId data hid hmessage,
    insertQuery_of_fresh studentId data hid' hmessage']
  split
  · rfl
  · rw [Except.map, without_append _ (owns_append_other hother) (owns_of_fresh hid),
      others_append_other hother]
    rfl

theorem insertQuery_own (h : Sound s) {t : State} {env : Env} {data : QueryCreate}
    (hins : insertQuery s env b data = .ok t) : without b t = without b s := by
  obtain ⟨hfresh, -, rfl⟩ := insertQuery_ok hins
  have hown : isOf b (newQuery env b data) = true := decide_eq_true rfl
  have hmessages : othersOf Query.id (isOf b) QueryMessage.queryId
      (s.queries ++ [newQuery env b data])
      (s.messages ++ [newMessage env env.queryId b data.body]) = (without b s).messages := by
    rw [othersOf_append_own (by simp [owns, newQuery, newMessage, isOf])]
    exact othersOf_insert h.messages (Table.not_mem_of_fresh hfresh)
  rw [without, hmessages, others_append_own hown]
  rfl

theorem ownsQuery_updateQuery (loaded assigned : Query) (id : UUID) :
    ownsQuery (updateQuery s loaded assigned) b id = ownsQuery s b id :=
  owns_modify (f := writeColumns loaded assigned) (fun _ => rfl) (fun _ => rfl) id

theorem others_updateQuery (loaded assigned : Query) :
    others (isOf b) (updateQuery s loaded assigned).queries =
      (updateQuery (without b s) loaded assigned).queries :=
  others_modify (f := writeColumns loaded assigned) fun _ => rfl

theorem othersOf_updateQuery (loaded assigned : Query) (messages : List QueryMessage) :
    othersOf Query.id (isOf b) QueryMessage.queryId (updateQuery s loaded assigned).queries
        messages = othersOf Query.id (isOf b) QueryMessage.queryId s.queries messages :=
  othersOf_congr fun m _ => ownsQuery_updateQuery loaded assigned m.queryId

theorem others_updateQuery_own (h : Sound s) {loaded : Query} (hloaded : loaded ∈ s.queries)
    (hown : isOf b loaded = true) (assigned : Query) :
    others (isOf b) (updateQuery s loaded assigned).queries = (without b s).queries :=
  others_modify_own (f := writeColumns loaded assigned) (fun _ => rfl) h.ids hloaded hown

theorem without_updateQuery (loaded assigned : Query) :
    without b (updateQuery s loaded assigned) = updateQuery (without b s) loaded assigned := by
  calc without b (updateQuery s loaded assigned)
      = ⟨others (isOf b) (updateQuery s loaded assigned).queries,
          othersOf Query.id (isOf b) QueryMessage.queryId
            (updateQuery s loaded assigned).queries s.messages⟩ := rfl
    _ = updateQuery (without b s) loaded assigned := by
        rw [others_updateQuery, othersOf_updateQuery]
        rfl

theorem commitReply_without {env : Env} {loaded : Query}
    (hother : ownsQuery s b loaded.id = false) (senderId : UUID) (role : UserRole) (body : String)
    (hmessage : env.messageId ∉ s.messages.map QueryMessage.id) :
    commitReply (without b s) env loaded senderId role body =
      (commitReply s env loaded senderId role body).map (without b) := by
  have hmessage' : env.messageId ∉ (without b s).messages.map QueryMessage.id := fun hmem =>
    hmessage ((List.filter_sublist.map _).subset hmem)
  rcases hfails : env.databaseFails with _ | _
  · rw [commitReply_of_fresh senderId role body hfails
        fun m hm heq => hmessage (List.mem_map.mpr ⟨m, hm, heq⟩),
      commitReply_of_fresh senderId role body hfails
        fun m hm heq => hmessage' (List.mem_map.mpr ⟨m, hm, heq⟩),
      Except.map]
    have happend := without_append (newMessage env loaded.id senderId body)
      (fun id => ownsQuery_updateQuery (b := b) (s := s) loaded (replied loaded senderId role) id)
      hother
    rw [others_updateQuery] at happend
    exact congrArg Except.ok happend.symm
  · simp [commitReply, hfails, Except.map]

theorem commitReply_own (h : Sound s) {t : State} {env : Env} {loaded : Query}
    (hloaded : loaded ∈ s.queries) (hown : isOf b loaded = true) {senderId : UUID}
    {role : UserRole} {body : String}
    (hcommit : commitReply s env loaded senderId role body = .ok t) :
    without b t = without b s := by
  obtain ⟨-, hqueries, hmessages⟩ := commitReply_ok hcommit
  have howner : ownsQuery s b loaded.id = true := (owns_of_mem h.ids hloaded).trans hown
  have hleft : othersOf Query.id (isOf b) QueryMessage.queryId
      (updateQuery s loaded (replied loaded senderId role)).queries
      (s.messages ++ [newMessage env loaded.id senderId body]) = (without b s).messages := by
    rw [othersOf_updateQuery]
    exact othersOf_append_own howner
  rw [without, hqueries, hmessages, hleft, others_updateQuery_own h hloaded hown]

theorem commitStatus_without {env : Env} (loaded : Query) (status : QueryStatus) :
    commitStatus (without b s) env loaded status =
      (commitStatus s env loaded status).map (without b) := by
  unfold commitStatus
  split
  · rfl
  · rw [Except.map, without_updateQuery]

theorem commitStatus_own (h : Sound s) {t : State} {env : Env} {loaded : Query}
    (hloaded : loaded ∈ s.queries) (hown : isOf b loaded = true) {status : QueryStatus}
    (hcommit : commitStatus s env loaded status = .ok t) : without b t = without b s := by
  have hqueries := others_updateQuery_own h hloaded hown { loaded with status := status.value }
  rw [others_updateQuery] at hqueries
  rw [commitStatus_ok hcommit, without_updateQuery]
  exact congrArg (fun queries => { without b s with queries := queries }) hqueries

/-! ## Requests -/

/-- The ids that a request may store are new. -/
def Fresh (s : State) (env : Env) : Request → Prop
  | .postQuery _ => env.queryId ∉ s.queries.map Query.id ∧
      env.messageId ∉ s.messages.map QueryMessage.id
  | .postReply .. => env.messageId ∉ s.messages.map QueryMessage.id
  | .getQueries | .patchQueryStatus .. => True

/-- **The student's requests leave everybody else's data as they are.** -/
theorem serve_own (h : Sound s) (env : Env) (request : Request) :
    without b (serve s env ⟨b, .student⟩ request).1 = without b s := by
  rcases serve_cases s env ⟨b, .student⟩ request with hsame | ⟨data, -, -, hins⟩ |
    ⟨id, body, q, -, hfound, howner, hcommit⟩ | ⟨id, status, q, -, hrole, -⟩
  · rw [hsame]
  · exact insertQuery_own h hins
  · exact commitReply_own h (Table.mem_of_lookup hfound) (decide_eq_true (howner rfl)) hcommit
  · cases hrole

theorem createQuery_other {env : Env} {studentId : UUID} (hne : studentId ≠ b) {data : QueryCreate}
    (hfresh : Fresh s env (.postQuery data)) :
    (createQuery (without b s) env studentId data).1 =
      without b (createQuery s env studentId data).1 := by
  rw [createQuery, insertQuery_without hne data hfresh.1 hfresh.2, createQuery]
  rcases insertQuery s env studentId data with e | t <;> rfl

theorem replyQuery_other (h : Sound s) {env : Env} (id senderId : UUID) (role : UserRole)
    (body : String) (hmessage : env.messageId ∉ s.messages.map QueryMessage.id) :
    (replyQuery (without b s) env id senderId role body).1 =
      without b (replyQuery s env id senderId role body).1 := by
  rw [replyQuery, find_without h, replyQuery]
  rcases hfound : findQuery s id with _ | q
  · rfl
  rcases hown : isOf b q with _ | _
  · have hother : ownsQuery s b q.id = false := by rw [ownsQuery_of_find h hfound, hown]
    simp only [Option.filter, hown, Bool.not_false, if_true]
    split
    · rfl
    · rw [commitReply_without hother senderId role body hmessage]
      rcases commitReply s env q senderId role body with e | t <;> rfl
  · simp only [Option.filter, hown, Bool.not_true, Bool.false_eq_true, if_false]
    split
    · rfl
    split
    · rfl
    · rename_i hcommit
      exact (commitReply_own h (Table.mem_of_lookup hfound) hown hcommit).symm

theorem updateQueryStatus_other (h : Sound s) (env : Env) (id coordinatorId : UUID)
    (status : QueryStatus) :
    (updateQueryStatus (without b s) env id coordinatorId status).1 =
      without b (updateQueryStatus s env id coordinatorId status).1 := by
  rw [updateQueryStatus, find_without h, updateQueryStatus]
  rcases hfound : findQuery s id with _ | q
  · rfl
  rcases hown : isOf b q with _ | _
  · simp only [Option.filter, hown, Bool.not_false, if_true]
    split
    · rfl
    · rw [commitStatus_without]
      rcases commitStatus s env q status with e | t <;> rfl
  · simp only [Option.filter, hown, Bool.not_true, Bool.false_eq_true, if_false]
    split
    · rfl
    split
    · rfl
    · rename_i hcommit
      exact (commitStatus_own h (Table.mem_of_lookup hfound) hown hcommit).symm

/-- **Without the student, everybody else's requests do the same.** -/
theorem serve_other (h : Sound s) {env : Env} {user : CurrentUser} (hne : user ≠ ⟨b, .student⟩)
    {request : Request} (hfresh : Fresh s env request) :
    (serve (without b s) env user request).1 = without b (serve s env user request).1 := by
  have hstudent : user.role = .student → user.id ≠ b := fun hrole hid =>
    hne (by rw [← hid, ← hrole])
  cases request with
  | postQuery data =>
    simp only [serve]
    split
    · rfl
    · rename_i hrole
      exact createQuery_other (hstudent (not_not.mp hrole)) hfresh
  | getQueries => rfl
  | postReply id body => exact replyQuery_other h id user.id user.role body hfresh
  | patchQueryStatus id status =>
    simp only [serve]
    split
    · rfl
    · exact updateQueryStatus_other h env id user.id status

end Student

end CampusHire.QueryErasure
