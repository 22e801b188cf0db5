import CampusHire.QueryService
import CampusHire.Schedule

/-!
# Queries under concurrency

All four handlers are plain functions, so each request runs in a worker thread of its
own.  Each query to the database and each commit is a step: the read, the commit, the
`db.refresh` after it, and the messages, which are loaded only when the response model
asks for them.

`serve_eq_alone` connects the two views: a task that nothing interrupts does what the
handler does.
-/

namespace CampusHire.QueryService

open CampusHire Schedule

abbrev Answer := Except ServiceError Response

inductive Task where
  -- `create_query`
  | createCommit (studentId : UUID) (data : QueryCreate)
  -- `list_queries`
  | listRead (userId : UUID) (role : UserRole)
  | listMessages (pending : List Query) (answered : List QueryResponse)
  -- `reply_query`
  | replyRead (queryId senderId : UUID) (role : UserRole) (body : String)
  | replyCommit (q : Query) (senderId : UUID) (role : UserRole) (body : String)
  -- `update_query_status`
  | statusRead (queryId coordinatorId : UUID) (status : QueryStatus)
  | statusCommit (q : Query) (status : QueryStatus)
  -- after each of the commits
  | queryRefresh (id : UUID)
  | queryMessages (q : Query)
  | finished (result : Answer)

/-- A request as it arrives: the routes check the role. -/
def Task.start (user : CurrentUser) : Request → Task
  | .postQuery data =>
      if user.role ≠ .student then .finished (.error (.http 403 "Student only"))
      else .createCommit user.id data
  | .getQueries => .listRead user.id user.role
  | .postReply queryId body => .replyRead queryId user.id user.role body
  | .patchQueryStatus queryId status =>
      if user.role ≠ .coordinator then .finished (.error (.http 403 "Coordinator only"))
      else .statusRead queryId user.id status

def taskStep (env : Env) (s : State) : Task → State × Task
  | .createCommit studentId data =>
      match insertQuery s env studentId data with
      | .error e => (s, .finished (.error e))
      | .ok s' => (s', .queryRefresh env.queryId)
  | .listRead userId role => (s, .listMessages (listQueries s userId role) [])
  | .listMessages [] answered => (s, .finished (.ok (.queries answered)))
  | .listMessages (q :: pending) answered =>
      (s, .listMessages pending (answered ++ [respond s q]))
  | .replyRead queryId senderId role body =>
      match findQuery s queryId with
      | none => (s, .finished (.error (.http 404 "Query not found")))
      | some q =>
        if role = .student ∧ q.studentId ≠ senderId then
          (s, .finished (.error (.http 403 "Forbidden")))
        else (s, .replyCommit q senderId role body)
  | .replyCommit q senderId role body =>
      match commitReply s env q senderId role body with
      | .error e => (s, .finished (.error e))
      | .ok s' => (s', .queryRefresh q.id)
  | .statusRead queryId coordinatorId status =>
      match findQuery s queryId with
      | none => (s, .finished (.error (.http 404 "Query not found")))
      | some q =>
        if q.coordinatorId.any (fun id => decide (id ≠ coordinatorId)) then
          (s, .finished (.error (.http 403 "Forbidden")))
        else (s, .statusCommit q status)
  | .statusCommit q status =>
      match commitStatus s env q status with
      | .error e => (s, .finished (.error e))
      | .ok s' => (s', .queryRefresh q.id)
  | .queryRefresh id =>
      if env.reloadFails then (s, .finished (.error .database))
      else
        match findQuery s id with
        | none => (s, .finished (.error .database))
        | some q => (s, .queryMessages q)
  | .queryMessages q =>
      if env.reloadFails then (s, .finished (.error .database))
      else (s, .finished (.ok (.query (respond s q))))
  | .finished result => (s, .finished result)

def Task.result : Task → Option Answer
  | .finished result => some result
  | _ => none

/-- The query endpoints as a program of threads. -/
def program : Program State Task Env where
  step := taskStep
  onLoop _ := false
  running _ := false
  running_onLoop := fun _ h => h
  offLoop_step := fun _ _ _ h => h

/-- Any number of requests, none of which has begun, on freshly created tables. -/
def arrive {ι : Type*} (requests : ι → CurrentUser × Request) : Config State Task ι :=
  start State.empty fun i => Task.start (requests i).1 (requests i).2

/-- **What a step can do.**  It touches no table, or it is one of the three commits. -/
theorem taskStep_cases (env : Env) (s : State) (t : Task) :
    (taskStep env s t).1 = s ∨
    (∃ studentId data s', t = .createCommit studentId data ∧
      insertQuery s env studentId data = .ok s' ∧
      taskStep env s t = (s', .queryRefresh env.queryId)) ∨
    (∃ q senderId role body s', t = .replyCommit q senderId role body ∧
      commitReply s env q senderId role body = .ok s' ∧
      taskStep env s t = (s', .queryRefresh q.id)) ∨
    (∃ q status s', t = .statusCommit q status ∧ commitStatus s env q status = .ok s' ∧
      taskStep env s t = (s', .queryRefresh q.id)) := by
  cases t with
  | createCommit studentId data =>
    rcases hins : insertQuery s env studentId data with e | s'
    · exact Or.inl (by simp only [taskStep, hins])
    · exact Or.inr (Or.inl ⟨studentId, data, s', rfl, hins, by simp only [taskStep, hins]⟩)
  | listRead userId role => exact Or.inl rfl
  | listMessages pending answered => cases pending <;> exact Or.inl rfl
  | replyRead queryId senderId role body =>
    left
    simp only [taskStep]
    split
    · rfl
    · split <;> rfl
  | replyCommit q senderId role body =>
    rcases hcommit : commitReply s env q senderId role body with e | s'
    · exact Or.inl (by simp only [taskStep, hcommit])
    · exact Or.inr (Or.inr (Or.inl ⟨q, senderId, role, body, s', rfl, hcommit,
        by simp only [taskStep, hcommit]⟩))
  | statusRead queryId coordinatorId status =>
    left
    simp only [taskStep]
    split
    · rfl
    · split <;> rfl
  | statusCommit q status =>
    rcases hcommit : commitStatus s env q status with e | s'
    · exact Or.inl (by simp only [taskStep, hcommit])
    · exact Or.inr (Or.inr (Or.inr ⟨q, status, s', rfl, hcommit,
        by simp only [taskStep, hcommit]⟩))
  | queryRefresh id =>
    left
    simp only [taskStep]
    split
    · rfl
    · split <;> rfl
  | queryMessages q =>
    left
    simp only [taskStep]
    split <;> rfl
  | finished result => exact Or.inl rfl

/-! ## Query ids stay unique -/

theorem nodup_ids_step {s : State} (env : Env) (t : Task)
    (h : (s.queries.map Query.id).Nodup) :
    ((taskStep env s t).1.queries.map Query.id).Nodup := by
  rcases taskStep_cases env s t with hsame | ⟨studentId, data, s', rfl, hins, heq⟩ |
    ⟨q, senderId, role, body, s', rfl, hcommit, heq⟩ | ⟨q, status, s', rfl, hcommit, heq⟩
  · rw [hsame]
    exact h
  · obtain ⟨hfresh, -, rfl⟩ := insertQuery_ok hins
    rw [heq]
    exact Table.nodup_append_fresh h hfresh
  · rw [heq, (commitReply_ok hcommit).2.1, ids_updateQuery]
    exact h
  · rw [heq, commitStatus_ok hcommit, ids_updateQuery]
    exact h

theorem nodup_ids_run {ι : Type*} [DecidableEq ι] (requests : ι → CurrentUser × Request)
    (schedule : List (ι × Env)) :
    ((run program (arrive requests) schedule).store.queries.map Query.id).Nodup :=
  run_store_invariant program (I := fun s => (s.queries.map Query.id).Nodup)
    (fun env _ t h => nodup_ids_step env t h) (c := arrive requests) List.nodup_nil schedule

/-! ## A task alone does what the handler does -/

theorem alone_step (env : Env) (n : Nat) (s : State) (t : Task) :
    alone program env (n + 1) (s, t) = alone program env n (taskStep env s t) := rfl

theorem alone_finished (env : Env) (n : Nat) (s : State) (result : Answer) :
    alone program env n (s, .finished result) = (s, .finished result) :=
  alone_of_step_eq program rfl n

/-- The two reads after a commit are the `refresh` of the handler. -/
theorem alone_queryRefresh (env : Env) (n : Nat) (s : State) (id : UUID) :
    alone program env (n + 2) (s, .queryRefresh id) =
      (s, .finished ((refresh s env id).map .query)) := by
  rw [alone_step, taskStep, refresh]
  rcases hreload : env.reloadFails with _ | _
  · rcases findQuery s id with _ | q
    · exact alone_finished ..
    · simp only [Bool.false_eq_true, if_false]
      rw [alone_step, taskStep, hreload]
      exact alone_finished ..
  · exact alone_finished ..

theorem alone_listMessages (env : Env) (s : State) (pending : List Query)
    (answered : List QueryResponse) (n : Nat) (hn : pending.length < n) :
    alone program env n (s, .listMessages pending answered) =
      (s, .finished (.ok (.queries (answered ++ pending.map (respond s))))) := by
  induction pending generalizing answered n with
  | nil =>
    obtain ⟨m, rfl⟩ := Nat.exists_eq_succ_of_ne_zero (Nat.ne_of_gt hn)
    rw [Nat.succ_eq_add_one, alone_step, List.map_nil, List.append_nil]
    exact alone_finished ..
  | cons q pending ih =>
    obtain ⟨m, rfl⟩ := Nat.exists_eq_succ_of_ne_zero (Nat.ne_of_gt (Nat.zero_lt_of_lt hn))
    rw [Nat.succ_eq_add_one, alone_step, taskStep, ih _ m (Nat.lt_of_succ_lt_succ hn),
      List.append_assoc, List.map_cons, List.singleton_append]

theorem length_listQueries (s : State) (userId : UUID) (role : UserRole) :
    (listQueries s userId role).length ≤ s.queries.length := by
  rw [listQueries, Table.orderByDesc, List.length_insertionSort]
  exact List.length_filter_le _ _

theorem alone_postReply (env : Env) (n : Nat) (s : State) (queryId senderId : UUID)
    (role : UserRole) (body : String) :
    alone program env (n + 4) (s, .replyRead queryId senderId role body) =
      ((replyQuery s env queryId senderId role body).1,
        .finished ((replyQuery s env queryId senderId role body).2.map .query)) := by
  rw [alone_step, taskStep, replyQuery]
  rcases findQuery s queryId with _ | q
  · exact alone_finished ..
  dsimp only
  by_cases hother : role = .student ∧ q.studentId ≠ senderId
  · rw [if_pos hother, if_pos hother]
    exact alone_finished ..
  rw [if_neg hother, if_neg hother, alone_step, taskStep]
  rcases commitReply s env q senderId role body with e | s'
  · exact alone_finished ..
  · exact alone_queryRefresh ..

theorem alone_patchQueryStatus (env : Env) (n : Nat) (s : State) (queryId coordinatorId : UUID)
    (status : QueryStatus) :
    alone program env (n + 4) (s, .statusRead queryId coordinatorId status) =
      ((updateQueryStatus s env queryId coordinatorId status).1,
        .finished ((updateQueryStatus s env queryId coordinatorId status).2.map .query)) := by
  rw [alone_step, taskStep, updateQueryStatus]
  rcases findQuery s queryId with _ | q
  · exact alone_finished ..
  dsimp only
  by_cases hother : q.coordinatorId.any (fun id => decide (id ≠ coordinatorId)) = true
  · rw [if_pos hother, if_pos hother]
    exact alone_finished ..
  rw [if_neg hother, if_neg hother, alone_step, taskStep]
  rcases commitStatus s env q status with e | s'
  · exact alone_finished ..
  · exact alone_queryRefresh ..

/-- **The handler is the task run alone.** -/
theorem serve_eq_alone (env : Env) (s : State) (user : CurrentUser) (request : Request) :
    alone program env (s.queries.length + 4) (s, Task.start user request) =
      ((serve s env user request).1, .finished (serve s env user request).2) := by
  cases request with
  | postQuery data =>
    by_cases hrole : user.role ≠ .student
    · simp only [Task.start, serve, if_pos hrole, alone_finished]
    simp only [Task.start, serve, if_neg hrole, createQuery]
    rw [alone_step, taskStep]
    rcases insertQuery s env user.id data with e | s'
    · exact alone_finished ..
    · exact alone_queryRefresh ..
  | getQueries =>
    have hlength := length_listQueries s user.id user.role
    rw [Task.start, alone_step, taskStep, alone_listMessages _ _ _ _ _ (by omega)]
    rfl
  | postReply id body => exact alone_postReply ..
  | patchQueryStatus id status =>
    by_cases hrole : user.role ≠ .coordinator
    · simp only [Task.start, serve, if_pos hrole, alone_finished]
    · simp only [Task.start, serve, if_neg hrole, alone_patchQueryStatus]

end CampusHire.QueryService
