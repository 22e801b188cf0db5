import CampusHire.QueryTasks
import CampusHire.Serialization

/-!
# A reply and a status change on one query

`reply_query` and `update_query_status` each load the query, decide on its status and its
assignee, and commit later.  The reply moves a query on only if it is open, and the status
change is only for an unassigned query or one's own; both decisions are made on the row
that was loaded.  After the commit the answer is read back from the database, the query
first and its messages later.

The two are `Calls` that take effect at their commit.  They serialize in every run whose
commits are in time (`serializes_of_inTime`), that is, decide what they would decide on
the stored row and change nothing that the other call is still reading back.  Out of time,
a reply pulls a resolved query back to "In Progress" (`resolution_overwritten`).
-/

namespace CampusHire.ReplyStatusRace

open CampusHire QueryService Schedule Serialization

def storedStatus (s : State) (id : UUID) : Option String := (findQuery s id).map Query.status

def storedCoordinator (s : State) (id : UUID) : Option UUID :=
  (findQuery s id).bind Query.coordinatorId

/-- A coordinator's reply and a coordinator's status change; `envs` is what each of them
    meets, `false` being the reply and `true` the status change. -/
structure Race where
  id : UUID
  senderId : UUID
  body : String
  coordinatorId : UUID
  status : QueryStatus
  envs : Bool → Env

namespace Race

variable (r : Race)

def user : Bool → CurrentUser
  | false => ⟨r.senderId, .coordinator⟩
  | true => ⟨r.coordinatorId, .coordinator⟩

def request : Bool → Request
  | false => .postReply r.id r.body
  | true => .patchQueryStatus r.id r.status

def task (i : Bool) : Task := Task.start (r.user i) (r.request i)

def together (s : State) (order : List Bool) : Config State Task Bool :=
  run program (start s r.task) (turns r.envs order)

/-- The handler, with nothing beside it. -/
def call (i : Bool) (s : State) : State × Answer := serve s (r.envs i) (r.user i) (r.request i)

/-- What a run is judged by. -/
structure Outcome where
  status : Option String
  coordinatorId : Option UUID
  messages : List QueryMessage
  replied : Option Answer
  updated : Option Answer

def outcome (s : State) (replied updated : Option Answer) : Outcome where
  status := storedStatus s r.id
  coordinatorId := storedCoordinator s r.id
  messages := messagesOf s r.id
  replied := replied
  updated := updated

def concurrently (s : State) (order : List Bool) : Outcome :=
  r.outcome (r.together s order).store ((r.together s order).task false).result
    ((r.together s order).task true).result

def replyFirst (s : State) : Outcome :=
  let replied := r.call false s
  let updated := r.call true replied.1
  r.outcome updated.1 (some replied.2) (some updated.2)

def statusFirst (s : State) : Outcome :=
  let updated := r.call true s
  let replied := r.call false updated.1
  r.outcome replied.1 (some replied.2) (some updated.2)

/-! ## The condition on a commit -/

/-- The database accepts the commit. -/
def Accepted (env : Env) (s : State) : Task → Prop
  | .replyCommit .. => env.databaseFails = false ∧ ∀ m ∈ s.messages, m.id ≠ env.messageId
  | .statusCommit .. => env.databaseFails = false
  | _ => False

/-- The commit decides what it would decide on the stored query. -/
def UpToDate (s : State) : Task → Prop
  | .replyCommit q _ _ _ =>
      (q.status = QueryStatus.open.value → storedStatus s q.id = some QueryStatus.open.value ∨
        storedStatus s q.id = some QueryStatus.inProgress.value) ∧
      (storedStatus s q.id = some QueryStatus.open.value → q.status = QueryStatus.open.value)
  | .statusCommit q status =>
      (storedCoordinator s q.id = none ∨ storedCoordinator s q.id = some r.coordinatorId) ∧
      (q.status = status.value → storedStatus s q.id = some status.value)
  | _ => True

/-- The task still has to read the query of its answer. -/
def loadsQuery : Task → Bool
  | .queryRefresh _ => true
  | _ => false

def loadsMessages : Task → Bool
  | .queryRefresh _ | .queryMessages _ => true
  | _ => false

/-- The commit changes nothing that the other call, which has committed, has yet to read. -/
def Undisturbing (s : State) (other : Task) : Task → Prop
  | .replyCommit .. => loadsMessages other = false
  | .statusCommit q status =>
      loadsQuery other = true → storedStatus s q.id = some status.value
  | _ => True

def InTime (c : Config State Task Bool) (i : Bool) : Prop :=
  Accepted (r.envs i) c.store (c.task i) →
    r.UpToDate c.store (c.task i) ∧ Undisturbing c.store (c.task (!i)) (c.task i)

instance (env : Env) (s : State) (t : Task) : Decidable (Accepted env s t) := by
  cases t <;> unfold Accepted <;> infer_instance

instance (s : State) (t : Task) : Decidable (r.UpToDate s t) := by
  cases t <;> unfold UpToDate <;> infer_instance

instance (s : State) (other t : Task) : Decidable (Undisturbing s other t) := by
  cases t <;> unfold Undisturbing <;> infer_instance

instance (c : Config State Task Bool) (i : Bool) : Decidable (r.InTime c i) :=
  inferInstanceAs (Decidable (_ → _))

end Race

/-! ## What a commit writes -/

/-- Two sessions that would turn the stored row into the same row write the same. -/
theorem updateQuery_congr {s : State} {loaded stored assigned assigned' : Query}
    (hids : (s.queries.map Query.id).Nodup) (hfound : findQuery s stored.id = some stored)
    (hid : loaded.id = stored.id)
    (hwrite : writeColumns loaded assigned stored = writeColumns stored assigned' stored) :
    updateQuery s loaded assigned = updateQuery s stored assigned' := by
  rw [updateQuery, updateQuery, hid]
  congr 1
  apply Table.modify_congr
  intro q hq hkey
  rw [List.inj_on_of_nodup_map hids hq (Table.mem_of_lookup hfound) hkey, hwrite]

/-- The reply of a session that has loaded `q` moves the query on, or leaves its status. -/
theorem status_replied (q stored : Query) (senderId : UUID) :
    (writeColumns q (replied q senderId .coordinator) stored).status =
      if q.status = QueryStatus.open.value then QueryStatus.inProgress.value
      else stored.status := by
  by_cases hopen : q.status = QueryStatus.open.value
  · simp [writeColumns, replied, hopen, QueryStatus.value]
  · simp [writeColumns, replied, hopen]

theorem writeColumns_replied {q stored : Query} (senderId : UUID)
    (hassigned : stored.coordinatorId = q.coordinatorId)
    (hloaded : q.status = QueryStatus.open.value → stored.status = QueryStatus.open.value ∨
      stored.status = QueryStatus.inProgress.value)
    (hstored : stored.status = QueryStatus.open.value → q.status = QueryStatus.open.value) :
    writeColumns q (replied q senderId .coordinator) stored =
      writeColumns stored (replied stored senderId .coordinator) stored := by
  have hstatus : (writeColumns q (replied q senderId .coordinator) stored).status =
      (writeColumns stored (replied stored senderId .coordinator) stored).status := by
    rw [status_replied, status_replied]
    by_cases hopen : q.status = QueryStatus.open.value
    · rw [if_pos hopen]
      rcases hloaded hopen with h | h
      · rw [if_pos h]
      · rw [h, ite_self]
    · rw [if_neg hopen, if_neg fun h => hopen (hstored h)]
  have hcoordinator : (writeColumns q (replied q senderId .coordinator) stored).coordinatorId =
      (writeColumns stored (replied stored senderId .coordinator) stored).coordinatorId := by
    simp only [writeColumns, replied, hassigned]
  rw [writeColumns, writeColumns, Query.mk.injEq]
  exact ⟨rfl, rfl, hcoordinator, rfl, rfl, hstatus, rfl⟩

theorem writeColumns_status {q stored : Query} {text : String}
    (h : q.status = text → stored.status = text) :
    writeColumns q { q with status := text } stored =
      writeColumns stored { stored with status := text } stored := by
  simp only [writeColumns, if_true, Query.mk.injEq, true_and, and_true]
  by_cases hloaded : text = q.status
  · rw [if_pos hloaded, if_pos (h hloaded.symm).symm]
  · rw [if_neg hloaded]
    split
    · assumption
    · rfl

theorem storedStatus_of_find {s : State} {id : UUID} {q : Query} (h : findQuery s id = some q) :
    storedStatus s id = some q.status := by
  rw [storedStatus, h, Option.map_some]

theorem storedCoordinator_of_find {s : State} {id : UUID} {q : Query}
    (h : findQuery s id = some q) : storedCoordinator s id = q.coordinatorId := by
  rw [storedCoordinator, h, Option.bind_some]

/-- A status change to the stored status changes nothing. -/
theorem updateQuery_same {s : State} {q stored : Query} {text : String}
    (hids : (s.queries.map Query.id).Nodup) (hid : q.id = stored.id)
    (hfound : findQuery s stored.id = some stored) (hsame : stored.status = text) :
    updateQuery s q { q with status := text } = s := by
  subst hsame
  have hrows : Table.modify Query.id q.id (writeColumns q { q with status := stored.status })
      s.queries = s.queries := by
    apply Table.modify_of_forall_eq
    intro row hrow hkey
    rw [List.inj_on_of_nodup_map hids hrow (Table.mem_of_lookup hfound) (hkey.trans hid)]
    simp only [writeColumns, if_true, ite_self]
  rw [updateQuery, hrows]

namespace Race

variable (r : Race)

/-! ## The calls -/

theorem call_reply (s : State) :
    r.call false s =
      ((replyQuery s (r.envs false) r.id r.senderId .coordinator r.body).1,
        (replyQuery s (r.envs false) r.id r.senderId .coordinator r.body).2.map .query) := rfl

theorem call_status (s : State) :
    r.call true s =
      ((updateQueryStatus s (r.envs true) r.id r.coordinatorId r.status).1,
        (updateQueryStatus s (r.envs true) r.id r.coordinatorId r.status).2.map .query) := rfl

theorem call_reply_missing {s : State} (h : findQuery s r.id = none) :
    r.call false s = (s, .error (.http 404 "Query not found")) := by
  rw [call_reply, replyQuery, h]
  rfl

theorem call_reply_refused {s : State} {stored : Query} (h : findQuery s r.id = some stored)
    (hrefused : ¬ Accepted (r.envs false) s (.replyCommit stored r.senderId .coordinator r.body)) :
    r.call false s = (s, .error .database) := by
  rw [call_reply, replyQuery, h]
  dsimp only
  rw [if_neg (by simp), commitReply_of_not_fresh _ _ _ hrefused]
  rfl

theorem call_reply_ok {s t : State} {stored : Query} (h : findQuery s r.id = some stored)
    (hcommit : commitReply s (r.envs false) stored r.senderId .coordinator r.body = .ok t) :
    r.call false s = (t, (refresh t (r.envs false) r.id).map .query) := by
  rw [call_reply, replyQuery, h]
  dsimp only
  rw [if_neg (by simp), hcommit, show stored.id = r.id from Table.key_of_lookup h]

theorem call_status_missing {s : State} (h : findQuery s r.id = none) :
    r.call true s = (s, .error (.http 404 "Query not found")) := by
  rw [call_status, updateQueryStatus, h]
  rfl

theorem call_status_forbidden {s : State} {stored : Query} (h : findQuery s r.id = some stored)
    (hother : stored.coordinatorId.any (fun id => decide (id ≠ r.coordinatorId)) = true) :
    r.call true s = (s, .error (.http 403 "Forbidden")) := by
  rw [call_status, updateQueryStatus, h]
  dsimp only
  rw [if_pos hother]
  rfl

theorem call_status_refused {s : State} {stored : Query} (h : findQuery s r.id = some stored)
    (hown : ¬ stored.coordinatorId.any (fun id => decide (id ≠ r.coordinatorId)) = true)
    (hfails : (r.envs true).databaseFails = true) :
    r.call true s = (s, .error .database) := by
  rw [call_status, updateQueryStatus, h]
  dsimp only
  rw [if_neg hown, commitStatus, if_pos hfails]
  rfl

theorem call_status_ok {s t : State} {stored : Query} (h : findQuery s r.id = some stored)
    (hown : ¬ stored.coordinatorId.any (fun id => decide (id ≠ r.coordinatorId)) = true)
    (hcommit : commitStatus s (r.envs true) stored r.status = .ok t) :
    r.call true s = (t, (refresh t (r.envs true) r.id).map .query) := by
  rw [call_status, updateQueryStatus, h]
  dsimp only
  rw [if_neg hown, hcommit, show stored.id = r.id from Table.key_of_lookup h]

/-! ## Where a call stands -/

/-- The call has loaded the query and is about to commit. -/
inductive Loaded (s : State) : Bool → Task → Prop where
  | reply {q stored : Query} (hid : q.id = r.id) (hfound : findQuery s r.id = some stored)
      (hassigned : stored.coordinatorId = q.coordinatorId) :
      Loaded s false (.replyCommit q r.senderId .coordinator r.body)
  | status {q stored : Query} (hid : q.id = r.id) (hfound : findQuery s r.id = some stored)
      (hdatabase : (r.envs true).databaseFails = false) :
      Loaded s true (.statusCommit q r.status)

structure Pending (i : Bool) (s : State) (t : Task) : Prop where
  ids : (s.queries.map Query.id).Nodup
  stands : t = r.task i ∨ r.Loaded s i t

/-- The call is going to answer `a`.  A status change whose commit will fail has nothing
    left to do once it has been allowed. -/
inductive Settled (i : Bool) (a : Answer) (s : State) : Task → Prop where
  | finished : Settled i a s (.finished a)
  | messages {q : Query} (hreload : (r.envs i).reloadFails = false)
      (ha : a = .ok (.query (respond s q))) : Settled i a s (.queryMessages q)
  | refresh {q : Query} (hfound : findQuery s r.id = some q)
      (ha : a = (refresh s (r.envs i) r.id).map .query) : Settled i a s (.queryRefresh r.id)
  | failing {q : Query} (hi : i = true) (hdatabase : (r.envs true).databaseFails = true)
      (ha : a = .error .database) : Settled i a s (.statusCommit q r.status)

/-- The rest of a call only reads. -/
theorem settled_step {i : Bool} {a : Answer} {s : State} {t : Task} (h : r.Settled i a s t) :
    (taskStep (r.envs i) s t).1 = s ∧ r.Settled i a s (taskStep (r.envs i) s t).2 := by
  cases h with
  | finished => exact ⟨rfl, .finished⟩
  | messages hreload ha =>
    subst ha
    rw [taskStep, hreload, if_neg Bool.false_ne_true]
    exact ⟨rfl, .finished⟩
  | refresh hfound ha =>
    rw [taskStep]
    rcases hreload : (r.envs i).reloadFails with _ | _
    · rw [refresh_of_find hreload rfl hfound] at ha
      rw [if_neg Bool.false_ne_true, hfound]
      exact ⟨rfl, .messages hreload ha⟩
    · rw [refresh_eq_error hreload] at ha
      subst ha
      rw [if_pos rfl]
      exact ⟨rfl, .finished⟩
  | failing hi hdatabase ha =>
    subst hi ha
    rw [taskStep, commitStatus, if_pos hdatabase]
    exact ⟨rfl, .finished⟩

/-- From an up-to-date reply the database stores what a reply that loads now would store. -/
theorem commitReply_upToDate {s : State} {env : Env} {q stored : Query}
    (hids : (s.queries.map Query.id).Nodup) (hid : q.id = stored.id)
    (hfound : findQuery s stored.id = some stored)
    (hassigned : stored.coordinatorId = q.coordinatorId)
    (hacc : env.databaseFails = false ∧ ∀ m ∈ s.messages, m.id ≠ env.messageId)
    (hup : r.UpToDate s (.replyCommit q r.senderId .coordinator r.body)) :
    commitReply s env q r.senderId .coordinator r.body =
      commitReply s env stored r.senderId .coordinator r.body := by
  obtain ⟨hloaded, hstored⟩ := hup
  rw [hid, storedStatus_of_find hfound, Option.some.injEq, Option.some.injEq] at hloaded
  rw [hid, storedStatus_of_find hfound, Option.some.injEq] at hstored
  have hwrite := writeColumns_replied r.senderId hassigned hloaded hstored
  rw [commitReply_of_fresh _ _ _ hacc.1 hacc.2, commitReply_of_fresh _ _ _ hacc.1 hacc.2,
    updateQuery_congr hids hfound hid hwrite, hid]

theorem reply_step {s : State} {t : Task} (h : r.Pending false s t)
    (hup : Accepted (r.envs false) s t → r.UpToDate s t) :
    ((taskStep (r.envs false) s t).1 = s ∧
      r.Pending false s (taskStep (r.envs false) s t).2) ∨
    ((taskStep (r.envs false) s t).1 = (r.call false s).1 ∧
      r.Settled false (r.call false s).2 (r.call false s).1 (taskStep (r.envs false) s t).2) := by
  obtain ⟨hids, rfl | hloaded⟩ := h
  · rw [show r.task false = .replyRead r.id r.senderId .coordinator r.body from rfl, taskStep]
    rcases hfound : findQuery s r.id with _ | stored
    · right
      rw [r.call_reply_missing hfound]
      exact ⟨rfl, .finished⟩
    · left
      dsimp only
      rw [if_neg (by simp)]
      exact ⟨rfl, hids, Or.inr (.reply (Table.key_of_lookup hfound) hfound rfl)⟩
  · right
    cases hloaded with
    | @reply q stored hid hfound hassigned =>
      by_cases hacc : Accepted (r.envs false) s (.replyCommit q r.senderId .coordinator r.body)
      · have hstored : stored.id = r.id := Table.key_of_lookup hfound
        have hcommit := r.commitReply_upToDate hids (hid.trans hstored.symm)
          (hstored.symm ▸ hfound) hassigned hacc (hup hacc)
        rcases hresult : commitReply s (r.envs false) stored r.senderId .coordinator r.body with
          e | s'
        · rw [commitReply_of_fresh _ _ _ hacc.1 hacc.2] at hresult
          cases hresult
        · rw [taskStep, hcommit, hresult, r.call_reply_ok hfound hresult, hid]
          exact ⟨rfl,
            .refresh (findQuery_after_commit hstored hfound (commitReply_ok hresult).2.1) rfl⟩
      · rw [taskStep, commitReply_of_not_fresh _ _ _ hacc, r.call_reply_refused hfound hacc]
        exact ⟨rfl, .finished⟩

theorem own_of_upToDate {s : State} {q stored : Query} (hfound : findQuery s q.id = some stored)
    (hup : r.UpToDate s (.statusCommit q r.status)) :
    ¬ stored.coordinatorId.any (fun id => decide (id ≠ r.coordinatorId)) = true := by
  have hcoordinator := hup.1
  rw [storedCoordinator_of_find hfound] at hcoordinator
  rcases hcoordinator with h | h
  · simp [h]
  · simp [h]

theorem commitStatus_upToDate {s : State} (env : Env) {q stored : Query}
    (hids : (s.queries.map Query.id).Nodup) (hid : q.id = stored.id)
    (hfound : findQuery s stored.id = some stored)
    (hup : r.UpToDate s (.statusCommit q r.status)) :
    commitStatus s env q r.status = commitStatus s env stored r.status := by
  have hloaded := hup.2
  rw [hid, storedStatus_of_find hfound, Option.some.injEq] at hloaded
  rw [commitStatus, commitStatus, updateQuery_congr hids hfound hid (writeColumns_status hloaded)]

theorem status_step {s : State} {t : Task} (h : r.Pending true s t)
    (hup : Accepted (r.envs true) s t → r.UpToDate s t) :
    ((taskStep (r.envs true) s t).1 = s ∧
      r.Pending true s (taskStep (r.envs true) s t).2) ∨
    ((taskStep (r.envs true) s t).1 = (r.call true s).1 ∧
      r.Settled true (r.call true s).2 (r.call true s).1 (taskStep (r.envs true) s t).2) := by
  obtain ⟨hids, rfl | hloaded⟩ := h
  · rw [show r.task true = .statusRead r.id r.coordinatorId r.status from rfl, taskStep]
    rcases hfound : findQuery s r.id with _ | stored
    · right
      rw [r.call_status_missing hfound]
      exact ⟨rfl, .finished⟩
    dsimp only
    by_cases hother : stored.coordinatorId.any (fun id => decide (id ≠ r.coordinatorId)) = true
    · right
      rw [if_pos hother, r.call_status_forbidden hfound hother]
      exact ⟨rfl, .finished⟩
    rw [if_neg hother]
    rcases hfails : (r.envs true).databaseFails with _ | _
    · exact Or.inl ⟨rfl, hids, Or.inr (.status (Table.key_of_lookup hfound) hfound hfails)⟩
    · right
      rw [r.call_status_refused hfound hother hfails]
      exact ⟨rfl, .failing rfl hfails rfl⟩
  · right
    cases hloaded with
    | @status q stored hid hfound hdatabase =>
      have hup := hup hdatabase
      have hstored : stored.id = r.id := Table.key_of_lookup hfound
      have hcommit := r.commitStatus_upToDate (r.envs true) hids (hid.trans hstored.symm)
        (hstored.symm ▸ hfound) hup
      rcases hresult : commitStatus s (r.envs true) stored r.status with e | s'
      · simp [commitStatus, hdatabase] at hresult
      · have hown := r.own_of_upToDate (hid.symm ▸ hfound) hup
        rw [taskStep, hcommit, hresult, r.call_status_ok hfound hown hresult, hid]
        exact ⟨rfl, .refresh (findQuery_after_commit hstored hfound
          (congrArg State.queries (commitStatus_ok hresult))) rfl⟩

/-! ## What one call leaves of the other -/

theorem start_store (env : Env) (i : Bool) (s : State) : (taskStep env s (r.task i)).1 = s := by
  rcases taskStep_cases env s (r.task i) with h | ⟨_, _, _, htask, -⟩ | ⟨_, _, _, _, _, htask, -⟩ |
    ⟨_, _, _, htask, -⟩
  · exact h
  · cases i <;> cases htask
  · cases i <;> cases htask
  · cases i <;> cases htask

/-- **What a step of a pending call can do.**  It touches no table, or it is the commit. -/
theorem pending_cases {i : Bool} {s : State} {t : Task} (h : r.Pending i s t) :
    (taskStep (r.envs i) s t).1 = s ∨
    (∃ q s', i = false ∧ t = .replyCommit q r.senderId .coordinator r.body ∧ q.id = r.id ∧
      Accepted (r.envs i) s t ∧
      commitReply s (r.envs false) q r.senderId .coordinator r.body = .ok s' ∧
      (taskStep (r.envs i) s t).1 = s') ∨
    (∃ q, i = true ∧ t = .statusCommit q r.status ∧ q.id = r.id ∧ Accepted (r.envs i) s t ∧
      (taskStep (r.envs i) s t).1 = updateQuery s q { q with status := r.status.value }) := by
  obtain ⟨-, rfl | hloaded⟩ := h
  · exact Or.inl (r.start_store _ i s)
  · cases hloaded with
    | @reply q stored hid hfound hassigned =>
      by_cases hacc : Accepted (r.envs false) s (.replyCommit q r.senderId .coordinator r.body)
      · have hcommit : commitReply s (r.envs false) q r.senderId .coordinator r.body = .ok _ :=
          commitReply_of_fresh _ _ _ hacc.1 hacc.2
        exact Or.inr (Or.inl ⟨q, _, rfl, rfl, hid, hacc, hcommit, by rw [taskStep, hcommit]⟩)
      · left
        rw [taskStep, commitReply_of_not_fresh _ _ _ hacc]
    | @status q stored hid hfound hdatabase =>
      have hcommit : commitStatus s (r.envs true) q r.status =
          .ok (updateQuery s q { q with status := r.status.value }) := by
        rw [commitStatus, hdatabase]
        rfl
      exact Or.inr (Or.inr ⟨q, rfl, rfl, hid, hdatabase, by rw [taskStep, hcommit]⟩)

theorem pending_stable {i j : Bool} {s : State} {t u : Task} (hne : j ≠ i)
    (h : r.Pending i s t) (h' : r.Pending j s u) :
    r.Pending j (taskStep (r.envs i) s t).1 u := by
  refine ⟨nodup_ids_step _ _ h.ids, h'.stands.imp_right fun hloaded => ?_⟩
  rcases r.pending_cases h with hsame | ⟨q, s', rfl, rfl, hid, -, hcommit, hs⟩ |
    ⟨q, rfl, rfl, hid, -, hs⟩
  · rw [hsame]
    exact hloaded
  · rw [hs]
    cases hloaded with
    | reply => exact absurd rfl hne
    | status hid' hfound hdatabase =>
      exact .status hid' (findQuery_after_commit hid hfound (commitReply_ok hcommit).2.1) hdatabase
  · rw [hs]
    cases hloaded with
    | reply hid' hfound hassigned =>
      -- a status change leaves the assignee as it is
      exact .reply hid' (findQuery_after_commit hid hfound rfl) ((if_pos rfl).trans hassigned)
    | status => exact absurd rfl hne

theorem settled_stable {i j : Bool} {a : Answer} {s : State} {t u : Task} (hne : j ≠ i)
    (h : r.Pending i s t) (hin : Accepted (r.envs i) s t → Undisturbing s u t)
    (h' : r.Settled j a s u) : r.Settled j a (taskStep (r.envs i) s t).1 u := by
  rcases r.pending_cases h with hsame | ⟨q, s', rfl, rfl, hid, hacc, -, -⟩ |
    ⟨q, rfl, rfl, hid, hacc, hs⟩
  · rw [hsame]
    exact h'
  · have hread : loadsMessages u = false := hin hacc
    cases h' with
    | finished => exact .finished
    | messages hreload ha => cases hread
    | refresh hfound ha => cases hread
    | failing hi hdatabase ha => exact .failing hi hdatabase ha
  · rw [hs]
    cases h' with
    | finished => exact .finished
    | messages hreload ha => exact .messages hreload ha
    | @refresh stored hfound ha =>
      have hstored : stored.id = r.id := Table.key_of_lookup hfound
      have hsame : storedStatus s q.id = some r.status.value := hin hacc rfl
      rw [hid, storedStatus_of_find hfound, Option.some.injEq] at hsame
      rw [updateQuery_same h.ids (hid.trans hstored.symm) (hstored.symm ▸ hfound) hsame]
      exact .refresh hfound ha
    | failing hi => exact absurd hi hne

/-- The two requests as calls that take effect at one moment. -/
def calls : Calls program r.envs Answer where
  serve := r.call
  inTime := r.InTime
  pending := r.Pending
  settled := r.Settled
  pending_step := by
    intro c i hin h
    cases i with
    | false => exact r.reply_step h fun hacc => (hin hacc).1
    | true => exact r.status_step h fun hacc => (hin hacc).1
  settled_step := fun _ _ _ _ h => r.settled_step h
  pending_stable := fun _ _ _ hne _ h h' => r.pending_stable hne h h'
  settled_stable := by
    intro c i j a hne hin h h'
    obtain rfl : j = !i := Bool.eq_not.mpr hne
    exact r.settled_stable hne h (fun hacc => (hin hacc).2) h'

theorem pending_start {s : State} (hids : (s.queries.map Query.id).Nodup) (i : Bool) :
    r.Pending i s (r.task i) := ⟨hids, Or.inl rfl⟩

theorem result_of_pending {i : Bool} {s : State} {t : Task} (h : r.Pending i s t) :
    t.result = none := by
  obtain ⟨-, rfl | hloaded⟩ := h
  · cases i <;> rfl
  · cases hloaded <;> rfl

theorem result_of_settled {i : Bool} {a : Answer} {s : State} {t : Task} (h : r.Settled i a s t)
    (hdone : t.result.isSome = true) : t.result = some a := by
  cases h with
  | finished => rfl
  | messages | refresh | failing => cases hdone

/-- Whatever the state, a run in time ends as one of the two orders does. -/
theorem concurrently_of_inTime {s : State} (hids : (s.queries.map Query.id).Nodup)
    (order : List Bool)
    (hin : Guarded program (fun c i _ => r.InTime c i) (start s r.task) (turns r.envs order))
    (hdone : ∀ i, ((r.together s order).task i).result.isSome = true) :
    r.concurrently s order = r.replyFirst s ∨ r.concurrently s order = r.statusFirst s := by
  have hserial : r.calls.Serializable s (r.together s order) :=
    r.calls.serialized_run (r.pending_start hids) order hin
  have hnotPending : ∀ i,
      ¬ r.Pending i (r.together s order).store ((r.together s order).task i) := by
    intro i hpending
    have hresult := hdone i
    rw [r.result_of_pending hpending] at hresult
    cases hresult
  obtain ⟨i, hstore, hfirst, hsecond⟩ := Calls.serialized_two hserial hnotPending
  have hfirst := r.result_of_settled hfirst (hdone i)
  have hsecond := r.result_of_settled hsecond (hdone !i)
  cases i with
  | false =>
    left
    rw [Bool.not_false] at hstore hsecond
    rw [concurrently, hstore, hfirst, hsecond]
    rfl
  | true =>
    right
    rw [Bool.not_true] at hstore hsecond
    rw [concurrently, hstore, hfirst, hsecond]
    rfl

/-! ## Resolved and closed queries -/

def Over (status : String) : Prop :=
  status = QueryStatus.resolved.value ∨ status = QueryStatus.closed.value

/-- The step leaves a query that is resolved or closed so. -/
def LeavesOver (c next : Config State Task Bool) : Prop :=
  ∀ status, Over status → storedStatus c.store r.id = some status →
    storedStatus next.store r.id = some status

theorem call_reply_over {s : State} {status : String} (hover : Over status)
    (h : storedStatus s r.id = some status) :
    storedStatus (r.call false s).1 r.id = some status := by
  rcases hfound : findQuery s r.id with _ | stored
  · rw [r.call_reply_missing hfound]
    exact h
  by_cases hacc : Accepted (r.envs false) s (.replyCommit stored r.senderId .coordinator r.body)
  · have hcommit : commitReply s (r.envs false) stored r.senderId .coordinator r.body = .ok _ :=
      commitReply_of_fresh _ _ _ hacc.1 hacc.2
    have hafter := findQuery_after_commit (Table.key_of_lookup hfound) hfound
      (commitReply_ok hcommit).2.1
    rw [storedStatus_of_find hfound] at h
    rw [r.call_reply_ok hfound hcommit, storedStatus_of_find hafter, status_replied,
      Option.some.inj h]
    rcases hover with rfl | rfl <;> rfl
  · rw [r.call_reply_refused hfound hacc]
    exact h

theorem reply_leavesOver {s : State} {c : Config State Task Bool}
    (h : r.calls.Serializable s c) (hin : r.InTime c false) :
    r.LeavesOver c (fire program c false (r.envs false)) := by
  intro status hover hstored
  obtain ⟨order, h⟩ := h
  by_cases hi : false ∈ order
  · have hstore := (h.fire_settled hi).store.trans h.store.symm
    rw [hstore]
    exact hstored
  · rcases r.reply_step (h.pending false hi) fun hacc => (hin hacc).1 with ⟨hsame, -⟩ | ⟨hcall, -⟩
    · rw [fire_store, show program.step = taskStep from rfl, hsame]
      exact hstored
    · rw [fire_store, show program.step = taskStep from rfl, hcall]
      exact r.call_reply_over hover hstored

end Race

/-- Any number of requests, in any interleaving, on freshly created tables. -/
def reached {ι : Type*} [DecidableEq ι] (requests : ι → CurrentUser × Request)
    (before : List (ι × Env)) : State :=
  (run program (arrive requests) before).store

/-- **A reply and a status change serialize in every run in time.**  From every state that
    any interleaving of requests reaches, and in every order of the steps of the two, the
    run ends as one of the serial orders does, and the reply leaves the query alone once it
    is resolved or closed. -/
theorem serializes_of_inTime {ι : Type*} [DecidableEq ι] (requests : ι → CurrentUser × Request)
    (before : List (ι × Env)) (r : Race) (order : List Bool)
    (hin : Guarded program (fun c i _ => r.InTime c i) (start (reached requests before) r.task)
      (turns r.envs order)) :
    ((∀ i, ((r.together (reached requests before) order).task i).result.isSome = true) →
      r.concurrently (reached requests before) order = r.replyFirst (reached requests before) ∨
      r.concurrently (reached requests before) order = r.statusFirst (reached requests before)) ∧
    Guarded program (fun c i env => i = false → r.LeavesOver c (fire program c i env))
      (start (reached requests before) r.task) (turns r.envs order) := by
  have hids : ((reached requests before).queries.map Query.id).Nodup :=
    nodup_ids_run requests before
  refine ⟨r.concurrently_of_inTime hids order hin, ?_⟩
  apply r.calls.guarded_of_serializable (r.pending_start hids) order hin
  rintro c i hserial hin rfl
  exact r.reply_leavesOver hserial hin

def askOnce : Unit → CurrentUser × Request :=
  fun _ => (⟨.ofNat 1, .student⟩, .postQuery { subject := "Stipend", body := "When?" })

def asked : List (Unit × Env) := List.replicate 3 ((), ⟨.ofNat 10, .ofNat 20, 0, false, false⟩)

/-- A coordinator's reply, and the same coordinator resolving the query. -/
def resolving : Race where
  id := .ofNat 10
  senderId := .ofNat 2
  body := "On Friday."
  coordinatorId := .ofNat 2
  status := .resolved
  envs
    | false => ⟨.ofNat 11, .ofNat 21, 1, false, false⟩
    | true => ⟨.ofNat 12, .ofNat 22, 2, false, false⟩

/-- The status change loads the open query, and the whole reply runs before it commits. -/
def resolvedLast : List Bool := [true, false, false, false, false, true, true, true]

theorem resolved_after_reply :
    resolving.concurrently (reached askOnce asked) resolvedLast =
        resolving.replyFirst (reached askOnce asked) ∨
      resolving.concurrently (reached askOnce asked) resolvedLast =
        resolving.statusFirst (reached askOnce asked) :=
  (serializes_of_inTime askOnce asked resolving resolvedLast (by decide +kernel)).1
    (by decide +kernel)

/-- The reply loads the open query and commits when it has been resolved. -/
def repliedLast : List Bool := [false, true, true, true, true, false, false, false]

/-- The query is "In Progress" again, which neither order leaves. -/
theorem resolution_overwritten :
    (∀ i, ((resolving.together (reached askOnce asked) repliedLast).task i).result.isSome = true) ∧
    storedStatus (resolving.together (reached askOnce asked) (repliedLast.take 5)).store
      resolving.id = some "Resolved" ∧
    storedStatus (resolving.together (reached askOnce asked) (repliedLast.take 6)).store
      resolving.id = some "In Progress" ∧
    ¬ (resolving.concurrently (reached askOnce asked) repliedLast =
        resolving.replyFirst (reached askOnce asked) ∨
      resolving.concurrently (reached askOnce asked) repliedLast =
        resolving.statusFirst (reached askOnce asked)) := by
  refine ⟨by decide +kernel, by decide +kernel, by decide +kernel, ?_⟩
  rintro (heq | heq)
  · exact absurd (congrArg Race.Outcome.status heq) (by decide +kernel)
  · exact absurd (congrArg Race.Outcome.status heq) (by decide +kernel)

end CampusHire.ReplyStatusRace
