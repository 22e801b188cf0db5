import CampusHire.QueryService

/-!
# Who may act on a query

`list_queries`, `reply_query` and `update_query_status` each have their own version of
the rule that a coordinator sees and handles the unassigned queries and those assigned
to them.  The version of `reply_query` checks students only: a coordinator's reply takes
over any query, whoever it is assigned to (`query_taken_over`).

That is the only disagreement (`permissions_agree_iff`).
-/

namespace CampusHire.QueryPermissions

open CampusHire QueryService

/-- The query that a request acts on. -/
def actsOn : Request → Option UUID
  | .postReply id _ => some id
  | .patchQueryStatus id _ => some id
  | .postQuery _ => none
  | .getQueries => none

/-- Whoever acts on a query sees it in their list. -/
def Agrees (s : State) (h : Handled) : Prop :=
  ∀ id, actsOn h.request = some id →
    (∃ response, (serve s h.env h.user h.request).2 = .ok response) →
    ∃ q, findQuery s id = some q ∧ q ∈ listQueries s h.user.id h.user.role

/-- A coordinator's request leaves the queries of other coordinators, and their messages,
    as they are. -/
def SparesOthers (s : State) (h : Handled) : Prop :=
  h.user.role = .coordinator → ∀ q ∈ s.queries, ∀ c, q.coordinatorId = some c → c ≠ h.user.id →
    q ∈ (handle s h).queries ∧ messagesOf (handle s h) q.id = messagesOf s q.id

/-- A coordinator's reply to a query of another coordinator, which the database stores. -/
def TakesOver (s : State) (h : Handled) : Prop :=
  h.user.role = .coordinator ∧ ∃ id body q c, h.request = .postReply id body ∧
    findQuery s id = some q ∧ q.coordinatorId = some c ∧ c ≠ h.user.id ∧
    h.env.databaseFails = false ∧ ∀ m ∈ s.messages, m.id ≠ h.env.messageId

/-! ## What succeeds is visible -/

theorem mem_listQueries {s : State} {userId : UUID} {role : UserRole} {q : Query} :
    q ∈ listQueries s userId role ↔ q ∈ s.queries ∧ visible userId role q = true := by
  rw [listQueries, Table.mem_orderByDesc, List.mem_filter]

theorem visible_of_reply {s : State} {h : Handled} {id : UUID} {body : String}
    (hreq : h.request = .postReply id body) (hover : ¬ TakesOver s h)
    (hok : ∃ response, (serve s h.env h.user h.request).2 = .ok response) :
    ∃ q, findQuery s id = some q ∧ q ∈ listQueries s h.user.id h.user.role := by
  obtain ⟨response, hok⟩ := hok
  rw [hreq] at hok
  simp only [serve, replyQuery] at hok
  split at hok
  · cases hok
  rename_i q hq
  split at hok
  · cases hok
  rename_i hown
  split at hok
  · cases hok
  rename_i t hcommit
  refine ⟨q, hq, mem_listQueries.mpr ⟨Table.mem_of_lookup hq, ?_⟩⟩
  rcases hrole : h.user.role with _ | _
  · -- a student: the query is the student's
    by_contra hne
    exact hown ⟨hrole, by simpa [visible] using hne⟩
  · -- a coordinator: it is nobody else's
    rcases hassigned : q.coordinatorId with _ | c
    · simp [visible, hassigned]
    · by_contra hne
      have hother : c ≠ h.user.id := by simpa [visible, hassigned] using hne
      exact hover ⟨hrole, id, body, q, c, hreq, hq, hassigned, hother,
        databaseFails_of_reply hcommit, (commitReply_ok hcommit).1⟩

theorem visible_of_status {s : State} {h : Handled} {id : UUID} {status : QueryStatus}
    (hreq : h.request = .patchQueryStatus id status)
    (hok : ∃ response, (serve s h.env h.user h.request).2 = .ok response) :
    ∃ q, findQuery s id = some q ∧ q ∈ listQueries s h.user.id h.user.role := by
  obtain ⟨response, hok⟩ := hok
  rw [hreq] at hok
  simp only [serve, updateQueryStatus] at hok
  split at hok
  · cases hok
  rename_i hrole
  split at hok
  · cases hok
  rename_i q hq
  split at hok
  · cases hok
  rename_i hother
  refine ⟨q, hq, mem_listQueries.mpr ⟨Table.mem_of_lookup hq, ?_⟩⟩
  rw [not_not.mp hrole]
  rcases hassigned : q.coordinatorId with _ | c
  · simp [visible, hassigned]
  · simpa [visible, hassigned] using hother

theorem agrees_of_not_takesOver {s : State} {h : Handled} (hover : ¬ TakesOver s h) :
    Agrees s h := by
  intro id hacts hok
  cases hreq : h.request with
  | postQuery data =>
    rw [hreq] at hacts
    cases hacts
  | getQueries =>
    rw [hreq] at hacts
    cases hacts
  | postReply id' body =>
    rw [hreq] at hacts
    cases hacts
    exact visible_of_reply hreq hover hok
  | patchQueryStatus id' status =>
    rw [hreq] at hacts
    cases hacts
    exact visible_of_status hreq hok

/-! ## Other coordinators' queries -/

/-- An update leaves every query with another id as it is. -/
theorem mem_updateQuery_other {s : State} {loaded q : Query} (assigned : Query)
    (hq : q ∈ s.queries) (hne : q.id ≠ loaded.id) : q ∈ (updateQuery s loaded assigned).queries :=
  Table.mem_modify.mpr (Or.inl ⟨hq, hne⟩)

theorem sparesOthers_of_not_takesOver {s : State} {h : Handled}
    (hids : (s.queries.map Query.id).Nodup) (hover : ¬ TakesOver s h) : SparesOthers s h := by
  intro hrole q hq c hassigned hother
  -- the query that the request loads is not `q`
  have hloaded : ∀ {id loaded}, findQuery s id = some loaded →
      (∀ c', loaded.coordinatorId = some c' → c' = h.user.id) → q.id ≠ loaded.id := by
    intro id loaded hfound hmine heq
    have hsame := List.inj_on_of_nodup_map hids hq (Table.mem_of_lookup hfound) heq
    exact hother (hmine c (hsame ▸ hassigned))
  rcases serve_cases s h.env h.user h.request with hsame | ⟨data, -, hstudent, -⟩ |
    ⟨id, body, loaded, hreq, hfound, -, hcommit⟩ |
    ⟨id, status, loaded, -, -, hfound, hmine, hcommit⟩
  · rw [handle, hsame]
    exact ⟨hq, rfl⟩
  · rw [hrole] at hstudent
    cases hstudent
  · obtain ⟨hfresh, hqueries, hmessages⟩ := commitReply_ok hcommit
    have hne : q.id ≠ loaded.id := by
      apply hloaded hfound
      intro c' hc'
      by_contra hne
      exact hover ⟨hrole, id, body, loaded, c', hreq, hfound, hc', hne,
        databaseFails_of_reply hcommit, hfresh⟩
    constructor
    · rw [handle, hqueries]
      exact mem_updateQuery_other _ hq hne
    · rw [handle, messagesOf, hmessages, List.filter_append]
      simp [messagesOf, newMessage, Ne.symm hne]
  · rw [handle, commitStatus_ok hcommit]
    exact ⟨mem_updateQuery_other _ hq (hloaded hfound hmine), rfl⟩

/-- A reply that takes a query over adds to its messages, also where the reload after the
    commit fails. -/
theorem not_sparesOthers_of_takesOver {s : State} {h : Handled} (hover : TakesOver s h) :
    ¬ SparesOthers s h := by
  obtain ⟨hrole, id, body, q, c, hreq, hq, hassigned, hother, hfails, hfresh⟩ := hover
  intro hspares
  obtain ⟨-, hmessages⟩ := hspares hrole q (Table.mem_of_lookup hq) c hassigned hother
  have hstored : (handle s h).messages =
      s.messages ++ [newMessage h.env q.id h.user.id body] := by
    simp only [handle, hreq, serve, replyQuery, hq, hrole, reduceCtorEq, false_and, if_false,
      commitReply_of_fresh h.user.id .coordinator body hfails hfresh]
  rw [messagesOf, hstored, List.filter_append, ← messagesOf] at hmessages
  simp [newMessage] at hmessages

/-- **Permissions agree with visibility, except for replies that take a query over.**  In
    every state that requests reach and for every next request: whoever succeeds in acting
    on a query sees it in their list, and coordinators leave one another's queries alone,
    exactly when the request is not such a reply. -/
theorem permissions_agree_iff (run : List Handled) (h : Handled) :
    (Agrees (execute State.empty run) h ∧ SparesOthers (execute State.empty run) h) ↔
      ¬ TakesOver (execute State.empty run) h := by
  constructor
  · intro hboth hover
    exact not_sparesOthers_of_takesOver hover hboth.2
  · intro hover
    exact ⟨agrees_of_not_takesOver hover,
      sparesOthers_of_not_takesOver (nodup_ids_execute run) hover⟩

/-- A student asks the coordinator 2. -/
def askCoordinator : List Handled :=
  [⟨⟨.ofNat 1, .student⟩,
    .postQuery { subject := "Slot", body := "When?", coordinatorId := some (.ofNat 2) },
    ⟨.ofNat 10, .ofNat 20, 0, false, false⟩⟩]

/-- The coordinator 3 replies. -/
def otherCoordinatorReplies : Handled :=
  ⟨⟨.ofNat 3, .coordinator⟩, .postReply (.ofNat 10) "Now.", ⟨.ofNat 11, .ofNat 21, 1, false, false⟩⟩

/-- The reply succeeds, although its sender does not see the query. -/
theorem query_taken_over :
    ¬ (Agrees (execute State.empty askCoordinator) otherCoordinatorReplies ∧
      SparesOthers (execute State.empty askCoordinator) otherCoordinatorReplies) := by
  intro h
  obtain ⟨q, -, hq⟩ := h.1 (.ofNat 10) rfl ⟨_, rfl⟩
  have hnone : listQueries (execute State.empty askCoordinator) (.ofNat 3) .coordinator = [] := by
    decide +kernel
  rw [show listQueries _ otherCoordinatorReplies.user.id otherCoordinatorReplies.user.role = _
    from hnone] at hq
  cases hq

end CampusHire.QueryPermissions
