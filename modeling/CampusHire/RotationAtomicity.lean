import CampusHire.RefreshRotation
import CampusHire.SessionConservation

/-!
# Refresh rotation when the database fails

`refresh_session` commits the revocation of the presented token, and `issue_tokens`
commits the record of the new one.  Each query, each reload and each commit of a call can
fail for itself.  Up to the first commit a failure leaves everything as it was; after it
the presented token is gone, and a failure of the reload or of the second commit leaves
its user without a session (`rotation_atomic_iff`).
-/

namespace CampusHire.RotationAtomicity

open CampusHire AuthService Sessions RefreshRotation SessionConservation

section Rotation

variable (d : Deployment) (token : String)

/-- What the database calls of one `refresh_session` meet, in order: the query of the
    record, the query of the user, the commit, and the reload with the commit of
    `issue_tokens`. -/
structure Envs where
  record : Env
  user : Env
  revoke : Env
  issue : Env

/-- A call of `refresh_session`. -/
def rotate (s : State) (envs : Envs) : State × Refreshing :=
  [envs.record, envs.user, envs.revoke, envs.issue].foldl
    (fun c env => refreshStep d token env c.1 c.2) (s, .presented)

/-- `refresh_session` gets past its checks. -/
def Accepts (s : State) (now : Time) : Prop :=
  ∃ payload jti record user, refreshJti d now token = .ok (payload, jti) ∧
    liveRecord s now jti = .ok record ∧ tokenUser s payload = .ok user

/-- No record has changed, and the token is accepted as before. -/
structure Untouched (s t : State) : Prop where
  records : t.refreshTokens = s.refreshTokens
  accepts : ∀ now, Accepts d token t now ↔ Accepts d token s now

/-- The presented record is revoked, there is one new record, unrevoked and of the same
    user, and its tokens are returned. -/
def Rotated (s : State) (now : Time) (done : State × Refreshing) : Prop :=
  ∃ payload jti record new issue, refreshJti d now token = .ok (payload, jti) ∧
    liveRecord s now jti = .ok record ∧
    done.1.refreshTokens =
      (s.refreshTokens.map fun r => if r = record then { r with revoked := true } else r) ++
        [new] ∧
    (∀ r ∈ s.refreshTokens, r.id ≠ new.id) ∧ new.revoked = false ∧
    new.userId = record.userId ∧ issue.user.id = record.userId ∧ new.tokenJti = issue.jti.str ∧
    done.2 = .returned (.ok (tokenPair d issue))

/-- The call is one or the other. -/
def Atomic (s : State) (envs : Envs) : Prop :=
  Untouched d token s (rotate d token s envs).1 ∨
    Rotated d token s envs.record.clock (rotate d token s envs)

/-- Nothing fails up to the first commit. -/
def Commits (s : State) (envs : Envs) (record : RefreshToken) (user : User) : Prop :=
  ∃ payload jti, refreshJti d envs.record.clock token = .ok (payload, jti) ∧
    envs.record.fails .query = false ∧ liveRecord s envs.record.clock jti = .ok record ∧
    envs.user.fails .query = false ∧ tokenUser s payload = .ok user ∧
    envs.revoke.fails .commit = false

/-- Nothing fails after it, and the new record has an id and a `jti` of its own. -/
structure Replaces (s : State) (env : Env) : Prop where
  reload : env.fails .reload = false
  issue : env.fails .issue = false
  id : env.tokenId ∉ s.refreshTokens.map RefreshToken.id
  jti : env.refreshJti.str ∉ s.refreshTokens.map RefreshToken.tokenJti

/-- Record ids are unique, and the record with the `jti` of a call of `issue_tokens` is of
    the user of that call. -/
structure Consistent (s : State) : Prop where
  ids : (s.refreshTokens.map RefreshToken.id).Nodup
  owner : ∀ i ∈ s.issued, ∀ r ∈ s.refreshTokens, r.tokenJti = i.jti.str → r.userId = i.user.id

/-! ## The steps of a call -/

theorem foldl_returned (envs : List Env) (s : State)
    (result : Except ServiceError (String × String)) :
    envs.foldl (fun c env => refreshStep d token env c.1 c.2) (s, .returned result) =
      (s, .returned result) := by
  induction envs with
  | nil => rfl
  | cons env envs ih => exact ih

/-- **What a call does**: it fails and changes nothing, or it commits the revocation and
    goes on. -/
theorem rotate_cases (s : State) (envs : Envs) :
    ((∀ record user, ¬ Commits d token s envs record user) ∧
      ∃ e, rotate d token s envs = (s, .returned (.error e))) ∨
    ∃ record user, Commits d token s envs record user ∧
      rotate d token s envs =
        refreshStep d token envs.issue (revokeRecord s record) (.committed user) := by
  rw [rotate, List.foldl_cons, refreshStep]
  rcases hjti : refreshJti d envs.record.clock token with e | ⟨payload, jti⟩
  · refine Or.inl ⟨?_, e, foldl_returned ..⟩
    rintro record user ⟨_, _, hok, -⟩
    rw [hjti] at hok
    cases hok
  dsimp only
  rcases hquery : envs.record.fails .query with _ | _
  swap
  · refine Or.inl ⟨?_, .database, foldl_returned ..⟩
    rintro record user ⟨_, _, -, hfine, -⟩
    rw [hquery] at hfine
    cases hfine
  simp only [Bool.false_eq_true, if_false]
  rcases hlive : liveRecord s envs.record.clock jti with e | record
  · refine Or.inl ⟨?_, e, foldl_returned ..⟩
    rintro record user ⟨_, _, hok, -, hfound, -⟩
    rw [hjti] at hok
    cases hok
    rw [hlive] at hfound
    cases hfound
  dsimp only
  rw [List.foldl_cons, refreshStep]
  rcases hquery' : envs.user.fails .query with _ | _
  swap
  · refine Or.inl ⟨?_, .database, foldl_returned ..⟩
    rintro record user ⟨_, _, -, -, -, hfine, -⟩
    rw [hquery'] at hfine
    cases hfine
  simp only [Bool.false_eq_true, if_false]
  rcases huser : tokenUser s payload with e | user
  · refine Or.inl ⟨?_, e, foldl_returned ..⟩
    rintro record user ⟨_, _, hok, -, -, -, hfound, -⟩
    rw [hjti] at hok
    cases hok
    rw [huser] at hfound
    cases hfound
  dsimp only
  rw [List.foldl_cons, refreshStep]
  rcases hcommit : envs.revoke.fails .commit with _ | _
  swap
  · refine Or.inl ⟨?_, .database, foldl_returned ..⟩
    rintro record user ⟨_, _, -, -, -, -, -, hfine⟩
    rw [hcommit] at hfine
    cases hfine
  simp only [Bool.false_eq_true, if_false]
  exact Or.inr ⟨record, user, ⟨payload, jti, hjti, hquery, hlive, hquery', huser, hcommit⟩, rfl⟩

/-- The rest of a call adds the new record and returns its tokens, or it fails and leaves
    the records alone. -/
theorem issue_cases (s : State) (env : Env) (user : User) :
    (Replaces s env ∧ ∃ t, refreshStep d token env s (.committed user) =
        (t, .returned (.ok (tokenPair d ⟨user, env.refreshJti, env.clock⟩))) ∧
      t.refreshTokens = s.refreshTokens ++ [newRecord d env user]) ∨
    (¬ Replaces s env ∧ ∃ t, refreshStep d token env s (.committed user) =
        (t, .returned (.error .database)) ∧ t.refreshTokens = s.refreshTokens) := by
  simp only [refreshStep, issueTokens]
  rcases hreload : env.fails .reload with _ | _
  swap
  · exact Or.inr ⟨fun h => by simp [h.reload] at hreload, _, rfl, rfl⟩
  simp only [Bool.false_eq_true, if_false]
  rcases hissue : env.fails .issue with _ | _
  swap
  · exact Or.inr ⟨fun h => by simp [h.issue] at hissue, _, rfl, rfl⟩
  simp only [Bool.false_eq_true, if_false]
  split
  · rename_i hinsId hinsJti
    obtain ⟨hid, rfl⟩ := Table.insertRow_eq_some.mp hinsId
    have hjti := (Table.insertRow_eq_some.mp hinsJti).1
    exact Or.inl ⟨⟨hreload, hissue, Table.not_mem_of_fresh hid, Table.not_mem_of_fresh hjti⟩,
      _, rfl, rfl⟩
  · rename_i hnot
    refine Or.inr ⟨?_, _, rfl, rfl⟩
    intro h
    exact hnot _ _ (Table.insertRow_of_fresh h.id) (Table.insertRow_of_fresh h.jti)

/-- An unrevoked record that is revoked changes. -/
theorem refreshTokens_revokeRecord_ne {s : State} {record : RefreshToken}
    (hmem : record ∈ s.refreshTokens) (hlive : record.revoked = false) :
    (revokeRecord s record).refreshTokens ≠ s.refreshTokens := by
  intro heq
  have hrow : ∀ r ∈ s.refreshTokens,
      (if r.id = record.id then { r with revoked := true } else r) = r :=
    List.map_inj_left.mp (heq.trans (List.map_id _).symm)
  have hrevoked := congrArg RefreshToken.revoked (hrow record hmem)
  rw [if_pos rfl, hlive] at hrevoked
  cases hrevoked

variable {d token}

/-- A call that gets past its first commit is atomic exactly when it issues the new pair. -/
theorem atomic_iff_of_commits {s : State} {envs : Envs} {record : RefreshToken} {user : User}
    (hs : Consistent s) (hgenuine : Genuine d s token)
    (hcommits : Commits d token s envs record user)
    (hrotate : rotate d token s envs =
      refreshStep d token envs.issue (revokeRecord s record) (.committed user)) :
    Atomic d token s envs ↔ Replaces s envs.issue := by
  obtain ⟨payload, jti, hjti, -, hlive, -, huser, -⟩ := hcommits
  obtain ⟨hfound, hunrevoked⟩ := liveRecord_ok hlive
  have hmem : record ∈ s.refreshTokens := Table.mem_of_lookup hfound
  have hreplaces : Replaces (revokeRecord s record) envs.issue ↔ Replaces s envs.issue := by
    have hid := map_revokeRecord (g := RefreshToken.id) (fun _ => rfl) s record
    have hjti := map_revokeRecord (g := RefreshToken.tokenJti) (fun _ => rfl) s record
    constructor
    · rintro ⟨hreload, hissue, hidFresh, hjtiFresh⟩
      exact ⟨hreload, hissue, hid ▸ hidFresh, hjti ▸ hjtiFresh⟩
    · rintro ⟨hreload, hissue, hidFresh, hjtiFresh⟩
      exact ⟨hreload, hissue, hid.symm ▸ hidFresh, hjti.symm ▸ hjtiFresh⟩
  rw [← hreplaces, Atomic, hrotate]
  rcases issue_cases d token (revokeRecord s record) envs.issue user with
    ⟨hissues, t, hdone, hrecords⟩ | ⟨hfails, t, hdone, hrecords⟩
  · refine iff_of_true (Or.inr ?_) hissues
    have hsame : user.id = record.userId :=
      (userId_of_token hs.owner hgenuine hjti hfound huser).symm
    refine ⟨payload, jti, record, newRecord d envs.issue user,
      ⟨user, envs.issue.refreshJti, envs.issue.clock⟩, hjti, hlive, ?_, ?_, rfl, hsame, hsame, rfl,
      congrArg Prod.snd hdone⟩
    · rw [hdone, hrecords, revokeRecord, Table.modify_eq_map hs.ids hmem]
    · intro r hr heq
      exact (hreplaces.mp hissues).id (List.mem_map.mpr ⟨r, hr, heq⟩)
  · refine iff_of_false ?_ hfails
    rw [hdone]
    rintro (h | ⟨_, _, _, _, _, -, -, -, -, -, -, -, -, hreturned⟩)
    · exact refreshTokens_revokeRecord_ne hmem hunrevoked (hrecords.symm.trans h.records)
    · cases hreturned

/-- **A rotation is atomic exactly when it issues the new pair or fails before it has
    revoked the old token**, for every consistent state, every genuine token and whatever
    fails. -/
theorem rotation_atomic_iff {s : State} (hs : Consistent s) (hgenuine : Genuine d s token)
    (envs : Envs) :
    Atomic d token s envs ↔
      ∀ record user, Commits d token s envs record user → Replaces s envs.issue := by
  rcases rotate_cases d token s envs with ⟨hnot, e, heq⟩ | ⟨record, user, hcommits, hrotate⟩
  · refine iff_of_true (Or.inl ?_) fun record user h => absurd h (hnot record user)
    rw [heq]
    exact ⟨rfl, fun _ => Iff.rfl⟩
  · rw [atomic_iff_of_commits hs hgenuine hcommits hrotate]
    exact ⟨fun h _ _ _ => h, fun h => h record user hcommits⟩

/-! ## Reachable states are consistent -/

/-- A call of `issue_tokens` whose commit fails. -/
theorem Linked.sign {used : List Handled} {s t : State} {next : Handled} (h : Linked used s)
    (hfresh : Fresh used next.env) (user : User) (hrecords : t.refreshTokens = s.refreshTokens)
    (hissued : t.issued = s.issued ++ [⟨user, next.env.refreshJti, next.env.clock⟩]) :
    Linked (used ++ [next]) t := by
  have hmore := h.more (t := s) next rfl rfl
  refine ⟨hrecords ▸ hmore.ids, hrecords ▸ hmore.idUsed, hrecords ▸ hmore.jtiUsed, ?_, ?_⟩
  · rw [hissued, List.map_append]
    exact Table.refers_append h.issueUsed (List.subset_append_left _ _) (by simp)
  · intro i hi r hr hjti
    rw [hissued] at hi
    rw [hrecords] at hr
    rcases List.mem_append.mp hi with hi | hi
    · exact h.owner i hi r hr hjti
    · rw [List.mem_singleton.mp hi] at hjti
      exact absurd hjti (h.jti_ne hfresh r hr)

theorem linked_issueTokens {used : List Handled} {s : State} {next : Handled} (h : Linked used s)
    (hfresh : Fresh used next.env) (user : User) :
    Linked (used ++ [next]) (issueTokens d s next.env user).1 := by
  have hissued := (issueTokens_state d s next.env user).2
  simp only [issueTokens] at hissued ⊢
  split
  · exact Linked.sign h hfresh user rfl rfl
  split
  · rename_i hins _
    exact h.issue d hfresh user (Table.insertRow_eq_some.mp hins).2 rfl
  · exact Linked.sign h hfresh user rfl rfl

theorem revokeRefreshToken_cases (s : State) (env : Env) (cookie : Option String) :
    (revokeRefreshToken d s env cookie).1 = s ∨
      ∃ record, (revokeRefreshToken d s env cookie).1 = revokeRecord s record := by
  unfold revokeRefreshToken
  repeat' split
  all_goals first
    | exact Or.inl rfl
    | exact Or.inr ⟨_, rfl⟩

/-- Whatever fails. -/
theorem linked_handle {used : List Handled} {s : State} {h : Handled} (hlinked : Linked used s)
    (hfresh : Fresh used h.env) : Linked (used ++ [h]) (handle d s h) := by
  obtain ⟨request, env⟩ := h
  cases request with
  | register data =>
    obtain ⟨hrecords, hissued⟩ := registerUser_records d s env data
    exact hlinked.more _ hrecords hissued
  | login email password =>
    simp only [handle, serve]
    split
    · exact hlinked.more _ rfl rfl
    · exact linked_issueTokens hlinked hfresh _
  | refresh cookies =>
    simp only [handle, serve]
    split
    · exact hlinked.more _ rfl rfl
    split
    · exact hlinked.more _ rfl rfl
    rename_i cookie _ _
    rcases refreshSession_cases d s env cookie with ⟨e, heq⟩ |
      ⟨_, _, record, user, -, -, -, ⟨-, heq⟩ | heq⟩
    · rw [heq]
      exact hlinked.more _ rfl rfl
    · rw [heq]
      exact (hlinked.revoke record).more _ rfl rfl
    · rw [heq]
      exact linked_issueTokens (hlinked.revoke record) hfresh user
  | logout authorization cookies =>
    simp only [handle, serve]
    rcases revokeRefreshToken_cases (d := d) _ env
      (cookies.lookup d.settings.refreshTokenCookieName) with heq | ⟨record, heq⟩
    · rw [heq]
      exact hlinked.more _ rfl rfl
    · rw [heq]
      exact (hlinked.revoke record).more _ rfl rfl

/-- **Every state that requests reach is consistent**, whatever fails in them: only the
    identifiers that `uuid4` returns must not repeat. -/
theorem consistent_execute (run : List Handled)
    (hjtis : (run.map fun h => h.env.refreshJti).Nodup)
    (hids : (run.map fun h => h.env.tokenId).Nodup) :
    Consistent (execute d State.empty run) := by
  have hlinked : Linked run (execute d State.empty run) := by
    induction run using List.reverseRecOn with
    | nil => exact linked_empty
    | append_singleton run h ih =>
      rw [List.map_append, List.nodup_append] at hjtis hids
      rw [execute_concat]
      refine linked_handle (ih hjtis.1 hids.1) ⟨?_, ?_⟩
      · exact fun hmem => hjtis.2.2 _ hmem _ (List.mem_singleton.mpr rfl) rfl
      · exact fun hmem => hids.2.2 _ hmem _ (List.mem_singleton.mpr rfl) rfl
  exact ⟨hlinked.ids, hlinked.owner⟩

end Rotation

/-! ## A reload that fails -/

def registered : State := execute oneSession State.empty registerAndLogin

theorem registered_consistent : Consistent registered :=
  consistent_execute registerAndLogin (by decide +kernel) (by decide +kernel)

theorem refresh_genuine : Genuine oneSession registered "refresh" := by
  intro claims hverify
  rw [registered, registerAndLogin_issued]
  exact ⟨_, List.mem_singleton.mpr rfl, Or.inr (Option.some.inj hverify).symm⟩

/-- All calls meet the same; the reload after the first commit fails or not. -/
def rotation (reloadFails : Bool) : Envs :=
  let env : Env := { refreshEnv false with fails := fun call => reloadFails && call == .reload }
  ⟨env, env, env, env⟩

theorem lost_session : ¬ Atomic oneSession "refresh" registered (rotation true) := by
  rintro (h | ⟨_, _, _, _, _, -, -, -, -, -, -, -, -, hreturned⟩)
  · exact absurd h.records (by decide +kernel)
  · have hpair : ((rotate oneSession "refresh" registered (rotation true)).2).isPair = false := by
      decide +kernel
    rw [hreturned] at hpair
    cases hpair

theorem rotation_succeeds : Atomic oneSession "refresh" registered (rotation false) := by
  refine (rotation_atomic_iff registered_consistent refresh_genuine _).mpr ?_
  intro record user _
  exact ⟨rfl, rfl, by decide +kernel, by decide +kernel⟩

end CampusHire.RotationAtomicity
