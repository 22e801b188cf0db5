import CampusHire.Campus
import CampusHire.Sessions

/-!
# What a student was admitted with

A stored application carries the profile that its student had at a moment in which the
request awaited the identity service, or an empty one; a stored registration was found
eligible with such a profile (`applications_founded`, `registrations_founded`).  No
profile gets into another student's application, however the services interleave, and the
opportunity is there, although no database refers to another.

The reason is passed along with the call: what a request for a profile knows at each of
its statements (`Asked`) is about its one user, and an answer, once given, is about a
moment that is past.
-/

namespace CampusHire.CampusProvenance

open CampusHire Schedule Campus
open CampusHire.AccountConsistency (Keyed Prepared prepared_step users_step)
open CampusHire.AdmissionGate (kept_taskStep)
open CampusHire.AuthService (Deployment StudentProfile User)
open CampusHire.OpportunityRecords (Kept)
open CampusHire.OpportunityService (findOpportunity rulesOf checkEligibility)
open CampusHire.Profiles (storeAccount storeProfile)

/-! ## What stays -/

/-- A profile under its id, with its owner. -/
def ownership (profile : StudentProfile) : UUID × UUID := (profile.id, profile.userId)

structure Lasting (s s' : Store) : Prop where
  users : s.identity.users ⊆ s'.identity.users
  owners : s.identity.profiles.map ownership ⊆ s'.identity.profiles.map ownership
  opportunities : Kept s.opportunities s'.opportunities

theorem Lasting.refl (s : Store) : Lasting s s :=
  ⟨List.Subset.refl _, List.Subset.refl _, .refl _⟩

def Stored (s : Store) (id : UUID) : Prop := ∃ opp, findOpportunity s.opportunities id = some opp

def HasAccount (s : Store) (userId : UUID) : Prop := userId ∈ s.identity.users.map User.id

theorem Lasting.stored {s s' : Store} (h : Lasting s s') {id : UUID} (hstored : Stored s id) :
    Stored s' id := by
  obtain ⟨opp, hfound⟩ := hstored
  obtain ⟨opp', hfound', -⟩ := h.opportunities.records id opp hfound
  exact ⟨opp', hfound'⟩

theorem Lasting.account {s s' : Store} (h : Lasting s s') {userId : UUID}
    (haccount : HasAccount s userId) : HasAccount s' userId :=
  List.map_subset _ h.users haccount

theorem Lasting.rules {s s' : Store} (h : Lasting s s') {id : UUID} (hstored : Stored s id) :
    rulesOf s'.opportunities id = rulesOf s.opportunities id := by
  obtain ⟨opp, hfound⟩ := hstored
  rw [rulesOf, rulesOf, h.opportunities.rules id opp hfound]

section Steps

variable (d : Deployment)

theorem storeAccount_profileIds {s t : AuthService.State} {user : User}
    {profile : Option StudentProfile} (hnodup : (s.profiles.map StudentProfile.id).Nodup)
    (h : storeAccount s user profile = .ok t) : (t.profiles.map StudentProfile.id).Nodup := by
  unfold storeAccount at h
  split at h
  swap
  · cases h
  rcases profile with _ | profile
  · cases h
    exact hnodup
  · dsimp only at h
    split at h
    swap
    · cases h
    rename_i profiles _ hprofile _
    obtain ⟨hfresh, rfl⟩ := Table.insertRow_eq_some.mp hprofile
    cases h
    exact Table.nodup_append_fresh hnodup hfresh

/-- A statement of the identity service adds users and profiles, and writes neither the id
    nor the owner of a profile. -/
theorem owners_step (env : AuthService.Env) (s : AuthService.State) (t : Profiles.Task) :
    s.profiles.map ownership ⊆ (Profiles.taskStep d env s t).1.profiles.map ownership := by
  rcases Profiles.taskStep_cases d env s t with heq | ⟨user, profile, s', -, hstore, heq⟩ |
    ⟨profile, data, s', -, hstore, heq⟩ | ⟨loaded, data, -, heq⟩
  · rw [heq]
    exact List.Subset.refl _
  · rw [heq, (Profiles.storeAccount_ok hstore).2.2.2.2, List.map_append]
    exact List.subset_append_left _ _
  · rw [heq, (Profiles.storeProfile_ok hstore).2.2.2.2, List.map_append]
    exact List.subset_append_left _ _
  · rw [heq]
    have hsame : (Profiles.updateRow s loaded data).profiles.map ownership =
        s.profiles.map ownership :=
      Table.map_modify (f := Profiles.applyUpdate loaded data) (fun _ => rfl) s.profiles
    rw [hsame]
    exact List.Subset.refl _

theorem profileIds_step (env : AuthService.Env) {s : AuthService.State} (t : Profiles.Task)
    (h : (s.profiles.map StudentProfile.id).Nodup) :
    ((Profiles.taskStep d env s t).1.profiles.map StudentProfile.id).Nodup := by
  rcases Profiles.taskStep_cases d env s t with heq | ⟨user, profile, s', -, hstore, heq⟩ |
    ⟨profile, data, s', -, hstore, heq⟩ | ⟨loaded, data, -, heq⟩
  · rw [heq]
    exact h
  · rw [heq]
    exact storeAccount_profileIds h hstore
  · rw [heq, (Profiles.storeProfile_ok hstore).2.2.2.2]
    exact Table.nodup_append_fresh h (Profiles.storeProfile_ok hstore).2.1
  · rw [heq]
    have hsame : (Profiles.updateRow s loaded data).profiles.map StudentProfile.id =
        s.profiles.map StudentProfile.id :=
      Table.map_modify (f := Profiles.applyUpdate loaded data) (fun _ => rfl) s.profiles
    rw [hsame]
    exact h

theorem lasting_identity (env : AuthService.Env) (s : Store) (t : Profiles.Task) :
    Lasting s { s with identity := (Profiles.taskStep d env s.identity t).1 } :=
  ⟨users_step d env s.identity t, owners_step d env s.identity t, .refl _⟩

theorem lasting_call (env : Env) (s : Store) (call : Call) :
    Lasting s (callStep d env s call).1 := by
  unfold callStep
  split
  · split
    · exact .refl s
    · exact .refl s
  · split
    · exact .refl s
    · split
      · exact .refl s
      · exact lasting_identity d env.identity s _
  · exact .refl s

theorem lasting_opportunity (env : OpportunityService.Env) (s : Store)
    (t : OpportunityService.Task) : Lasting s (opportunityStep env s t).1 :=
  ⟨List.Subset.refl _, List.Subset.refl _, kept_taskStep env s.opportunities t⟩

theorem lasting_application (env : ApplicationService.Env) (s : Store)
    (t : ApplicationService.Task) : Lasting s (applicationStep env s t).1 :=
  ⟨List.Subset.refl _, List.Subset.refl _, .refl _⟩

theorem lasting_step (env : Env) (s : Store) (t : Task) : Lasting s (step d env s t).1 := by
  unfold step
  split
  · exact lasting_identity d env.identity s _
  · exact lasting_opportunity _ s _
  · exact lasting_opportunity _ s _
  · exact lasting_call d env s _
  · exact lasting_application _ s _
  · exact lasting_application _ s _
  · exact lasting_call d env s _

end Steps

/-! ## What a call knows -/

section Calls

variable {ι : Type*}

/-- Moments of a run. -/
abbrev Moments (ι : Type*) := Config Store Task ι → Prop

/-- The profile of the user, as the identity service shows what was stored at one of the
    moments. -/
def Shown (moments : Moments ι) (userId : UUID) (body : Json) : Prop :=
  ∃ c profile updatedAt, moments c ∧ profile ∈ c.store.identity.profiles ∧
    profile.userId = userId ∧ body = profileJson profile updatedAt

/-- What a request for the profile of a user knows at its next statement. -/
def Asked (moments : Moments ι) (s : Store) (userId : UUID) : Profiles.Task → Prop
  | .profileUser id none => id = userId
  | .profileQuery user none | .profileInsert user none => user.id = userId
  | .profileCommit profile none => profile.userId = userId
  | .profileReload id none => (id, userId) ∈ s.identity.profiles.map ownership
  | .ended (.ok profile) => profile.userId = userId ∧ HasAccount s userId ∧
      ∃ c, moments c ∧ profile ∈ c.store.identity.profiles
  | .ended (.error e) => ∀ detail, e ≠ .http 200 detail
  | _ => False

/-- An answer with status 200 shows the user's profile. -/
def Truthful (moments : Moments ι) (s : Store) (userId : UUID) (answer : HttpAnswer) : Prop :=
  ∀ body, answer = .answered 200 body →
    ∃ shown, body = some shown ∧ HasAccount s userId ∧ Shown moments userId shown

def CallKnows (moments : Moments ι) (s : Store) (userId : UUID) : Call → Prop
  | .profile task => Asked moments s userId task
  | .answered answer => Truthful moments s userId answer
  | .opportunity _ => False

theorem Asked.lasting {moments : Moments ι} {s s' : Store} {userId : UUID} {t : Profiles.Task}
    (hlasting : Lasting s s') (h : Asked moments s userId t) : Asked moments s' userId t := by
  cases t with
  | profileReload id data =>
    cases data with
    | none => exact hlasting.owners h
    | some data => exact h
  | ended result =>
    cases result with
    | ok profile => exact ⟨h.1, hlasting.account h.2.1, h.2.2⟩
    | error e => exact h
  | profileUser id data => cases data <;> exact h
  | profileQuery user data => cases data <;> exact h
  | profileInsert user data => cases data <;> exact h
  | profileCommit profile data => cases data <;> exact h
  | _ => exact h

theorem CallKnows.lasting {moments : Moments ι} {s s' : Store} {userId : UUID} {call : Call}
    (hlasting : Lasting s s') (h : CallKnows moments s userId call) :
    CallKnows moments s' userId call := by
  cases call with
  | opportunity id => exact h
  | profile task => exact Asked.lasting hlasting h
  | answered answer =>
    intro body heq
    obtain ⟨shown, hbody, haccount, hshown⟩ := h body heq
    exact ⟨shown, hbody, hlasting.account haccount, hshown⟩

theorem Shown.mono {moments moments' : Moments ι} (hmoments : ∀ c, moments c → moments' c)
    {userId : UUID} {body : Json} (h : Shown moments userId body) : Shown moments' userId body := by
  obtain ⟨c, profile, updatedAt, hc, hrest⟩ := h
  exact ⟨c, profile, updatedAt, hmoments c hc, hrest⟩

theorem CallKnows.mono {moments moments' : Moments ι} (hmoments : ∀ c, moments c → moments' c)
    {s : Store} {userId : UUID} {call : Call} (h : CallKnows moments s userId call) :
    CallKnows moments' s userId call := by
  cases call with
  | opportunity id => exact h
  | answered answer =>
    intro body heq
    obtain ⟨shown, hbody, haccount, hshown⟩ := h body heq
    exact ⟨shown, hbody, haccount, hshown.mono hmoments⟩
  | profile task =>
    cases task with
    | ended result =>
      cases result with
      | ok profile =>
        obtain ⟨howner, haccount, c, hc, hmem⟩ := h
        exact ⟨howner, haccount, c, hmoments c hc, hmem⟩
      | error e => exact h
    | profileUser id data => cases data <;> exact h
    | profileQuery user data => cases data <;> exact h
    | profileInsert user data => cases data <;> exact h
    | profileCommit profile data => cases data <;> exact h
    | profileReload id data => cases data <;> exact h
    | _ => exact h

/-- What the tables of the identity service are like at every moment. -/
structure Sound (s : Store) : Prop where
  keyed : Keyed s.identity
  profileIds : (s.identity.profiles.map StudentProfile.id).Nodup

theorem not_ok_of_findUser {s : AuthService.State} {env : AuthService.Env} {userId : UUID}
    {e : ServiceError} (h : Profiles.findUser s env userId = .error e) (detail : String) :
    e ≠ .http 200 detail := by
  unfold Profiles.findUser at h
  split at h
  · cases h
    intro heq
    cases heq
  · cases h

theorem not_ok_of_storeProfile {s : AuthService.State} {profile : StudentProfile}
    {e : ServiceError} (h : storeProfile s profile = .error e) (detail : String) :
    e ≠ .http 200 detail := by
  unfold Profiles.storeProfile at h
  split at h
  · cases h
  · cases h
    intro heq
    cases heq

theorem not_ok_of_refreshProfile {s : AuthService.State} {env : AuthService.Env} {id : UUID}
    {e : ServiceError} (h : Profiles.refreshProfile s env id = .error e) (detail : String) :
    e ≠ .http 200 detail := by
  unfold Profiles.refreshProfile at h
  split at h
  · cases h
    intro heq
    cases heq
  · split at h
    · cases h
    · cases h
      intro heq
      cases heq

theorem refreshProfile_ok {s : AuthService.State} {env : AuthService.Env} {id : UUID}
    {profile : StudentProfile} (h : Profiles.refreshProfile s env id = .ok profile) :
    profile ∈ s.profiles ∧ profile.id = id := by
  unfold Profiles.refreshProfile at h
  split at h
  · cases h
  · split at h
    · rename_i hfound
      cases h
      exact ⟨Table.mem_of_lookup hfound, Table.key_of_lookup hfound⟩
    · cases h

/-- The profile that a statement returns is stored. -/
theorem asked_ended {moments : Moments ι} {c : Config Store Task ι} {userId : UUID}
    {profile : StudentProfile} (hc : moments c) (hsound : Sound c.store)
    (hmem : profile ∈ c.store.identity.profiles) (howner : profile.userId = userId) :
    Asked moments c.store userId (.ended (.ok profile)) := by
  refine ⟨howner, ?_, c, hc, hmem⟩
  rw [← howner]
  exact hsound.keyed.owners profile hmem

theorem owner_of_id {s : Store} (hsound : Sound s) {id userId : UUID} {profile : StudentProfile}
    (howned : (id, userId) ∈ s.identity.profiles.map ownership)
    (hmem : profile ∈ s.identity.profiles) (hid : profile.id = id) : profile.userId = userId := by
  obtain ⟨stored, hstored, heq⟩ := List.mem_map.mp howned
  have hstoredId : stored.id = id := congrArg Prod.fst heq
  have hsame := Table.lookup_of_mem hsound.profileIds hstored
  rw [hstoredId, ← hid, Table.lookup_of_mem hsound.profileIds hmem] at hsame
  rw [Option.some.inj hsame]
  exact congrArg Prod.snd heq

variable (d : Deployment)

/-- **A statement of the request passes on what it knows.** -/
theorem asked_step {moments : Moments ι} {c : Config Store Task ι} {userId : UUID}
    {t : Profiles.Task} (env : AuthService.Env) (hc : moments c) (hsound : Sound c.store)
    (h : Asked moments c.store userId t) (hrunning : ∀ result, t ≠ .ended result) :
    Asked moments { c.store with identity := (Profiles.taskStep d env c.store.identity t).1 } userId
      (Profiles.taskStep d env c.store.identity t).2 := by
  cases t with
  | profileUser id data =>
    rcases data with _ | data
    swap
    · exact h.elim
    simp only [Profiles.taskStep, Profiles.Task.registers, Bool.false_eq_true, if_false,
      Profiles.profileStep]
    split
    · rename_i herror
      exact not_ok_of_findUser herror
    · intro _ heq
      cases heq
    · rename_i user hfound
      unfold Profiles.findUser at hfound
      split at hfound
      · cases hfound
      · exact (Table.key_of_lookup (Except.ok.inj hfound)).trans h
  | profileQuery user data =>
    rcases data with _ | data
    swap
    · exact h.elim
    simp only [Profiles.taskStep, Profiles.Task.registers, Bool.false_eq_true, if_false,
      Profiles.profileStep]
    split
    · intro _ heq
      cases heq
    split
    · rename_i profile hfound
      exact asked_ended hc hsound (Table.mem_of_lookup hfound)
        ((Table.key_of_lookup hfound).trans h)
    · exact h
  | profileInsert user data =>
    rcases data with _ | data
    swap
    · exact h.elim
    simp only [Profiles.taskStep, Profiles.Task.registers, Bool.false_eq_true, if_false,
      Profiles.profileStep]
    split
    · intro _ heq
      cases heq
    · exact h
  | profileCommit profile data =>
    rcases data with _ | data
    swap
    · exact h.elim
    simp only [Profiles.taskStep, Profiles.Task.registers, Bool.false_eq_true, if_false,
      Profiles.profileStep]
    split
    · intro _ heq
      cases heq
    split
    · rename_i herror
      exact not_ok_of_storeProfile herror
    · rename_i s' hstore
      obtain ⟨-, -, -, -, hprofiles⟩ := Profiles.storeProfile_ok hstore
      have hmem : profile ∈ s'.profiles := by
        rw [hprofiles]
        exact List.mem_concat_self
      have howned : ownership profile ∈ s'.profiles.map ownership := List.mem_map_of_mem hmem
      rw [ownership, show profile.userId = userId from h] at howned
      exact howned
  | profileReload id data =>
    rcases data with _ | data
    swap
    · exact h.elim
    simp only [Profiles.taskStep, Profiles.Task.registers, Bool.false_eq_true, if_false,
      Profiles.profileStep]
    split
    · rename_i herror
      exact not_ok_of_refreshProfile herror
    · rename_i profile hfound
      obtain ⟨hmem, hid⟩ := refreshProfile_ok hfound
      exact asked_ended hc hsound hmem (owner_of_id hsound h hmem hid)
  | ended result => exact absurd rfl (hrunning result)
  | _ => exact h.elim

theorem truthful_fault (moments : Moments ι) (s : Store) (userId : UUID) (fault : Fault) :
    Truthful moments s userId fault.answer := by
  intro body heq
  exact absurd heq (fault.answer_ne_ok body)

theorem truthful_profile {moments : Moments ι} {s : Store} {userId : UUID} (updatedAt : Json)
    {result : Except ServiceError StudentProfile} (h : Asked moments s userId (.ended result)) :
    Truthful moments s userId (profileAnswer updatedAt result) := by
  intro body heq
  cases result with
  | ok profile =>
    obtain ⟨howner, haccount, c, hc, hmem⟩ := h
    cases heq
    exact ⟨_, rfl, haccount, c, profile, updatedAt, hc, hmem, howner, rfl⟩
  | error e =>
    cases e with
    | http code detail =>
      cases heq
      exact absurd rfl (h detail)
    | _ => cases heq

/-- The call of a profile goes on knowing whose it is. -/
theorem callKnows_step {moments : Moments ι} {c : Config Store Task ι} {userId : UUID}
    {call : Call} (env : Env) (hc : moments c) (hsound : Sound c.store)
    (h : CallKnows moments c.store userId call) :
    CallKnows moments (callStep d env c.store call).1 userId (callStep d env c.store call).2 := by
  cases call with
  | opportunity id => exact h.elim
  | answered answer => exact h
  | profile task =>
    rcases hfault : env.fault with _ | fault
    · by_cases hended : ∃ result, task = .ended result
      · obtain ⟨result, rfl⟩ := hended
        simp only [callStep, hfault]
        exact truthful_profile env.updatedAt h
      · have hrunning : ∀ result, task ≠ .ended result := not_exists.mp hended
        have hstep : callStep d env c.store (.profile task) =
            ({ c.store with identity := (Profiles.taskStep d env.identity c.store.identity task).1 },
              .profile (Profiles.taskStep d env.identity c.store.identity task).2) := by
          cases task with
          | ended result => exact absurd rfl (hrunning result)
          | _ => simp only [callStep, hfault]
        rw [hstep]
        exact asked_step d env.identity hc hsound h hrunning
    · simp only [callStep, hfault]
      exact truthful_fault moments c.store userId fault

end Calls

/-! ## What a request knows -/

section Requests

variable {ι : Type*}

/-- An `apply` of the student for the opportunity awaits the profile. -/
def Applying (studentId opportunityId : UUID) (c : Config Store Task ι) : Prop :=
  ∃ i data call, c.task i = .application (.fetchProfile studentId data) (some call) ∧
    data.opportunityId = opportunityId

/-- A `register_student` does. -/
def Registering (studentId opportunityId : UUID) (c : Config Store Task ι) : Prop :=
  ∃ i opp data call,
    c.task i = .opportunity (.fetchProfile opp opportunityId studentId data) (some call)

/-- What a request goes on with: a profile of the user, who has an account then, or `{}`
    when the identity service did not answer with one. -/
def Given (moments : Moments ι) (s : Store) (userId : UUID) (body : Json) : Prop :=
  body = .obj [] ∨ (HasAccount s userId ∧ Shown moments userId body)

/-- The student was found eligible with what the request was given. -/
def Admitted (past : Moments ι) (s : Store) (studentId opportunityId : UUID) : Prop :=
  Stored s opportunityId ∧ ∃ body,
    Given (fun c => past c ∧ Registering studentId opportunityId c) s studentId body ∧
      checkEligibility body (rulesOf s.opportunities opportunityId) = .ok true

def Knows (past : Moments ι) (s : Store) : Task → Prop
  | .identity task => Prepared s.identity task
  | .application (.fetchOpportunity _ data) call =>
      call = some (.opportunity data.opportunityId) ∨ ∃ answer, call = some (.answered answer) ∧
        ∀ body, answer = .answered 200 body → Stored s data.opportunityId
  | .application (.fetchProfile studentId data) call =>
      Stored s data.opportunityId ∧ ∃ called, call = some called ∧
        CallKnows (fun c => past c ∧ Applying studentId data.opportunityId c) s studentId called
  | .application _ call => call = none
  | .opportunity (.fetchProfile opp id studentId _) call =>
      opp.id = id ∧ Stored s id ∧ ∃ called, call = some called ∧
        CallKnows (fun c => past c ∧ Registering studentId id c) s studentId called
  | .opportunity (.registerCheck id studentId _) call => call = none ∧ Admitted past s studentId id
  | .opportunity (.registerCommit id studentId _) call => call = none ∧ Admitted past s studentId id
  | .opportunity _ call => call = none

structure Founded (past : Moments ι) (s : Store) : Prop where
  sound : Sound s
  applications : ∀ app ∈ s.applications.applications, Stored s app.opportunityId ∧
    Given (fun c => past c ∧ Applying app.studentId app.opportunityId c) s app.studentId
      app.profileSnapshot
  registrations : ∀ reg ∈ s.opportunities.registrations,
    Admitted past s reg.studentId reg.opportunityId

theorem Given.lasting {moments : Moments ι} {s s' : Store} {userId : UUID} {body : Json}
    (hlasting : Lasting s s') (h : Given moments s userId body) : Given moments s' userId body :=
  h.imp_right fun hshown => ⟨hlasting.account hshown.1, hshown.2⟩

theorem Given.mono {moments moments' : Moments ι} (hmoments : ∀ c, moments c → moments' c)
    {s : Store} {userId : UUID} {body : Json} (h : Given moments s userId body) :
    Given moments' s userId body :=
  h.imp_right fun hshown => ⟨hshown.1, hshown.2.mono hmoments⟩

theorem Admitted.lasting {past : Moments ι} {s s' : Store} {studentId opportunityId : UUID}
    (hlasting : Lasting s s') (h : Admitted past s studentId opportunityId) :
    Admitted past s' studentId opportunityId := by
  obtain ⟨hstored, body, hgiven, hcheck⟩ := h
  refine ⟨hlasting.stored hstored, body, hgiven.lasting hlasting, ?_⟩
  rw [hlasting.rules hstored]
  exact hcheck

theorem Admitted.mono {past past' : Moments ι} (hpast : ∀ c, past c → past' c) {s : Store}
    {studentId opportunityId : UUID} (h : Admitted past s studentId opportunityId) :
    Admitted past' s studentId opportunityId := by
  obtain ⟨hstored, body, hgiven, hcheck⟩ := h
  exact ⟨hstored, body, hgiven.mono fun c hc => ⟨hpast c hc.1, hc.2⟩, hcheck⟩

/-- What the callers make of a truthful answer. -/
theorem given_of_truthful {moments : Moments ι} {s : Store} {userId : UUID} {answer : HttpAnswer}
    {body : Json} (h : Truthful moments s userId answer)
    (hfetch : ApplicationService.fetchProfile answer = .ok body) :
    Given moments s userId body := by
  unfold ApplicationService.fetchProfile at hfetch
  split at hfetch
  · cases hfetch
  · split at hfetch
    · rename_i code hcode
      obtain ⟨shown, rfl, haccount, hshown⟩ := h _ (by rw [hcode])
      cases hfetch
      exact Or.inr ⟨haccount, hshown⟩
    · cases hfetch
      exact Or.inl rfl

/-- Both services read the answer in the same way. -/
theorem fetchProfile_eq (answer : HttpAnswer) :
    OpportunityService.fetchProfile answer = ApplicationService.fetchProfile answer := by
  cases answer with
  | unreachable => rfl
  | answered code body =>
    by_cases hcode : code = 200
    · simp [OpportunityService.fetchProfile, ApplicationService.fetchProfile, hcode]
    · simp [OpportunityService.fetchProfile, ApplicationService.fetchProfile, hcode]

theorem prepared_lasting {s s' : Store} (hlasting : Lasting s s') {t : Profiles.Task}
    (h : Prepared s.identity t) : Prepared s'.identity t := by
  cases t with
  | registerReload user | registerUnloaded user => exact hlasting.users h
  | _ => exact h

/-- Nothing that a request knows is undone by the steps of others. -/
theorem Knows.lasting {past : Moments ι} {s s' : Store} (hlasting : Lasting s s') {t : Task}
    (h : Knows past s t) : Knows past s' t := by
  cases t with
  | identity task => exact prepared_lasting hlasting h
  | application task call =>
    cases task with
    | fetchOpportunity studentId data =>
      refine h.imp_right ?_
      rintro ⟨answer, hcall, hstored⟩
      exact ⟨answer, hcall, fun body heq => hlasting.stored (hstored body heq)⟩
    | fetchProfile studentId data =>
      obtain ⟨hstored, called, hcall, hknows⟩ := h
      exact ⟨hlasting.stored hstored, called, hcall, hknows.lasting hlasting⟩
    | _ => exact h
  | opportunity task call =>
    cases task with
    | fetchProfile opp id studentId data =>
      obtain ⟨hid, hstored, called, hcall, hknows⟩ := h
      exact ⟨hid, hlasting.stored hstored, called, hcall, hknows.lasting hlasting⟩
    | registerCheck id studentId data => exact ⟨h.1, h.2.lasting hlasting⟩
    | registerCommit id studentId data => exact ⟨h.1, h.2.lasting hlasting⟩
    | _ => exact h

theorem Knows.mono {past past' : Moments ι} (hpast : ∀ c, past c → past' c) {s : Store} {t : Task}
    (h : Knows past s t) : Knows past' s t := by
  cases t with
  | identity task => exact h
  | application task call =>
    cases task with
    | fetchProfile studentId data =>
      obtain ⟨hstored, called, hcall, hknows⟩ := h
      exact ⟨hstored, called, hcall, hknows.mono fun c hc => ⟨hpast c hc.1, hc.2⟩⟩
    | _ => exact h
  | opportunity task call =>
    cases task with
    | fetchProfile opp id studentId data =>
      obtain ⟨hid, hstored, called, hcall, hknows⟩ := h
      exact ⟨hid, hstored, called, hcall, hknows.mono fun c hc => ⟨hpast c hc.1, hc.2⟩⟩
    | registerCheck id studentId data => exact ⟨h.1, h.2.mono hpast⟩
    | registerCommit id studentId data => exact ⟨h.1, h.2.mono hpast⟩
    | _ => exact h

theorem Founded.mono {past past' : Moments ι} (hpast : ∀ c, past c → past' c) {s : Store}
    (h : Founded past s) : Founded past' s where
  sound := h.sound
  applications := by
    intro app happ
    obtain ⟨hstored, hgiven⟩ := h.applications app happ
    exact ⟨hstored, hgiven.mono fun c hc => ⟨hpast c hc.1, hc.2⟩⟩
  registrations := fun reg hreg => (h.registrations reg hreg).mono hpast

end Requests

/-! ## What a step stores -/

/-- A stored application is one that was there, up to its status, or the one that `apply`
    commits with the profile it was given. -/
theorem application_of_step {env : ApplicationService.Env} {s : ApplicationService.State}
    {t : ApplicationService.Task} {app : ApplicationService.Application}
    (h : app ∈ (ApplicationService.taskStep env s t).1.applications) :
    (∃ old ∈ s.applications, app = { old with status := app.status }) ∨
      ∃ studentId data profile, t = .fetchProfile studentId data ∧
        ApplicationService.fetchProfile env.profile = .ok profile ∧
        app = ApplicationService.newApplication env studentId data profile := by
  rcases ApplicationService.taskStep_cases env s t with ⟨published, heq⟩ |
    ⟨studentId, data, profile, s', rfl, hprofile, hins, heq⟩ | ⟨row, s', -, hcommit, heq⟩ |
    ⟨row, current, actorId, status, s', -, hcommit, heq⟩
  · rw [heq] at h
    exact Or.inl ⟨app, h, rfl⟩
  · rw [heq, (ApplicationService.insertApplication_ok hins).2.2.1] at h
    rcases List.mem_append.mp h with h | h
    · exact Or.inl ⟨app, h, rfl⟩
    · exact Or.inr ⟨studentId, data, profile, rfl, hprofile, List.mem_singleton.mp h⟩
  · rw [heq, ApplicationService.commitWithdrawal_ok hcommit] at h
    exact Or.inl (ApplicationService.mem_writeStatus h)
  · rw [heq, (ApplicationService.commitStatus_ok hcommit).2.1] at h
    exact Or.inl (ApplicationService.mem_writeStatus h)

theorem registration_of_step {env : OpportunityService.Env} {s : OpportunityService.State}
    {t : OpportunityService.Task} {reg : OpportunityService.Registration}
    (h : reg ∈ (OpportunityService.taskStep env s t).1.registrations) :
    reg ∈ s.registrations ∨
      ∃ data, t = .registerCommit reg.opportunityId reg.studentId data := by
  rcases OpportunityService.taskStep_cases env s t with heq |
    ⟨coordinatorId, data, s', -, hins, heq⟩ | ⟨row, data, s', -, hcommit, heq⟩ |
    ⟨row, rest, s', -, hcommit, heq⟩ | ⟨opportunityId, studentId, data, s', rfl, hins, heq⟩
  · rw [heq] at h
    exact Or.inl h
  · rw [heq, (OpportunityService.insertOpportunity_ok hins).2.2] at h
    exact Or.inl h
  · rw [heq, OpportunityService.commitUpdate_ok hcommit] at h
    exact Or.inl h
  · rw [heq, OpportunityService.commitUpdate_ok hcommit] at h
    exact Or.inl h
  · rw [heq, (OpportunityService.insertRegistration_ok hins).2] at h
    rcases List.mem_append.mp h with h | h
    · exact Or.inl h
    · cases List.mem_singleton.mp h
      exact Or.inr ⟨data, rfl⟩

/-! ## Steps -/

section Runs

variable {ι : Type*} (d : Deployment)

theorem sound_identity {s : Store} {t : Profiles.Task} (env : AuthService.Env) (h : Sound s)
    (hprepared : Prepared s.identity t) :
    Sound { s with identity := (Profiles.taskStep d env s.identity t).1 } :=
  ⟨(AccountConsistency.keyed d).step_inv env s.identity t h.keyed hprepared,
    profileIds_step d env t h.profileIds⟩

theorem Asked.prepared {moments : Moments ι} {s : Store} {userId : UUID} {t : Profiles.Task}
    (h : Asked moments s userId t) : Prepared s.identity t := by
  cases t with
  | registerCommit | registerReload | registerUnloaded => exact h.elim
  | _ => trivial

theorem sound_call {moments : Moments ι} {s : Store} {userId : UUID} {call : Call} (env : Env)
    (h : Sound s) (hknows : CallKnows moments s userId call) :
    Sound (callStep d env s call).1 := by
  cases call with
  | opportunity id => exact hknows.elim
  | answered answer => exact h
  | profile task =>
    have hprepared : Prepared s.identity task := Asked.prepared hknows
    simp only [callStep]
    split
    · exact h
    split
    · exact h
    · exact sound_identity d env.identity h hprepared

/-- An opportunity that is shown is stored. -/
theorem callStep_opportunity (env : Env) (s : Store) (id : UUID) :
    (callStep d env s (.opportunity id)).1 = s ∧ ∃ answer,
      (callStep d env s (.opportunity id)).2 = .answered answer ∧
        ∀ body, answer = .answered 200 body → Stored s id := by
  rcases hfault : env.fault with _ | fault
  · simp only [callStep, hfault]
    refine ⟨trivial, _, rfl, ?_⟩
    intro body heq
    unfold OpportunityService.getOpportunity at heq
    split at heq
    · rename_i opp hfound
      exact ⟨opp, hfound⟩
    · cases heq
  · simp only [callStep, hfault]
    refine ⟨trivial, _, rfl, ?_⟩
    intro body heq
    exact absurd heq (fault.answer_ne_ok body)

/-- A request that has made a call knows what for. -/
theorem Knows.registering {past : Moments ι} {s : Store} {task : OpportunityService.Task}
    {called : Call} (h : Knows past s (.opportunity task (some called))) :
    ∃ opp id studentId data, task = .fetchProfile opp id studentId data ∧ opp.id = id ∧
      Stored s id ∧
      CallKnows (fun c => past c ∧ Registering studentId id c) s studentId called := by
  cases task with
  | fetchProfile opp id studentId data =>
    obtain ⟨hid, hstored, called', hcall, hcalled⟩ := h
    cases hcall
    exact ⟨opp, id, studentId, data, rfl, hid, hstored, hcalled⟩
  | registerCheck | registerCommit => cases h.1
  | _ => cases h

theorem Knows.applying {past : Moments ι} {s : Store} {task : ApplicationService.Task}
    {called : Call} (h : Knows past s (.application task (some called))) :
    (∃ studentId data, task = .fetchOpportunity studentId data ∧
      (called = .opportunity data.opportunityId ∨ ∃ answer, called = .answered answer ∧
        ∀ body, answer = .answered 200 body → Stored s data.opportunityId)) ∨
    (∃ studentId data, task = .fetchProfile studentId data ∧ Stored s data.opportunityId ∧
      CallKnows (fun c => past c ∧ Applying studentId data.opportunityId c) s studentId called) := by
  cases task with
  | fetchOpportunity studentId data =>
    refine Or.inl ⟨studentId, data, rfl, ?_⟩
    rcases h with hcall | ⟨answer, hcall, hstored⟩
    · exact Or.inl (Option.some.inj hcall)
    · exact Or.inr ⟨answer, Option.some.inj hcall, hstored⟩
  | fetchProfile studentId data =>
    obtain ⟨hstored, called', hcall, hcalled⟩ := h
    cases hcall
    exact Or.inr ⟨studentId, data, rfl, hstored, hcalled⟩
  | _ => cases h

theorem sound_step {past : Moments ι} {s : Store} {t : Task} (env : Env) (h : Sound s)
    (hknows : Knows past s t) : Sound (step d env s t).1 := by
  rcases step_cases d env s t with ⟨task, rfl, heq⟩ | ⟨task, call, met, -, -, heq⟩ |
    ⟨task, called, rfl, -, heq⟩ | ⟨task, call, met, -, -, heq⟩ | ⟨task, called, rfl, -, heq⟩
  · rw [heq]
    exact sound_identity d env.identity h hknows
  · rw [heq]
    exact ⟨h.keyed, h.profileIds⟩
  · obtain ⟨opp, id, studentId, data, -, -, -, hcalled⟩ := hknows.registering
    rw [heq]
    exact sound_call d env h hcalled
  · rw [heq]
    exact ⟨h.keyed, h.profileIds⟩
  · rw [heq]
    rcases hknows.applying with ⟨studentId, data, -, hcalled⟩ | ⟨studentId, data, -, -, hcalled⟩
    · rcases hcalled with rfl | ⟨answer, rfl, -⟩
      · rw [(callStep_opportunity d env s data.opportunityId).1]
        exact h
      · exact h
    · exact sound_call d env h hcalled

/-- The applications that a step leaves are those that were there, up to their status, and
    one that has been founded. -/
theorem applications_step {past : Moments ι} {s : Store} {t : Task} (env : Env)
    (hknows : Knows past s t) {app : ApplicationService.Application}
    (h : app ∈ (step d env s t).1.applications.applications) :
    (∃ old ∈ s.applications.applications, app = { old with status := app.status }) ∨
      (Stored s app.opportunityId ∧
        Given (fun c => past c ∧ Applying app.studentId app.opportunityId c) s app.studentId
          app.profileSnapshot) := by
  rcases step_cases d env s t with ⟨task, rfl, heq⟩ | ⟨task, call, met, -, -, heq⟩ |
    ⟨task, called, -, -, heq⟩ | ⟨task, call, met, rfl, hanswer, heq⟩ | ⟨task, called, -, -, heq⟩
  · rw [heq] at h
    exact Or.inl ⟨app, h, rfl⟩
  · rw [heq] at h
    exact Or.inl ⟨app, h, rfl⟩
  · rw [heq, callStep_applications] at h
    exact Or.inl ⟨app, h, rfl⟩
  · rw [heq] at h
    rcases application_of_step h with hold | ⟨studentId, data, profile, rfl, hprofile, rfl⟩
    · exact Or.inl hold
    · obtain ⟨hstored, called, rfl, hcalled⟩ := hknows
      rw [(hanswer called rfl).2] at hcalled
      exact Or.inr ⟨hstored, given_of_truthful hcalled hprofile⟩
  · rw [heq, callStep_applications] at h
    exact Or.inl ⟨app, h, rfl⟩

theorem registrations_step {past : Moments ι} {s : Store} {t : Task} (env : Env)
    (hknows : Knows past s t) {reg : OpportunityService.Registration}
    (h : reg ∈ (step d env s t).1.opportunities.registrations) :
    reg ∈ s.opportunities.registrations ∨ Admitted past s reg.studentId reg.opportunityId := by
  rcases step_cases d env s t with ⟨task, rfl, heq⟩ | ⟨task, call, met, rfl, -, heq⟩ |
    ⟨task, called, -, -, heq⟩ | ⟨task, call, met, -, -, heq⟩ | ⟨task, called, -, -, heq⟩
  · rw [heq] at h
    exact Or.inl h
  · rw [heq] at h
    rcases registration_of_step h with hold | ⟨data, rfl⟩
    · exact Or.inl hold
    · exact Or.inr hknows.2
  · rw [heq, callStep_opportunities] at h
    exact Or.inl h
  · rw [heq] at h
    exact Or.inl h
  · rw [heq, callStep_opportunities] at h
    exact Or.inl h

theorem founded_step {past : Moments ι} {s : Store} {t : Task} (env : Env) (h : Founded past s)
    (hknows : Knows past s t) : Founded past (step d env s t).1 where
  sound := sound_step d env h.sound hknows
  applications := by
    intro app happ
    have hlasting := lasting_step d env s t
    rcases applications_step d env hknows happ with ⟨old, hold, heq⟩ | ⟨hstored, hgiven⟩
    · obtain ⟨hstored, hgiven⟩ := h.applications old hold
      rw [heq]
      exact ⟨hlasting.stored hstored, hgiven.lasting hlasting⟩
    · exact ⟨hlasting.stored hstored, hgiven.lasting hlasting⟩
  registrations := by
    intro reg hreg
    have hlasting := lasting_step d env s t
    rcases registrations_step d env hknows hreg with hold | hadmitted
    · exact (h.registrations reg hold).lasting hlasting
    · exact hadmitted.lasting hlasting

theorem knows_opportunity {past : Moments ι} {s : Store} {task : OpportunityService.Task}
    {call : Option Call} (met : OpportunityService.Env)
    (hanswer : ∀ called, call = some called → called = .answered met.profile)
    (hknows : Knows past s (.opportunity task call)) :
    Knows past (opportunityStep met s task).1 (opportunityStep met s task).2 := by
  cases task with
  | registerRead id studentId data =>
    simp only [opportunityStep, OpportunityService.taskStep, OpportunityService.getOpportunity]
    rcases hfound : findOpportunity s.opportunities id with _ | opp
    · rfl
    · exact ⟨Table.key_of_lookup hfound, ⟨opp, hfound⟩, _, rfl, rfl⟩
  | fetchProfile opp id studentId data =>
    obtain ⟨rfl, hstored, called, rfl, hcalled⟩ := hknows
    rw [hanswer called rfl] at hcalled
    simp only [opportunityStep, OpportunityService.taskStep]
    rcases hfetch : OpportunityService.fetchProfile met.profile with e | profile
    · rfl
    rcases hcheck : checkEligibility profile (rulesOf s.opportunities opp.id) with e | _ | _
    · simp only [Except.bind, hcheck]
      rfl
    · simp only [Except.bind, hcheck]
      rfl
    · simp only [Except.bind, hcheck]
      rw [fetchProfile_eq] at hfetch
      exact ⟨rfl, hstored, profile, given_of_truthful hcalled hfetch, hcheck⟩
  | registerCheck id studentId data =>
    simp only [opportunityStep, OpportunityService.taskStep]
    split
    · rfl
    · exact ⟨rfl, hknows.2⟩
  | _ =>
    -- no other step is followed by one that knows something
    simp only [opportunityStep, OpportunityService.taskStep]
    repeat' split
    all_goals rfl

theorem knows_application {past : Moments ι} {s : Store} {task : ApplicationService.Task}
    {call : Option Call} (met : ApplicationService.Env)
    (hanswer : ∀ called, call = some called → called = .answered met.opportunity)
    (hknows : Knows past s (.application task call)) :
    Knows past (applicationStep met s task).1 (applicationStep met s task).2 := by
  cases task with
  | fetchOpportunity studentId data =>
    -- the answer has been read, since it is the one that the task goes on with
    have hread : ∀ body, met.opportunity = .answered 200 body → Stored s data.opportunityId := by
      rcases hknows with rfl | ⟨answer, rfl, hstored⟩
      · cases hanswer _ rfl
      · cases hanswer _ rfl
        exact hstored
    simp only [applicationStep, ApplicationService.taskStep]
    rcases hfetch : ApplicationService.fetchOpportunity met.opportunity with e | shown
    · rfl
    obtain ⟨body, hbody⟩ : ∃ body, met.opportunity = .answered 200 body := by
      unfold ApplicationService.fetchOpportunity at hfetch
      split at hfetch
      · cases hfetch
      · rename_i code body hcode
        split at hfetch
        · cases hfetch
        · rename_i hok
          exact ⟨body, by rw [hcode, not_not.mp hok]⟩
    dsimp only
    split
    · rfl
    · exact ⟨hread body hbody, _, rfl, rfl⟩
  | _ =>
    simp only [applicationStep, ApplicationService.taskStep]
    repeat' split
    all_goals rfl

/-- **A request passes on what it knows**, to its next statement and to its call. -/
theorem knows_step {past : Moments ι} {c : Config Store Task ι} (i : ι) (env : Env)
    (hpast : past c) (hsound : Sound c.store) (hknows : Knows past c.store (c.task i)) :
    Knows past (step d env c.store (c.task i)).1 (step d env c.store (c.task i)).2 := by
  rcases step_cases d env c.store (c.task i) with ⟨task, htask, heq⟩ |
    ⟨task, call, met, htask, hanswer, heq⟩ | ⟨task, called, htask, -, heq⟩ |
    ⟨task, call, met, htask, hanswer, heq⟩ | ⟨task, called, htask, -, heq⟩
  · rw [htask] at hknows
    rw [heq]
    exact prepared_step d env.identity hknows
  · rw [htask] at hknows
    rw [heq]
    exact knows_opportunity met hanswer hknows
  · rw [htask] at hknows
    obtain ⟨opp, id, studentId, data, rfl, hid, hstored, hcalled⟩ := hknows.registering
    have hmoment : past c ∧ Registering studentId id c := ⟨hpast, i, opp, data, called, htask⟩
    rw [heq]
    exact ⟨hid, (lasting_call d env c.store called).stored hstored, _, rfl,
      callKnows_step d env hmoment hsound hcalled⟩
  · rw [htask] at hknows
    rw [heq]
    exact knows_application met (fun called hcall => (hanswer called hcall).1) hknows
  · rw [htask] at hknows
    rw [heq]
    have hlasting := lasting_call d env c.store called
    rcases hknows.applying with ⟨studentId, data, rfl, hcalled⟩ |
      ⟨studentId, data, rfl, hstored, hcalled⟩
    · rcases hcalled with rfl | ⟨answer, rfl, hread⟩
      · obtain ⟨hstore, answer, hanswer, hread⟩ :=
          callStep_opportunity d env c.store data.opportunityId
        rw [hstore, hanswer]
        exact Or.inr ⟨answer, rfl, hread⟩
      · exact Or.inr ⟨answer, rfl, fun body hok => hlasting.stored (hread body hok)⟩
    · have hmoment : past c ∧ Applying studentId data.opportunityId c :=
        ⟨hpast, i, data, called, htask, rfl⟩
      exact ⟨hlasting.stored hstored, _, rfl, callKnows_step d env hmoment hsound hcalled⟩

/-- What the tables hold is founded, and every request knows why it goes on. -/
def founded : PastAnnotation (program d) ι where
  inv := Founded
  own past _ := Knows past
  inv_mono := fun hpast h => h.mono hpast
  own_mono := fun hpast h => h.mono hpast
  step_inv := fun _ _ _ env _ hfounded hknows => founded_step d env hfounded hknows
  step_own := fun _ _ i env hpast hfounded hknows => knows_step d i env hpast hfounded.sound hknows
  stable := fun _ c i _ env _ _ _ _ hknows =>
    hknows.lasting (lasting_step d env c.store (c.task i))

theorem knows_start (past : Moments ι) (arrival : Arrival) :
    Knows past Store.empty (Task.start arrival) := by
  cases arrival with
  | identity job =>
    rcases job with data | userId | ⟨user, data⟩
    · trivial
    · trivial
    · simp only [Task.start, Profiles.Task.start]
      split <;> trivial
  | opportunity job =>
    cases job with
    | processDeadlines => rfl
    | request user request =>
      cases request <;> simp only [Task.start, OpportunityService.Task.start] <;> split <;> rfl
  | application user request =>
    cases request with
    | create data =>
      simp only [Task.start, ApplicationService.Task.start]
      split
      · rfl
      · exact Or.inl rfl
    | withdraw id =>
      simp only [Task.start, ApplicationService.Task.start]
      split <;> rfl
    | patchStatus id status =>
      simp only [Task.start, ApplicationService.Task.start]
      split <;> rfl

theorem founded_empty (past : Moments ι) : Founded past Store.empty where
  sound := ⟨AccountConsistency.keyed_empty, List.nodup_nil⟩
  applications := by simp [Store.empty, ApplicationService.State.empty]
  registrations := by simp [Store.empty, OpportunityService.State.empty]

variable [DecidableEq ι]

theorem founded_run (arrivals : ι → Arrival) (schedule : List (ι × Env)) :
    Founded (Visited (program d) (arrive arrivals) schedule)
      (run (program d) (arrive arrivals) schedule).store := by
  have hstart : (founded d).Holds (Visited (program d) (arrive arrivals) []) (arrive arrivals) :=
    ⟨founded_empty _, fun i => knows_start _ (arrivals i)⟩
  exact ((founded d).holds_run hstart schedule).inv

/-- **What an application shows is the student's own.**  In every run of the three services,
    a stored application is for an opportunity that is stored, and its snapshot is `{}` or
    the profile of its student, who has an account, as it was stored at a moment of the run
    in which an `apply` of that student for that opportunity awaited it. -/
theorem applications_founded (arrivals : ι → Arrival) (schedule : List (ι × Env)) :
    ∀ app ∈ (run (program d) (arrive arrivals) schedule).store.applications.applications,
      Stored (run (program d) (arrive arrivals) schedule).store app.opportunityId ∧
        Given (fun c => Visited (program d) (arrive arrivals) schedule c ∧
            Applying app.studentId app.opportunityId c)
          (run (program d) (arrive arrivals) schedule).store app.studentId app.profileSnapshot :=
  (founded_run d arrivals schedule).applications

/-- **A registered student was found eligible**, with the profile that was stored at a
    moment of the run in which the request awaited it, or with `{}`, under the rules that
    the opportunity still has. -/
theorem registrations_founded (arrivals : ι → Arrival) (schedule : List (ι × Env)) :
    ∀ reg ∈ (run (program d) (arrive arrivals) schedule).store.opportunities.registrations,
      Admitted (Visited (program d) (arrive arrivals) schedule)
        (run (program d) (arrive arrivals) schedule).store reg.studentId reg.opportunityId :=
  (founded_run d arrivals schedule).registrations

end Runs

/-! ## A student signs up in both ways -/

/-- The threads of an example run. -/
inductive Thread where
  | account
  | creation
  | application
  | registration
deriving DecidableEq

def signUps : Thread → Arrival
  | .account => .identity (.register { email := "s@campus", password := "password" })
  | .creation => .opportunity (.request ⟨.ofNat 9, .coordinator⟩ (.createOpp { title := "Drive" }))
  | .application => .application ⟨.ofNat 1, .student⟩ (.create ⟨.ofNat 2, [], none⟩)
  | .registration => .opportunity (.request ⟨.ofNat 1, .student⟩
      (.createRegistration (.ofNat 2) {}))

/-- Every service answers, and the fresh identifiers are all one. -/
def answers (fresh : UUID) : Env where
  identity := .untroubled fresh 0
  opportunity := .untroubled fresh 0
  application := .untroubled fresh fresh 0
  fault := none
  updatedAt := .null
  shown := .null

/-- The student has an account and there is a drive, before the student applies and registers. -/
def signingUp : List (Thread × Env) :=
  List.replicate 5 (.account, answers (.ofNat 1)) ++
    List.replicate 2 (.creation, answers (.ofNat 2)) ++
    List.replicate 6 (.application, answers (.ofNat 3)) ++
    List.replicate 7 (.registration, answers (.ofNat 4))

def signedUp : Store := (run (program Sessions.oneSession) (arrive signUps) signingUp).store

theorem signed_application_founded :
    ∃ app ∈ signedUp.applications.applications, Stored signedUp app.opportunityId ∧
      Given (fun c => Visited (program Sessions.oneSession) (arrive signUps) signingUp c ∧
        Applying app.studentId app.opportunityId c) signedUp app.studentId
          app.profileSnapshot := by
  have hone : signedUp.applications.applications.length = 1 := by decide +kernel
  obtain ⟨app, happ⟩ := List.length_eq_one_iff.mp hone
  have hmem : app ∈ signedUp.applications.applications := by
    rw [happ]
    exact List.mem_singleton_self app
  exact ⟨app, hmem, applications_founded Sessions.oneSession signUps signingUp app hmem⟩

theorem signed_registration_founded :
    ∃ reg ∈ signedUp.opportunities.registrations,
      Admitted (Visited (program Sessions.oneSession) (arrive signUps) signingUp) signedUp
        reg.studentId reg.opportunityId := by
  have hone : signedUp.opportunities.registrations.length = 1 := by decide +kernel
  obtain ⟨reg, hreg⟩ := List.length_eq_one_iff.mp hone
  have hmem : reg ∈ signedUp.opportunities.registrations := by
    rw [hreg]
    exact List.mem_singleton_self reg
  exact ⟨reg, hmem, registrations_founded Sessions.oneSession signUps signingUp reg hmem⟩

end CampusHire.CampusProvenance
