import CampusHire.OpportunityUpdates
import CampusHire.ProfileUpdates

/-!
# Concurrent partial updates

Two updates of one opportunity by its owner, and two updates of one student's profile.
SQLAlchemy writes the columns whose assigned value differs from the loaded one, as a deadline
without an offset and a cgpa of `nan` always do, so updates of different columns both take
full effect.  Of two updates that share columns, the second to commit mixes the two when it
sets one shared column to what it had loaded, which is not written, and another one to
something else, which is.
-/

namespace CampusHire.ConcurrentUpdates

open CampusHire Schedule TwoPhase PartialUpdate

/-- **Two concurrent updates serialize exactly in the runs in which no commit mixes
    them**, whatever fields and values they set and however their reads and commits are
    ordered; disjoint updates both take full effect in every run. -/
theorem updates_serialize_iff (order : List Bool) :
    (∀ (id coordinatorId : UUID) (updates : Bool → OpportunityService.OpportunityUpdate)
        (envs : Bool → OpportunityService.Env) (s : OpportunityService.State)
        (opp : OpportunityService.Opportunity),
      OpportunityService.Owned id coordinatorId s opp →
      (∀ i, ∃ result, (OpportunityUpdates.together id coordinatorId updates envs s order).task i =
        .finished result) →
      ((∃ i, OpportunityService.storedColumns id
            (OpportunityUpdates.together id coordinatorId updates envs s order).store =
          OpportunityService.storedColumns id
            (OpportunityUpdates.inOrder id coordinatorId updates envs i s)) ↔
        Guarded OpportunityService.program
          (fun c i _ => OpportunityUpdates.Unmixed updates envs c i)
          (start s (OpportunityUpdates.tasks id coordinatorId updates))
          (interleave envs order)) ∧
      (Disjoint (OpportunityUpdates.assignments updates envs true)
          (OpportunityUpdates.assignments updates envs false) →
        OpportunityService.storedColumns id
            (OpportunityUpdates.together id coordinatorId updates envs s order).store =
          some (merge (OpportunityUpdates.assignments updates envs true)
            (OpportunityUpdates.assignments updates envs false) opp.columns))) ∧
    (∀ (d : AuthService.Deployment) (user : AuthService.User)
        (updates : Bool → Profiles.ProfileUpdate) (envs : Bool → AuthService.Env)
        (s : AuthService.State) (profile : AuthService.StudentProfile),
      Profiles.Has user.id profile.id s profile →
      (∀ i, ∃ result,
        (ProfileUpdates.together d user updates envs s order).task i = .ended result) →
      ((∃ i, Profiles.storedColumns user.id
            (ProfileUpdates.together d user updates envs s order).store =
          Profiles.storedColumns user.id (ProfileUpdates.inOrder user updates envs i s)) ↔
        Guarded (Profiles.program d) (fun c i _ => ProfileUpdates.Unmixed updates envs c i)
          (start s (ProfileUpdates.tasks user updates)) (interleave envs order)) ∧
      (Disjoint (ProfileUpdates.assignments updates envs true)
          (ProfileUpdates.assignments updates envs false) →
        Profiles.storedColumns user.id
            (ProfileUpdates.together d user updates envs s order).store =
          some (merge (ProfileUpdates.assignments updates envs true)
            (ProfileUpdates.assignments updates envs false) (Profiles.columns profile)))) := by
  constructor
  · intro id coordinatorId updates envs s opp howned hdone
    exact OpportunityUpdates.row_serializes_iff howned order hdone
  · intro d user updates envs s profile hhas hdone
    exact ProfileUpdates.row_serializes_iff hhas order hdone

/-! ## Two updates of an opportunity -/

def posting : OpportunityService.Opportunity where
  id := .ofNat 1
  title := "Intern"
  description := some "Lab"
  coordinatorId := .ofNat 2
  deadline := none
  status := "published"
  createdAt := 0

def posted : OpportunityService.State := ⟨[posting], [], [], []⟩

theorem owned_posted : OpportunityService.Owned (.ofNat 1) (.ofNat 2) posted posting :=
  ⟨rfl, rfl, by decide, by decide⟩

def opportunityEnvs (_ : Bool) : OpportunityService.Env where
  profile := .unreachable
  uuid4 := fun _ => .ofNat 0
  txnStart := 0
  clock := 0
  databaseFails := false
  exportFails := fun _ => false
  reloadFails := fun _ => false

/-- One sets both columns; the other sets the title to what it is, and the description. -/
def retitle : Bool → OpportunityService.OpportunityUpdate
  | false => { title := some (some "Engineer"), description := some (some "Plant") }
  | true => { title := some (some "Intern"), description := some (some "Office") }

def overlap : List Bool := [false, true, false, true, false, true]

/-- The new title of one with the description of the other. -/
theorem mixed_row :
    (∀ i, ∃ result, (OpportunityUpdates.together (.ofNat 1) (.ofNat 2) retitle opportunityEnvs posted
      overlap).task i = .finished result) ∧
    ¬ ∃ i, OpportunityService.storedColumns (.ofNat 1)
        (OpportunityUpdates.together (.ofNat 1) (.ofNat 2) retitle opportunityEnvs posted
          overlap).store =
      OpportunityService.storedColumns (.ofNat 1)
        (OpportunityUpdates.inOrder (.ofNat 1) (.ofNat 2) retitle opportunityEnvs i posted) := by
  constructor
  · intro i
    cases i
    · exact ⟨_, rfl⟩
    · exact ⟨_, rfl⟩
  · rintro ⟨i, heq⟩
    cases i with
    | false =>
      -- the other one would have set the title back
      have htitle := congrArg (fun row => row.map fun r => r .title) heq
      exact absurd htitle (by decide +kernel)
    | true =>
      have hdescription := congrArg (fun row => row.map fun r => r .description) heq
      exact absurd hdescription (by decide +kernel)

/-! ## Disjoint updates -/

def retitleOnly : Bool → OpportunityService.OpportunityUpdate
  | false => { title := some (some "Engineer") }
  | true => { description := some (some "Office") }

theorem disjoint_retitleOnly :
    Disjoint (OpportunityUpdates.assignments retitleOnly opportunityEnvs true)
      (OpportunityUpdates.assignments retitleOnly opportunityEnvs false) := by
  intro k
  cases k with
  | title => exact Or.inl rfl
  | description => exact Or.inr rfl
  | deadline => exact Or.inl rfl
  | status => exact Or.inl rfl

def student : AuthService.User := ⟨.ofNat 5, "s@campus", "hash", .student, true⟩

def studentProfile : AuthService.StudentProfile := { id := .ofNat 6, userId := .ofNat 5 }

def enrolled : AuthService.State := ⟨[student], [studentProfile], [], [], []⟩

theorem has_enrolled : Profiles.Has student.id studentProfile.id enrolled studentProfile :=
  ⟨rfl, rfl, rfl, rfl, rfl, rfl⟩

def contact : Bool → Profiles.ProfileUpdate
  | false => { name := some (some "Ada") }
  | true => { phone := some (some "555") }

def profileEnvs (_ : Bool) : AuthService.Env := .untroubled (.ofNat 0) 0

theorem disjoint_contact :
    Disjoint (ProfileUpdates.assignments contact profileEnvs true)
      (ProfileUpdates.assignments contact profileEnvs false) := by
  intro k
  cases k with
  | phone => exact Or.inr rfl
  | name | cgpa | branch | year | skills => exact Or.inl rfl

def plain : AuthService.Deployment where
  jose := .ofTable []
  pwdContext := ⟨fun _ password => password, fun password hash => decide (password = hash)⟩
  settings := { jwtSecretKey := "secret" }

/-- Both read before either commits, and both updates stand. -/
theorem both_take_effect :
    OpportunityService.storedColumns (.ofNat 1)
        (OpportunityUpdates.together (.ofNat 1) (.ofNat 2) retitleOnly opportunityEnvs posted
          overlap).store =
      some (merge (OpportunityUpdates.assignments retitleOnly opportunityEnvs true)
        (OpportunityUpdates.assignments retitleOnly opportunityEnvs false) posting.columns) ∧
    Profiles.storedColumns student.id
        (ProfileUpdates.together plain student contact profileEnvs enrolled
          (overlap ++ [false, true])).store =
      some (merge (ProfileUpdates.assignments contact profileEnvs true)
        (ProfileUpdates.assignments contact profileEnvs false)
        (Profiles.columns studentProfile)) := by
  constructor
  · refine ((updates_serialize_iff overlap).1 (.ofNat 1) (.ofNat 2) retitleOnly opportunityEnvs
      posted posting owned_posted ?_).2 disjoint_retitleOnly
    intro i
    cases i
    · exact ⟨_, rfl⟩
    · exact ⟨_, rfl⟩
  · refine ((updates_serialize_iff (overlap ++ [false, true])).2 plain student contact profileEnvs
      enrolled studentProfile has_enrolled ?_).2 disjoint_contact
    intro i
    cases i
    · exact ⟨_, rfl⟩
    · exact ⟨_, rfl⟩

end CampusHire.ConcurrentUpdates
