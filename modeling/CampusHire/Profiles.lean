import CampusHire.AuthService

/-!
# Student profiles

The other half of `auth_service.py`: `get_or_create_profile`, `update_profile` and the two
routes over them.  `register_user` gives a student a profile; any other user gets one when
somebody first asks for it.
-/

namespace CampusHire.Profiles

open CampusHire AuthService

/-- `model_dump(exclude_unset=True)`: the fields that the body sets, each with its value. -/
structure ProfileUpdate where
  name : Option (Option String) := none
  cgpa : Option (Option PythonText.FloatValue) := none
  branch : Option (Option String) := none
  year : Option (Option Int) := none
  phone : Option (Option String) := none
  skills : Option (Option (List String)) := none

/-! ## Rows -/

def newProfile (env : Env) (userId : UUID) : StudentProfile :=
  { id := env.profileId, userId := userId }

@[simp] theorem newProfile_id (env : Env) (userId : UUID) :
    (newProfile env userId).id = env.profileId := rfl

@[simp] theorem newProfile_userId (env : Env) (userId : UUID) :
    (newProfile env userId).userId = userId := rfl

/-- The rows of `register_user`: `users.id`, `users.email` and `student_profiles.user_id`
    are unique. -/
def storeAccount (s : State) (user : User) (profile : Option StudentProfile) :
    Except ServiceError State :=
  match Table.insertRow User.id user s.users, Table.insertRow User.email user s.users with
  | some users, some _ =>
    match profile with
    | none => .ok { s with users := users }
    | some profile =>
      match Table.insertRow StudentProfile.id profile s.profiles,
          Table.insertRow StudentProfile.userId profile s.profiles with
      | some profiles, some _ => .ok { s with users := users, profiles := profiles }
      | _, _ => .error .database
  | _, _ => .error .database

/-- The row of `get_or_create_profile`: `user_id` is unique and refers to `users`. -/
def storeProfile (s : State) (profile : StudentProfile) : Except ServiceError State :=
  match Table.lookup User.id profile.userId s.users,
      Table.insertRow StudentProfile.id profile s.profiles,
      Table.insertRow StudentProfile.userId profile s.profiles with
  | some _, some profiles, some _ => .ok { s with profiles := profiles }
  | _, _, _ => .error .database

def acceptsUpdate (loaded : StudentProfile) (data : ProfileUpdate) : Bool :=
  (written loaded.name data.name).all (fits 255) &&
    (written loaded.branch data.branch).all (fits 100) &&
    (written loaded.phone data.phone).all (fits 20) &&
    (written loaded.year data.year).all fun year =>
      year.all fun y => decide (-2 ^ 31 ≤ y) && decide (y < 2 ^ 31)

/-- The row after the `UPDATE` of a session that had loaded `loaded`: `nan` is not equal to
    itself. -/
def applyUpdate (loaded : StudentProfile) (data : ProfileUpdate) (stored : StudentProfile) :
    StudentProfile :=
  { stored with
    name := (writtenText 255 loaded.name data.name).getD stored.name
    cgpa := (writtenAs id (Option.any PythonText.FloatValue.isNan) loaded.cgpa data.cgpa).getD
      stored.cgpa
    branch := (writtenText 100 loaded.branch data.branch).getD stored.branch
    year := (written loaded.year data.year).getD stored.year
    phone := (writtenText 20 loaded.phone data.phone).getD stored.phone
    skills := (written loaded.skills data.skills).getD stored.skills }

def updateRow (s : State) (loaded : StudentProfile) (data : ProfileUpdate) : State :=
  { s with profiles :=
      Table.modify StudentProfile.id loaded.id (applyUpdate loaded data) s.profiles }

def refreshProfile (s : State) (env : Env) (id : UUID) : Except ServiceError StudentProfile :=
  if env.fails .reload then .error .database
  else
    match Table.lookup StudentProfile.id id s.profiles with
    | some profile => .ok profile
    | none => .error .database

/-! ## Functions -/

def getOrCreateProfile (s : State) (env : Env) (user : User) :
    State × Except ServiceError StudentProfile :=
  if env.fails .query then (s, .error .database)
  else
    match Table.lookup StudentProfile.userId user.id s.profiles with
    | some profile => (s, .ok profile)
    | none =>
      if env.fails .commit then (s, .error .database)
      else
        match storeProfile s (newProfile env user.id) with
        | .error e => (s, .error e)
        | .ok s' => (s', refreshProfile s' env env.profileId)

def updateProfile (s : State) (env : Env) (user : User) (data : ProfileUpdate) :
    State × Except ServiceError StudentProfile :=
  match getOrCreateProfile s env user with
  | (s', .error e) => (s', .error e)
  | (s', .ok profile) =>
    if env.fails .update || !acceptsUpdate profile data then (s', .error .database)
    else (updateRow s' profile data, refreshProfile (updateRow s' profile data) env profile.id)

/-! ## Routes -/

def findUser (s : State) (env : Env) (userId : UUID) : Except ServiceError (Option User) :=
  if env.fails .query then .error .database else .ok (Table.lookup User.id userId s.users)

def getProfile (s : State) (env : Env) (userId : UUID) :
    State × Except ServiceError StudentProfile :=
  match findUser s env userId with
  | .error e => (s, .error e)
  | .ok none => (s, .error (.http 404 "User not found"))
  | .ok (some user) => getOrCreateProfile s env user

/-- The user of the token may not exist: then `user.id` raises. -/
def putProfile (s : State) (env : Env) (user : CurrentUser) (data : ProfileUpdate) :
    State × Except ServiceError StudentProfile :=
  if user.role ≠ .student then (s, .error (.http 403 "Only students have profiles"))
  else
    match findUser s env user.id with
    | .error e => (s, .error e)
    | .ok none => (s, .error .value)
    | .ok (some dbUser) => updateProfile s env dbUser data

/-! ## What a commit does -/

/-- A registration adds its user and, for a student, the profile. -/
theorem insertUser_eq (s : State) (env : Env) (user : User) :
    insertUser s env user =
      if env.fails .commit then .error .database
      else storeAccount s user
        (if user.role = .student then some (newProfile env user.id) else none) := by
  unfold insertUser storeAccount
  rcases Table.insertRow User.id user s.users with _ | users
  · rfl
  rcases Table.insertRow User.email user s.users with _ | emails
  · rfl
  dsimp only
  by_cases hrole : user.role = .student
  · rewrite [if_pos hrole, if_pos hrole]
    rfl
  · rewrite [if_neg hrole, if_neg hrole]
    rfl

theorem storeAccount_ok {s t : State} {user : User} {profile : Option StudentProfile}
    (h : storeAccount s user profile = .ok t) :
    (∀ u ∈ s.users, u.id ≠ user.id) ∧ (∀ u ∈ s.users, u.email ≠ user.email) ∧
      (∀ p ∈ profile, ∀ q ∈ s.profiles, q.userId ≠ p.userId) ∧
      t.users = s.users ++ [user] ∧ t.profiles = s.profiles ++ profile.toList := by
  unfold storeAccount at h
  split at h
  swap
  · cases h
  rename_i users _ hid hemail
  obtain ⟨hfresh, rfl⟩ := Table.insertRow_eq_some.mp hid
  obtain ⟨hnew, -⟩ := Table.insertRow_eq_some.mp hemail
  rcases profile with _ | profile
  · cases h
    exact ⟨hfresh, hnew, by simp, rfl, (List.append_nil _).symm⟩
  · dsimp only at h
    split at h
    swap
    · cases h
    rename_i profiles _ hprofile howner
    obtain ⟨-, rfl⟩ := Table.insertRow_eq_some.mp hprofile
    obtain ⟨hsingle, -⟩ := Table.insertRow_eq_some.mp howner
    cases h
    refine ⟨hfresh, hnew, ?_, rfl, rfl⟩
    intro p hp
    obtain rfl := Option.mem_some_iff.mp hp
    exact hsingle

theorem storeAccount_records {s t : State} {user : User} {profile : Option StudentProfile}
    (h : storeAccount s user profile = .ok t) :
    t.refreshTokens = s.refreshTokens ∧ t.redis = s.redis ∧ t.issued = s.issued := by
  unfold storeAccount at h
  split at h
  swap
  · cases h
  rcases profile with _ | profile
  · cases h
    exact ⟨rfl, rfl, rfl⟩
  · dsimp only at h
    split at h
    · cases h
      exact ⟨rfl, rfl, rfl⟩
    · cases h

theorem storeProfile_ok {s t : State} {profile : StudentProfile}
    (h : storeProfile s profile = .ok t) :
    profile.userId ∈ s.users.map User.id ∧ (∀ p ∈ s.profiles, p.id ≠ profile.id) ∧
      (∀ p ∈ s.profiles, p.userId ≠ profile.userId) ∧
      t.users = s.users ∧ t.profiles = s.profiles ++ [profile] := by
  unfold storeProfile at h
  split at h
  swap
  · cases h
  rename_i owner profiles _ hfound hprofile howner
  obtain ⟨hfresh, rfl⟩ := Table.insertRow_eq_some.mp hprofile
  obtain ⟨hsingle, -⟩ := Table.insertRow_eq_some.mp howner
  cases h
  refine ⟨?_, hfresh, hsingle, rfl, rfl⟩
  rw [← Table.key_of_lookup hfound]
  exact List.mem_map_of_mem (Table.mem_of_lookup hfound)

@[simp] theorem updateRow_users (s : State) (loaded : StudentProfile) (data : ProfileUpdate) :
    (updateRow s loaded data).users = s.users := rfl

/-- An update leaves the owners of the profiles as they are. -/
theorem updateRow_userIds (s : State) (loaded : StudentProfile) (data : ProfileUpdate) :
    (updateRow s loaded data).profiles.map StudentProfile.userId =
      s.profiles.map StudentProfile.userId :=
  Table.map_modify (f := applyUpdate loaded data) (fun _ => rfl) s.profiles

end CampusHire.Profiles
