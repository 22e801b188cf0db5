import CampusHire.OpportunityTasks

/-!
# One registration per student and opportunity

As for applications, no constraint of the table keeps a student from registering
twice, only the check that `register_student` makes.  Here the rule holds under
every interleaving (`one_registration`): nothing is awaited between the check and
the commit, so no other registration can get in between, and the threads that can
insert no registrations.
-/

namespace CampusHire.RegistrationUniqueness

open CampusHire OpportunityService Schedule

/-- What `register_student` checks: the opportunity and the student. -/
def pair (r : Registration) : UUID × UUID := (r.opportunityId, r.studentId)

def pairs (s : State) : List (UUID × UUID) := s.registrations.map pair

/-- A coroutine that is past the check knows that its pair is not stored. -/
def Absent (s : State) : Task → Prop
  | .registerCommit opportunityId studentId _ => (opportunityId, studentId) ∉ pairs s
  | _ => True

theorem findExisting_eq_none {s : State} {opportunityId studentId : UUID} :
    findExisting s opportunityId studentId = none ↔ (opportunityId, studentId) ∉ pairs s :=
  Table.find_pair_eq_none

/-! ## One step -/

/-- A step either leaves the stored pairs alone, or it is the commit of a coroutine
    that is past the check. -/
theorem pairs_step (env : Env) (s : State) (t : Task) :
    pairs (taskStep env s t).1 = pairs s ∨
    ∃ opportunityId studentId data, t = .registerCommit opportunityId studentId data ∧
      pairs (taskStep env s t).1 = pairs s ++ [(opportunityId, studentId)] := by
  rcases taskStep_cases env s t with heq | ⟨coordinatorId, data, s', -, hins, heq⟩ |
    ⟨opp, data, s', -, hcommit, heq⟩ | ⟨opp, rest, s', -, hcommit, heq⟩ |
    ⟨opportunityId, studentId, data, s', rfl, hins, heq⟩
  · exact Or.inl (congrArg pairs heq)
  · left
    rw [heq, pairs, (insertOpportunity_ok hins).2.2]
    rfl
  · left
    rw [heq, commitUpdate_ok hcommit]
    rfl
  · left
    rw [heq, commitUpdate_ok hcommit]
    rfl
  · right
    refine ⟨opportunityId, studentId, data, rfl, ?_⟩
    rw [heq, (insertRegistration_ok hins).2, pairs, List.map_append]
    rfl

theorem pairs_thread (env : Env) (s : State) {t : Task} (h : t.onLoop = false) :
    pairs (taskStep env s t).1 = pairs s := by
  rcases pairs_step env s t with hsame | ⟨opportunityId, studentId, data, rfl, -⟩
  · exact hsame
  · cases h

theorem absent_step (env : Env) (s : State) (t : Task) :
    Absent (taskStep env s t).1 (taskStep env s t).2 := by
  cases t with
  | registerCheck opportunityId studentId data =>
    simp only [taskStep]
    split
    · trivial
    · rename_i hnone
      exact findExisting_eq_none.mp hnone
  | _ =>
    -- no other step ends past the check
    simp only [taskStep]
    repeat' split
    all_goals trivial

/-- Only a running coroutine has something to lose. -/
theorem absent_of_not_running {s : State} {t : Task} (h : t.running = false) : Absent s t := by
  cases t with
  | registerCommit => cases h
  | _ => trivial

/-- No pair is stored twice, and none that is past the check is stored. -/
def unique : Annotation program where
  inv s := (pairs s).Nodup
  own := Absent
  step_inv := by
    intro env s t hinv hown
    rcases pairs_step env s t with hsame | ⟨opportunityId, studentId, data, rfl, hadded⟩
    · exact (congrArg List.Nodup hsame).mpr hinv
    · refine (congrArg List.Nodup hadded).mpr ?_
      exact List.Nodup.append hinv (List.nodup_singleton _)
        (List.disjoint_singleton.mpr hown)
  step_own := fun env s t _ _ => absent_step env s t
  stable := by
    intro env s t u _ _ hu hloop
    by_cases hthread : t.onLoop = true
    · -- a coroutine finds the other one suspended
      exact absent_of_not_running (hloop hthread)
    · have hsame := pairs_thread env s (Bool.not_eq_true _ ▸ hthread)
      cases u with
      | registerCommit opportunityId studentId data =>
        intro hmem
        exact hu (hsame ▸ hmem)
      | _ => trivial

/-! ## All runs -/

theorem unique_arrive {ι : Type*} (jobs : ι → Job) : unique.Holds (arrive jobs) := by
  refine unique.holds_start (fun i => Task.start_not_running (jobs i)) ?_ ?_
  · exact (List.nodup_nil : (pairs State.empty).Nodup)
  · intro i
    exact absent_of_not_running (Task.start_not_running (jobs i))

/-- **At most one registration per student and opportunity**, whatever jobs the service
    is given and however they interleave. -/
theorem one_registration {ι : Type*} [DecidableEq ι] (jobs : ι → Job)
    (schedule : List (ι × Env)) :
    ((run program (arrive jobs) schedule).store.registrations.map pair).Nodup :=
  (unique.holds_run (unique_arrive jobs) schedule).inv

end CampusHire.RegistrationUniqueness
