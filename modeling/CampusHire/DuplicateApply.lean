import CampusHire.ApplicationTasks

/-!
# One application per student and opportunity

`apply` looks for an application of the student to the opportunity, awaits the
student's profile, and then inserts.  The table has no constraint on the pair, so
a second call can pass the check while the first one waits, and both insert
(`twoApplies_duplicate`).

Runs without such an overlap keep the rule: if no call inserts while another call
for the same pair is past its check, then no pair is stored twice, and no pair
that is past its check is stored at all (`Unique`).  The condition is the
boundary: two calls that are past their checks and both insert store two rows
(`overlap_duplicates`).
-/

namespace CampusHire.DuplicateApply

open CampusHire ApplicationService Schedule

/-- What `apply` checks: the opportunity and the student. -/
def pair (a : Application) : UUID × UUID := (a.opportunityId, a.studentId)

def pairs (s : State) : List (UUID × UUID) := s.applications.map pair

/-- The pair of a call that has passed the check and awaits the profile. -/
def pending : Task → Option (UUID × UUID)
  | .fetchProfile studentId data => some (data.opportunityId, studentId)
  | _ => none

variable {ι : Type*}

/-- The condition on a step: a call that resumes with a profile, on a database that
    accepts its rows, finds no other call for its pair past the check. -/
def NoOverlap (c : Config State Task ι) (i : ι) (env : Env) : Prop :=
  ∀ studentId data profile, c.task i = .fetchProfile studentId data →
    fetchProfile env.profile = .ok profile → env.databaseFails = false →
    ∀ j, j ≠ i → pending (c.task j) ≠ some (data.opportunityId, studentId)

theorem noOverlap_of_idle {c : Config State Task ι} {i : ι} {env : Env}
    (h : ∀ j, j ≠ i → pending (c.task j) = none) : NoOverlap c i env := by
  intro studentId data profile _ _ _ j hne
  rw [h j hne]
  exact nofun

/-- No pair is stored twice, and no pending pair is stored. -/
structure Unique (c : Config State Task ι) : Prop where
  nodup : (pairs c.store).Nodup
  absent : ∀ i p, pending (c.task i) = some p → p ∉ pairs c.store

theorem findExisting_eq_none {s : State} {opportunityId studentId : UUID} :
    findExisting s opportunityId studentId = none ↔ (opportunityId, studentId) ∉ pairs s :=
  Table.find_pair_eq_none

/-! ## One step -/

/-- A step either leaves the stored pairs alone, or it is an insertion by a call
    that was past its check. -/
theorem pairs_step (env : Env) (s : State) (t : Task) :
    pairs (taskStep env s t).1 = pairs s ∨
    ∃ studentId data profile, t = .fetchProfile studentId data ∧
      fetchProfile env.profile = .ok profile ∧ env.databaseFails = false ∧
      pairs (taskStep env s t).1 = pairs s ++ [(data.opportunityId, studentId)] := by
  rcases taskStep_cases env s t with ⟨published, heq⟩ |
    ⟨studentId, data, profile, s', rfl, hprofile, hins, heq⟩ | ⟨row, s', rfl, hcommit, heq⟩ |
    ⟨row, current, actorId, status, s', rfl, hcommit, heq⟩
  · rw [heq]
    exact Or.inl rfl
  · right
    refine ⟨studentId, data, profile, rfl, hprofile, databaseFails_of_insert hins, ?_⟩
    rw [heq, pairs, (insertApplication_ok hins).2.2.1, List.map_append]
    rfl
  · rw [heq, commitWithdrawal_ok hcommit]
    exact Or.inl (map_writeStatus (fun _ _ => rfl) s row "Withdrawn")
  · left
    rw [heq, pairs, (commitStatus_ok hcommit).2.1]
    exact map_writeStatus (fun _ _ => rfl) s row status.value

/-- A task is past its check after a step only if the step was the check. -/
theorem pending_step {env : Env} {s : State} {t : Task} {p : UUID × UUID}
    (h : pending (taskStep env s t).2 = some p) : p ∉ pairs (taskStep env s t).1 := by
  cases t with
  | fetchOpportunity studentId data =>
    simp only [taskStep] at h ⊢
    split at h
    · cases h
    split at h
    · cases h
    rename_i hnone
    cases h
    exact findExisting_eq_none.mp hnone
  | _ =>
    -- no other step ends past the check
    exfalso
    revert h
    simp only [taskStep]
    repeat' split
    all_goals
      intro h
      cases h

variable [DecidableEq ι]

theorem unique_fire {c : Config State Task ι} {i : ι} {env : Env} (h : Unique c)
    (hG : NoOverlap c i env) : Unique (fire program c i env) := by
  have hstore : (fire program c i env).store = (taskStep env c.store (c.task i)).1 := rfl
  rcases pairs_step env c.store (c.task i) with hsame |
    ⟨studentId, data, profile, htask, hprofile, hdb, hadded⟩
  · refine ⟨by rw [hstore, hsame]; exact h.nodup, ?_⟩
    intro j p hp
    by_cases hne : j = i
    · subst hne
      rw [fire_task_same] at hp
      exact pending_step hp
    · rw [fire_task_other program c env hne] at hp
      rw [hstore, hsame]
      exact h.absent j p hp
  · refine ⟨?_, ?_⟩
    · rw [hstore, hadded]
      apply List.Nodup.append h.nodup (List.nodup_singleton _)
      intro p hp hnew
      rw [List.mem_singleton.mp hnew] at hp
      exact h.absent i _ (by rw [htask]; rfl) hp
    · intro j p hp
      by_cases hne : j = i
      · subst hne
        rw [fire_task_same] at hp
        exact pending_step hp
      · rw [fire_task_other program c env hne] at hp
        rw [hstore, hadded, List.mem_append, List.mem_singleton]
        rintro (hmem | rfl)
        · exact h.absent j p hp hmem
        · exact hG studentId data profile htask hprofile hdb j hne hp

/-! ## All runs -/

omit [DecidableEq ι] in
theorem unique_arrive (requests : ι → CurrentUser × Request) : Unique (arrive requests) := by
  refine ⟨List.nodup_nil, ?_⟩
  intro i p hp
  exact List.not_mem_nil

/-- **At most one application per student and opportunity**, in every run in which
    no call inserts while another call for its pair is past the duplicate check. -/
theorem one_application_of_noOverlap (requests : ι → CurrentUser × Request)
    (schedule : List (ι × Env)) (h : Guarded program NoOverlap (arrive requests) schedule) :
    ((run program (arrive requests) schedule).store.applications.map pair).Nodup :=
  (run_guarded program (fun _ _ _ hinv _ hG => unique_fire hinv hG) schedule
    (unique_arrive requests) h).nodup

/-- The condition cannot be weakened: from any state, two calls for one pair that are
    past their checks and both insert leave the pair stored twice. -/
theorem overlap_duplicates {s s₁ s₂ : State} {env₁ env₂ : Env} {studentId : UUID}
    {data₁ data₂ : ApplicationCreate} {profile₁ profile₂ : Json}
    (hpair : data₁.opportunityId = data₂.opportunityId)
    (h₁ : insertApplication s env₁ studentId data₁ profile₁ = .ok s₁)
    (h₂ : insertApplication s₁ env₂ studentId data₂ profile₂ = .ok s₂) : ¬ (pairs s₂).Nodup := by
  rw [pairs, (insertApplication_ok h₂).2.2.1, (insertApplication_ok h₁).2.2.1,
    List.append_assoc, List.map_append]
  intro hnodup
  have hlast := List.Nodup.of_append_right hnodup
  simp [pair, newApplication, hpair] at hlast

def applyTwice : Bool → CurrentUser × Request :=
  fun _ => (⟨.ofNat 1, .student⟩, .create ⟨.ofNat 3, [], none⟩)

/-- Both calls pass the check before either of them has its profile. -/
def overlapping : List (Bool × Env) :=
  [(false, .untroubled (.ofNat 10) (.ofNat 20) 0), (true, .untroubled (.ofNat 11) (.ofNat 21) 0),
    (false, .untroubled (.ofNat 10) (.ofNat 20) 1), (false, .untroubled (.ofNat 10) (.ofNat 20) 1),
    (true, .untroubled (.ofNat 11) (.ofNat 21) 2)]

theorem overlapping_duplicate :
    ¬ ((run program (arrive applyTwice) overlapping).store.applications.map pair).Nodup := by
  have hrun : (run program (arrive applyTwice) overlapping).store.applications =
      [⟨.ofNat 10, .ofNat 3, .ofNat 1, "Applied", none, .obj [], [], 1⟩,
        ⟨.ofNat 11, .ofNat 3, .ofNat 1, "Applied", none, .obj [], [], 2⟩] := by rfl
  rw [hrun]
  simp [pair]

def oneAfterTheOther : List (Bool × Env) :=
  [(false, .untroubled (.ofNat 10) (.ofNat 20) 0), (false, .untroubled (.ofNat 10) (.ofNat 20) 0),
    (false, .untroubled (.ofNat 10) (.ofNat 20) 0), (true, .untroubled (.ofNat 11) (.ofNat 21) 1)]

theorem oneAfterTheOther_unique :
    ((run program (arrive applyTwice) oneAfterTheOther).store.applications.map pair).Nodup := by
  apply one_application_of_noOverlap applyTwice oneAfterTheOther
  refine ⟨fun _ => noOverlap_of_idle ?_, fun _ => noOverlap_of_idle ?_,
    fun _ => noOverlap_of_idle ?_, fun _ => noOverlap_of_idle ?_, trivial⟩
  all_goals decide

end CampusHire.DuplicateApply
