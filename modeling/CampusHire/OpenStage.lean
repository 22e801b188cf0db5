import CampusHire.ApplicationTasks

/-!
# One open stage per application

`update_status` closes the open stage its query finds and adds another.  The
query takes any open stage (`.first()` without an order), so everything rests on
there being one, and on no other update reading the same one before the commit.

The argument has two parts.  `Staged` says that the stages of an application are
closed ones followed by one open stage; a commit keeps it if the stage it closes
is the one that is open at the commit.  `stageAnnotation` says that it is: between
the query and the commit the coroutine holds the event loop, and the steps of
`withdraw`, which runs in a thread of its own, touch no stage.
-/

namespace CampusHire.OpenStage

open CampusHire ApplicationService Schedule

def stagesOf (s : State) (id : UUID) : List WorkflowStage :=
  s.stages.filter fun st => decide (st.applicationId = id)

def OneOpen (stages : List WorkflowStage) : Prop :=
  ∃ closed current, stages = closed ++ [current] ∧ current.exitedAt = none ∧
    ∀ st ∈ closed, st.exitedAt ≠ none

/-- Stage ids are unique, stages belong to applications, and every application has
    one open stage, its last. -/
structure Staged (s : State) : Prop where
  ids : (s.stages.map WorkflowStage.id).Nodup
  owners : ∀ st ∈ s.stages, st.applicationId ∈ s.applications.map Application.id
  oneOpen : ∀ id ∈ s.applications.map Application.id, OneOpen (stagesOf s id)

theorem staged_empty : Staged State.empty where
  ids := List.nodup_nil
  owners := by simp [State.empty]
  oneOpen := by simp [State.empty]

theorem Staged.congr {s t : State} (h : Staged s) (hstages : t.stages = s.stages)
    (hids : t.applications.map Application.id = s.applications.map Application.id) :
    Staged t := by
  refine ⟨hstages ▸ h.ids, ?_, ?_⟩
  · rw [hstages, hids]
    exact h.owners
  · simp only [stagesOf, hstages, hids]
    exact h.oneOpen

theorem mem_stagesOf {s : State} {id : UUID} {st : WorkflowStage} :
    st ∈ stagesOf s id ↔ st ∈ s.stages ∧ st.applicationId = id := by
  simp [stagesOf, List.mem_filter]

/-- The query of `update_status` reads the stages of one application. -/
theorem findOpenStage_eq (s : State) (id : UUID) :
    findOpenStage s id = (stagesOf s id).find? fun st => st.exitedAt.isNone := by
  rw [findOpenStage, stagesOf, List.find?_filter]
  congr
  funext st
  rw [Bool.decide_and, Bool.decide_coe, Bool.decide_coe]

/-- Where one stage is open, the query finds it: the missing order does not matter. -/
theorem findOpenStage_of_oneOpen {s : State} {id : UUID} (h : OneOpen (stagesOf s id)) :
    ∃ closed current, stagesOf s id = closed ++ [current] ∧ current.exitedAt = none ∧
      (∀ st ∈ closed, st.exitedAt ≠ none) ∧ findOpenStage s id = some current := by
  obtain ⟨closed, current, hstages, hopen, hclosed⟩ := h
  refine ⟨closed, current, hstages, hopen, hclosed, ?_⟩
  have hskip : closed.find? (fun st => st.exitedAt.isNone) = none := by
    rw [List.find?_eq_none]
    intro st hst
    simpa using hclosed st hst
  rw [findOpenStage_eq, hstages, List.find?_append, hskip, Option.none_or]
  simp [hopen]

/-! ## What the commits keep -/

theorem staged_insert {s t : State} {env : Env} {studentId : UUID} {data : ApplicationCreate}
    {profile : Json} (h : Staged s)
    (hins : insertApplication s env studentId data profile = .ok t) : Staged t := by
  obtain ⟨hfresh, hfreshStage, happs, hstages, -, -⟩ := insertApplication_ok hins
  have hids := ids_insertApplication hins
  have hout := Table.not_mem_of_fresh hfresh
  refine ⟨?_, ?_, ?_⟩
  · rw [hstages]
    exact Table.nodup_append_fresh h.ids hfreshStage
  · rw [hstages, hids]
    exact Table.refers_append h.owners (List.subset_append_left _ _) List.mem_concat_self
  · intro id hid
    rw [hids] at hid
    rcases List.mem_append.mp hid with hid | hid
    · -- an application that was there before keeps its stages
      have hne : env.applicationId ≠ id := fun heq => hout (heq ▸ hid)
      have hsame : stagesOf t id = stagesOf s id := by
        rw [stagesOf, hstages, List.filter_append, stagesOf]
        simp [hne]
      rw [hsame]
      exact h.oneOpen id hid
    · -- the new application has the new stage only
      rw [List.mem_singleton.mp hid]
      have hnone : stagesOf s env.applicationId = [] := by
        rw [List.eq_nil_iff_forall_not_mem]
        intro st hst
        obtain ⟨hst, howner⟩ := mem_stagesOf.mp hst
        exact hout (howner ▸ h.owners st hst)
      refine ⟨[], ⟨env.stageId, env.applicationId, "Registration", env.txnStart, none, none⟩,
        ?_, rfl, by simp⟩
      rw [stagesOf, hstages, List.filter_append, ← stagesOf, hnone]
      simp

theorem staged_withdraw {s t : State} {env : Env} {row : Application} (h : Staged s)
    (hcommit : commitWithdrawal s env row = .ok t) : Staged t := by
  obtain rfl := commitWithdrawal_ok hcommit
  exact h.congr (by simp) (by simpa using map_writeStatus (fun _ _ => rfl) s row "Withdrawn")

theorem filter_closeStage (s : State) (clock : Time) (current : WorkflowStage) (id : UUID) :
    (closeStage s.stages clock (some current)).filter (fun st => decide (st.applicationId = id)) =
      Table.modify WorkflowStage.id current.id (fun r => { r with exitedAt := some clock })
        (stagesOf s id) := by
  rw [closeStage, Table.filter_modify, stagesOf]
  exact fun _ => rfl

theorem staged_status {s t : State} {env : Env} {row : Application} {actorId : UUID}
    {status : ApplicationStatus} (h : Staged s)
    (hrow : row.id ∈ s.applications.map Application.id)
    (hcommit : commitStatus s env row (findOpenStage s row.id) actorId status = .ok t) :
    Staged t := by
  obtain ⟨hfresh, happs, hstages, -, -⟩ := commitStatus_ok hcommit
  obtain ⟨closed, current, hof, hopen, hclosed, hfound⟩ :=
    findOpenStage_of_oneOpen (h.oneOpen row.id hrow)
  rw [hfound] at hfresh hstages
  have hcurrent : current ∈ stagesOf s row.id := by simp [hof]
  obtain ⟨hmem, howner⟩ := mem_stagesOf.mp hcurrent
  have hids : t.applications.map Application.id = s.applications.map Application.id := by
    rw [happs]
    exact map_writeStatus (fun _ _ => rfl) s row status.value
  have hcolumn : ∀ {α : Type} {g : WorkflowStage → α}
      (_ : ∀ (r : WorkflowStage) (exited : Option Time), g { r with exitedAt := exited } = g r),
      (closeStage s.stages env.clock (some current)).map g = s.stages.map g :=
    fun hg => map_closeStage hg s.stages env.clock (some current)
  refine ⟨?_, ?_, ?_⟩
  · rw [hstages]
    refine Table.nodup_append_fresh ?_ hfresh
    rw [hcolumn (fun _ _ => rfl)]
    exact h.ids
  · rw [hstages, hids]
    exact Table.refers_append (Table.refers_of_map_eq h.owners (hcolumn fun _ _ => rfl))
      (List.Subset.refl _) hrow
  · intro id hid
    rw [hids] at hid
    rw [stagesOf, hstages, List.filter_append, filter_closeStage]
    have hsame : ∀ st ∈ stagesOf s id, st.id = current.id → st = current := fun st hst hst' =>
      List.inj_on_of_nodup_map h.ids (mem_stagesOf.mp hst).1 hmem hst'
    by_cases heq : row.id = id
    · -- the application itself: its open stage is closed and the new one is open
      subst heq
      rw [List.filter_eq_self.mpr (by simp)]
      refine ⟨_, _, rfl, rfl, ?_⟩
      intro st hst
      rcases Table.mem_modify.mp hst with ⟨hold, hne⟩ | ⟨old, -, -, rfl⟩
      · rw [hof] at hold
        rcases List.mem_append.mp hold with hold | hold
        · exact hclosed st hold
        · exact absurd (congrArg WorkflowStage.id (List.mem_singleton.mp hold)) hne
      · simp
    · -- another application: none of its stages is the one that is closed
      have hother : ∀ st ∈ stagesOf s id, st.id ≠ current.id := fun st hst hst' =>
        heq (howner.symm.trans (hsame st hst hst' ▸ (mem_stagesOf.mp hst).2))
      rw [Table.modify_of_forall_ne hother]
      simpa [heq] using h.oneOpen id hid

/-! ## What one step keeps -/

theorem staged_step {s : State} {t : Task} {env : Env} (h : Staged s)
    (hown : ∀ row current actorId status, t = .statusCommit row current actorId status →
      row.id ∈ s.applications.map Application.id ∧ current = findOpenStage s row.id) :
    Staged (taskStep env s t).1 := by
  rcases taskStep_cases env s t with ⟨published, heq⟩ |
    ⟨studentId, data, profile, s', rfl, -, hins, heq⟩ | ⟨row, s', rfl, hcommit, heq⟩ |
    ⟨row, current, actorId, status, s', rfl, hcommit, heq⟩
  · rw [heq]
    exact h.congr rfl rfl
  · rw [heq]
    exact staged_insert h hins
  · rw [heq]
    exact staged_withdraw h hcommit
  · obtain ⟨hrow, rfl⟩ := hown _ _ _ _ rfl
    rw [heq]
    exact staged_status h hrow hcommit

/-- What a task knows: an update that has loaded its application, and then the stage
    it is going to close, finds both as it loaded them. -/
def Loaded (s : State) : Task → Prop
  | .statusStage row _ _ => row.id ∈ s.applications.map Application.id
  | .statusCommit row current _ _ =>
      row.id ∈ s.applications.map Application.id ∧ current = findOpenStage s row.id
  | _ => True

theorem running_or_loaded (s : State) (t : Task) : t.running = true ∨ Loaded s t := by
  cases t <;> first | exact Or.inl rfl | exact Or.inr trivial

theorem loaded_step {s : State} {t : Task} (env : Env) (h : Loaded s t) :
    Loaded (taskStep env s t).1 (taskStep env s t).2 := by
  cases t with
  | statusRead id actorId status =>
    simp only [taskStep]
    split
    · trivial
    · rename_i row hrow
      exact List.mem_map_of_mem (Table.mem_of_lookup hrow)
  | statusStage row actorId status => exact ⟨h, rfl⟩
  | _ =>
    -- every other step ends where nothing is loaded
    simp only [taskStep]
    repeat' split
    all_goals trivial

/-- What an update has loaded stays as it is while a task that is not a coroutine
    steps: that is `withdraw`, which writes no stage and no id. -/
theorem loaded_stable {s : State} {t u : Task} (env : Env) (h : Loaded s u)
    (hsusp : t.onLoop = true → u.running = false) : Loaded (taskStep env s t).1 u := by
  rcases running_or_loaded (taskStep env s t).1 u with hrun | hdone
  · have hoff : t.onLoop = false := by
      by_contra hon
      rw [hsusp (by simpa using hon)] at hrun
      cases hrun
    have hframe : (taskStep env s t).1.stages = s.stages ∧
        (taskStep env s t).1.applications.map Application.id =
          s.applications.map Application.id := by
      rcases taskStep_cases env s t with ⟨published, heq⟩ |
        ⟨studentId, data, profile, s', rfl, -, -, -⟩ | ⟨row, s', rfl, hcommit, heq⟩ |
        ⟨row, current, actorId, status, s', rfl, -, -⟩
      · rw [heq]
        exact ⟨rfl, rfl⟩
      · cases hoff
      · rw [heq, commitWithdrawal_ok hcommit]
        exact ⟨by simp, by simpa using map_writeStatus (fun _ _ => rfl) s row "Withdrawn"⟩
      · cases hoff
    cases u with
    | statusStage row actorId status =>
      rw [Loaded, hframe.2]
      exact h
    | statusCommit row current actorId status =>
      rw [Loaded, hframe.2]
      refine ⟨h.1, ?_⟩
      rw [h.2, findOpenStage, findOpenStage, hframe.1]
    | _ => trivial
  · exact hdone

/-- The stages are in order and every update finds what it has loaded. -/
def stageAnnotation : Annotation program where
  inv := Staged
  own := Loaded
  step_inv := by
    intro env s t hinv hown
    apply staged_step hinv
    rintro row current actorId status rfl
    exact hown
  step_own := fun env _ _ _ hown => loaded_step env hown
  stable := fun env _ _ _ _ _ hu hsusp => loaded_stable env hu hsusp

theorem closed_stage_step {s : State} {t : Task} (env : Env) (hinv : Staged s)
    (hown : Loaded s t) {st : WorkflowStage} (hst : st ∈ s.stages) (hclosed : st.exitedAt ≠ none) :
    st ∈ (taskStep env s t).1.stages := by
  rcases taskStep_cases env s t with ⟨published, heq⟩ |
    ⟨studentId, data, profile, s', rfl, -, hins, heq⟩ | ⟨row, s', rfl, hcommit, heq⟩ |
    ⟨row, current, actorId, status, s', rfl, hcommit, heq⟩
  · rw [heq]
    exact hst
  · rw [heq, (insertApplication_ok hins).2.2.2.1]
    exact List.mem_append_left _ hst
  · rw [heq, commitWithdrawal_ok hcommit]
    simpa using hst
  · obtain ⟨hrow, rfl⟩ := hown
    obtain ⟨closed, current, hof, hopen, -, hfound⟩ :=
      findOpenStage_of_oneOpen (hinv.oneOpen row.id hrow)
    rw [heq, (commitStatus_ok hcommit).2.2.1, hfound]
    apply List.mem_append_left
    refine Table.mem_modify.mpr (Or.inl ⟨hst, ?_⟩)
    -- the stage that the update closes is open, so it is another one
    intro hsame
    have hcurrent : current ∈ stagesOf s row.id := by simp [hof]
    have heq' := List.inj_on_of_nodup_map hinv.ids hst (mem_stagesOf.mp hcurrent).1 hsame
    exact hclosed (heq' ▸ hopen)

variable {ι : Type*}

theorem stageAnnotation_arrive (requests : ι → CurrentUser × Request) :
    stageAnnotation.Holds (arrive requests) := by
  refine stageAnnotation.holds_start (fun i => Task.start_not_running _ _) staged_empty ?_
  intro i
  rcases running_or_loaded State.empty (Task.start (requests i).1 (requests i).2) with hrun | hdone
  · rw [Task.start_not_running] at hrun
    cases hrun
  · exact hdone

/-- **Exactly one open stage.**  Whatever the requests and their interleaving, in
    every state reached the stages of an application are closed ones followed by
    one open stage; and whatever comes later, a closed stage is still there and
    still the only row with its id. -/
theorem one_open_stage [DecidableEq ι] (requests : ι → CurrentUser × Request)
    (schedule later : List (ι × Env)) :
    (∀ a ∈ (run program (arrive requests) schedule).store.applications,
      ∃ closed current,
        stagesOf (run program (arrive requests) schedule).store a.id = closed ++ [current] ∧
        current.exitedAt = none ∧ ∀ st ∈ closed, st.exitedAt ≠ none) ∧
    ∀ st ∈ (run program (arrive requests) schedule).store.stages, st.exitedAt ≠ none →
      st ∈ (run program (arrive requests) (schedule ++ later)).store.stages ∧
      ∀ st' ∈ (run program (arrive requests) (schedule ++ later)).store.stages,
        st'.id = st.id → st' = st := by
  have hmid := stageAnnotation.holds_run (stageAnnotation_arrive requests) schedule
  have hend := stageAnnotation.holds_run hmid later
  rw [run_append]
  constructor
  · intro a ha
    exact hmid.inv.oneOpen a.id (List.mem_map_of_mem ha)
  · intro st hst hclosed
    have hkept := stageAnnotation.run_relates
      (R := fun s t : State => ∀ st ∈ s.stages, st.exitedAt ≠ none → st ∈ t.stages)
      (fun _ _ h _ => h) (fun _ _ _ h₁ h₂ st h hc => h₂ st (h₁ st h hc) hc)
      (fun env _ _ hinv hown _ h hc => closed_stage_step env hinv hown h hc) hmid later st hst
      hclosed
    exact ⟨hkept, fun st' hst' heq => List.inj_on_of_nodup_map hend.inv.ids hst' hkept heq⟩

def applyAndTwoUpdates : Nat → CurrentUser × Request
  | 0 => (⟨.ofNat 1, .student⟩, .create ⟨.ofNat 3, [], none⟩)
  | 1 => (⟨.ofNat 2, .coordinator⟩, .patchStatus (.ofNat 10) .shortlisted)
  | _ => (⟨.ofNat 4, .coordinator⟩, .patchStatus (.ofNat 10) .rejected)

/-- The student applies, then the two updates come at once: the second one has to
    wait for the first to suspend at its publication. -/
def twoUpdates : List (Nat × Env) :=
  [0, 0, 0, 1, 2, 1, 2, 1, 2, 1, 2, 2, 2].zipIdx.map fun (i, n) =>
    (i, .untroubled (.ofNat 10) (.ofNat (20 + n)) n)

theorem twoUpdates_one_open :
    ∃ a ∈ (run program (arrive applyAndTwoUpdates) twoUpdates).store.applications,
      ∃ closed current,
        stagesOf (run program (arrive applyAndTwoUpdates) twoUpdates).store a.id =
          closed ++ [current] ∧
        current.exitedAt = none ∧ ∀ st ∈ closed, st.exitedAt ≠ none := by
  have hrun : (run program (arrive applyAndTwoUpdates) twoUpdates).store.applications =
      [⟨.ofNat 10, .ofNat 3, .ofNat 1, "Rejected", none, .obj [], [], 1⟩] := by rfl
  exact ⟨_, by rw [hrun]; exact List.mem_singleton.mpr rfl,
    (one_open_stage applyAndTwoUpdates twoUpdates []).1 _
      (by rw [hrun]; exact List.mem_singleton.mpr rfl)⟩

end CampusHire.OpenStage
