import CampusHire.ApplicationService
import Mathlib.Data.List.Induction

/-!
# The times of a timeline

`update_status` closes the open stage at `datetime.now()` and adds its successor, which
enters at PostgreSQL's `now()`, the start of the transaction.  The start comes first, so a
stage never ends before it begins, but its successor begins no later than it ends: the two
meet exactly when the clock has not moved on since the transaction started
(`stages_in_order_iff`).
-/

namespace CampusHire.StageIntervals

open CampusHire ApplicationService

/-! ## Hand-overs -/

def findStage (s : State) (id : UUID) : Option WorkflowStage :=
  Table.lookup WorkflowStage.id id s.stages

/-- The request is an `update_status` that commits, and closes the stage `closed` and adds
    the stage `opened`. -/
def HandsOver (s : State) (h : Handled) (closed opened : UUID) : Prop :=
  ∃ id status row current t, h.request = .patchStatus id status ∧ h.user.role = .coordinator ∧
    findApplication s id = some row ∧ findOpenStage s row.id = some current ∧
    commitStatus s h.env row (some current) h.user.id status = .ok t ∧
    closed = current.id ∧ opened = h.env.stageId

/-- The clock that the database and the services share never goes back. -/
structure Clocked (run : List Handled) : Prop where
  within : ∀ h ∈ run, h.env.txnStart ≤ h.env.clock
  between : run.Pairwise fun g h => g.env.clock ≤ h.env.txnStart

/-- The stage `closed` has ended, not before it began. -/
def Ended (s : State) (closed : UUID) : Prop :=
  ∃ st exited, findStage s closed = some st ∧ st.exitedAt = some exited ∧ st.enteredAt ≤ exited

/-- The stage `closed` has ended, neither before it began nor after `opened` began. -/
def InOrder (s : State) (closed opened : UUID) : Prop :=
  ∃ st next exited, findStage s closed = some st ∧ findStage s opened = some next ∧
    st.exitedAt = some exited ∧ st.enteredAt ≤ exited ∧ exited ≤ next.enteredAt

/-- `P` holds of every hand-over of a run, by the request and the two stages. -/
def AtHandOvers (run : List Handled) (P : Handled → UUID → UUID → Prop) : Prop :=
  ∀ before h after closed opened, run = before ++ h :: after →
    HandsOver (execute State.empty before) h closed opened → P h closed opened

/-! ## What a request does to the stages -/

/-- A request changes no stage, adds one, or is an `update_status`. -/
theorem stages_handle (s : State) (h : Handled) :
    (handle s h).stages = s.stages ∨
    (∃ new : WorkflowStage, (∀ st ∈ s.stages, st.id ≠ new.id) ∧ new.enteredAt = h.env.txnStart ∧
      (handle s h).stages = s.stages ++ [new]) ∨
    (∃ row status t, commitStatus s h.env row (findOpenStage s row.id) h.user.id status = .ok t ∧
      (handle s h).stages = t.stages) := by
  rcases serve_cases s h.env h.user h.request with hsame |
    ⟨data, profile, t, published, -, -, -, -, hins, heq⟩ | ⟨id, row, -, -, -, -, hcommit⟩ |
    ⟨id, status, row, t, published, -, -, -, hcommit, heq⟩
  · left
    rw [handle, hsame]
  · right
    left
    obtain ⟨-, hfresh, -, hstages, -⟩ := insertApplication_ok hins
    refine ⟨⟨h.env.stageId, h.env.applicationId, "Registration", h.env.txnStart, none, none⟩,
      hfresh, rfl, ?_⟩
    rw [handle, heq]
    exact hstages
  · left
    rw [handle, commitWithdrawal_ok hcommit]
    simp
  · right
    right
    refine ⟨row, status, t, hcommit, ?_⟩
    rw [handle, heq]

theorem nodup_ids_handle {s : State} (hids : (s.stages.map WorkflowStage.id).Nodup) (h : Handled) :
    ((handle s h).stages.map WorkflowStage.id).Nodup := by
  rcases stages_handle s h with hsame | ⟨new, hfresh, -, hadded⟩ | ⟨row, status, t, hcommit, heq⟩
  · rw [hsame]
    exact hids
  · rw [hadded]
    exact Table.nodup_append_fresh hids hfresh
  · obtain ⟨hfresh, -, hstages, -⟩ := commitStatus_ok hcommit
    rw [heq, hstages]
    refine Table.nodup_append_fresh ?_ hfresh
    rw [map_closeStage fun _ _ => rfl]
    exact hids

theorem nodup_ids_execute (run : List Handled) :
    ((execute State.empty run).stages.map WorkflowStage.id).Nodup := by
  induction run using List.reverseRecOn with
  | nil => exact List.nodup_nil
  | append_singleton run h ih =>
    rw [execute_append_singleton]
    exact nodup_ids_handle ih h

/-- A stage that is there enters when it did or when the request's transaction started. -/
theorem entered_handle {s : State} {h : Handled} {st : WorkflowStage}
    (hst : st ∈ (handle s h).stages) :
    (∃ old ∈ s.stages, st.enteredAt = old.enteredAt) ∨ st.enteredAt = h.env.txnStart := by
  rcases stages_handle s h with hsame | ⟨new, -, hentered, hadded⟩ | ⟨row, status, t, hcommit, heq⟩
  · rw [hsame] at hst
    exact Or.inl ⟨st, hst, rfl⟩
  · rw [hadded] at hst
    rcases List.mem_append.mp hst with hold | hnew
    · exact Or.inl ⟨st, hold, rfl⟩
    · rw [List.mem_singleton.mp hnew]
      exact Or.inr hentered
  · rw [heq, (commitStatus_ok hcommit).2.2.1] at hst
    rcases List.mem_append.mp hst with hold | hnew
    · have hmap := map_closeStage (g := WorkflowStage.enteredAt) (fun _ _ => rfl) s.stages
        h.env.clock (findOpenStage s row.id)
      have hmem := List.mem_map_of_mem (f := WorkflowStage.enteredAt) hold
      rw [hmap] at hmem
      obtain ⟨old, hold', heq'⟩ := List.mem_map.mp hmem
      exact Or.inl ⟨old, hold', heq'.symm⟩
    · rw [List.mem_singleton.mp hnew]
      exact Or.inr rfl

theorem entered_execute {run : List Handled} {st : WorkflowStage}
    (hst : st ∈ (execute State.empty run).stages) : ∃ g ∈ run, st.enteredAt = g.env.txnStart := by
  induction run using List.reverseRecOn generalizing st with
  | nil => cases hst
  | append_singleton run h ih =>
    rw [execute_append_singleton] at hst
    rcases entered_handle hst with ⟨old, hold, heq⟩ | heq
    · obtain ⟨g, hg, hentered⟩ := ih hold
      exact ⟨g, List.mem_append_left _ hg, heq.trans hentered⟩
    · exact ⟨h, List.mem_append_right _ List.mem_cons_self, heq⟩

/-! ## What becomes of a stage -/

theorem open_of_findOpenStage {s : State} {id : UUID} {current : WorkflowStage}
    (h : findOpenStage s id = some current) : current ∈ s.stages ∧ current.exitedAt = none := by
  refine ⟨List.mem_of_find?_eq_some h, ?_⟩
  have hcondition := List.find?_some h
  simpa using (Bool.and_eq_true_iff.mp hcondition).2

theorem findStage_closeStage (stages : List WorkflowStage) (clock : Time) (current : WorkflowStage)
    (id : UUID) :
    Table.lookup WorkflowStage.id id (closeStage stages clock (some current)) =
      (Table.lookup WorkflowStage.id id stages).map fun st =>
        if st.id = current.id then { st with exitedAt := some clock } else st :=
  Table.lookup_modify_column (f := fun st : WorkflowStage => { st with exitedAt := some clock })
    (fun _ => rfl) stages

/-- Stages stay stored and keep the time they entered; one that has ended stays as it is. -/
def Keeps (s t : State) : Prop :=
  ∀ id st, findStage s id = some st → ∃ st', findStage t id = some st' ∧
    st'.enteredAt = st.enteredAt ∧ (st.exitedAt ≠ none → st' = st)

theorem Keeps.refl (s : State) : Keeps s s := fun _ st h => ⟨st, h, rfl, fun _ => rfl⟩

theorem Keeps.trans {s t u : State} (hst : Keeps s t) (htu : Keeps t u) : Keeps s u := by
  intro id st h
  obtain ⟨st', h', hentered, hclosed⟩ := hst id st h
  obtain ⟨st'', h'', hentered', hclosed'⟩ := htu id st' h'
  refine ⟨st'', h'', hentered'.trans hentered, ?_⟩
  intro hended
  obtain rfl := hclosed hended
  exact hclosed' hended

theorem keeps_handle {s : State} (hids : (s.stages.map WorkflowStage.id).Nodup) (h : Handled) :
    Keeps s (handle s h) := by
  intro id st hfound
  rcases stages_handle s h with hsame | ⟨new, -, -, hadded⟩ | ⟨row, status, t, hcommit, heq⟩
  · refine ⟨st, ?_, rfl, fun _ => rfl⟩
    rw [findStage, hsame]
    exact hfound
  · refine ⟨st, ?_, rfl, fun _ => rfl⟩
    rw [findStage, hadded]
    exact Table.lookup_append_of_some hfound
  · rw [findStage, heq, (commitStatus_ok hcommit).2.2.1]
    rcases hopen : findOpenStage s row.id with _ | current
    · exact ⟨st, Table.lookup_append_of_some hfound, rfl, fun _ => rfl⟩
    have hclosed : Table.lookup WorkflowStage.id id
        (closeStage s.stages h.env.clock (some current)) =
        some (if st.id = current.id then { st with exitedAt := some h.env.clock } else st) := by
      rw [findStage_closeStage, show Table.lookup WorkflowStage.id id s.stages = some st from hfound,
        Option.map_some]
    refine ⟨_, Table.lookup_append_of_some hclosed, ?_, ?_⟩
    · split
      · rfl
      · rfl
    · intro hended
      rw [if_neg]
      -- the stage that is closed is open
      intro hid
      obtain ⟨hmem, hcurrent⟩ := open_of_findOpenStage hopen
      have hsame := List.inj_on_of_nodup_map hids (Table.mem_of_lookup hfound) hmem hid
      exact hended (hsame ▸ hcurrent)

theorem keeps_execute (before after : List Handled) :
    Keeps (execute State.empty before) (execute State.empty (before ++ after)) := by
  induction after using List.reverseRecOn with
  | nil =>
    rw [List.append_nil]
    exact .refl _
  | append_singleton after h ih =>
    rw [← List.append_assoc, execute_append_singleton]
    exact ih.trans (keeps_handle (nodup_ids_execute _) h)

/-! ## The times of a hand-over -/

theorem stages_updateStatus {s t : State} {env : Env} {id actorId : UUID}
    {status : ApplicationStatus} {row : Application} (hrow : findApplication s id = some row)
    (hcommit : commitStatus s env row (findOpenStage s row.id) actorId status = .ok t) :
    (updateStatus s env id actorId status).1.stages = t.stages := by
  rw [updateStatus, hrow]
  dsimp only
  rw [hcommit]
  dsimp only
  split
  · rfl
  · split
    · rfl
    · rfl

/-- The closed stage ends at the clock reading, the new one begins at the start of the
    transaction. -/
theorem times_of_handOver {s : State} {h : Handled} {closed opened : UUID}
    (hids : (s.stages.map WorkflowStage.id).Nodup) (hover : HandsOver s h closed opened) :
    ∃ current next, current ∈ s.stages ∧
      findStage (handle s h) closed = some { current with exitedAt := some h.env.clock } ∧
      findStage (handle s h) opened = some next ∧ next.enteredAt = h.env.txnStart := by
  obtain ⟨id, status, row, current, t, hrequest, hrole, hrow, hopen, hcommit, rfl, rfl⟩ := hover
  obtain ⟨hmem, -⟩ := open_of_findOpenStage hopen
  have hstages : (handle s h).stages = t.stages := by
    rw [handle, hrequest, serve, if_neg (not_not.mpr hrole)]
    exact stages_updateStatus hrow (hopen ▸ hcommit)
  obtain ⟨hfresh, -, hadded, -⟩ := commitStatus_ok hcommit
  have hfound : Table.lookup WorkflowStage.id current.id s.stages = some current :=
    Table.lookup_of_mem hids hmem
  refine ⟨current, ⟨h.env.stageId, row.id, status.value, h.env.txnStart, none, some h.user.id⟩,
    hmem, ?_, ?_, rfl⟩
  · rw [findStage, hstages, hadded]
    apply Table.lookup_append_of_some
    rw [findStage_closeStage, hfound, Option.map_some, if_pos rfl]
  · rw [findStage, hstages, hadded, Table.lookup_append, Table.lookup_eq_none.mpr hfresh,
      Option.none_or]
    simp [Table.lookup]

/-- The times of a hand-over are still there at the end of the run. -/
theorem times_at_end {before after : List Handled} {h : Handled} {closed opened : UUID}
    (hclock : Clocked (before ++ h :: after))
    (hover : HandsOver (execute State.empty before) h closed opened) :
    ∃ st next, findStage (execute State.empty (before ++ h :: after)) closed = some st ∧
      findStage (execute State.empty (before ++ h :: after)) opened = some next ∧
      st.exitedAt = some h.env.clock ∧ st.enteredAt ≤ h.env.clock ∧
      next.enteredAt = h.env.txnStart := by
  obtain ⟨current, next, hmem, hclosed, hopened, hentered⟩ :=
    times_of_handOver (nodup_ids_execute before) hover
  have hkeeps := keeps_execute (before ++ [h]) after
  rw [execute_append_singleton, List.append_assoc, List.singleton_append] at hkeeps
  obtain ⟨st, hst, -, hsame⟩ := hkeeps closed _ hclosed
  obtain ⟨next', hnext, hentered', -⟩ := hkeeps opened next hopened
  obtain rfl := hsame (by simp)
  refine ⟨_, next', hst, hnext, rfl, ?_, hentered'.trans hentered⟩
  -- the stage entered in an earlier transaction
  obtain ⟨g, hg, heq⟩ := entered_execute hmem
  have hgh : g.env.clock ≤ h.env.txnStart :=
    (List.pairwise_append.mp hclock.between).2.2 g hg h List.mem_cons_self
  calc current.enteredAt
      = g.env.txnStart := heq
    _ ≤ g.env.clock := hclock.within g (List.mem_append_left _ hg)
    _ ≤ h.env.txnStart := hgh
    _ ≤ h.env.clock := hclock.within h (by simp)

/-- **Stages abut exactly while the clock stands still.**  In every run under a monotone
    clock every stage that an `update_status` closes ends no earlier than it began; and
    all of them end before their successors begin exactly when at every hand-over the
    clock still reads the start of the transaction. -/
theorem stages_in_order_iff (run : List Handled) (hclock : Clocked run) :
    AtHandOvers run (fun _ closed _ => Ended (execute State.empty run) closed) ∧
    (AtHandOvers run (fun _ closed opened => InOrder (execute State.empty run) closed opened) ↔
      AtHandOvers run fun h _ _ => h.env.clock = h.env.txnStart) := by
  refine ⟨?_, ?_, ?_⟩
  · rintro before h after closed opened rfl hover
    obtain ⟨st, next, hst, -, hexited, hle, -⟩ := times_at_end hclock hover
    exact ⟨st, h.env.clock, hst, hexited, hle⟩
  · rintro hinOrder before h after closed opened rfl hover
    obtain ⟨st, next, hst, hnext, hexited, -, hentered⟩ := times_at_end hclock hover
    obtain ⟨st', next', exited, hst', hnext', hexited', -, hle⟩ :=
      hinOrder before h after closed opened rfl hover
    rw [hst, Option.some.injEq] at hst'
    rw [hnext, Option.some.injEq] at hnext'
    subst hst' hnext'
    rw [hexited, Option.some.injEq] at hexited'
    subst hexited'
    exact le_antisymm (hentered ▸ hle) (hclock.within h (by simp))
  · rintro hstands before h after closed opened rfl hover
    obtain ⟨st, next, hst, hnext, hexited, hle, hentered⟩ := times_at_end hclock hover
    have hsame := hstands before h after closed opened rfl hover
    exact ⟨st, next, h.env.clock, hst, hnext, hexited, hle, (hsame.trans hentered.symm).le⟩

/-- A student applies at 0. -/
def applied : Handled :=
  ⟨⟨.ofNat 1, .student⟩, .create ⟨.ofNat 3, [], none⟩, Env.untroubled (.ofNat 10) (.ofNat 20) 0⟩

/-- A coordinator shortlists the application in a transaction that starts at 10. -/
def shortlisted (clock : Time) : Handled :=
  ⟨⟨.ofNat 2, .coordinator⟩, .patchStatus (.ofNat 10) .shortlisted,
    { Env.untroubled (.ofNat 11) (.ofNat 21) 10 with clock := clock }⟩

theorem clocked_shortlisted (clock : Time) (h : 10 ≤ clock) :
    Clocked [applied, shortlisted clock] where
  within := by
    intro g hg
    rcases List.mem_pair.mp hg with rfl | rfl
    · exact le_refl (0 : Time)
    · exact h
  between := List.pairwise_pair.mpr (by decide : (0 : Time) ≤ 10)

theorem handsOver_shortlisted (clock : Time) :
    HandsOver (execute State.empty [applied]) (shortlisted clock) (.ofNat 20) (.ofNat 21) :=
  ⟨.ofNat 10, .shortlisted, _, _, _, rfl, rfl, rfl, rfl, rfl, rfl, rfl⟩

theorem in_order_at_once :
    InOrder (execute State.empty [applied, shortlisted 10]) (.ofNat 20) (.ofNat 21) := by
  apply ((stages_in_order_iff _ (clocked_shortlisted 10 le_rfl)).2.mpr ?_) [applied]
    (shortlisted 10) []
    _ _ rfl (handsOver_shortlisted 10)
  rintro before h after closed opened hrun ⟨id, status, -, -, -, hrequest, -⟩
  have hmem : h ∈ [applied, shortlisted 10] := hrun ▸ List.mem_append_right _ List.mem_cons_self
  rcases List.mem_pair.mp hmem with rfl | rfl
  · cases hrequest
  · rfl

theorem stages_overlap :
    ¬ ∀ run, Clocked run →
      AtHandOvers run fun _ closed opened => InOrder (execute State.empty run) closed opened := by
  intro h
  obtain ⟨st, next, exited, hst, hnext, hexited, -, hle⟩ :=
    h _ (clocked_shortlisted 11 (by decide)) [applied] (shortlisted 11) [] _ _ rfl
      (handsOver_shortlisted 11)
  have hended : (findStage (execute State.empty [applied, shortlisted 11]) (.ofNat 20)).bind
      WorkflowStage.exitedAt = some 11 := by decide +kernel
  have hentered : (findStage (execute State.empty [applied, shortlisted 11]) (.ofNat 21)).map
      WorkflowStage.enteredAt = some 10 := by decide +kernel
  rw [hst, Option.bind_some, hexited, Option.some.injEq] at hended
  rw [hnext, Option.map_some, Option.some.injEq] at hentered
  rw [hended, hentered] at hle
  exact absurd hle (by decide)

end CampusHire.StageIntervals
