import CampusHire.OpportunityRecords
import Mathlib.Data.List.TakeWhile

/-!
# The deadline job when exports fail

`process_deadlines` commits after each opportunity, but nothing in its loop catches what
an export raises.  So a run closes the opportunities before the first one whose export
fails and leaves the ones after it (`closeInOrder_eq`), and a failure blocks nobody
exactly when the query returns the failing ones last (`closes_iff_failures_last`).
-/

namespace CampusHire.DeadlineExports

open CampusHire OpportunityService OpportunityRecords

/-- The run of `process_deadlines` whose query has returned `due`, in that order. -/
def closeInOrder (env : Env) (s : State) : List Opportunity → State × Except ServiceError Unit
  | [] => (s, .ok ())
  | opp :: rest => closeDue env (rest.map Opportunity.id) s opp

theorem processDeadlines_eq (env : Env) (s : State) :
    processDeadlines s env = closeInOrder env s (dueOpportunities s env.clock) := by
  rw [processDeadlines]
  rcases dueOpportunities s env.clock with _ | ⟨opp, rest⟩ <;> rfl

instance decidableIsDue (now : Time) (o : Opportunity) : Decidable (IsDue now o) :=
  decidable_of_iff (o.status = "published" ∧ o.deadline.any (fun d => decide (d ≤ now)) = true)
    (by simp [IsDue, Option.any_eq_true])

/-- `generate_excel_export` does not raise. -/
def exports (env : Env) (o : Opportunity) : Bool := !env.exportFails o.id

/-- Only exports fail: the database takes every commit and answers every reload. -/
structure OnlyExportsFail (env : Env) : Prop where
  database : env.databaseFails = false
  reloads : ∀ id, env.reloadFails id = false

def closed (o : Opportunity) : Opportunity := { o with status := "closed" }

/-- The opportunities that meet `p` are closed, and nothing else is different. -/
def closeWhere (p : Opportunity → Prop) [DecidablePred p] (s : State) : State :=
  { s with opportunities := s.opportunities.map fun o => if p o then closed o else o }

/-- The run closes every due opportunity whose export succeeds and changes nothing else,
    and another run at the same time, with the same failures, changes nothing. -/
structure BlocksNobody (env : Env) (s : State) (due : List Opportunity) : Prop where
  closes : (closeInOrder env s due).1 =
    closeWhere (fun o => IsDue env.clock o ∧ env.exportFails o.id = false) s
  settles : ∀ (env' : Env) (due' : List Opportunity),
    env'.clock = env.clock → env'.exportFails = env.exportFails → OnlyExportsFail env' →
    due'.Perm (dueOpportunities (closeInOrder env s due).1 env.clock) →
    (closeInOrder env' (closeInOrder env s due).1 due').1 = (closeInOrder env s due).1

/-! ## Rows that are closed -/

theorem closeWhere_congr {p q : Opportunity → Prop} [DecidablePred p] [DecidablePred q] {s : State}
    (h : ∀ o ∈ s.opportunities, p o ↔ q o) : closeWhere p s = closeWhere q s := by
  have hrows : (s.opportunities.map fun o => if p o then closed o else o) =
      s.opportunities.map fun o => if q o then closed o else o := by
    apply List.map_congr_left
    intro o ho
    simp only [h o ho]
  simp only [closeWhere, hrows]

theorem closeWhere_of_forall_not {p : Opportunity → Prop} [DecidablePred p] {s : State}
    (h : ∀ o ∈ s.opportunities, ¬ p o) : closeWhere p s = s := by
  have hrows : (s.opportunities.map fun o => if p o then closed o else o) =
      s.opportunities := by
    calc _ = s.opportunities.map id := List.map_congr_left fun o ho => if_neg (h o ho)
      _ = s.opportunities := List.map_id _
  rw [closeWhere, hrows]

/-- Of a published opportunity one can tell whether it has been closed. -/
theorem iff_of_closeWhere_eq {p q : Opportunity → Prop} [DecidablePred p] [DecidablePred q]
    {s : State} (h : closeWhere p s = closeWhere q s) {o : Opportunity}
    (ho : o ∈ s.opportunities) (hpublished : o.status = "published") : p o ↔ q o := by
  have hrow := List.map_inj_left.mp (congrArg State.opportunities h) o ho
  have hne : closed o ≠ o := fun heq => by
    have hstatus := congrArg Opportunity.status heq
    rw [hpublished] at hstatus
    exact absurd hstatus (show "closed" ≠ "published" by decide)
  by_cases hp : p o <;> by_cases hq : q o
  · simp only [hp, hq]
  · rw [if_pos hp, if_neg hq] at hrow
    exact absurd hrow hne
  · rw [if_neg hp, if_pos hq] at hrow
    exact absurd hrow.symm hne
  · simp only [hp, hq]

theorem ids_closeWhere (p : Opportunity → Prop) [DecidablePred p] (s : State) :
    (closeWhere p s).opportunities.map Opportunity.id = s.opportunities.map Opportunity.id := by
  rw [closeWhere, List.map_map]
  apply List.map_congr_left
  intro o _
  by_cases hp : p o <;> simp [hp, closed]

theorem mem_closeWhere_of_not {p : Opportunity → Prop} [DecidablePred p] {s : State}
    {o : Opportunity} (ho : o ∈ s.opportunities) (hp : ¬ p o) :
    o ∈ (closeWhere p s).opportunities :=
  List.mem_map.mpr ⟨o, ho, if_neg hp⟩

/-- Closing one opportunity and then others, which are published. -/
theorem closeWhere_cons {s : State} {opp : Opportunity} {rest : List Opportunity}
    (hrest : ∀ o ∈ rest, o.status = "published") :
    closeWhere (fun o => o ∈ rest) (closeWhere (fun o => o = opp) s) =
      closeWhere (fun o => o ∈ opp :: rest) s := by
  have hrow : ∀ o : Opportunity,
      (if (if o = opp then closed o else o) ∈ rest then closed (if o = opp then closed o else o)
        else if o = opp then closed o else o) = if o ∈ opp :: rest then closed o else o := by
    intro o
    by_cases heq : o = opp
    · have hclosed : closed o ∉ rest := fun hmem =>
        absurd (hrest _ hmem) (by simp [closed])
      rw [if_pos heq, if_neg hclosed, if_pos (heq ▸ List.mem_cons_self)]
    · simp only [List.mem_cons, heq, if_false, false_or]
  simp only [closeWhere, List.map_map]
  congr 1
  exact List.map_congr_left fun o _ => hrow o

/-! ## The loop -/

theorem commitClosed_eq {env : Env} {s : State} {opp : Opportunity}
    (hdatabase : env.databaseFails = false) (hids : (s.opportunities.map Opportunity.id).Nodup)
    (hopp : opp ∈ s.opportunities) (hpublished : opp.status = "published") :
    commitClosed s env opp = .ok (closeWhere (fun o => o = opp) s) := by
  have haccepts : acceptsUpdate opp { status := some (some "closed") } = true := by
    rw [acceptsUpdate, hpublished]
    rfl
  rw [commitClosed, commitUpdate, hdatabase, haccepts, if_neg (by decide),
    Table.modify_eq_map hids hopp]
  refine congrArg Except.ok ?_
  simp only [closeWhere]
  congr 1
  apply List.map_congr_left
  intro o _
  by_cases heq : o = opp
  · subst heq
    simp [applyUpdate_closed, hpublished, closed]
  · rw [if_neg heq, if_neg heq]

theorem generateExcelExport_of_mem {env : Env} {s : State} {opp : Opportunity}
    (hids : (s.opportunities.map Opportunity.id).Nodup) (hopp : opp ∈ s.opportunities) :
    generateExcelExport s env opp.id =
      if env.exportFails opp.id then .error .value else .ok () := by
  rw [generateExcelExport, getOpportunity, findOpportunity, Table.lookup_of_mem hids hopp]

theorem refreshOpportunity_of_mem {env : Env} {s : State} {opp : Opportunity}
    (hquiet : OnlyExportsFail env) (hids : (s.opportunities.map Opportunity.id).Nodup)
    (hopp : opp ∈ s.opportunities) : refreshOpportunity s env opp.id = .ok opp :=
  refreshOpportunity_eq_ok.mpr ⟨hquiet.reloads opp.id, Table.lookup_of_mem hids hopp⟩

/-- The row that a run has just closed is there for the line in the log. -/
theorem refreshOpportunity_closeWhere {env : Env} {s : State} {opp : Opportunity}
    (hquiet : OnlyExportsFail env) (hids : (s.opportunities.map Opportunity.id).Nodup)
    (hopp : opp ∈ s.opportunities) :
    refreshOpportunity (closeWhere (fun o => o = opp) s) env opp.id = .ok (closed opp) := by
  have hids' : ((closeWhere (fun o => o = opp) s).opportunities.map Opportunity.id).Nodup := by
    rw [ids_closeWhere]
    exact hids
  have hmem : closed opp ∈ (closeWhere (fun o => o = opp) s).opportunities :=
    List.mem_map.mpr ⟨opp, hopp, if_pos rfl⟩
  exact refreshOpportunity_of_mem hquiet hids' hmem

/-- The induction is on the opportunities that are left, all of them still as they were
    when the query read them. -/
theorem closeDue_eq {env : Env} (hquiet : OnlyExportsFail env) (rest : List Opportunity)
    (s : State) (opp : Opportunity) (hids : (s.opportunities.map Opportunity.id).Nodup)
    (hdue : ∀ o ∈ opp :: rest, o ∈ s.opportunities ∧ o.status = "published")
    (hnodup : (opp :: rest).Nodup) :
    (closeDue env (rest.map Opportunity.id) s opp).1 =
      closeWhere (fun o => o ∈ (opp :: rest).takeWhile (exports env)) s := by
  induction rest generalizing s opp with
  | nil =>
    obtain ⟨hopp, hpublished⟩ := hdue opp List.mem_cons_self
    rw [List.map_nil, closeDue, generateExcelExport_of_mem hids hopp]
    rcases hfails : env.exportFails opp.id with _ | _
    · rw [if_neg (by decide), commitClosed_eq hquiet.database hids hopp hpublished]
      dsimp only
      rw [refreshOpportunity_closeWhere hquiet hids hopp]
      simp only [List.takeWhile_cons, exports, hfails, Bool.not_false, if_true, List.takeWhile_nil,
        List.mem_singleton]
    · rw [if_pos rfl, closeWhere_of_forall_not]
      simp [exports, hfails]
  | cons next rest ih =>
    obtain ⟨hopp, hpublished⟩ := hdue opp List.mem_cons_self
    rw [List.map_cons, closeDue, generateExcelExport_of_mem hids hopp]
    rcases hfails : env.exportFails opp.id with _ | _
    · obtain ⟨hnotin, hrest⟩ := List.nodup_cons.mp hnodup
      set s' := closeWhere (fun o => o = opp) s with hs'
      -- the others are as they were
      have hleft : ∀ o ∈ next :: rest, o ∈ s'.opportunities ∧ o.status = "published" := by
        intro o ho
        obtain ⟨hmem, hstatus⟩ := hdue o (List.mem_cons_of_mem _ ho)
        exact ⟨mem_closeWhere_of_not hmem fun heq => hnotin (heq ▸ ho), hstatus⟩
      have hids' : (s'.opportunities.map Opportunity.id).Nodup := by
        rw [hs', ids_closeWhere]
        exact hids
      have hreload : refreshOpportunity s' env next.id = .ok next :=
        refreshOpportunity_of_mem hquiet hids' (hleft next List.mem_cons_self).1
      rw [if_neg (by decide), commitClosed_eq hquiet.database hids hopp hpublished]
      dsimp only
      rw [refreshOpportunity_closeWhere hquiet hids hopp]
      dsimp only
      rw [hreload]
      dsimp only
      have hpos : exports env opp = true := by simp [exports, hfails]
      rw [ih s' next hids' hleft hrest, hs', closeWhere_cons, ← List.takeWhile_cons_of_pos hpos]
      intro o ho
      exact (hleft o (List.takeWhile_subset _ ho)).2
    · rw [if_pos rfl, closeWhere_of_forall_not]
      simp [exports, hfails]

theorem mem_dueOpportunities {s : State} {now : Time} {o : Opportunity} :
    o ∈ dueOpportunities s now ↔ o ∈ s.opportunities ∧ IsDue now o := by
  simp [dueOpportunities, IsDue, and_comm, Option.any_eq_true]

theorem nodup_dueOpportunities {s : State} (hids : (s.opportunities.map Opportunity.id).Nodup)
    (now : Time) : (dueOpportunities s now).Nodup :=
  (List.Nodup.of_map _ hids).filter _

/-- **What a run closes**: the due opportunities before the first one whose export fails. -/
theorem closeInOrder_eq {env : Env} {s : State} {due : List Opportunity}
    (hquiet : OnlyExportsFail env) (hids : (s.opportunities.map Opportunity.id).Nodup)
    (horder : due.Perm (dueOpportunities s env.clock)) :
    (closeInOrder env s due).1 =
      closeWhere (fun o => o ∈ due.takeWhile (exports env)) s := by
  have hdue : ∀ o ∈ due, o ∈ s.opportunities ∧ o.status = "published" := by
    intro o ho
    obtain ⟨hmem, hstatus, -⟩ := mem_dueOpportunities.mp (horder.mem_iff.mp ho)
    exact ⟨hmem, hstatus⟩
  have hnodup : due.Nodup := horder.nodup_iff.mpr (nodup_dueOpportunities hids env.clock)
  cases due with
  | nil =>
    rw [closeInOrder, closeWhere_of_forall_not]
    simp
  | cons opp rest => exact closeDue_eq hquiet rest s opp hids hdue hnodup

/-! ## Failures that come last -/

/-- Everything that meets `p` comes before the first that does not. -/
theorem mem_takeWhile_iff_pairwise {α : Type*} {p : α → Bool} {l : List α} (hnodup : l.Nodup) :
    (∀ a ∈ l, p a = true → a ∈ l.takeWhile p) ↔ l.Pairwise fun a b => p b = true → p a = true := by
  induction l with
  | nil => simp
  | cons a l ih =>
    obtain ⟨hnotin, hl⟩ := List.nodup_cons.mp hnodup
    rw [List.pairwise_cons, ← ih hl]
    by_cases ha : p a = true
    · rw [List.takeWhile_cons_of_pos ha]
      constructor
      · intro h
        refine ⟨fun _ _ _ => ha, fun b hb hpb => ?_⟩
        exact (List.mem_cons.mp (h b (List.mem_cons_of_mem _ hb) hpb)).resolve_left
          fun heq => hnotin (heq ▸ hb)
      · rintro ⟨-, h⟩ b hb hpb
        rcases List.mem_cons.mp hb with rfl | hb
        · exact List.mem_cons_self
        · exact List.mem_cons_of_mem _ (h b hb hpb)
    · rw [List.takeWhile_cons_of_neg ha]
      constructor
      · intro h
        have hnone : ∀ b ∈ l, ¬ p b = true := fun b hb hpb =>
          absurd (h b (List.mem_cons_of_mem _ hb) hpb) List.not_mem_nil
        exact ⟨fun b hb hpb => absurd hpb (hnone b hb), fun b hb hpb => absurd hpb (hnone b hb)⟩
      · rintro ⟨h, -⟩ b hb hpb
        rcases List.mem_cons.mp hb with rfl | hb
        · exact absurd hpb ha
        · exact absurd (h b hb hpb) ha

/-- **A failing export blocks nobody exactly when the failing ones come last**, for every
    database state, every time, every order in which the query returns the due
    opportunities, and every set of them whose export fails. -/
theorem closes_iff_failures_last {env : Env} {s : State} {due : List Opportunity}
    (hquiet : OnlyExportsFail env) (hids : (s.opportunities.map Opportunity.id).Nodup)
    (horder : due.Perm (dueOpportunities s env.clock)) :
    BlocksNobody env s due ↔
      due.Pairwise fun a b => env.exportFails a.id = true → env.exportFails b.id = true := by
  have hnodup : due.Nodup := horder.nodup_iff.mpr (nodup_dueOpportunities hids env.clock)
  have hmem : ∀ {o : Opportunity}, o ∈ due ↔ o ∈ s.opportunities ∧ IsDue env.clock o :=
    fun {o} => horder.mem_iff.trans mem_dueOpportunities
  have hpairwise : (due.Pairwise fun a b => env.exportFails a.id = true →
        env.exportFails b.id = true) ↔
      ∀ o ∈ due, exports env o = true → o ∈ due.takeWhile (exports env) := by
    rw [mem_takeWhile_iff_pairwise hnodup]
    simp only [exports, Bool.not_eq_true', ← Bool.not_eq_true, not_imp_not]
  rw [hpairwise]
  constructor
  · rintro ⟨hcloses, -⟩ o ho hexports
    rw [closeInOrder_eq hquiet hids horder] at hcloses
    obtain ⟨hstored, hdue⟩ := hmem.mp ho
    exact (iff_of_closeWhere_eq hcloses hstored hdue.1).mpr ⟨hdue, by simpa [exports] using hexports⟩
  · intro hlast
    have hcloses : (closeInOrder env s due).1 =
        closeWhere (fun o => IsDue env.clock o ∧ env.exportFails o.id = false) s := by
      rw [closeInOrder_eq hquiet hids horder]
      apply closeWhere_congr
      intro o ho
      constructor
      · intro htaken
        have hexports := List.mem_takeWhile_imp htaken
        exact ⟨(hmem.mp (List.takeWhile_subset _ htaken)).2, by simpa [exports] using hexports⟩
      · rintro ⟨hdue, hexports⟩
        exact hlast o (hmem.mpr ⟨ho, hdue⟩) (by simp [exports, hexports])
    refine ⟨hcloses, ?_⟩
    intro env' due' hclock hfails hquiet' horder'
    rw [hcloses] at horder' ⊢
    set t := closeWhere (fun o => IsDue env.clock o ∧ env.exportFails o.id = false) s with ht
    rw [← hclock] at horder'
    have hids' : (t.opportunities.map Opportunity.id).Nodup := by
      rw [ht, ids_closeWhere]
      exact hids
    rw [closeInOrder_eq hquiet' hids' horder', closeWhere_of_forall_not]
    intro o _ htaken
    -- what is due in the second run has failed in the first one
    have hexports := List.mem_takeWhile_imp htaken
    obtain ⟨hstored, hdue⟩ := mem_dueOpportunities.mp
      (horder'.mem_iff.mp (List.takeWhile_subset _ htaken))
    rw [exports, hfails] at hexports
    rw [hclock] at hdue
    obtain ⟨old, hold, rfl⟩ := List.mem_map.mp hstored
    by_cases hclosed : IsDue env.clock old ∧ env.exportFails old.id = false
    · rw [if_pos hclosed] at hdue
      exact absurd hdue.1 (by simp [closed])
    · rw [if_neg hclosed] at hdue hexports
      exact hclosed ⟨hdue, by simpa using hexports⟩

/-! ## A drive behind one whose export fails -/

def drive (n : Nat) : Opportunity where
  id := .ofNat n
  title := "Drive"
  description := none
  coordinatorId := .ofNat 100
  deadline := some 10
  status := "published"
  createdAt := 0

def drives : State := { State.empty with opportunities := [drive 1, drive 2] }

/-- The job runs at 20; the workbook of one drive refuses a cell. -/
def oneFails (failing : UUID) : Env where
  profile := .unreachable
  uuid4 := fun _ => failing
  txnStart := 20
  clock := 20
  databaseFails := false
  exportFails := fun id => decide (id = failing)
  reloadFails := fun _ => false

theorem second_drive_blocked : ¬ BlocksNobody (oneFails (.ofNat 1)) drives [drive 1, drive 2] := by
  rintro ⟨hcloses, -⟩
  have hstatuses := congrArg (fun t => t.opportunities.map Opportunity.status) hcloses
  exact absurd hstatuses (by decide +kernel)

theorem failing_drive_last : BlocksNobody (oneFails (.ofNat 2)) drives [drive 1, drive 2] := by
  refine (closes_iff_failures_last ⟨rfl, fun _ => rfl⟩ (by decide +kernel) ?_).mpr ?_
  · have hdue : dueOpportunities drives (oneFails (.ofNat 2)).clock = [drive 1, drive 2] := by
      decide +kernel
    rw [hdue]
  · decide +kernel

end CampusHire.DeadlineExports
