import CampusHire.Authorship
import CampusHire.OpportunityRecords

/-!
# Who has registered, and who has published

A registration goes back to a signed request of its student.  An opportunity goes back to its
coordinator's requests and to the deadline job; that these requests are signed takes more than
tokens that nobody forges, since `create_opp` and `patch_opp` can be reached without
`auth_request` (`HonestEvent`).
-/

namespace CampusHire.OpportunityAuthors

open CampusHire AuthService PublicApi Accountability SerialRun
open CampusHire.Authorship (currentUser_eq)
open CampusHire.Perimeter (Exposed)
open CampusHire.OpportunityService (Opportunity Registration closeDue commitUpdate_ok
  processDeadlines)

section Site

variable {site : Site} {files : FileService → FileUploads.Disk} {run : List Event}

theorem opportunity_step (site : Site) (store : Store) (e : Event) :
    (step site store e).opportunities = store.opportunities ∨
      (∃ env, e = .processDeadlines env ∧ (step site store e).opportunities =
        (processDeadlines store.opportunities env).1) ∨
      ∃ r body env user request, e = .http r body env ∧
        called site store.identity.redis env.clock r body =
          .ok (.user user (.opportunity request)) ∧
        (step site store e).opportunities =
          (OpportunityService.serve store.opportunities env.opportunity
            (.request user request)).1 := by
  cases e with
  | consume message env => exact Or.inl rfl
  | processDeadlines env => exact Or.inr (Or.inl ⟨env, rfl, rfl⟩)
  | http r body env =>
    rcases hcalled : called site store.identity.redis env.clock r body with answer | call
    · rw [step_http_error hcalled]
      exact Or.inl rfl
    rw [step_http_ok hcalled]
    rcases call with c | ⟨user, c⟩
    · cases c with
      | _ => exact Or.inl rfl
    · cases c with
      | opportunity request =>
        exact Or.inr (Or.inr ⟨r, body, env, user, request, rfl, hcalled, rfl⟩)
      | _ => exact Or.inl rfl

theorem opportunities_after (run : List Event) :
    ((after site files run).opportunities.opportunities.map Opportunity.id).Nodup := by
  have hnew : ((Store.fresh files).opportunities.opportunities.map Opportunity.id).Nodup :=
    List.nodup_nil
  refine (throughout_of_step (P := fun store : Store =>
    (store.opportunities.opportunities.map Opportunity.id).Nodup) ?_ hnew run).last
  intro store e h
  rcases opportunity_step site store e with hsame | ⟨env, -, heq⟩ |
    ⟨r, body, env, user, request, -, -, heq⟩
  · rw [hsame]
    exact h
  · rw [heq]
    exact OpportunityRecords.ids_handle ⟨.job .processDeadlines, env⟩ h
  · rw [heq]
    exact OpportunityRecords.ids_handle ⟨.job (.request user request), env.opportunity⟩ h

/-- A request that makes up its caller where nobody checks. -/
def HonestEvent (site : Site) (store : Store) : Event → Prop
  | .http r _ env => GatewayIdentity.Unprotected r →
      GatewayIdentity.Honest site.deployment store.identity.redis env.clock r
  | _ => True

/-- The student's request makes the registration. -/
def Enrolls (reg : Registration) (env : OpportunityService.Env) (user : CurrentUser) :
    OpportunityService.Request → Prop
  | .createRegistration opportunityId data => user = ⟨reg.studentId, .student⟩ ∧
      reg = OpportunityService.newRegistration env opportunityId user.id data
  | _ => False

/-- The coordinator's request gives the opportunity what `f` tells of it. -/
def Writes {α : Type} (f : Opportunity → α) (o : Opportunity) (s : OpportunityService.State)
    (env : OpportunityService.Env) (user : CurrentUser) : OpportunityService.Request → Prop
  | .createOpp data => user = ⟨o.coordinatorId, .coordinator⟩ ∧ o.id = env.uuid4 0 ∧
      f o = f (OpportunityService.newOpportunity env user.id data)
  | .patchOpp id data => user = ⟨o.coordinatorId, .coordinator⟩ ∧ o.id = id ∧
      ∃ row, OpportunityService.findOpportunity s id = some row ∧ f row ≠ f o ∧
        f o = f (OpportunityService.applyUpdate row data row)
  | .createRegistration .. => False

theorem registrations_processDeadlines (s : OpportunityService.State)
    (env : OpportunityService.Env) :
    (processDeadlines s env).1.registrations = s.registrations := by
  obtain ⟨opportunities, heq⟩ := OpportunityService.processDeadlines_others s env
  rw [heq]

theorem enrolls_serve {s : OpportunityService.State} {env : OpportunityService.Env}
    {user : CurrentUser} {request : OpportunityService.Request} {reg : Registration}
    (h : reg ∈ (OpportunityService.serve s env (.request user request)).1.registrations) :
    reg ∈ s.registrations ∨ (¬ Exposed (.opportunity request) ∧ Enrolls reg env user request) := by
  cases request with
  | createOpp data =>
    have hexposed : Exposed (.opportunity (.createOpp data)) := trivial
    rw [Perimeter.registrations_exposed s env user hexposed] at h
    exact Or.inl h
  | patchOpp id data =>
    have hexposed : Exposed (.opportunity (.patchOpp id data)) := trivial
    rw [Perimeter.registrations_exposed s env user hexposed] at h
    exact Or.inl h
  | createRegistration opportunityId data =>
    simp only [OpportunityService.serve] at h
    split at h
    · exact Or.inl h
    rename_i hrole
    rcases OpportunityRecords.registerStudent_cases s env opportunityId user.id data with hsame |
      hins
    · rw [hsame] at h
      exact Or.inl h
    · rw [(OpportunityService.insertRegistration_ok hins).2] at h
      rcases List.mem_append.mp h with hold | hnew
      · exact Or.inl hold
      · obtain rfl := List.mem_singleton.mp hnew
        exact Or.inr ⟨id, currentUser_eq rfl (not_not.mp hrole), rfl⟩

variable {α : Type} {f : Opportunity → α} {o : Opportunity}

/-- The opportunity is there, and `f` tells the same of it. -/
def Tells (f : Opportunity → α) (o : Opportunity) (s : OpportunityService.State) : Prop :=
  ∃ x ∈ s.opportunities, x.id = o.id ∧ x.coordinatorId = o.coordinatorId ∧ f x = f o

theorem writes_serve {s : OpportunityService.State} {env : OpportunityService.Env}
    {user : CurrentUser} {request : OpportunityService.Request}
    (hids : (s.opportunities.map Opportunity.id).Nodup)
    (h : Tells f o (OpportunityService.serve s env (.request user request)).1) :
    Tells f o s ∨ Writes f o s env user request := by
  obtain ⟨x, hx, hid, hcoordinator, hf⟩ := h
  cases request with
  | createOpp data =>
    simp only [OpportunityService.serve, OpportunityService.createOpportunity] at hx
    split at hx
    · exact Or.inl ⟨x, hx, hid, hcoordinator, hf⟩
    rename_i hrole
    split at hx
    · exact Or.inl ⟨x, hx, hid, hcoordinator, hf⟩
    rename_i hins
    rw [(OpportunityService.insertOpportunity_ok hins).2.1] at hx
    rcases List.mem_append.mp hx with hold | hnew
    · exact Or.inl ⟨x, hold, hid, hcoordinator, hf⟩
    · right
      obtain rfl := List.mem_singleton.mp hnew
      exact ⟨currentUser_eq hcoordinator (not_not.mp hrole), hid.symm, hf.symm⟩
  | patchOpp opportunityId data =>
    simp only [OpportunityService.serve] at hx
    split at hx
    · exact Or.inl ⟨x, hx, hid, hcoordinator, hf⟩
    rename_i hrole
    rcases OpportunityRecords.updateOpportunity_cases s env opportunityId user.id data with hsame |
      ⟨row, s', hfound, hown, hcommit, heq, -⟩
    · rw [hsame] at hx
      exact Or.inl ⟨x, hx, hid, hcoordinator, hf⟩
    rw [heq, commitUpdate_ok hcommit] at hx
    rcases Table.mem_modify.mp hx with ⟨hold, -⟩ | ⟨old, hold, hrow, rfl⟩
    · exact Or.inl ⟨x, hold, hid, hcoordinator, hf⟩
    -- the row that is written is the one that was loaded
    have hmem := Table.mem_of_lookup hfound
    have hkey : row.id = opportunityId := Table.key_of_lookup hfound
    obtain rfl : old = row := List.inj_on_of_nodup_map hids hold hmem hrow
    have hid' : old.id = o.id := hid
    have hcoordinator' : old.coordinatorId = o.coordinatorId := hcoordinator
    by_cases hsame : f old = f o
    · exact Or.inl ⟨old, hold, hid', hcoordinator', hsame⟩
    · right
      refine ⟨currentUser_eq (hown.symm.trans hcoordinator') (not_not.mp hrole),
        hid'.symm.trans hkey, old, hfound, hsame, hf.symm⟩
  | createRegistration opportunityId data =>
    left
    simp only [OpportunityService.serve] at hx
    split at hx
    · exact ⟨x, hx, hid, hcoordinator, hf⟩
    rcases OpportunityRecords.registerStudent_cases s env opportunityId user.id data with hsame |
      hins
    · rw [hsame] at hx
      exact ⟨x, hx, hid, hcoordinator, hf⟩
    · rw [(OpportunityService.insertRegistration_ok hins).2] at hx
      exact ⟨x, hx, hid, hcoordinator, hf⟩

/-- The deadline job closes opportunities. -/
theorem tells_of_processDeadlines {s : OpportunityService.State} {env : OpportunityService.Env}
    (hids : (s.opportunities.map Opportunity.id).Nodup)
    (hclosed : ∀ row, f { row with status := "closed" } = f o → f row = f o)
    (h : Tells f o (processDeadlines s env).1) : Tells f o s := by
  obtain ⟨x, hx, hid, hcoordinator, hf⟩ := h
  have hcloses := OpportunityRecords.processDeadlines_onlyCloses hids env
  have hmem : x.id ∈ s.opportunities.map Opportunity.id := by
    rw [← hcloses.ids]
    exact List.mem_map_of_mem hx
  obtain ⟨old, hold, hsame⟩ := List.mem_map.mp hmem
  obtain ⟨next, hnext, hbecomes⟩ := hcloses.records old.id old (Table.lookup_of_mem hids hold)
  -- ids stay unique, so `x` is what has become of `old`
  have hids' : ((processDeadlines s env).1.opportunities.map Opportunity.id).Nodup := by
    rw [hcloses.ids]
    exact hids
  obtain rfl : next = x := by
    apply List.inj_on_of_nodup_map hids' (Table.mem_of_lookup hnext) hx
    rw [← hsame]
    exact Table.key_of_lookup hnext
  rcases hbecomes with rfl | ⟨-, rfl⟩
  · exact ⟨next, hold, hid, hcoordinator, hf⟩
  · exact ⟨old, hold, hid, hcoordinator, hclosed old hf⟩

/-- **What a coordinator's opportunity says is theirs**, if all requests are honest: everything
    that the deadline job does not write goes back to a signed request of the coordinator. -/
theorem tells_origin
    (hclosed : ∀ row, f { row with status := "closed" } = f o → f row = f o)
    (hrun : UnforgedRun site files run)
    (hhonest : EveryStep (step site) (HonestEvent site) (Store.fresh files) run)
    (h : Tells f o (after site files run).opportunities) :
    Took (fun past e => ∃ env user request,
      SignedCall site files past e env user (.opportunity request) ∧
      Writes f o (after site files past).opportunities env.opportunity user request) run := by
  have hnew : ¬ Tells f o (Store.fresh files).opportunities := by
    rintro ⟨x, hx, -⟩
    cases hx
  refine (signed_origin (R := fun store => Tells f o store.opportunities)
    (G := fun store e => Unforged site store e ∧ HonestEvent site store e)
    (P := fun store env user call => ∃ request, call = .opportunity request ∧
      Writes f o store.opportunities env.opportunity user request) (fun _ _ h => h.1) ?_ hnew
    (hrun.and hhonest) h).mono ?_
  · rintro past e ⟨-, hhonest⟩ hR
    rcases opportunity_step site (after site files past) e with hsame |
      ⟨env, -, heq⟩ | ⟨r, body, env, user, request, rfl, hcalled, heq⟩
    · rw [hsame] at hR
      exact Or.inl hR
    · rw [heq] at hR
      exact Or.inl (tells_of_processDeadlines (opportunities_after past) hclosed hR)
    · rw [heq] at hR
      rcases writes_serve (opportunities_after past) hR with hold | hP
      · exact Or.inl hold
      · exact Or.inr ⟨r, body, env, user, .opportunity request, rfl, hcalled, fun _ => hhonest,
          request, rfl, hP⟩
  · rintro past e ⟨env, user, call, hsigned, request, rfl, hP⟩
    exact ⟨env, user, request, hsigned, hP⟩

theorem enrolls_origin {reg : Registration} (hrun : UnforgedRun site files run)
    (h : reg ∈ (after site files run).opportunities.registrations) :
    Took (fun past e => ∃ env user request,
      SignedCall site files past e env user (.opportunity request) ∧
      Enrolls reg env.opportunity user request) run := by
  have hnew : reg ∉ (Store.fresh files).opportunities.registrations := by
    intro h
    cases h
  refine (signed_origin (R := fun store => reg ∈ store.opportunities.registrations)
    (P := fun _ env user call => ∃ request, call = .opportunity request ∧
      Enrolls reg env.opportunity user request) (fun _ _ h => h) ?_ hnew hrun h).mono ?_
  · rintro past e - hR
    rcases opportunity_step site (after site files past) e with hsame |
      ⟨env, -, heq⟩ | ⟨r, body, env, user, request, rfl, hcalled, heq⟩
    · rw [hsame] at hR
      exact Or.inl hR
    · rw [heq, registrations_processDeadlines] at hR
      exact Or.inl hR
    · rw [heq] at hR
      rcases enrolls_serve hR with hold | ⟨hexposed, hP⟩
      · exact Or.inl hold
      · exact Or.inr ⟨r, body, env, user, .opportunity request, rfl, hcalled,
          fun h => absurd h hexposed, request, rfl, hP⟩
  · rintro past e ⟨env, user, call, hsigned, request, rfl, hP⟩
    exact ⟨env, user, request, hsigned, hP⟩

/-- **Nobody registers for another.**  A registration goes back to a signed request of its
    student, and where all requests are honest, an opportunity, what it says and every status
    but "closed" go back to signed requests of its coordinator. -/
theorem opportunities_signed (hrun : UnforgedRun site files run) :
    (∀ reg ∈ (after site files run).opportunities.registrations,
      Took (fun past e => ∃ env user request,
        SignedCall site files past e env user (.opportunity request) ∧
        Enrolls reg env.opportunity user request) run) ∧
    (EveryStep (step site) (HonestEvent site) (Store.fresh files) run →
      ∀ o ∈ (after site files run).opportunities.opportunities,
        Took (fun past e => ∃ env user request,
          SignedCall site files past e env user (.opportunity request) ∧
          Writes Opportunity.createdAt o (after site files past).opportunities env.opportunity user
            request) run ∧
        Took (fun past e => ∃ env user request,
          SignedCall site files past e env user (.opportunity request) ∧
          Writes (fun o => (o.title, o.description, o.deadline)) o
            (after site files past).opportunities env.opportunity user request) run ∧
        (o.status ≠ "closed" → Took (fun past e => ∃ env user request,
          SignedCall site files past e env user (.opportunity request) ∧
          Writes Opportunity.status o (after site files past).opportunities env.opportunity user
            request) run)) := by
  refine ⟨fun reg hreg => enrolls_origin hrun hreg, ?_⟩
  intro hhonest o ho
  refine ⟨tells_origin (fun _ h => h) hrun hhonest ⟨o, ho, rfl, rfl, rfl⟩,
    tells_origin (fun _ h => h) hrun hhonest ⟨o, ho, rfl, rfl, rfl⟩, ?_⟩
  intro hopen
  exact tells_origin (fun _ h => absurd h.symm hopen) hrun hhonest ⟨o, ho, rfl, rfl, rfl⟩

end Site

/-- A coordinator registers, logs in and publishes an opportunity. -/
def publishes : Event := signed "/api/v1/opportunities" (.obj [("title", .str "Drive")])

theorem publishes_called :
    called (siteOf .coordinator) [] 0 (post "/api/v1/opportunities" [("access_token", "access")])
        (.json (.obj [("title", .str "Drive")])) =
      .ok (.user ⟨.ofNat 1, .coordinator⟩ (.opportunity (.createOpp
        { title := "Drive", description := none, deadline := none, formFields := [],
          eligibilityRules := [] }))) := by
  have hcaller : AuthDeps.getCurrentUser (siteOf .coordinator).deployment.jose
      (GatewayIdentity.environOf (siteOf .coordinator).deployment.settings) 0
      (Gateway.forward (post "/api/v1/opportunities" [("access_token", "access")]) none
        Gateway.setsHost).credentials = .ok ⟨.ofNat 1, .coordinator⟩ := by decide +kernel
  have hforwarded : called (siteOf .coordinator) [] 0
      (post "/api/v1/opportunities" [("access_token", "access")])
      (.json (.obj [("title", .str "Drive")])) =
      dispatch (siteOf .coordinator) 0 .opportunityService
        (Gateway.forward (post "/api/v1/opportunities" [("access_token", "access")]) none
          Gateway.setsHost) (.json (.obj [("title", .str "Drive")])) := rfl
  rw [hforwarded]
  exact Perimeter.dispatch_asks rfl rfl rfl hcaller rfl

theorem publishes_signed :
    ∃ o ∈ (after (siteOf .coordinator) emptyDisks
        [registers .coordinator, logsIn, publishes]).opportunities.opportunities,
      o.status ≠ "closed" ∧
      Took (fun past e => ∃ env user request,
        SignedCall (siteOf .coordinator) emptyDisks past e env user (.opportunity request) ∧
        Writes Opportunity.status o (after (siteOf .coordinator) emptyDisks past).opportunities
          env.opportunity user request) [registers .coordinator, logsIn, publishes] := by
  have hredis := (identity_loggedIn .coordinator).2
  have hmem : ⟨.ofNat 4, "Drive", none, .ofNat 1, none, "published", 0⟩ ∈
      (after (siteOf .coordinator) emptyDisks
        [registers .coordinator, logsIn, publishes]).opportunities.opportunities := by
    have hcalled := publishes_called
    rw [← hredis] at hcalled
    rw [publishes, stepped_signed hcalled]
    dsimp only [perform, performUser]
    rw [(records_loggedIn .coordinator).2]
    exact List.mem_singleton.mpr rfl
  have hhonest : EveryStep (step (siteOf .coordinator)) (HonestEvent (siteOf .coordinator))
      (Store.fresh emptyDisks) [registers .coordinator, logsIn, publishes] := by
    refine ⟨?_, ?_, ?_, trivial⟩
    · intro _ token hextract
      cases hextract
    · intro _ token hextract
      cases hextract
    · intro _ token _ _
      exact (congrArg (fun redis => isTokenBlacklisted redis 0 token) hredis).trans rfl
  have hrun : UnforgedRun (siteOf .coordinator) emptyDisks
      [registers .coordinator, logsIn, publishes] := unforged_signed .coordinator _ _
  have hopen : "published" ≠ "closed" := by decide
  exact ⟨_, hmem, hopen, ((opportunities_signed hrun).2 hhonest _ hmem).2.2 hopen⟩

end CampusHire.OpportunityAuthors
