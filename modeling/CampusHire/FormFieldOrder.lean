import CampusHire.OpportunityRecords
import Mathlib.Data.List.Nodup

/-!
# The order of the form fields

`create_opportunity` stores `field.sort_order or idx`, so a field keeps the value it came
with unless that is 0, and takes its position otherwise.  An explicit 0 counts as none
given, and a value that a client gives to one field may be the position of another.
-/

namespace CampusHire.FormFieldOrder

open CampusHire OpportunityService OpportunityRecords

/-! ## A value or a position -/

/-- `given or idx`, where a value that is not given is 0. -/
def storedOrder (idx : Nat) (given : Option Int) : Int :=
  if given.getD 0 ≠ 0 then given.getD 0 else idx

/-- The explicit values are pairwise distinct. -/
def Distinct (given : List (Option Int)) : Prop :=
  ∀ (i j : Nat) (v : Int), given[i]? = some (some v) → given[j]? = some (some v) → i = j

/-- An explicit 0 comes first, and no explicit value is the position of a field that
    comes without one. -/
def WellPlaced (given : List (Option Int)) : Prop :=
  (∀ i : Nat, given[i]? = some (some 0) → i = 0) ∧
    ∀ i j : Nat, given[i]? = some none → given[j]? ≠ some (some (i : Int))

theorem storedOrder_none (idx : Nat) : storedOrder idx none = idx := rfl

theorem storedOrder_some {idx : Nat} {v : Int} (h : v = 0 → idx = 0) :
    storedOrder idx (some v) = v := by
  rw [storedOrder, Option.getD_some]
  by_cases hv : v = 0
  · rw [if_neg (not_not.mpr hv), h hv, hv]
    rfl
  · rw [if_pos hv]

theorem nodup_mapIdx_iff {α β : Type} {f : Nat → α → β} {l : List α} :
    (l.mapIdx f).Nodup ↔
      ∀ (i j : Nat) a b, l[i]? = some a → l[j]? = some b → f i a = f j b → i = j := by
  rw [List.nodup_iff_getElem?_ne_getElem?]
  constructor
  · intro h i j a b hi hj heq
    have hlength : ∀ {k : Nat} {c : α}, l[k]? = some c → k < (l.mapIdx f).length := fun hk => by
      rw [List.length_mapIdx]
      exact (List.getElem?_eq_some_iff.mp hk).1
    have hsame : (l.mapIdx f)[i]? = (l.mapIdx f)[j]? := by
      rw [List.getElem?_mapIdx, List.getElem?_mapIdx, hi, hj, Option.map_some, Option.map_some,
        heq]
    rcases lt_trichotomy i j with hlt | heq | hlt
    · exact absurd hsame (h i j hlt (hlength hj))
    · exact heq
    · exact absurd hsame.symm (h j i hlt (hlength hi))
  · intro h i j hlt hj heq
    rw [List.length_mapIdx] at hj
    have hget : ∀ {k : Nat} (hk : k < l.length), (l.mapIdx f)[k]? = some (f k l[k]) := fun hk => by
      rw [List.getElem?_mapIdx, List.getElem?_eq_getElem hk, Option.map_some]
    rw [hget (hlt.trans hj), hget hj, Option.some.injEq] at heq
    exact hlt.ne (h i j _ _ (List.getElem?_eq_getElem _) (List.getElem?_eq_getElem _) heq)

/-- The values are stored as given and pairwise distinct exactly when they are well
    placed. -/
theorem stored_iff {given : List (Option Int)} (hdistinct : Distinct given) :
    (∀ (i : Nat) (v : Int), given[i]? = some (some v) → storedOrder i (some v) = v) ∧
        (given.mapIdx storedOrder).Nodup ↔ WellPlaced given := by
  rw [nodup_mapIdx_iff]
  constructor
  · rintro ⟨hunchanged, hnodup⟩
    constructor
    · intro i hi
      exact Int.natCast_eq_zero.mp (hunchanged i 0 hi)
    · intro i j hi hj
      have hij := hnodup i j none (some i) hi hj (hunchanged j i hj).symm
      rw [hij, hj] at hi
      cases hi
  · rintro ⟨hzero, hposition⟩
    have hunchanged : ∀ (i : Nat) (v : Int), given[i]? = some (some v) →
        storedOrder i (some v) = v := by
      intro i v hi
      apply storedOrder_some
      rintro rfl
      exact hzero i hi
    refine ⟨hunchanged, ?_⟩
    intro i j a b hi hj heq
    rcases a with _ | v <;> rcases b with _ | w
    · exact Int.natCast_inj.mp heq
    · rw [storedOrder_none, hunchanged j w hj] at heq
      exact absurd (heq ▸ hj) (hposition i j hi)
    · rw [storedOrder_none, hunchanged i v hi] at heq
      exact absurd (heq ▸ hi) (hposition j i hj)
    · rw [hunchanged i v hi, hunchanged j w hj] at heq
      subst heq
      exact hdistinct i j v hi hj

/-! ## What a client sends -/

/-- An element of `form_fields`: `none` is a `sort_order` that the client leaves out. -/
structure FormFieldBody where
  fieldType : FormFieldType
  label : String
  required : Bool := false
  options : Option Dict := none
  mapsToProfileField : Option String := none
  sortOrder : Option Int := none

/-- The element as it is validated, with its default. -/
def FormFieldBody.validate (body : FormFieldBody) : FormFieldCreate where
  fieldType := body.fieldType
  label := body.label
  required := body.required
  options := body.options
  mapsToProfileField := body.mapsToProfileField
  sortOrder := body.sortOrder.getD 0

theorem sortOrder_newFormField (env : Env) (opportunityId : UUID) (idx : Nat)
    (body : FormFieldBody) :
    (newFormField env opportunityId idx body.validate).sortOrder =
      storedOrder idx body.sortOrder := rfl

/-! ## The rows that are stored -/

theorem createOpportunity_ok {s s' : State} {env : Env} {coordinatorId : UUID}
    {data : OpportunityCreate} {opp : Opportunity}
    (h : createOpportunity s env coordinatorId data = (s', .ok opp)) :
    insertOpportunity s env coordinatorId data = .ok s' ∧ opp.id = env.uuid4 0 := by
  rw [createOpportunity] at h
  rcases hins : insertOpportunity s env coordinatorId data with e | inserted
  · rw [hins] at h
    cases h
  rw [hins] at h
  obtain ⟨rfl, hrefresh⟩ := Prod.mk.inj h
  refine ⟨rfl, ?_⟩
  exact Table.key_of_lookup (refreshOpportunity_eq_ok.mp hrefresh).2

theorem formFields_insert {s s' : State} {env : Env} {coordinatorId : UUID}
    {data : OpportunityCreate} (h : insertOpportunity s env coordinatorId data = .ok s') :
    s'.formFields = s.formFields ++ data.formFields.mapIdx (newFormField env (env.uuid4 0)) := by
  simp only [insertOpportunity] at h
  split at h
  · cases h
  split at h
  · rename_i hopp hfields hrules
    cases h
    exact insertRows_ok hfields
  · cases h

/-- Every form field is one of a stored opportunity. -/
def Parented (s : State) : Prop :=
  ∀ f ∈ s.formFields, f.opportunityId ∈ s.opportunities.map Opportunity.id

theorem formFields_processDeadlines (s : State) (env : Env) :
    (processDeadlines s env).1.formFields = s.formFields := by
  obtain ⟨opportunities, heq⟩ := processDeadlines_others s env
  rw [heq]

theorem parented_handle {s : State} (h : Handled)
    (hids : (s.opportunities.map Opportunity.id).Nodup)
    (hs : Parented s) : Parented (handle s h) := by
  rcases handle_cases s h with hsame | ⟨coordinatorId, data, hins⟩ | ⟨row, data, -, -, hcommit⟩ |
    ⟨opportunityId, studentId, data, hins⟩ | ⟨-, heq⟩
  · rw [hsame]
    exact hs
  · intro f hf
    rw [formFields_insert hins] at hf
    rw [(insertOpportunity_ok hins).2.1, List.map_append]
    rcases List.mem_append.mp hf with hold | hnew
    · exact List.mem_append_left _ (hs f hold)
    · obtain ⟨idx, _, rfl⟩ := List.mem_mapIdx.mp hnew
      exact List.mem_append_right _ List.mem_cons_self
  · rw [Parented, commitUpdate_ok hcommit,
      Table.map_modify (f := applyUpdate row data) fun _ => rfl]
    exact hs
  · rw [(insertRegistration_ok hins).2]
    exact hs
  · rw [Parented, heq, formFields_processDeadlines, (processDeadlines_onlyCloses hids h.env).ids]
    exact hs

theorem parented_execute (run : List Handled) : Parented (execute State.empty run) := by
  induction run using List.reverseRecOn with
  | nil => exact nofun
  | append_singleton run h ih =>
    rw [execute_append]
    exact parented_handle h (ids_execute run) ih

/-- The form fields of a new opportunity are the submitted ones, in their order. -/
theorem formFieldsOf_created {run : List Handled} {s' : State} {env : Env} {coordinatorId : UUID}
    {data : OpportunityCreate} {opp : Opportunity}
    (h : createOpportunity (execute State.empty run) env coordinatorId data = (s', .ok opp)) :
    formFieldsOf s' opp.id = data.formFields.mapIdx (newFormField env opp.id) := by
  obtain ⟨hins, hid⟩ := createOpportunity_ok h
  rw [formFieldsOf, formFields_insert hins, hid, List.filter_append]
  have hold : ((execute State.empty run).formFields.filter
      fun f => decide (f.opportunityId = env.uuid4 0)) = [] := by
    rw [List.filter_eq_nil_iff]
    intro f hf hparent
    obtain ⟨o, ho, heq⟩ := List.mem_map.mp (parented_execute run f hf)
    exact (insertOpportunity_ok hins).1 o ho (heq.trans (of_decide_eq_true hparent))
  rw [hold, List.nil_append, List.filter_eq_self]
  intro f hf
  obtain ⟨idx, _, rfl⟩ := List.mem_mapIdx.mp hf
  exact decide_eq_true rfl

/-! ## The order -/

/-- What `ORDER BY sort_order` may return the fields in. -/
def InOrder (fields : List FormField) : Prop :=
  fields.Pairwise fun f g => f.sortOrder ≤ g.sortOrder

/-- The stored fields keep the explicit values and have one order; without explicit
    values it is the order submitted. -/
structure DefiniteOrder (bodies : List FormFieldBody) (fields : List FormField) : Prop where
  unchanged : ∀ (i : Nat) body v, bodies[i]? = some body → body.sortOrder = some v →
    fields[i]?.map FormField.sortOrder = some v
  distinct : (fields.map FormField.sortOrder).Nodup
  definite : ∀ l l', l.Perm fields → l'.Perm fields → InOrder l → InOrder l' → l = l'
  positions : (∀ body ∈ bodies, body.sortOrder = none) →
    fields.map FormField.sortOrder = (List.range bodies.length).map Int.ofNat ∧
      ∀ l, l.Perm fields → InOrder l → l = fields

theorem inOrder_unique {fields l l' : List FormField}
    (hdistinct : (fields.map FormField.sortOrder).Nodup) (hl : l.Perm fields)
    (hl' : l'.Perm fields) (hsorted : InOrder l) (hsorted' : InOrder l') : l = l' := by
  refine List.Perm.eq_of_pairwise ?_ hsorted hsorted' (hl.trans hl'.symm)
  intro f g hf hg hfg hgf
  exact List.inj_on_of_nodup_map hdistinct (hl.mem_iff.mp hf) (hl'.mem_iff.mp hg)
    (le_antisymm hfg hgf)

theorem sortOrder_stored (env : Env) (opportunityId : UUID) (bodies : List FormFieldBody) :
    ((bodies.map FormFieldBody.validate).mapIdx (newFormField env opportunityId)).map
        FormField.sortOrder =
      (bodies.map FormFieldBody.sortOrder).mapIdx storedOrder := by
  apply List.ext_getElem?
  intro i
  simp only [List.getElem?_map, List.getElem?_mapIdx, Option.map_map]
  rcases bodies[i]? with _ | body
  · rfl
  · exact congrArg some (sortOrder_newFormField env opportunityId i body)

theorem positions_of_none {given : List (Option Int)} (hnone : ∀ g ∈ given, g = none) :
    given.mapIdx storedOrder = (List.range given.length).map Int.ofNat := by
  apply List.ext_getElem?
  intro i
  rw [List.getElem?_mapIdx, List.getElem?_map]
  by_cases hi : i < given.length
  · rw [List.getElem?_range hi, List.getElem?_eq_getElem hi, hnone _ (List.getElem_mem hi)]
    rfl
  · rw [List.getElem?_eq_none (by omega), List.getElem?_eq_none (by simpa using hi)]
    rfl

theorem inOrder_of_positions {fields : List FormField} {n : Nat}
    (h : fields.map FormField.sortOrder = (List.range n).map Int.ofNat) : InOrder fields := by
  have hsorted : ((List.range n).map Int.ofNat).Pairwise (· ≤ ·) := by
    rw [List.pairwise_map]
    exact List.pairwise_lt_range.imp fun hlt => Int.ofNat_le.mpr hlt.le
  rw [← h, List.pairwise_map] at hsorted
  exact hsorted

/-- **Form fields keep a well-defined order exactly when they are well placed.**  After
    every run, whenever an opportunity is created from fields whose explicit `sort_order`
    values are pairwise distinct: the stored fields have a definite order exactly when an
    explicit 0 comes first and no explicit value is the position of a field without one. -/
theorem definite_order_iff (run : List Handled) (env : Env) (coordinatorId : UUID)
    (data : OpportunityCreate) (bodies : List FormFieldBody) (s' : State) (opp : Opportunity)
    (hdata : data.formFields = bodies.map FormFieldBody.validate)
    (hdistinct : Distinct (bodies.map FormFieldBody.sortOrder))
    (hcreated : createOpportunity (execute State.empty run) env coordinatorId data =
      (s', .ok opp)) :
    DefiniteOrder bodies (formFieldsOf s' opp.id) ↔
      WellPlaced (bodies.map FormFieldBody.sortOrder) := by
  have hfields := formFieldsOf_created hcreated
  rw [hdata] at hfields
  have horders : (formFieldsOf s' opp.id).map FormField.sortOrder =
      (bodies.map FormFieldBody.sortOrder).mapIdx storedOrder := by
    rw [hfields, sortOrder_stored]
  have hget : ∀ i : Nat, (formFieldsOf s' opp.id)[i]?.map FormField.sortOrder =
      bodies[i]?.map fun body => storedOrder i body.sortOrder := by
    intro i
    rw [← List.getElem?_map, horders, List.getElem?_mapIdx, List.getElem?_map, Option.map_map]
    rfl
  rw [← stored_iff hdistinct]
  constructor
  · intro h
    constructor
    · intro i v hi
      rw [List.getElem?_map] at hi
      obtain ⟨body, hbody, hv⟩ := Option.map_eq_some_iff.mp hi
      have hstored := h.unchanged i body v hbody hv
      rw [hget, hbody, Option.map_some, hv] at hstored
      exact Option.some.inj hstored
    · rw [← horders]
      exact h.distinct
  · rintro ⟨hunchanged, hnodup⟩
    rw [← horders] at hnodup
    refine ⟨?_, hnodup, ?_, ?_⟩
    · intro i body v hbody hv
      have hi : (bodies.map FormFieldBody.sortOrder)[i]? = some (some v) := by
        rw [List.getElem?_map, hbody, Option.map_some, hv]
      rw [hget, hbody, Option.map_some, hv, hunchanged i v hi]
    · intro l l' hl hl' hsorted hsorted'
      exact inOrder_unique hnodup hl hl' hsorted hsorted'
    · intro hnone
      have hpositions : (formFieldsOf s' opp.id).map FormField.sortOrder =
          (List.range bodies.length).map Int.ofNat := by
        rw [horders, positions_of_none (List.forall_mem_map.mpr hnone), List.length_map]
      refine ⟨hpositions, ?_⟩
      intro l hl hsorted
      exact inOrder_unique hnodup hl (List.Perm.refl _) hsorted (inOrder_of_positions hpositions)

def freshEnv : Env where
  profile := .unreachable
  uuid4 := UUID.ofNat
  txnStart := 0
  clock := 0
  databaseFails := false
  exportFails := fun _ => false
  reloadFails := fun _ => false

def driveOf (bodies : List FormFieldBody) : OpportunityCreate where
  title := "Drive"
  formFields := bodies.map FormFieldBody.validate

/-- The first field is to come second, and the other one comes without a value. -/
def phoneThenCv : List FormFieldBody :=
  [{ fieldType := .text, label := "Phone", sortOrder := some 1 },
    { fieldType := .file, label := "CV" }]

/-- The same fields, with the value on the other one. -/
def cvSecond : List FormFieldBody :=
  [{ fieldType := .text, label := "Phone" },
    { fieldType := .file, label := "CV", sortOrder := some 1 }]

theorem distinct_of_one {bodies : List FormFieldBody} {k : Nat}
    (h : ∀ (i : Nat) v, (bodies.map FormFieldBody.sortOrder)[i]? = some (some v) → i = k) :
    Distinct (bodies.map FormFieldBody.sortOrder) :=
  fun i j v hi hj => (h i v hi).trans (h j v hj).symm

theorem cvSecond_only {i : Nat} {v : Int}
    (h : (cvSecond.map FormFieldBody.sortOrder)[i]? = some (some v)) : i = 1 ∧ v = 1 := by
  rcases i with _ | _ | i
  · cases h
  · cases h
    exact ⟨rfl, rfl⟩
  · cases h

theorem cv_stored_second : ∃ s' opp,
    createOpportunity (execute State.empty []) freshEnv (.ofNat 9) (driveOf cvSecond) =
      (s', .ok opp) ∧ DefiniteOrder cvSecond (formFieldsOf s' opp.id) := by
  refine ⟨_, _, rfl, ?_⟩
  refine (definite_order_iff [] freshEnv (.ofNat 9) (driveOf cvSecond) cvSecond _ _ rfl
    (distinct_of_one fun i v hi => (cvSecond_only hi).1) rfl).mpr ⟨?_, ?_⟩
  · intro i hi
    cases (cvSecond_only hi).2
  · intro i j hi hj
    -- the position 1 has a value of its own
    have hi1 : i = 1 := Int.natCast_inj.mp (cvSecond_only hj).2
    subst hi1
    cases hi

theorem phone_and_cv_collide :
    ¬ ∀ (run : List Handled) (env : Env) (coordinatorId : UUID) (data : OpportunityCreate)
      (bodies : List FormFieldBody) (s' : State) (opp : Opportunity),
      data.formFields = bodies.map FormFieldBody.validate →
      Distinct (bodies.map FormFieldBody.sortOrder) →
      createOpportunity (execute State.empty run) env coordinatorId data = (s', .ok opp) →
      DefiniteOrder bodies (formFieldsOf s' opp.id) := by
  intro h
  have hone : ∀ (i : Nat) v,
      (phoneThenCv.map FormFieldBody.sortOrder)[i]? = some (some v) → i = 0 := by
    intro i v hi
    rcases i with _ | _ | i
    · rfl
    · cases hi
    · cases hi
  have horder := (h [] freshEnv (.ofNat 9) (driveOf phoneThenCv) phoneThenCv _ _ rfl
    (distinct_of_one hone) rfl).distinct
  revert horder
  decide +kernel

end CampusHire.FormFieldOrder
