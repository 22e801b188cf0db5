import CampusHire.OpportunityService
import Mathlib.Data.List.MinMax
import Mathlib.Data.Set.Lattice

/-!
# The eligibility rules as a conjunction

`check_eligibility` goes through the rules and returns early.  What it says is that the
profile meets every requirement of every rule, where `min_cgpa` and `allowed_branches`
are a rule's requirements.  So only the set of requirements counts (`eligible_congr`),
whatever order the rules come in and however the requirements are spread over them.

Here cgpa and thresholds are compared as the numbers that they are; on numbers that a
double holds the service compares the same (`checkEligibility_eq_check`).
-/

namespace CampusHire.Eligibility

open CampusHire OpportunityService

/-- A profile with a cgpa and a branch, as the identity service answers it. -/
structure Profile where
  fields : Dict
  cgpa : ℚ
  branch : String
  get_cgpa : fields.get "cgpa" = some (.num cgpa)
  get_branch : fields.get "branch" = some (.str branch)
  branch_ne : branch ≠ ""

/-- A rule whose `min_cgpa` is absent or a number and whose `allowed_branches` is absent
    or a list of strings. -/
structure Rule where
  fields : Dict
  minCgpa : Option ℚ
  allowedBranches : Option (List String)
  get_minCgpa : fields.get "min_cgpa" = minCgpa.map .num
  get_allowedBranches :
    fields.get "allowed_branches" = allowedBranches.map fun names => .arr (names.map .str)

/-- `check_eligibility` on such a profile and such rules, no number rounded. -/
def check (p : Profile) (rules : List Rule) : Except ServiceError Bool :=
  checkEligibilityBy some (.obj p.fields) (rules.map Rule.fields)

/-- The cgpa is at least every threshold, and the branch is in every list. -/
def Eligible (p : Profile) (rules : List Rule) : Prop :=
  (rules.filterMap Rule.minCgpa).maximum ≤ p.cgpa ∧
    p.branch ∈ ⋂ names ∈ rules.filterMap Rule.allowedBranches, {branch | branch ∈ names}

/-! ## Requirements -/

inductive Requirement where
  | atLeast (minimum : ℚ)
  | oneOf (names : List String)

def Requirement.met (p : Profile) : Requirement → Bool
  | .atLeast minimum => decide (minimum ≤ p.cgpa)
  | .oneOf names => decide (p.branch ∈ names)

def Rule.requirements (r : Rule) : List Requirement :=
  (r.minCgpa.map .atLeast).toList ++ (r.allowedBranches.map .oneOf).toList

theorem mem_requirements {r : Rule} {q : Requirement} :
    q ∈ r.requirements ↔ (∃ minimum, r.minCgpa = some minimum ∧ .atLeast minimum = q) ∨
      ∃ names, r.allowedBranches = some names ∧ .oneOf names = q := by
  simp [Rule.requirements]

/-! ## The loop -/

theorem meetsMinCgpaBy_eq {round : ℚ → Option ℚ} {p : Profile}
    (hcgpa : round p.cgpa = some p.cgpa) {r : Rule}
    (hmin : ∀ minimum, r.minCgpa = some minimum → round minimum = some minimum) :
    meetsMinCgpaBy round (.obj p.fields) r.fields =
      .ok (r.minCgpa.all fun minimum => decide (minimum ≤ p.cgpa)) := by
  rw [meetsMinCgpaBy, r.get_minCgpa]
  rcases h : r.minCgpa with _ | minimum
  · rfl
  · have hget : get (.obj p.fields) "cgpa" = .ok (.num p.cgpa) := by
      simp only [OpportunityService.get, p.get_cgpa, Option.getD_some]
    have hvalue : floatBy round (.num p.cgpa) = .ok (.finite p.cgpa) := by
      rw [floatBy, hcgpa]
    have hbound : floatBy round (.num minimum) = .ok (.finite minimum) := by
      rw [floatBy, hmin minimum h]
    -- `not cgpa < minimum` is `minimum <= cgpa`
    have hle : (!decide (p.cgpa < minimum)) = decide (minimum ≤ p.cgpa) := by
      simp only [← decide_not, not_lt]
    rw [Option.map_some, hget, Option.all_some, ← hle]
    change (floatBy round (.num p.cgpa) >>= fun value => _) = _
    rw [hvalue]
    change (floatBy round (.num minimum) >>= fun bound => _) = _
    rw [hbound]
    rfl

theorem any_eq_str (branch : String) (names : List String) :
    ((names.map Json.str).any fun x => Json.eq (.str branch) x) = decide (branch ∈ names) := by
  induction names with
  | nil => rfl
  | cons name names ih =>
    rw [List.map_cons, List.any_cons, ih]
    simp [Json.eq]

theorem meetsAllowedBranches_eq (p : Profile) (r : Rule) :
    meetsAllowedBranches (.obj p.fields) r.fields =
      .ok (r.allowedBranches.all fun names => decide (p.branch ∈ names)) := by
  rw [meetsAllowedBranches, r.get_allowedBranches]
  rcases r.allowedBranches with _ | names
  · rfl
  · have hbranch : get (.obj p.fields) "branch" = .ok (.str p.branch) := by
      simp only [OpportunityService.get, p.get_branch, Option.getD_some]
    have htruthy : (Json.str p.branch).truthy = true := decide_eq_true p.branch_ne
    simp only [Option.map_some, hbranch, Option.all_some, ← any_eq_str]
    change (if (Json.str p.branch).truthy = true then _ else _) = _
    rw [if_pos htruthy, contains]

theorem all_requirements (p : Profile) (r : Rule) :
    r.requirements.all (Requirement.met p) =
      ((r.minCgpa.all fun minimum => decide (minimum ≤ p.cgpa)) &&
        r.allowedBranches.all fun names => decide (p.branch ∈ names)) := by
  rcases hmin : r.minCgpa with _ | minimum <;> rcases hnames : r.allowedBranches with _ | names <;>
    simp [Rule.requirements, Requirement.met, hmin, hnames]

/-- The loop over the rules asks for every requirement of every rule. -/
theorem checkEligibilityBy_eq {round : ℚ → Option ℚ} {p : Profile}
    (hcgpa : round p.cgpa = some p.cgpa) {rules : List Rule}
    (hmin : ∀ r ∈ rules, ∀ minimum, r.minCgpa = some minimum → round minimum = some minimum) :
    checkEligibilityBy round (.obj p.fields) (rules.map Rule.fields) =
      .ok (rules.all fun r => r.requirements.all (Requirement.met p)) := by
  induction rules with
  | nil => rfl
  | cons r rules ih =>
    have hrest := ih fun r' hr' => hmin r' (List.mem_cons_of_mem r hr')
    rw [List.map_cons, checkEligibilityBy, meetsMinCgpaBy_eq hcgpa (hmin r List.mem_cons_self),
      meetsAllowedBranches_eq, List.all_cons, all_requirements, hrest]
    rcases r.minCgpa.all fun minimum => decide (minimum ≤ p.cgpa) with _ | _
    · rfl
    rcases r.allowedBranches.all fun names => decide (p.branch ∈ names) with _ | _
    · rfl
    · rfl

theorem check_eq (p : Profile) (rules : List Rule) :
    check p rules = .ok (rules.all fun r => r.requirements.all (Requirement.met p)) :=
  checkEligibilityBy_eq rfl fun _ _ _ _ => rfl

/-- **On numbers that a double holds, the service's answer is the exact one.** -/
theorem checkEligibility_eq_check {p : Profile} (hcgpa : FloatFormat.binary64.Holds p.cgpa)
    {rules : List Rule} (hmin : ∀ r ∈ rules, ∀ minimum, r.minCgpa = some minimum →
      FloatFormat.binary64.Holds minimum) :
    checkEligibility (.obj p.fields) (rules.map Rule.fields) = check p rules := by
  rw [check_eq]
  exact checkEligibilityBy_eq (FloatFormat.round_of_holds hcgpa)
    fun r hr minimum heq => FloatFormat.round_of_holds (hmin r hr minimum heq)

/-! ## The closed form -/

theorem eligible_iff {p : Profile} {rules : List Rule} :
    Eligible p rules ↔ ∀ r ∈ rules, ∀ q ∈ r.requirements, q.met p = true := by
  have hcgpa : (rules.filterMap Rule.minCgpa).maximum ≤ p.cgpa ↔
      ∀ r ∈ rules, ∀ minimum, r.minCgpa = some minimum → minimum ≤ p.cgpa := by
    constructor
    · intro hmax r hr minimum hmin
      have hmem : minimum ∈ rules.filterMap Rule.minCgpa := List.mem_filterMap.mpr ⟨r, hr, hmin⟩
      exact WithBot.coe_le_coe.mp ((List.le_maximum_of_mem' hmem).trans hmax)
    · intro hall
      apply List.maximum_le_of_forall_le
      intro minimum hmem
      obtain ⟨r, hr, hmin⟩ := List.mem_filterMap.mp hmem
      exact WithBot.coe_le_coe.mpr (hall r hr minimum hmin)
  have hbranch : p.branch ∈ ⋂ names ∈ rules.filterMap Rule.allowedBranches,
        {branch | branch ∈ names} ↔
      ∀ r ∈ rules, ∀ names, r.allowedBranches = some names → p.branch ∈ names := by
    simp only [Set.mem_iInter, List.mem_filterMap, Set.mem_ofPred_eq]
    constructor
    · intro h r hr names hnames
      exact h names ⟨r, hr, hnames⟩
    · rintro h names ⟨r, hr, hnames⟩
      exact h r hr names hnames
  rw [Eligible, hcgpa, hbranch]
  constructor
  · rintro ⟨hmin, hnames⟩ r hr q hq
    rcases mem_requirements.mp hq with ⟨minimum, heq, rfl⟩ | ⟨names, heq, rfl⟩
    · exact decide_eq_true (hmin r hr minimum heq)
    · exact decide_eq_true (hnames r hr names heq)
  · intro h
    constructor
    · intro r hr minimum heq
      exact of_decide_eq_true (h r hr _ (mem_requirements.mpr (Or.inl ⟨minimum, heq, rfl⟩)))
    · intro r hr names heq
      exact of_decide_eq_true (h r hr _ (mem_requirements.mpr (Or.inr ⟨names, heq, rfl⟩)))

theorem check_eq_ok_true {p : Profile} {rules : List Rule} :
    check p rules = .ok true ↔ Eligible p rules := by
  rw [check_eq, eligible_iff]
  simp only [Except.ok.injEq, List.all_eq_true]

/-- Profiles and rules that are eligible together get the same answer. -/
theorem check_congr {p p' : Profile} {rules rules' : List Rule}
    (h : Eligible p rules ↔ Eligible p' rules') : check p rules = check p' rules' := by
  rw [eligible_iff, eligible_iff] at h
  rw [check_eq, check_eq]
  apply congrArg
  rw [Bool.eq_iff_iff]
  simpa only [List.all_eq_true] using h

/-- **Only the set of requirements counts.** -/
theorem eligible_congr {p : Profile} {rules rules' : List Rule}
    (h : ∀ q, q ∈ rules.flatMap Rule.requirements ↔ q ∈ rules'.flatMap Rule.requirements) :
    Eligible p rules ↔ Eligible p rules' := by
  have hall : ∀ rules : List Rule, Eligible p rules ↔
      ∀ q ∈ rules.flatMap Rule.requirements, q.met p = true := by
    intro rules
    rw [eligible_iff]
    simp only [List.mem_flatMap]
    constructor
    · rintro h q ⟨r, hr, hq⟩
      exact h r hr q hq
    · intro h r hr q hq
      exact h q ⟨r, hr, hq⟩
  rw [hall, hall]
  exact forall_congr' fun q => by rw [h q]

theorem eligible_of_subset {p : Profile} {rules rules' : List Rule} (hsub : rules ⊆ rules')
    (h : Eligible p rules') : Eligible p rules :=
  eligible_iff.mpr fun r hr => eligible_iff.mp h r (hsub hr)

theorem eligible_append {p : Profile} {first second : List Rule} :
    Eligible p (first ++ second) ↔ Eligible p first ∧ Eligible p second := by
  simp only [eligible_iff, List.forall_mem_append]

theorem eligible_of_cgpa_le {p p' : Profile} {rules : List Rule} (hbranch : p'.branch = p.branch)
    (hcgpa : p.cgpa ≤ p'.cgpa) (h : Eligible p rules) : Eligible p' rules :=
  ⟨h.1.trans (WithBot.coe_le_coe.mpr hcgpa), hbranch ▸ h.2⟩

/-- `first` and `second` share the requirements of `r` among them. -/
def Splits (r first second : Rule) : Prop :=
  ∀ q, q ∈ r.requirements ↔ q ∈ first.requirements ∨ q ∈ second.requirements

/-- **`check_eligibility` is the conjunction of the rules.**  For every profile with a
    cgpa and a branch and all well-formed rules it answers, and it answers `True` exactly
    when the cgpa is at least the maximum of the thresholds and the branch is in the
    intersection of the lists.  Hence the order of the rules, repeated rules, and where
    the list or a rule is split do not count, a rule more makes nobody eligible, and a
    higher cgpa makes nobody ineligible. -/
theorem checkEligibility_is_conjunction (p : Profile) (rules : List Rule) :
    (∃ answer, check p rules = .ok answer) ∧
    (check p rules = .ok true ↔ (rules.filterMap Rule.minCgpa).maximum ≤ p.cgpa ∧
      p.branch ∈ ⋂ names ∈ rules.filterMap Rule.allowedBranches, {branch | branch ∈ names}) ∧
    (∀ rules', rules.Perm rules' → check p rules' = check p rules) ∧
    (∀ rules', (∀ r, r ∈ rules' ↔ r ∈ rules) → check p rules' = check p rules) ∧
    (∀ first second, first ++ second = rules →
      (check p rules = .ok true ↔ check p first = .ok true ∧ check p second = .ok true)) ∧
    (∀ before r after first second, rules = before ++ r :: after → Splits r first second →
      check p (before ++ first :: second :: after) = check p rules) ∧
    (∀ before r after, rules = before ++ after → check p (before ++ r :: after) = .ok true →
      check p rules = .ok true) ∧
    (∀ p' : Profile, p'.branch = p.branch → p.cgpa ≤ p'.cgpa → check p rules = .ok true →
      check p' rules = .ok true) := by
  have hmembers : ∀ rules', (∀ r, r ∈ rules' ↔ r ∈ rules) → check p rules' = check p rules := by
    intro rules' hmem
    apply check_congr
    exact ⟨eligible_of_subset fun r hr => (hmem r).mpr hr,
      eligible_of_subset fun r hr => (hmem r).mp hr⟩
  refine ⟨⟨_, check_eq p rules⟩, check_eq_ok_true, ?_, hmembers, ?_, ?_, ?_, ?_⟩
  · intro rules' hperm
    exact hmembers rules' fun r => hperm.mem_iff.symm
  · rintro first second rfl
    simp only [check_eq_ok_true]
    exact eligible_append
  · rintro before r after first second rfl hsplits
    apply check_congr
    apply eligible_congr
    intro q
    have hq := hsplits q
    simp only [List.flatMap_append, List.flatMap_cons, List.mem_append]
    tauto
  · rintro before r after rfl hadded
    rw [check_eq_ok_true] at hadded ⊢
    apply eligible_of_subset _ hadded
    intro r' hr'
    simp only [List.mem_append, List.mem_cons] at hr' ⊢
    tauto
  · intro p' hbranch hcgpa hok
    rw [check_eq_ok_true] at hok ⊢
    exact eligible_of_cgpa_le hbranch hcgpa hok

def graduate : Profile where
  fields := [("id", .str "7"), ("branch", .str "CSE"), ("cgpa", .num (17 / 2))]
  cgpa := 17 / 2
  branch := "CSE"
  get_cgpa := rfl
  get_branch := rfl
  branch_ne := by decide

/-- A threshold and a list in one rule. -/
def campusRule : Rule where
  fields := [("min_cgpa", .num 8), ("allowed_branches", .arr [.str "ECE", .str "CSE"])]
  minCgpa := some 8
  allowedBranches := some ["ECE", "CSE"]
  get_minCgpa := rfl
  get_allowedBranches := rfl

def thresholdRule : Rule where
  fields := [("min_cgpa", .num 8)]
  minCgpa := some 8
  allowedBranches := none
  get_minCgpa := rfl
  get_allowedBranches := rfl

def branchRule : Rule where
  fields := [("allowed_branches", .arr [.str "ECE", .str "CSE"]), ("note", .null)]
  minCgpa := none
  allowedBranches := some ["ECE", "CSE"]
  get_minCgpa := rfl
  get_allowedBranches := rfl

theorem graduate_eligible :
    check graduate [campusRule] = .ok true ∧
      check graduate [thresholdRule, branchRule] = .ok true ∧
      check graduate [campusRule, campusRule] = .ok true := by
  have hone : check graduate [campusRule] = .ok true := by
    rw [check_eq]
    decide +kernel
  have hlaws := checkEligibility_is_conjunction graduate [campusRule]
  refine ⟨hone, ?_, ?_⟩
  · have hsplits : Splits campusRule thresholdRule branchRule := by
      intro q
      simp [Rule.requirements, campusRule, thresholdRule, branchRule]
    exact (hlaws.2.2.2.2.2.1 [] campusRule [] thresholdRule branchRule rfl hsplits).trans hone
  · exact (hlaws.2.2.2.1 [campusRule, campusRule] (by simp)).trans hone

end CampusHire.Eligibility
