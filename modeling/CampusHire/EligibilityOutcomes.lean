import CampusHire.Eligibility
import CampusHire.ShortCircuit

/-!
# Eligibility with missing data and unvalidated rules

`check_eligibility` on any profile and any rules: a rule is two tests in turn, and each
test passes, rejects or raises.  A test whose field the profile lacks passes, so a field
that is withheld takes the requirements on it along; and rules of which one rejects and
one raises end the loop differently in different orders.
-/

namespace CampusHire.EligibilityOutcomes

open CampusHire OpportunityService Eligibility

/-- What a rule asks of a profile, in the order of the code. -/
def tests (profile : Json) (rule : Dict) : List (Except ServiceError Bool) :=
  [meetsMinCgpa profile rule, meetsAllowedBranches profile rule]

theorem checkEligibility_eq (profile : Json) (rules : List Dict) :
    checkEligibility profile rules = ShortCircuit.all (rules.flatMap (tests profile)) := by
  induction rules with
  | nil => rfl
  | cons rule rules ih =>
    rw [checkEligibility] at ih
    rw [checkEligibility, checkEligibilityBy, ih, List.flatMap_cons, tests, meetsMinCgpa,
      List.cons_append, List.cons_append, List.nil_append]
    rcases meetsMinCgpaBy FloatFormat.binary64.round profile rule with e | (_ | _)
    · rfl
    · rfl
    · rcases meetsAllowedBranches profile rule with e | (_ | _)
      · rfl
      · rfl
      · rfl

theorem checkEligibility_eq_ok_true {profile : Json} {rules : List Dict} :
    checkEligibility profile rules = .ok true ↔ ∀ rule ∈ rules,
      meetsMinCgpa profile rule = .ok true ∧ meetsAllowedBranches profile rule = .ok true := by
  rw [checkEligibility_eq, ShortCircuit.all_eq_ok_true]
  simp only [List.forall_mem_flatMap, tests, List.forall_mem_cons, List.not_mem_nil,
    false_implies, implies_true, and_true]

/-! ## A single test -/

/-- `not float(cgpa) < float(minimum)` -/
def compare (cgpa minimum : Json) : Except ServiceError Bool := do
  let value ← float cgpa
  let bound ← float minimum
  return !value.lt bound

theorem compare_eq_ok {cgpa minimum : Json} {answer : Bool} :
    compare cgpa minimum = .ok answer ↔ ∃ value bound, float cgpa = .ok value ∧
      float minimum = .ok bound ∧ value.lt bound = !answer := by
  rw [compare]
  rcases float cgpa with e | value
  · simp [bind, Except.bind]
  rcases float minimum with e | bound
  · simp [bind, Except.bind]
  · simp [bind, Except.bind, pure, Except.pure, Bool.not_eq_eq_eq_not]

theorem compare_eq_error {cgpa minimum : Json} :
    (∃ e, compare cgpa minimum = .error e) ↔
      (∃ e, float cgpa = .error e) ∨ ∃ e, float minimum = .error e := by
  rw [compare]
  rcases float cgpa with e | value
  · simp [bind, Except.bind]
  rcases float minimum with e | bound
  · simp [bind, Except.bind]
  · simp [bind, Except.bind, pure, Except.pure]

theorem meetsMinCgpa_skips {profile rule : Dict}
    (h : (profile.get "cgpa").getD .null = .null ∨ rule.get "min_cgpa" = none) :
    meetsMinCgpa (.obj profile) rule = .ok true := by
  rw [meetsMinCgpa, meetsMinCgpaBy, OpportunityService.get]
  rcases hmin : rule.get "min_cgpa" with _ | minimum
  · rfl
  · rw [h.resolve_right (by simp [hmin])]
    rfl

theorem meetsMinCgpa_compares {profile rule : Dict} {minimum : Json}
    (hcgpa : (profile.get "cgpa").getD .null ≠ .null)
    (hmin : rule.get "min_cgpa" = some minimum) :
    meetsMinCgpa (.obj profile) rule =
      compare ((profile.get "cgpa").getD .null) minimum := by
  rw [meetsMinCgpa, meetsMinCgpaBy, OpportunityService.get, hmin]
  generalize (profile.get "cgpa").getD .null = cgpa at hcgpa
  cases cgpa with
  | null => exact absurd rfl hcgpa
  | bool | num | str | arr | obj => rfl

theorem meetsAllowedBranches_skips {profile rule : Dict}
    (h : ((profile.get "branch").getD .null).truthy = false ∨
      rule.get "allowed_branches" = none) :
    meetsAllowedBranches (.obj profile) rule = .ok true := by
  rw [meetsAllowedBranches, OpportunityService.get]
  rcases hallowed : rule.get "allowed_branches" with _ | allowed
  · rfl
  · change (if ((profile.get "branch").getD .null).truthy = true then _ else _) = _
    rw [h.resolve_right (by simp [hallowed])]
    rfl

theorem meetsAllowedBranches_looks {profile rule : Dict} {allowed : Json}
    (hbranch : ((profile.get "branch").getD .null).truthy = true)
    (hallowed : rule.get "allowed_branches" = some allowed) :
    meetsAllowedBranches (.obj profile) rule =
      contains allowed ((profile.get "branch").getD .null) := by
  rw [meetsAllowedBranches, OpportunityService.get, hallowed]
  change (if ((profile.get "branch").getD .null).truthy = true then _ else _) = _
  rw [if_pos hbranch]

/-! ## Withheld fields -/

/-- What becomes of a field of a profile. -/
inductive Fate where
  | kept
  | nulled
  | removed
deriving DecidableEq

/-- The profile with some of its fields removed or nulled. -/
def withhold (fate : String → Fate) (profile : Dict) : Dict :=
  profile.filterMap fun field =>
    match fate field.1 with
    | .kept => some field
    | .nulled => some (field.1, .null)
    | .removed => none

theorem get_cons (name : String) (value : Json) (rest : Dict) (key : String) :
    Dict.get ((name, value) :: rest) key = if key = name then some value else rest.get key := by
  rw [Dict.get, List.lookup_cons]
  by_cases h : key = name
  · rw [if_pos h, beq_iff_eq.mpr h]
  · rw [if_neg h, beq_eq_false_iff_ne.mpr h]
    rfl

theorem withhold_cons (fate : String → Fate) (name : String) (value : Json) (rest : Dict) :
    withhold fate ((name, value) :: rest) =
      match fate name with
      | .kept => (name, value) :: withhold fate rest
      | .nulled => (name, .null) :: withhold fate rest
      | .removed => withhold fate rest := by
  rw [withhold, List.filterMap_cons]
  cases fate name <;> rfl

theorem get_withhold (fate : String → Fate) (profile : Dict) (key : String) :
    (withhold fate profile).get key =
      match fate key with
      | .kept => profile.get key
      | .nulled => (profile.get key).map fun _ => .null
      | .removed => none := by
  induction profile with
  | nil => cases fate key <;> rfl
  | cons field profile ih =>
    obtain ⟨name, value⟩ := field
    rw [withhold_cons, get_cons]
    by_cases hname : key = name
    · subst hname
      rw [if_pos rfl]
      cases hfate : fate key with
      | kept => rw [get_cons, if_pos rfl]
      | nulled => rw [get_cons, if_pos rfl, Option.map_some]
      | removed => rw [ih, hfate]
    · rw [if_neg hname, ← ih]
      cases fate name with
      | kept => rw [get_cons, if_neg hname]
      | nulled => rw [get_cons, if_neg hname]
      | removed => rfl

/-- A field that is kept is read as before, any other one as `None`. -/
theorem get_withhold_obj (fate : String → Fate) (profile : Dict) (key : String) :
    get (.obj (withhold fate profile)) key =
      if fate key = .kept then get (.obj profile) key else .ok .null := by
  rw [OpportunityService.get, OpportunityService.get, get_withhold]
  cases fate key with
  | kept => rfl
  | nulled => cases profile.get key <;> rfl
  | removed => rfl

theorem meetsMinCgpa_withhold (fate : String → Fate) (profile rule : Dict) :
    meetsMinCgpa (.obj (withhold fate profile)) rule =
      if fate "cgpa" = .kept then meetsMinCgpa (.obj profile) rule else .ok true := by
  rw [meetsMinCgpa, meetsMinCgpaBy, meetsMinCgpaBy, get_withhold_obj]
  by_cases hkept : fate "cgpa" = .kept
  · rw [if_pos hkept, if_pos hkept]
  · rw [if_neg hkept, if_neg hkept]
    rcases rule.get "min_cgpa" with _ | minimum
    · rfl
    · rfl

theorem meetsAllowedBranches_withhold (fate : String → Fate) (profile rule : Dict) :
    meetsAllowedBranches (.obj (withhold fate profile)) rule =
      if fate "branch" = .kept then meetsAllowedBranches (.obj profile) rule else .ok true := by
  rw [meetsAllowedBranches, meetsAllowedBranches, get_withhold_obj]
  by_cases hkept : fate "branch" = .kept
  · rw [if_pos hkept, if_pos hkept]
  · rw [if_neg hkept, if_neg hkept]
    rcases rule.get "allowed_branches" with _ | allowed
    · rfl
    · rfl

/-- The cgpa is a number that is not below the minimum, or there is none. -/
def AtLeast (profile : Dict) (minimum : ℚ) : Prop :=
  (profile.get "cgpa").getD .null = .null ∨ ∃ value bound,
    float ((profile.get "cgpa").getD .null) = .ok value ∧ float (.num minimum) = .ok bound ∧
      value.lt bound = false

/-- The branch is one of the names, or there is none. -/
def OneOf (profile : Dict) (names : List String) : Prop :=
  ((profile.get "branch").getD .null).truthy = false ∨
    ∃ name ∈ names, profile.get "branch" = some (.str name)

theorem meetsMinCgpa_iff {profile : Dict} {r : Rule} :
    meetsMinCgpa (.obj profile) r.fields = .ok true ↔
      ∀ minimum, r.minCgpa = some minimum → AtLeast profile minimum := by
  have hget := r.get_minCgpa
  rcases hmin : r.minCgpa with _ | minimum
  · rw [hmin] at hget
    have hskips : meetsMinCgpa (.obj profile) r.fields = .ok true :=
      meetsMinCgpa_skips (Or.inr hget)
    simp [hskips]
  rw [hmin] at hget
  by_cases hnull : (profile.get "cgpa").getD .null = .null
  · simp [meetsMinCgpa_skips (Or.inl hnull), AtLeast, hnull]
  · rw [meetsMinCgpa_compares hnull hget, compare_eq_ok]
    simp [AtLeast, hnull]

/-- A value that is equal to one of the names is that name. -/
theorem contains_names {names : List String} {branch : Json} :
    contains (.arr (names.map .str)) branch = .ok true ↔ ∃ name ∈ names, branch = .str name := by
  cases branch with
  | bool | num => simp [contains, Json.eq, Json.number]
  | null | str | arr | obj => simp [contains, Json.eq]

theorem meetsAllowedBranches_iff {profile : Dict} {r : Rule} :
    meetsAllowedBranches (.obj profile) r.fields = .ok true ↔
      ∀ names, r.allowedBranches = some names → OneOf profile names := by
  have hget := r.get_allowedBranches
  rcases hnames : r.allowedBranches with _ | names
  · rw [hnames] at hget
    have hskips : meetsAllowedBranches (.obj profile) r.fields = .ok true :=
      meetsAllowedBranches_skips (Or.inr hget)
    simp [hskips]
  rw [hnames] at hget
  rcases hbranch : ((profile.get "branch").getD .null).truthy with _ | _
  · simp [meetsAllowedBranches_skips (Or.inl hbranch), OneOf, hbranch]
  · rw [meetsAllowedBranches_looks hbranch hget, contains_names]
    simp only [Option.some_inj, forall_eq', OneOf, hbranch, Bool.true_eq_false, false_or]
    rcases profile.get "branch" with _ | branch
    · simp
    · simp

/-- `profile` meets the requirements on the fields that `fate` keeps. -/
def MeetsKept (fate : String → Fate) (profile : Dict) (rules : List Rule) : Prop :=
  ∀ r ∈ rules,
    (fate "cgpa" = .kept → ∀ minimum, r.minCgpa = some minimum → AtLeast profile minimum) ∧
      (fate "branch" = .kept → ∀ names, r.allowedBranches = some names → OneOf profile names)

/-- `profile` meets the requirements on the fields that `fate` withholds. -/
def MeetsWithheld (fate : String → Fate) (profile : Dict) (rules : List Rule) : Prop :=
  ∀ r ∈ rules,
    (fate "cgpa" ≠ .kept → ∀ minimum, r.minCgpa = some minimum → AtLeast profile minimum) ∧
      (fate "branch" ≠ .kept → ∀ names, r.allowedBranches = some names → OneOf profile names)

/-- No rule asks for a field that `fate` withholds. -/
def AsksKept (fate : String → Fate) (rules : List Rule) : Prop :=
  ∀ r ∈ rules, (fate "cgpa" ≠ .kept → r.minCgpa = none) ∧
    (fate "branch" ≠ .kept → r.allowedBranches = none)

theorem check_withhold {fate : String → Fate} {profile : Dict} {rules : List Rule} :
    checkEligibility (.obj (withhold fate profile)) (rules.map Rule.fields) = .ok true ↔
      MeetsKept fate profile rules := by
  simp only [checkEligibility_eq_ok_true, List.forall_mem_map, meetsMinCgpa_withhold,
    meetsAllowedBranches_withhold, MeetsKept, ← meetsMinCgpa_iff, ← meetsAllowedBranches_iff]
  simp

theorem check_full (fate : String → Fate) {profile : Dict} {rules : List Rule} :
    checkEligibility (.obj profile) (rules.map Rule.fields) = .ok true ↔
      MeetsKept fate profile rules ∧ MeetsWithheld fate profile rules := by
  simp only [checkEligibility_eq_ok_true, List.forall_mem_map, MeetsKept, MeetsWithheld,
    ← meetsMinCgpa_iff, ← meetsAllowedBranches_iff]
  constructor
  · intro h
    exact ⟨fun r hr => ⟨fun _ => (h r hr).1, fun _ => (h r hr).2⟩,
      fun r hr => ⟨fun _ => (h r hr).1, fun _ => (h r hr).2⟩⟩
  · rintro ⟨hkept, hwithheld⟩ r hr
    constructor
    · by_cases hcgpa : fate "cgpa" = .kept
      · exact (hkept r hr).1 hcgpa
      · exact (hwithheld r hr).1 hcgpa
    · by_cases hbranch : fate "branch" = .kept
      · exact (hkept r hr).2 hbranch
      · exact (hwithheld r hr).2 hbranch

theorem AsksKept.meetsWithheld {fate : String → Fate} {rules : List Rule}
    (h : AsksKept fate rules) (profile : Dict) : MeetsWithheld fate profile rules := by
  intro r hr
  constructor
  · intro hcgpa minimum hmin
    rw [(h r hr).1 hcgpa] at hmin
    cases hmin
  · intro hbranch names hnames
    rw [(h r hr).2 hbranch] at hnames
    cases hnames

/-- **A withheld field takes its requirements along.**  For all well-formed rules, every
    profile and every way to remove or null some of its fields: the rest is eligible
    exactly when the profile meets the requirements on the fields that are kept.  So a
    student whose rest is eligible is eligible exactly when the requirements on the
    withheld fields are met too, and always when there are none; an eligible student stays
    eligible, and the empty profile that stands for any answer but a 200 is eligible under
    all rules. -/
theorem withheld_fields_are_not_asked (rules : List Rule) (profile : Dict)
    (fate : String → Fate) :
    (checkEligibility (.obj (withhold fate profile)) (rules.map Rule.fields) = .ok true ↔
      MeetsKept fate profile rules) ∧
    (checkEligibility (.obj (withhold fate profile)) (rules.map Rule.fields) = .ok true →
      (checkEligibility (.obj profile) (rules.map Rule.fields) = .ok true ↔
        MeetsWithheld fate profile rules)) ∧
    (AsksKept fate rules →
      checkEligibility (.obj (withhold fate profile)) (rules.map Rule.fields) = .ok true →
        checkEligibility (.obj profile) (rules.map Rule.fields) = .ok true) ∧
    (checkEligibility (.obj profile) (rules.map Rule.fields) = .ok true →
      checkEligibility (.obj (withhold fate profile)) (rules.map Rule.fields) = .ok true) ∧
    (∀ code body, code ≠ 200 →
      (fetchProfile (.answered code body)).bind
        (fun answer => checkEligibility answer (rules.map Rule.fields)) = .ok true) := by
  refine ⟨check_withhold, ?_, ?_, ?_, ?_⟩
  · intro hrest
    rw [check_full fate]
    exact and_iff_right (check_withhold.mp hrest)
  · intro hasks hrest
    rw [check_full fate]
    exact ⟨check_withhold.mp hrest, hasks.meetsWithheld profile⟩
  · intro hfull
    exact check_withhold.mpr ((check_full fate).mp hfull).1
  · intro code body hcode
    rw [fetchProfile, if_pos hcode, Except.bind]
    -- the empty profile is what is left when nothing is kept
    have hnone : MeetsKept (fun _ => .removed) [] rules := fun r _ => ⟨nofun, nofun⟩
    exact check_withhold.mpr hnone

/-- Below the threshold of `thresholdRule`. -/
def juniorFields : Dict := [("branch", .str "CSE"), ("cgpa", .num 7)]

theorem junior_rejected :
    checkEligibility (.obj juniorFields) ([thresholdRule].map Rule.fields) = .ok false := by
  decide +kernel

theorem withholding_admits_junior :
    ¬ ∀ (rules : List Rule) (profile : Dict) (fate : String → Fate),
      checkEligibility (.obj (withhold fate profile)) (rules.map Rule.fields) = .ok true →
        checkEligibility (.obj profile) (rules.map Rule.fields) = .ok true := by
  intro h
  have hadmitted := h [thresholdRule] juniorFields (fun _ => .removed) (by decide +kernel)
  rw [junior_rejected] at hadmitted
  cases hadmitted

/-! ## Unvalidated rules -/

/-- A profile as the identity service answers it: the cgpa a number or null, the branch
    a text or null. -/
structure StudentProfile where
  fields : Dict
  cgpa : Option ℚ
  branch : Option String
  get_cgpa : (fields.get "cgpa").getD .null = (cgpa.map .num).getD .null
  get_branch : (fields.get "branch").getD .null = (branch.map .str).getD .null

/-- `check_eligibility` on such a profile and any rules: `none` when it raises. -/
def decision (p : StudentProfile) (rules : List Dict) : Option Bool :=
  ShortCircuit.outcome (checkEligibility (.obj p.fields) rules)

/-- The cgpa is below the rule's `min_cgpa`, both as floats. -/
def Below (p : StudentProfile) (rule : Dict) : Prop :=
  ∃ cgpa minimum value bound, p.cgpa = some cgpa ∧ rule.get "min_cgpa" = some minimum ∧
    float (.num cgpa) = .ok value ∧ float minimum = .ok bound ∧ value.lt bound = true

/-- There is a cgpa to compare, but `float` raises on it or on the rule's `min_cgpa`. -/
def NotANumber (p : StudentProfile) (rule : Dict) : Prop :=
  ∃ cgpa minimum, p.cgpa = some cgpa ∧ rule.get "min_cgpa" = some minimum ∧
    ((∃ e, float (.num cgpa) = .error e) ∨ ∃ e, float minimum = .error e)

/-- The branch is not in the rule's `allowed_branches`. -/
def Outside (p : StudentProfile) (rule : Dict) : Prop :=
  ∃ branch allowed, p.branch = some branch ∧ branch ≠ "" ∧
    rule.get "allowed_branches" = some allowed ∧ contains allowed (.str branch) = .ok false

/-- There is a branch to look for, but `in` raises on the rule's `allowed_branches`. -/
def NotAContainer (p : StudentProfile) (rule : Dict) : Prop :=
  ∃ branch allowed e, p.branch = some branch ∧ branch ≠ "" ∧
    rule.get "allowed_branches" = some allowed ∧ contains allowed (.str branch) = .error e

/-- The rule by itself ends the loop with `False`: the cgpa is looked at first. -/
def Rejects (p : StudentProfile) (rule : Dict) : Prop :=
  Below p rule ∨ ¬ NotANumber p rule ∧ Outside p rule

/-- The rule by itself ends the loop with an exception. -/
def Raises (p : StudentProfile) (rule : Dict) : Prop :=
  NotANumber p rule ∨ ¬ Below p rule ∧ NotAContainer p rule

theorem meetsMinCgpa_of_cgpa {p : StudentProfile} {rule : Dict} {cgpa : ℚ} {minimum : Json}
    (hcgpa : p.cgpa = some cgpa) (hmin : rule.get "min_cgpa" = some minimum) :
    meetsMinCgpa (.obj p.fields) rule = compare (.num cgpa) minimum := by
  have hget : (p.fields.get "cgpa").getD .null = .num cgpa := by
    rw [p.get_cgpa, hcgpa]
    rfl
  rw [meetsMinCgpa_compares (by rw [hget]; exact Json.noConfusion) hmin, hget]

theorem meetsAllowedBranches_of_branch {p : StudentProfile} {rule : Dict} {branch : String}
    {allowed : Json} (hbranch : p.branch = some branch) (hne : branch ≠ "")
    (hallowed : rule.get "allowed_branches" = some allowed) :
    meetsAllowedBranches (.obj p.fields) rule = contains allowed (.str branch) := by
  have hget : (p.fields.get "branch").getD .null = .str branch := by
    rw [p.get_branch, hbranch]
    rfl
  have htruthy : ((p.fields.get "branch").getD .null).truthy = true := by
    rw [hget]
    exact decide_eq_true hne
  rw [meetsAllowedBranches_looks htruthy hallowed, hget]

/-- A first test that does not pass has compared a cgpa with a minimum. -/
theorem cgpa_compared {p : StudentProfile} {rule : Dict}
    (h : meetsMinCgpa (.obj p.fields) rule ≠ .ok true) :
    ∃ cgpa minimum, p.cgpa = some cgpa ∧ rule.get "min_cgpa" = some minimum ∧
      meetsMinCgpa (.obj p.fields) rule = compare (.num cgpa) minimum := by
  rcases hcgpa : p.cgpa with _ | cgpa
  · have hnull := p.get_cgpa
    rw [hcgpa] at hnull
    exact absurd (meetsMinCgpa_skips (Or.inl hnull)) h
  rcases hmin : rule.get "min_cgpa" with _ | minimum
  · exact absurd (meetsMinCgpa_skips (Or.inr hmin)) h
  exact ⟨cgpa, minimum, rfl, rfl, meetsMinCgpa_of_cgpa hcgpa hmin⟩

theorem below_iff {p : StudentProfile} {rule : Dict} :
    Below p rule ↔ meetsMinCgpa (.obj p.fields) rule = .ok false := by
  constructor
  · rintro ⟨cgpa, minimum, value, bound, hcgpa, hmin, hvalue, hbound, hlt⟩
    rw [meetsMinCgpa_of_cgpa hcgpa hmin]
    exact compare_eq_ok.mpr ⟨value, bound, hvalue, hbound, hlt⟩
  · intro h
    obtain ⟨cgpa, minimum, hcgpa, hmin, heq⟩ := cgpa_compared (by rw [h]; exact nofun)
    obtain ⟨value, bound, hvalue, hbound, hlt⟩ := compare_eq_ok.mp (heq.symm.trans h)
    exact ⟨cgpa, minimum, value, bound, hcgpa, hmin, hvalue, hbound, hlt⟩

theorem notANumber_iff {p : StudentProfile} {rule : Dict} :
    NotANumber p rule ↔ ∃ e, meetsMinCgpa (.obj p.fields) rule = .error e := by
  constructor
  · rintro ⟨cgpa, minimum, hcgpa, hmin, hraises⟩
    rw [meetsMinCgpa_of_cgpa hcgpa hmin]
    exact compare_eq_error.mpr hraises
  · rintro ⟨e, h⟩
    obtain ⟨cgpa, minimum, hcgpa, hmin, heq⟩ := cgpa_compared (by rw [h]; exact nofun)
    exact ⟨cgpa, minimum, hcgpa, hmin, compare_eq_error.mp ⟨e, heq.symm.trans h⟩⟩

/-- A second test that does not pass has looked for a branch. -/
theorem branch_looked_for {p : StudentProfile} {rule : Dict}
    (h : meetsAllowedBranches (.obj p.fields) rule ≠ .ok true) :
    ∃ branch allowed, p.branch = some branch ∧ branch ≠ "" ∧
      rule.get "allowed_branches" = some allowed ∧
      meetsAllowedBranches (.obj p.fields) rule = contains allowed (.str branch) := by
  have hget := p.get_branch
  rcases hbranch : p.branch with _ | branch
  · rw [hbranch] at hget
    exact absurd (meetsAllowedBranches_skips (Or.inl (by rw [hget]; rfl))) h
  rw [hbranch] at hget
  by_cases hne : branch = ""
  · have hempty : ((p.fields.get "branch").getD .null).truthy = false := by
      rw [hget, hne]
      rfl
    exact absurd (meetsAllowedBranches_skips (Or.inl hempty)) h
  rcases hallowed : rule.get "allowed_branches" with _ | allowed
  · exact absurd (meetsAllowedBranches_skips (Or.inr hallowed)) h
  exact ⟨branch, allowed, rfl, hne, rfl, meetsAllowedBranches_of_branch hbranch hne hallowed⟩

theorem outside_iff {p : StudentProfile} {rule : Dict} :
    Outside p rule ↔ meetsAllowedBranches (.obj p.fields) rule = .ok false := by
  constructor
  · rintro ⟨branch, allowed, hbranch, hne, hallowed, hin⟩
    rw [meetsAllowedBranches_of_branch hbranch hne hallowed, hin]
  · intro h
    obtain ⟨branch, allowed, hbranch, hne, hallowed, heq⟩ :=
      branch_looked_for (by rw [h]; exact nofun)
    exact ⟨branch, allowed, hbranch, hne, hallowed, heq ▸ h⟩

theorem notAContainer_iff {p : StudentProfile} {rule : Dict} :
    NotAContainer p rule ↔ ∃ e, meetsAllowedBranches (.obj p.fields) rule = .error e := by
  constructor
  · rintro ⟨branch, allowed, e, hbranch, hne, hallowed, hin⟩
    exact ⟨e, by rw [meetsAllowedBranches_of_branch hbranch hne hallowed, hin]⟩
  · rintro ⟨e, h⟩
    obtain ⟨branch, allowed, hbranch, hne, hallowed, heq⟩ :=
      branch_looked_for (by rw [h]; exact nofun)
    exact ⟨branch, allowed, e, hbranch, hne, hallowed, heq ▸ h⟩

/-! ## The order of the rules -/

/-- How a rule ends by itself. -/
def ruleTest (p : StudentProfile) (rule : Dict) : Except ServiceError Bool :=
  ShortCircuit.all (tests (.obj p.fields) rule)

theorem rejects_iff {p : StudentProfile} {rule : Dict} :
    Rejects p rule ↔ ruleTest p rule = .ok false := by
  rw [Rejects, below_iff, notANumber_iff, outside_iff, ruleTest, tests]
  rcases meetsMinCgpa (.obj p.fields) rule with e | (_ | _)
  · simp [ShortCircuit.all]
  · simp [ShortCircuit.all]
  · rcases meetsAllowedBranches (.obj p.fields) rule with e | (_ | _) <;> simp [ShortCircuit.all]

theorem raises_iff {p : StudentProfile} {rule : Dict} :
    Raises p rule ↔ ∃ e, ruleTest p rule = .error e := by
  rw [Raises, below_iff, notANumber_iff, notAContainer_iff, ruleTest, tests]
  rcases meetsMinCgpa (.obj p.fields) rule with e | (_ | _)
  · simp [ShortCircuit.all]
  · simp [ShortCircuit.all]
  · rcases meetsAllowedBranches (.obj p.fields) rule with e | (_ | _) <;> simp [ShortCircuit.all]

theorem decision_eq (p : StudentProfile) (rules : List Dict) :
    decision p rules = ShortCircuit.outcome (ShortCircuit.all (rules.map (ruleTest p))) := by
  rw [decision, checkEligibility_eq, ShortCircuit.all_flatMap]
  rfl

/-- **The order of the rules.**  Whether the answer is `True` depends on no order.  The
    outcome is the same in all orders exactly when the rules do not hold both one that
    rejects the profile and one that raises on it. -/
theorem order_of_rules (p : StudentProfile) (rules : List Dict) :
    (∀ rules', rules'.Perm rules →
      (decision p rules' = some true ↔ decision p rules = some true)) ∧
    ((∀ rules', rules'.Perm rules → decision p rules' = decision p rules) ↔
      ¬ ((∃ rule ∈ rules, Rejects p rule) ∧ ∃ rule ∈ rules, Raises p rule)) := by
  constructor
  · intro rules' h
    rw [decision_eq, decision_eq, ShortCircuit.outcome_eq_true, ShortCircuit.outcome_eq_true]
    simp only [(h.map _).mem_iff]
  · simp only [decision_eq, rejects_iff, raises_iff]
    exact ShortCircuit.order_irrelevant_iff

def junior : StudentProfile where
  fields := juniorFields
  cgpa := some 7
  branch := some "CSE"
  get_cgpa := rfl
  get_branch := rfl

/-- A minimum that `float` cannot read. -/
def wordyRule : Dict := [("min_cgpa", .str "high")]

theorem order_of_rules_counts :
    ¬ ∀ (p : StudentProfile) (rules rules' : List Dict), rules'.Perm rules →
      decision p rules' = decision p rules := by
  intro h
  have hswap := h junior [thresholdRule.fields, wordyRule] [wordyRule, thresholdRule.fields]
    (List.Perm.swap _ _ _)
  have hfirst : decision junior [thresholdRule.fields, wordyRule] = some false := by
    decide +kernel
  have hsecond : decision junior [wordyRule, thresholdRule.fields] = none := by decide +kernel
  rw [hfirst, hsecond] at hswap
  cases hswap

end CampusHire.EligibilityOutcomes
