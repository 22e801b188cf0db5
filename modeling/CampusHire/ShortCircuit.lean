import Mathlib.Data.List.Basic

/-!
# Tests in turn, up to the first that does not pass

A test passes (`.ok true`), rejects (`.ok false`) or raises (`.error e`), and a loop with
an early return stops at the first one that does not pass.  Whether all pass does not
depend on the order of the tests.  How the loop ends otherwise does, exactly when one
test rejects and another raises.
-/

namespace ShortCircuit

variable {ε : Type}

def all : List (Except ε Bool) → Except ε Bool
  | [] => .ok true
  | .ok true :: tests => all tests
  | .ok false :: _ => .ok false
  | .error e :: _ => .error e

/-- How a loop ends: `none` when it raises, whatever it raises. -/
def outcome (result : Except ε Bool) : Option Bool := result.toOption

@[simp] theorem outcome_ok (answer : Bool) : outcome (.ok answer : Except ε Bool) = some answer :=
  rfl

@[simp] theorem outcome_error (e : ε) : outcome (.error e) = none := rfl

theorem all_eq_ok_true {tests : List (Except ε Bool)} :
    all tests = .ok true ↔ ∀ test ∈ tests, test = .ok true := by
  induction tests with
  | nil => simp [all]
  | cons test tests ih => rcases test with e | (_ | _) <;> simp [all, ih]

/-! ## Composition -/

theorem all_append_of_passes {first second : List (Except ε Bool)} (h : all first = .ok true) :
    all (first ++ second) = all second := by
  induction first with
  | nil => rfl
  | cons test tests ih =>
    obtain ⟨rfl, hrest⟩ := List.forall_mem_cons.mp (all_eq_ok_true.mp h)
    exact ih (all_eq_ok_true.mpr hrest)

theorem all_append_of_stops {first second : List (Except ε Bool)} (h : all first ≠ .ok true) :
    all (first ++ second) = all first := by
  induction first with
  | nil => exact absurd rfl h
  | cons test tests ih =>
    rcases test with e | (_ | _)
    · rfl
    · rfl
    · exact ih h

theorem all_flatMap {ι : Type} (tests : ι → List (Except ε Bool)) (items : List ι) :
    all (items.flatMap tests) = all (items.map fun item => all (tests item)) := by
  induction items with
  | nil => rfl
  | cons item items ih =>
    rw [List.flatMap_cons, List.map_cons]
    by_cases hpass : all (tests item) = .ok true
    · rw [all_append_of_passes hpass, ih, hpass, all]
    · rw [all_append_of_stops hpass]
      rcases h : all (tests item) with e | (_ | _)
      · rfl
      · rfl
      · exact absurd h hpass

/-! ## What a loop that stops has met -/

theorem mem_of_rejects {tests : List (Except ε Bool)} (h : all tests = .ok false) :
    .ok false ∈ tests := by
  induction tests with
  | nil => cases h
  | cons test tests ih =>
    rcases test with e | (_ | _)
    · cases h
    · exact List.mem_cons_self
    · exact List.mem_cons_of_mem _ (ih h)

theorem mem_of_raises {tests : List (Except ε Bool)} {e : ε} (h : all tests = .error e) :
    .error e ∈ tests := by
  induction tests with
  | nil => cases h
  | cons test tests ih =>
    rcases test with e' | (_ | _)
    · rw [all] at h
      exact h ▸ List.mem_cons_self
    · cases h
    · exact List.mem_cons_of_mem _ (ih h)

theorem outcome_eq_true {tests : List (Except ε Bool)} :
    outcome (all tests) = some true ↔ ∀ test ∈ tests, test = .ok true := by
  rw [← all_eq_ok_true]
  rcases all tests with e | answer <;> simp

/-- Without a test that raises, the loop rejects as soon as one test does. -/
theorem outcome_eq_false {tests : List (Except ε Bool)} (hraise : ∀ e, .error e ∉ tests) :
    outcome (all tests) = some false ↔ .ok false ∈ tests := by
  constructor
  · intro h
    rcases hall : all tests with e | (_ | _)
    · rw [hall] at h
      cases h
    · exact mem_of_rejects hall
    · rw [hall] at h
      cases h
  · intro hmem
    rcases hall : all tests with e | (_ | _)
    · exact absurd (mem_of_raises hall) (hraise e)
    · rfl
    · cases all_eq_ok_true.mp hall _ hmem

/-- Without a test that rejects, the loop raises as soon as one test does. -/
theorem outcome_eq_none {tests : List (Except ε Bool)} (hreject : .ok false ∉ tests) :
    outcome (all tests) = none ↔ ∃ e, .error e ∈ tests := by
  constructor
  · intro h
    rcases hall : all tests with e | answer
    · exact ⟨e, mem_of_raises hall⟩
    · rw [hall] at h
      cases h
  · rintro ⟨e, hmem⟩
    rcases hall : all tests with e' | (_ | _)
    · rfl
    · exact absurd (mem_of_rejects hall) hreject
    · cases all_eq_ok_true.mp hall _ hmem

/-! ## The order of the tests -/

theorem outcome_perm {tests tests' : List (Except ε Bool)} (h : tests'.Perm tests)
    (hone : ¬ (.ok false ∈ tests ∧ ∃ e, .error e ∈ tests)) :
    outcome (all tests') = outcome (all tests) := by
  by_cases hreject : .ok false ∈ tests
  · have hraise : ∀ e, .error e ∉ tests := fun e he => hone ⟨hreject, e, he⟩
    have hraise' : ∀ e, .error e ∉ tests' := fun e he => hraise e (h.mem_iff.mp he)
    rw [(outcome_eq_false hraise).mpr hreject,
      (outcome_eq_false hraise').mpr (h.mem_iff.mpr hreject)]
  · have hreject' : .ok false ∉ tests' := fun hmem => hreject (h.mem_iff.mp hmem)
    by_cases hraise : ∃ e, .error e ∈ tests
    · obtain ⟨e, he⟩ := hraise
      rw [(outcome_eq_none hreject).mpr ⟨e, he⟩,
        (outcome_eq_none hreject').mpr ⟨e, h.mem_iff.mpr he⟩]
    · -- what neither rejects nor raises passes
      have hpass : ∀ test ∈ tests, test = .ok true := by
        intro test htest
        rcases test with e | (_ | _)
        · exact absurd ⟨e, htest⟩ hraise
        · exact absurd htest hreject
        · rfl
      rw [outcome_eq_true.mpr hpass,
        outcome_eq_true.mpr fun test htest => hpass test (h.mem_iff.mp htest)]

/-- **The order counts exactly when one test rejects and another raises.** -/
theorem order_irrelevant_iff {ι : Type} {test : ι → Except ε Bool} {items : List ι} :
    (∀ items' : List ι, items'.Perm items →
        outcome (all (items'.map test)) = outcome (all (items.map test))) ↔
      ¬ ((∃ i ∈ items, test i = .ok false) ∧ ∃ i ∈ items, ∃ e, test i = .error e) := by
  constructor
  · rintro hperm ⟨⟨i, hi, hreject⟩, j, hj, e, hraise⟩
    -- either item can be brought to the front
    obtain ⟨rest, hrest⟩ := (List.singleton_sublist.mpr hi).exists_perm_append
    obtain ⟨rest', hrest'⟩ := (List.singleton_sublist.mpr hj).exists_perm_append
    have hfalse := hperm _ hrest.symm
    have hnone := hperm _ hrest'.symm
    rw [← hnone, List.singleton_append, List.singleton_append, List.map_cons, List.map_cons,
      hreject, hraise] at hfalse
    cases hfalse
  · intro hone items' h
    apply outcome_perm (h.map test)
    rintro ⟨hreject, e, hraise⟩
    obtain ⟨i, hi, hi'⟩ := List.mem_map.mp hreject
    obtain ⟨j, hj, hj'⟩ := List.mem_map.mp hraise
    exact hone ⟨⟨i, hi, hi'⟩, j, hj, e, hj'⟩

end ShortCircuit
