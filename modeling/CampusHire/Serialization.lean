import CampusHire.Schedule
import Mathlib.Data.List.Nodup

/-!
# Calls that take effect one after the other

Every thread of a program executes one call, and `serve i` is what the call of thread
`i` does and answers when nothing runs beside it.  `Calls` accounts for the steps of the
program in these terms: a call is *pending* until a step of it has the effect of the
whole call, and from then on it is *settled* on its answer, which its remaining steps
only read.

A step of one call may disturb another: what a pending call has read may no longer be
true, and what a settled call has yet to read may have changed.  The account therefore
names a condition on steps, `inTime`, under which neither happens.  In a run whose steps
all meet it, the store and the answers are those of the calls made one after the other,
in the order in which they took effect (`serialized_run`, `serialized_two`).
-/

namespace Serialization

open Schedule

variable {σ τ ε ι α : Type*}

structure Calls (P : Program σ τ ε) (e : ι → ε) (α : Type*) where
  serve : ι → σ → σ × α
  inTime : Config σ τ ι → ι → Prop
  pending : ι → σ → τ → Prop
  settled : ι → α → σ → τ → Prop
  pending_step : ∀ c i, inTime c i → pending i c.store (c.task i) →
    ((P.step (e i) c.store (c.task i)).1 = c.store ∧
      pending i c.store (P.step (e i) c.store (c.task i)).2) ∨
    ((P.step (e i) c.store (c.task i)).1 = (serve i c.store).1 ∧
      settled i (serve i c.store).2 (serve i c.store).1 (P.step (e i) c.store (c.task i)).2)
  settled_step : ∀ i a s t, settled i a s t →
    (P.step (e i) s t).1 = s ∧ settled i a s (P.step (e i) s t).2
  pending_stable : ∀ c i j, j ≠ i → inTime c i → pending i c.store (c.task i) →
    pending j c.store (c.task j) → pending j (P.step (e i) c.store (c.task i)).1 (c.task j)
  settled_stable : ∀ c i j a, j ≠ i → inTime c i → pending i c.store (c.task i) →
    settled j a c.store (c.task j) →
    settled j a (P.step (e i) c.store (c.task i)).1 (c.task j)

/-- The schedule in which the calls take their steps in the given order, each on an input
    of its own. -/
def turns (e : ι → ε) (order : List ι) : List (ι × ε) := order.map fun i => (i, e i)

theorem guarded_turns [DecidableEq ι] {P : Program σ τ ε} {e : ι → ε}
    {G : Config σ τ ι → ι → ε → Prop} {c : Config σ τ ι} {order : List ι}
    (h : Guarded P G c (turns e order)) :
    Guarded P (fun c i env => env = e i ∧ G c i env) c (turns e order) := by
  induction order generalizing c with
  | nil => trivial
  | cons i rest ih => exact ⟨fun hr => ⟨rfl, h.1 hr⟩, ih h.2⟩

namespace Calls

variable {P : Program σ τ ε} {e : ι → ε} (C : Calls P e α)

/-! ## One after the other -/

def after (s : σ) (order : List ι) : σ := order.foldl (fun s i => (C.serve i s).1) s

def answers : σ → List ι → List (ι × α)
  | _, [] => []
  | s, i :: rest => (i, (C.serve i s).2) :: answers (C.serve i s).1 rest

theorem after_concat (s : σ) (order : List ι) (i : ι) :
    C.after s (order ++ [i]) = (C.serve i (C.after s order)).1 := by
  rw [after, List.foldl_append]
  rfl

theorem answers_concat (s : σ) (order : List ι) (i : ι) :
    C.answers s (order ++ [i]) =
      C.answers s order ++ [(i, (C.serve i (C.after s order)).2)] := by
  induction order generalizing s with
  | nil => rfl
  | cons j rest ih =>
    rw [List.cons_append, answers, ih, answers, List.cons_append]
    rfl

theorem fst_answers (s : σ) (order : List ι) : (C.answers s order).map Prod.fst = order := by
  induction order generalizing s with
  | nil => rfl
  | cons i rest ih => rw [answers, List.map_cons, ih]

theorem mem_of_answer {s : σ} {order : List ι} {i : ι} {a : α}
    (h : (i, a) ∈ C.answers s order) : i ∈ order := by
  rw [← C.fst_answers s order]
  exact List.mem_map_of_mem (f := Prod.fst) h

/-! ## The invariant of a run in time -/

/-- The calls in `order` have taken effect in this order, the others have done nothing. -/
structure Serialized (s₀ : σ) (order : List ι) (c : Config σ τ ι) : Prop where
  nodup : order.Nodup
  store : c.store = C.after s₀ order
  pending : ∀ i ∉ order, C.pending i c.store (c.task i)
  settled : ∀ i a, (i, a) ∈ C.answers s₀ order → C.settled i a c.store (c.task i)

/-- The calls can be put in an order. -/
def Serializable (s₀ : σ) (c : Config σ τ ι) : Prop := ∃ order, C.Serialized s₀ order c

theorem serializable_start {s : σ} {task : ι → τ} (h : ∀ i, C.pending i s (task i)) :
    C.Serializable s (start s task) :=
  ⟨[], List.nodup_nil, rfl, fun i _ => h i, fun _ _ hmem => absurd hmem List.not_mem_nil⟩

variable [DecidableEq ι]

variable {C} in
/-- A step of a call that has taken effect. -/
theorem Serialized.fire_settled {s₀ : σ} {order : List ι} {c : Config σ τ ι} {i : ι}
    (h : C.Serialized s₀ order c) (hi : i ∈ order) :
    C.Serialized s₀ order (fire P c i (e i)) := by
  have hstep : ∀ a, (i, a) ∈ C.answers s₀ order →
      (P.step (e i) c.store (c.task i)).1 = c.store ∧
        C.settled i a c.store (P.step (e i) c.store (c.task i)).2 :=
    fun a ha => C.settled_step i a _ _ (h.settled i a ha)
  have hstore : (fire P c i (e i)).store = c.store := by
    rw [← C.fst_answers s₀ order, List.mem_map] at hi
    obtain ⟨⟨j, a⟩, ha, rfl⟩ := hi
    exact (hstep a ha).1
  constructor
  · exact h.nodup
  · rw [hstore, h.store]
  · intro j hj
    have hne : j ≠ i := fun heq => hj (heq ▸ hi)
    rw [hstore, fire_task_other P c (e i) hne]
    exact h.pending j hj
  · intro j a ha
    rw [hstore]
    by_cases hne : j = i
    · subst hne
      rw [fire_task_same]
      exact (hstep a ha).2
    · rw [fire_task_other P c (e i) hne]
      exact h.settled j a ha

variable {C} in
/-- A step of a call that has not: it leaves the store alone, or it is the one that takes
    effect. -/
theorem Serialized.fire_pending {s₀ : σ} {order : List ι} {c : Config σ τ ι} {i : ι}
    (h : C.Serialized s₀ order c) (hi : i ∉ order) (hin : C.inTime c i) :
    C.Serialized s₀ order (fire P c i (e i)) ∨
      C.Serialized s₀ (order ++ [i]) (fire P c i (e i)) := by
  have hpending := h.pending i hi
  have hothers : ∀ j ≠ i, j ∉ order →
      C.pending j (fire P c i (e i)).store ((fire P c i (e i)).task j) := by
    intro j hne hj
    rw [fire_task_other P c (e i) hne, fire_store]
    exact C.pending_stable c i j hne hin hpending (h.pending j hj)
  have hanswered : ∀ j a, (j, a) ∈ C.answers s₀ order →
      C.settled j a (fire P c i (e i)).store ((fire P c i (e i)).task j) := by
    intro j a ha
    have hne : j ≠ i := fun heq => hi (heq ▸ C.mem_of_answer ha)
    rw [fire_task_other P c (e i) hne, fire_store]
    exact C.settled_stable c i j a hne hin hpending (h.settled j a ha)
  rcases C.pending_step c i hin hpending with ⟨hsame, hstill⟩ | ⟨heffect, hsettled⟩
  · refine Or.inl ⟨h.nodup, by rw [fire_store, hsame, h.store], ?_, hanswered⟩
    intro j hj
    by_cases hne : j = i
    · subst hne
      rw [fire_task_same, fire_store, hsame]
      exact hstill
    · exact hothers j hne hj
  · right
    constructor
    · exact List.nodup_append.mpr ⟨h.nodup, List.nodup_singleton i,
        fun j hj k hk => fun heq => hi (List.mem_singleton.mp hk ▸ heq ▸ hj)⟩
    · rw [fire_store, heffect, h.store, C.after_concat]
    · intro j hj
      rw [List.mem_append, not_or, List.mem_singleton] at hj
      exact hothers j hj.2 hj.1
    · intro j a ha
      rw [C.answers_concat, List.mem_append, List.mem_singleton, Prod.mk.injEq] at ha
      rcases ha with ha | ⟨rfl, rfl⟩
      · exact hanswered j a ha
      · rw [fire_task_same, fire_store, heffect, ← h.store]
        exact hsettled

variable {C} in
theorem Serializable.fire {s₀ : σ} {c : Config σ τ ι} {i : ι} (h : C.Serializable s₀ c)
    (hin : C.inTime c i) : C.Serializable s₀ (fire P c i (e i)) := by
  obtain ⟨order, h⟩ := h
  by_cases hi : i ∈ order
  · exact ⟨order, h.fire_settled hi⟩
  · rcases h.fire_pending hi hin with hnext | hnext
    · exact ⟨order, hnext⟩
    · exact ⟨order ++ [i], hnext⟩

/-- **Every run in time is serializable.** -/
theorem serialized_run {s : σ} {task : ι → τ} (h : ∀ i, C.pending i s (task i)) (order : List ι)
    (hin : Guarded P (fun c i _ => C.inTime c i) (start s task) (turns e order)) :
    C.Serializable s (run P (start s task) (turns e order)) :=
  run_guarded P (I := C.Serializable s)
    (fun _ _ _ hI _ hG => hG.1 ▸ hI.fire hG.2) (turns e order) (C.serializable_start h)
    (guarded_turns hin)

/-- What follows from being in time in a serializable configuration holds of every step of
    a run in time. -/
theorem guarded_of_serializable {G : Config σ τ ι → ι → ε → Prop} {s : σ} {task : ι → τ}
    (h : ∀ i, C.pending i s (task i)) (order : List ι)
    (hin : Guarded P (fun c i _ => C.inTime c i) (start s task) (turns e order))
    (himp : ∀ c i, C.Serializable s c → C.inTime c i → G c i (e i)) :
    Guarded P G (start s task) (turns e order) :=
  guarded_imp P (I := C.Serializable s) (fun _ _ _ hI _ hG => hG.1 ▸ hI.fire hG.2)
    (fun c i _ hI _ hG => hG.1 ▸ himp c i hI hG.2) (C.serializable_start h) (turns e order)
    (guarded_turns hin)

end Calls

/-! ## Two calls -/

theorem two_in_order {order : List Bool} (hnodup : order.Nodup) (hall : ∀ i, i ∈ order) :
    ∃ i, order = [i, !i] := by
  obtain _ | ⟨i, rest⟩ := order
  · exact absurd (hall true) List.not_mem_nil
  refine ⟨i, ?_⟩
  obtain ⟨hfirst, hrest⟩ := List.nodup_cons.mp hnodup
  have hother : ∀ j ∈ rest, j = !i := fun j hj => Bool.eq_not.mpr fun heq => hfirst (heq ▸ hj)
  obtain _ | ⟨j, rest⟩ := rest
  · exact absurd (List.mem_singleton.mp (hall !i)) (by simp)
  obtain rfl := hother j List.mem_cons_self
  obtain _ | ⟨k, rest⟩ := rest
  · rfl
  · obtain rfl := hother k (List.mem_cons_of_mem _ List.mem_cons_self)
    exact absurd List.mem_cons_self (List.nodup_cons.mp hrest).1

/-- Two calls that have both taken effect did so in one of the two orders. -/
theorem Calls.serialized_two {P : Program σ τ ε} {e : Bool → ε} {C : Calls P e α} {s : σ}
    {c : Config σ τ Bool} (h : C.Serializable s c)
    (hdone : ∀ i, ¬ C.pending i c.store (c.task i)) :
    ∃ i, c.store = (C.serve (!i) (C.serve i s).1).1 ∧
      C.settled i (C.serve i s).2 c.store (c.task i) ∧
      C.settled (!i) (C.serve (!i) (C.serve i s).1).2 c.store (c.task (!i)) := by
  obtain ⟨order, h⟩ := h
  have hall : ∀ i, i ∈ order := fun i => by_contra fun hi => hdone i (h.pending i hi)
  obtain ⟨i, rfl⟩ := two_in_order h.nodup hall
  exact ⟨i, h.store, h.settled _ _ List.mem_cons_self,
    h.settled _ _ (List.mem_cons_of_mem _ List.mem_cons_self)⟩

end Serialization
