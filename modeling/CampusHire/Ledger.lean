import Mathlib.Data.List.Basic

/-!
# Ledgers: logs that determine a state

A ledger is an append-only log.  Each entry sets a state (`after`), and some
entries also record the state they found (`found`).  Replaying a ledger gives the
state set by its last entry; a ledger is linked when every recorded state is the
one obtained by replaying the entries before it.
-/

namespace Ledger

variable {E S : Type*} (after : E → Option S) (found : E → Option S)

/-- The state after one more entry; an entry that sets none keeps the state. -/
def replayEntry (state : Option S) (entry : E) : Option S := (after entry).or state

/-- The state a log determines, `none` before anything has been set. -/
def replay (log : List E) : Option S := log.foldl (replayEntry after) none

/-- Every entry that records a state found the one replayed from the entries
    before it. -/
def Linked (log : List E) : Prop :=
  ∀ before entry later, log = before ++ entry :: later →
    ∀ s, found entry = some s → replay after before = some s

@[simp] theorem replay_append_singleton (log : List E) (entry : E) :
    replay after (log ++ [entry]) = (after entry).or (replay after log) := by
  simp [replay, replayEntry, List.foldl_append]

theorem linked_nil : Linked after found [] := by
  intro before entry later h
  simp at h

/-- Appending an entry keeps a ledger linked exactly when the entry records
    nothing or the replayed state. -/
theorem linked_append_singleton (log : List E) (entry : E) :
    Linked after found (log ++ [entry]) ↔
      Linked after found log ∧ ∀ s, found entry = some s → replay after log = some s := by
  constructor
  · intro h
    refine ⟨?_, fun s hs => h log entry [] rfl s hs⟩
    intro before e later heq s hs
    exact h before e (later ++ [entry]) (by rw [heq]; simp) s hs
  · rintro ⟨hlinked, hlast⟩ before e later heq s hs
    rcases List.eq_nil_or_concat later with rfl | ⟨later', last, rfl⟩
    · obtain ⟨rfl, heq'⟩ := List.append_inj' heq rfl
      simp only [List.cons.injEq, and_true] at heq'
      subst heq'
      exact hlast s hs
    · rw [List.concat_eq_append, ← List.cons_append, ← List.append_assoc] at heq
      obtain ⟨rfl, -⟩ := List.append_inj' heq rfl
      exact hlinked before e later' rfl s hs

end Ledger
