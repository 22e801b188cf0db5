import CampusHire.TwoPhase

/-!
# Two partial updates of one row

An update loads a row, assigns some of its columns and writes those whose assigned
value differs from the value it loaded.  When another update commits in between, a
column that the first one sets to what it had loaded is left as the other one wrote it,
and a column that it sets to something else is overwritten.  What is equal is a matter of
the language: an assigned value may differ from everything, itself included, and is then
always written.

So the second of two updates from one version ends as if it came last, if no column is
*reset*; and as if it came first, if none is *overruled*.  A row that is neither mixes the two
(`serializes_iff`).
-/

namespace PartialUpdate

open Schedule TwoPhase

/-- A value that a column is set to.  `always` is of one that no value is equal to. -/
structure Assigned (α : Type*) where
  value : α
  always : Bool := false

/-- The update finds the value different from the one it has loaded. -/
def Assigned.Changes {α : Type*} (a : Assigned α) (loaded : α) : Prop :=
  a.always = true ∨ a.value ≠ loaded

instance {α : Type*} [DecidableEq α] (a : Assigned α) (loaded : α) :
    Decidable (a.Changes loaded) :=
  inferInstanceAs (Decidable (_ ∨ _))

theorem Assigned.value_eq {α : Type*} {a : Assigned α} {loaded : α} (h : ¬ a.Changes loaded) :
    a.value = loaded :=
  not_not.mp fun hne => h (Or.inr hne)

section Rows

variable {κ : Type*} {β : κ → Type*} [∀ k, DecidableEq (β k)]

/-- The row after an update that had loaded `loaded` and assigned `assigned`. -/
def write (loaded : ∀ k, β k) (assigned : ∀ k, Option (Assigned (β k))) (stored : ∀ k, β k) :
    ∀ k, β k :=
  fun k => (((assigned k).filter fun a => decide (a.Changes (loaded k))).map
    Assigned.value).getD (stored k)

theorem write_none {loaded : ∀ k, β k} {assigned : ∀ k, Option (Assigned (β k))} {k : κ}
    (h : assigned k = none) (stored : ∀ k, β k) : write loaded assigned stored k = stored k := by
  simp [write, h]

theorem write_same {loaded : ∀ k, β k} {assigned : ∀ k, Option (Assigned (β k))} {k : κ}
    {a : Assigned (β k)} (h : assigned k = some a) (hsame : ¬ a.Changes (loaded k))
    (stored : ∀ k, β k) : write loaded assigned stored k = stored k := by
  simp [write, h, hsame, Option.filter]

theorem write_changed {loaded : ∀ k, β k} {assigned : ∀ k, Option (Assigned (β k))} {k : κ}
    {a : Assigned (β k)} (h : assigned k = some a) (hchanges : a.Changes (loaded k))
    (stored : ∀ k, β k) : write loaded assigned stored k = a.value := by
  simp [write, h, hchanges, Option.filter]

/-- An update of the version that it has loaded. -/
theorem write_self (d : ∀ k, β k) (assigned : ∀ k, Option (Assigned (β k))) (k : κ) :
    write d assigned d k = ((assigned k).map Assigned.value).getD (d k) := by
  rcases h : assigned k with _ | a
  · exact write_none h d
  · by_cases hchanges : a.Changes (d k)
    · exact write_changed h hchanges d
    · rw [write_same h hchanges]
      exact (Assigned.value_eq hchanges).symm

/-- A column whose values are assigned as `value` and `differs` tell. -/
theorem write_of_map {α : Type*} {loaded : ∀ k, β k} {assigned : ∀ k, Option (Assigned (β k))}
    {k : κ} {a : Option α} {value : α → β k} {differs : α → Bool}
    (h : assigned k = a.map fun x => { value := value x, always := differs x })
    (stored : ∀ k, β k) : write loaded assigned stored k =
      ((a.filter fun x => differs x || decide (value x ≠ loaded k)).map value).getD
        (stored k) := by
  rcases a with _ | x
  · exact write_none h stored
  · by_cases hchanges : differs x = true ∨ value x ≠ loaded k
    · rw [write_changed h hchanges]
      simp [Option.filter, hchanges]
    · rw [write_same h hchanges]
      simp [Option.filter, hchanges]

/-- A column whose values are equal to themselves. -/
theorem write_of_plain {loaded : ∀ k, β k} {assigned : ∀ k, Option (Assigned (β k))} {k : κ}
    {a : Option (β k)} (h : assigned k = a.map fun x => { value := x }) (stored : ∀ k, β k) :
    write loaded assigned stored k =
      (a.filter fun x => decide (x ≠ loaded k)).getD (stored k) := by
  have hmap : assigned k = a.map fun x => { value := id x, always := false } := h
  rw [write_of_map hmap stored, Option.map_id]
  rfl

@[simp] theorem write_nothing (loaded stored : ∀ k, β k) :
    write loaded (fun _ => none) stored = stored :=
  funext fun _ => write_none rfl stored

/-! ## What an update from an older version loses -/

/-- A column that the update sets to the value it has loaded, and that has changed. -/
def Resets (loaded stored : ∀ k, β k) (mine : ∀ k, Option (Assigned (β k))) : Prop :=
  ∃ k a, mine k = some a ∧ ¬ a.Changes (loaded k) ∧ stored k ≠ loaded k

/-- A column that the update changes, and that the other one sets to something else. -/
def Overrules (loaded : ∀ k, β k) (mine other : ∀ k, Option (Assigned (β k))) : Prop :=
  ∃ k a b, mine k = some a ∧ a.Changes (loaded k) ∧ other k = some b ∧ b.value ≠ a.value

/-- The update resets a column of the stored row, and overrules the other one's. -/
def Mixes (loaded stored : ∀ k, β k) (mine other : ∀ k, Option (Assigned (β k))) : Prop :=
  Resets loaded stored mine ∧ Overrules loaded mine other

theorem write_eq_fresh_iff {loaded stored : ∀ k, β k} {mine : ∀ k, Option (Assigned (β k))} :
    write loaded mine stored = write stored mine stored ↔ ¬ Resets loaded stored mine := by
  constructor
  · rintro heq ⟨k, a, hk, hsame, hne⟩
    have hcolumn := congrFun heq k
    rw [write_same hk hsame, write_self, hk] at hcolumn
    exact hne (hcolumn.trans (Assigned.value_eq hsame))
  · intro hno
    funext k
    rw [write_self]
    rcases h : mine k with _ | a
    · exact write_none h stored
    · by_cases hchanges : a.Changes (loaded k)
      · exact write_changed h hchanges stored
      · rw [write_same h hchanges, Option.map_some, Option.getD_some, Assigned.value_eq hchanges]
        by_contra hne
        exact hno ⟨k, a, h, hchanges, hne⟩

/-- The older of two updates from one version commits last, and the result is that of its
    coming first. -/
theorem write_eq_swapped_iff {d : ∀ k, β k} {mine other : ∀ k, Option (Assigned (β k))} :
    write d mine (write d other d) = write (write d mine d) other (write d mine d) ↔
      ¬ Overrules d mine other := by
  constructor
  · rintro heq ⟨k, a, b, hmine, hchanges, hother, hne⟩
    have hcolumn := congrFun heq k
    rw [write_changed hmine hchanges, write_self _ other, hother] at hcolumn
    exact hne hcolumn.symm
  · intro hno
    funext k
    rw [write_self _ other, write_self]
    rcases hmine : mine k with _ | a
    · rw [write_none hmine, write_self]
      rfl
    · by_cases hchanges : a.Changes (d k)
      · rw [write_changed hmine hchanges]
        rcases hother : other k with _ | b
        · rfl
        · by_contra hne
          exact hno ⟨k, a, b, hmine, hchanges, hother, Ne.symm hne⟩
      · rw [write_same hmine hchanges, write_self, Option.map_some, Option.getD_some,
          Assigned.value_eq hchanges]

/-! ## Updates of different columns -/

def Disjoint (mine other : ∀ k, Option (Assigned (β k))) : Prop :=
  ∀ k, mine k = none ∨ other k = none

/-- Both take full effect. -/
def merge (mine other : ∀ k, Option (Assigned (β k))) (d : ∀ k, β k) : ∀ k, β k :=
  fun k => (((mine k).or (other k)).map Assigned.value).getD (d k)

/-- Whichever version the second of two disjoint updates has loaded. -/
theorem write_disjoint {d : ∀ k, β k} {mine other : ∀ k, Option (Assigned (β k))}
    {loaded : ∀ k, β k} (h : Disjoint mine other)
    (hloaded : ∀ k, other k = none → loaded k = d k) :
    write loaded mine (write d other d) = merge mine other d := by
  funext k
  rcases h k with hmine | hother
  · rw [write_none hmine, write_self, merge, hmine]
    rfl
  · have hstored : write d other d k = d k := write_none hother d
    rw [merge, hother, Option.or_none, write, hstored, hloaded k hother]
    exact write_self d mine k

omit [∀ k, DecidableEq (β k)] in
theorem merge_comm {mine other : ∀ k, Option (Assigned (β k))} (h : Disjoint mine other)
    (d : ∀ k, β k) : merge mine other d = merge other mine d := by
  funext k
  rcases h k with hmine | hother
  · rw [merge, merge, hmine, Option.or_none, Option.none_or]
  · rw [merge, merge, hother, Option.or_none, Option.none_or]

end Rows

/-! ## Two transactions -/

section Transactions

variable {κ σ τ ε : Type*} {β : κ → Type*} [∀ k, DecidableEq (β k)]
  {P : Program σ τ ε} {e : Bool → ε}

/-- The update `i` of a row of a table, which need not be there. -/
def commitRow (u : Bool → ∀ k, Option (Assigned (β k))) (i : Bool)
    (v d : Option (∀ k, β k)) : Option (∀ k, β k) :=
  d.map fun stored => write (v.getD stored) (u i) stored

theorem commitRow_eq_iff {u : Bool → ∀ k, Option (Assigned (β k))} {i : Bool}
    {loaded stored : ∀ k, β k} :
    commitRow u i (some loaded) (some stored) = commitRow u i (some stored) (some stored) ↔
      ¬ Resets loaded stored (u i) := by
  rw [← write_eq_fresh_iff]
  exact Option.some_inj

/-- An update that assigns nothing. -/
theorem commitRow_nothing {u : Bool → ∀ k, Option (Assigned (β k))} {i : Bool}
    (h : u i = fun _ => none) (v d : Option (∀ k, β k)) : commitRow u i v d = d := by
  simp [commitRow, h]

variable (A : Account P e (Option (∀ k, β k))) {u : Bool → ∀ k, Option (Assigned (β k))}
  (hcommit : A.commit = commitRow u)

include hcommit

theorem serial_eq (i : Bool) (d : ∀ k, β k) :
    A.serial i (some d) =
      some (write (write d (u i) d) (u !i) (write d (u i) d)) := by
  rw [Account.serial, hcommit]
  rfl

theorem stale_eq (i : Bool) (d : ∀ k, β k) :
    A.stale i (some d) = some (write d (u !i) (write d (u i) d)) := by
  rw [Account.stale, hcommit]
  rfl

/-- **Two updates serialize exactly in the runs in which no commit mixes them.** -/
theorem serializes_iff {G : Config σ τ Bool → Bool → ε → Prop}
    (hfresh : ∀ c i, A.fresh (e i) c.store (c.task i) → G c i (e i))
    (hstale : ∀ c i loaded stored, A.stands i (.loaded (some loaded)) c.store (c.task i) →
      A.data c.store = some stored → ¬ A.fresh (e i) c.store (c.task i) →
      (G c i (e i) ↔ ¬ Mixes loaded stored (u i) (u !i)))
    {s : σ} {task : Bool → τ} (hstart : ∀ i, A.stands i .waiting s (task i)) {d : ∀ k, β k}
    (hdata : A.data s = some d) (order : List Bool)
    (hdone : ∀ i, A.finished ((run P (start s task) (interleave e order)).task i)) :
    (∃ i, A.data (run P (start s task) (interleave e order)).store = A.serial i (some d)) ↔
      Guarded P G (start s task) (interleave e order) := by
  rcases A.progress_run (.early hdata fun i => Or.inl (hstart i)) order hdone with
    ⟨hall, hserial⟩ | ⟨before, j, after, h⟩
  · apply iff_of_true hserial
    exact A.guarded_of_allFresh hfresh hall
  · have hstored : A.data (run P (start s task) (interleave e before)).store =
        some (write d (u !j) d) := by
      rw [h.commit.data_before, hcommit]
      rfl
    rw [h.guarded_iff hfresh, hstale _ j d _ h.commit.loaded hstored h.commit.not_fresh,
      h.data_end]
    have hresets : Resets d (write d (u !j) d) (u j) := by
      have hne := h.commit.stale_ne
      rwa [stale_eq A hcommit, serial_eq A hcommit, Bool.not_not, Ne, Option.some_inj,
        write_eq_fresh_iff, not_not] at hne
    have hswapped : A.stale (!j) (some d) = A.serial j (some d) ↔ ¬ Overrules d (u j) (u !j) := by
      rw [stale_eq A hcommit, serial_eq A hcommit, Bool.not_not, Option.some_inj,
        write_eq_swapped_iff]
    constructor
    · rintro ⟨i, hi⟩ ⟨-, hover⟩
      by_cases hij : i = j
      · exact hswapped.mp (hij ▸ hi) hover
      · rw [show i = !j from Bool.eq_not.mpr hij] at hi
        exact h.commit.stale_ne hi
    · intro hno
      exact ⟨j, hswapped.mpr fun hover => hno ⟨hresets, hover⟩⟩

/-- Two disjoint updates both take full effect, however their steps are ordered. -/
theorem data_of_disjoint {s : σ} {task : Bool → τ} (hstart : ∀ i, A.stands i .waiting s (task i))
    {d : ∀ k, β k} (hdata : A.data s = some d) (hdisjoint : Disjoint (u true) (u false))
    (order : List Bool)
    (hdone : ∀ i, A.finished ((run P (start s task) (interleave e order)).task i)) :
    A.data (run P (start s task) (interleave e order)).store =
      some (merge (u true) (u false) d) := by
  have hpair : ∀ i, Disjoint (u !i) (u i) ∧
      merge (u !i) (u i) d = merge (u true) (u false) d := by
    intro i
    cases i with
    | false => exact ⟨hdisjoint, rfl⟩
    | true => exact ⟨fun k => (hdisjoint k).symm, (merge_comm hdisjoint d).symm⟩
  rcases A.run_outcome hstart order hdone with ⟨-, i, hi⟩ | ⟨-, i, hi, -⟩
  · obtain ⟨hdisj, hmerge⟩ := hpair i
    rw [hi, hdata, serial_eq A hcommit, write_disjoint hdisj fun k hk => ?_, hmerge]
    exact write_none hk d
  · obtain ⟨hdisj, hmerge⟩ := hpair i
    rw [hi, hdata, stale_eq A hcommit, write_disjoint hdisj fun _ _ => rfl, hmerge]

end Transactions

end PartialUpdate
