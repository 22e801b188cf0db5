import Mathlib.Data.List.Nodup
import Mathlib.Data.List.Basic
import Mathlib.Data.List.Sort

/-!
# Tables with a key

A table is the list of its rows in the order in which they were inserted.
`lookup` is a query by key that takes the first row, `modify` an update of the
rows with a key, `insertRow` an insertion that a uniqueness constraint on the key
may refuse, and `orderByDesc` sorts the rows of a query.  The lemmas say what each
of them leaves alone, so that a proof about a program over tables never unfolds them.
-/

namespace Table

variable {ρ κ : Type*} [DecidableEq κ] (key : ρ → κ)

def lookup (k : κ) (rows : List ρ) : Option ρ := rows.find? fun r => decide (key r = k)

def modify (k : κ) (f : ρ → ρ) (rows : List ρ) : List ρ :=
  rows.map fun r => if key r = k then f r else r

/-- Append a row, unless its key is taken. -/
def insertRow (row : ρ) (rows : List ρ) : Option (List ρ) :=
  if (lookup key (key row) rows).isSome then none else some (rows ++ [row])

/-- `ORDER BY column DESC`; rows with equal values stay in the order of insertion. -/
def orderByDesc {α : Type*} [LinearOrder α] (column : ρ → α) (rows : List ρ) : List ρ :=
  rows.insertionSort fun r s => column s ≤ column r

variable {key}

/-! ## Lookup -/

theorem mem_of_lookup {k : κ} {rows : List ρ} {r : ρ} (h : lookup key k rows = some r) :
    r ∈ rows :=
  List.mem_of_find?_eq_some h

theorem key_of_lookup {k : κ} {rows : List ρ} {r : ρ} (h : lookup key k rows = some r) :
    key r = k := by
  simpa using List.find?_some h

theorem lookup_eq_none {k : κ} {rows : List ρ} :
    lookup key k rows = none ↔ ∀ r ∈ rows, key r ≠ k := by
  simp [lookup]

theorem lookup_of_mem {rows : List ρ} (hnodup : (rows.map key).Nodup) {r : ρ} (hr : r ∈ rows) :
    lookup key (key r) rows = some r := by
  rcases hfound : lookup key (key r) rows with _ | found
  · exact absurd rfl (lookup_eq_none.mp hfound r hr)
  · have heq : found = r :=
      List.inj_on_of_nodup_map hnodup (mem_of_lookup hfound) hr (key_of_lookup hfound)
    rw [heq]

theorem lookup_append {k : κ} {rows more : List ρ} :
    lookup key k (rows ++ more) = (lookup key k rows).or (lookup key k more) := by
  simp [lookup, List.find?_append]

theorem lookup_append_of_some {k : κ} {rows more : List ρ} {r : ρ}
    (h : lookup key k rows = some r) : lookup key k (rows ++ more) = some r := by
  rw [lookup_append, h, Option.some_or]

/-- A query by two columns that finds no row. -/
theorem find_pair_eq_none {κ' : Type*} [DecidableEq κ'] {column : ρ → κ'} {k : κ} {j : κ'}
    {rows : List ρ} :
    rows.find? (fun r => decide (key r = k) && decide (column r = j)) = none ↔
      (k, j) ∉ rows.map fun r => (key r, column r) := by
  simp only [List.find?_eq_none, List.mem_map, Prod.mk.injEq, Bool.and_eq_true,
    decide_eq_true_eq, not_exists, not_and]

/-! ## Modify -/

/-- Updates that agree on the rows with the key do the same. -/
theorem modify_congr {k : κ} {f g : ρ → ρ} {rows : List ρ}
    (h : ∀ r ∈ rows, key r = k → f r = g r) : modify key k f rows = modify key k g rows := by
  apply List.map_congr_left
  intro r hr
  by_cases hk : key r = k
  · rw [if_pos hk, if_pos hk, h r hr hk]
  · rw [if_neg hk, if_neg hk]

/-- An update that leaves the rows with its key as they are changes nothing. -/
theorem modify_of_forall_eq {k : κ} {f : ρ → ρ} {rows : List ρ}
    (h : ∀ r ∈ rows, key r = k → f r = r) : modify key k f rows = rows := by
  calc modify key k f rows
      = modify key k id rows := modify_congr h
    _ = rows := by simp only [modify, id, ite_self, List.map_id']

theorem modify_of_forall_ne {k : κ} {f : ρ → ρ} {rows : List ρ} (h : ∀ r ∈ rows, key r ≠ k) :
    modify key k f rows = rows :=
  modify_of_forall_eq fun r hr hk => absurd hk (h r hr)

/-- A column that the update does not write is unchanged. -/
theorem map_modify {α : Type*} {k : κ} {f : ρ → ρ} {g : ρ → α} (hg : ∀ r, g (f r) = g r)
    (rows : List ρ) : (modify key k f rows).map g = rows.map g := by
  simp only [modify, List.map_map]
  apply List.map_congr_left
  intro r _
  by_cases hk : key r = k <;> simp [hk, hg]

/-- Selecting by a column that the update does not write commutes with it. -/
theorem filter_modify {k : κ} {f : ρ → ρ} {p : ρ → Bool} (hp : ∀ r, p (f r) = p r)
    (rows : List ρ) : (modify key k f rows).filter p = modify key k f (rows.filter p) := by
  induction rows with
  | nil => rfl
  | cons r rows ih =>
    simp only [modify, List.map_cons, List.filter_cons] at ih ⊢
    by_cases hk : key r = k
    · by_cases hpr : p r = true
      · simp [hk, hp, hpr, ih]
      · simp [hk, hp, hpr, ih]
    · by_cases hpr : p r = true
      · simp [hk, hpr, ih]
      · simp [hk, hpr, ih]

theorem lookup_modify_same {k : κ} {f : ρ → ρ} (hkey : ∀ r, key (f r) = key r)
    (rows : List ρ) : lookup key k (modify key k f rows) = (lookup key k rows).map f := by
  induction rows with
  | nil => rfl
  | cons r rows ih =>
    by_cases hk : key r = k
    · simp [lookup, modify, hk, hkey]
    · simpa [lookup, modify, hk] using ih

theorem lookup_modify_other {j k : κ} {f : ρ → ρ} (hkey : ∀ r, key (f r) = key r)
    (hne : j ≠ k) (rows : List ρ) :
    lookup key j (modify key k f rows) = lookup key j rows := by
  induction rows with
  | nil => rfl
  | cons r rows ih =>
    by_cases hk : key r = k
    · have hj : key r ≠ j := fun h => hne (h.symm.trans hk)
      simpa [lookup, modify, hk, hkey, hj, Ne.symm hne] using ih
    · by_cases hj : key r = j
      · simp [lookup, modify, hj, hne]
      · simpa [lookup, modify, hk, hj] using ih

/-- A lookup by another column sees the updated row. -/
theorem lookup_modify_column {κ' : Type*} [DecidableEq κ'] {column : ρ → κ'} {j : κ'} {k : κ}
    {f : ρ → ρ} (hcolumn : ∀ r, column (f r) = column r) (rows : List ρ) :
    lookup column j (modify key k f rows) =
      (lookup column j rows).map fun r => if key r = k then f r else r := by
  have hsame : ((fun r => decide (column r = j)) ∘ fun r => if key r = k then f r else r) =
      fun r => decide (column r = j) := by
    funext r
    by_cases hk : key r = k <;> simp [hk, hcolumn]
  rw [lookup, modify, List.find?_map, hsame, lookup]

theorem mem_modify {k : κ} {f : ρ → ρ} {rows : List ρ} {r : ρ} :
    r ∈ modify key k f rows ↔
      (r ∈ rows ∧ key r ≠ k) ∨ ∃ old ∈ rows, key old = k ∧ r = f old := by
  simp only [modify, List.mem_map]
  constructor
  · rintro ⟨old, hold, rfl⟩
    by_cases hk : key old = k
    · exact Or.inr ⟨old, hold, hk, by simp [hk]⟩
    · exact Or.inl (by simp [hk, hold])
  · rintro (⟨hr, hk⟩ | ⟨old, hold, hk, rfl⟩)
    · exact ⟨r, hr, by simp [hk]⟩
    · exact ⟨old, hold, by simp [hk]⟩

/-- An update of a row whose key is unique changes a count by what it does to the row. -/
theorem countP_modify {f : ρ → ρ} {rows : List ρ} {r : ρ} (p : ρ → Bool)
    (hnodup : (rows.map key).Nodup) (hr : r ∈ rows) :
    (modify key (key r) f rows).countP p + (if p r then 1 else 0) =
      rows.countP p + (if p (f r) then 1 else 0) := by
  induction rows with
  | nil => cases hr
  | cons x rows ih =>
    rw [List.map_cons, List.nodup_cons] at hnodup
    have hcons : modify key (key r) f (x :: rows) =
        (if key x = key r then f x else x) :: modify key (key r) f rows := rfl
    rw [hcons, List.countP_cons, List.countP_cons]
    rcases List.mem_cons.mp hr with rfl | hr
    · -- the other rows have other keys
      have hrest : ∀ y ∈ rows, key y ≠ key r := fun y hy heq =>
        hnodup.1 (heq ▸ List.mem_map_of_mem hy)
      rw [if_pos rfl, modify_of_forall_ne hrest]
      omega
    · have hne : key x ≠ key r := fun heq => hnodup.1 (heq ▸ List.mem_map_of_mem hr)
      have hrest := ih hnodup.2 hr
      rw [if_neg hne]
      omega

/-- It updates that row and no other. -/
theorem modify_eq_map [DecidableEq ρ] {f : ρ → ρ} {rows : List ρ} {r : ρ}
    (hnodup : (rows.map key).Nodup) (hr : r ∈ rows) :
    modify key (key r) f rows = rows.map fun x => if x = r then f x else x := by
  unfold modify
  apply List.map_congr_left
  intro x hx
  by_cases heq : x = r
  · rw [if_pos heq, if_pos (congrArg key heq)]
  · rw [if_neg heq, if_neg fun hkey => heq (List.inj_on_of_nodup_map hnodup hx hr hkey)]

omit [DecidableEq κ] in
@[simp] theorem mem_orderByDesc {α : Type*} [LinearOrder α] {column : ρ → α} {rows : List ρ}
    {r : ρ} : r ∈ orderByDesc column rows ↔ r ∈ rows := by
  simp [orderByDesc]

/-! ## Insertion -/

theorem insertRow_eq_some {row : ρ} {rows rows' : List ρ} :
    insertRow key row rows = some rows' ↔
      (∀ r ∈ rows, key r ≠ key row) ∧ rows' = rows ++ [row] := by
  unfold insertRow
  rcases hfound : lookup key (key row) rows with _ | r
  · simp only [Option.isSome_none, Bool.false_eq_true, if_false, Option.some.injEq]
    exact ⟨fun h => ⟨lookup_eq_none.mp hfound, h.symm⟩, fun h => h.2.symm⟩
  · simp only [Option.isSome_some, if_true, reduceCtorEq, false_iff]
    intro h
    exact h.1 r (mem_of_lookup hfound) (key_of_lookup hfound)

theorem insertRow_of_fresh {row : ρ} {rows : List ρ} (hfresh : key row ∉ rows.map key) :
    insertRow key row rows = some (rows ++ [row]) :=
  insertRow_eq_some.mpr ⟨fun _ hr heq => hfresh (heq ▸ List.mem_map_of_mem hr), rfl⟩

omit [DecidableEq κ] in
theorem not_mem_of_fresh {k : κ} {rows : List ρ} (hfresh : ∀ r ∈ rows, key r ≠ k) :
    k ∉ rows.map key := by
  intro hk
  obtain ⟨r, hr, heq⟩ := List.mem_map.mp hk
  exact hfresh r hr heq

omit [DecidableEq κ] in
/-- A row with a fresh key keeps the key unique. -/
theorem nodup_append_fresh {row : ρ} {rows : List ρ} (hnodup : (rows.map key).Nodup)
    (hfresh : ∀ r ∈ rows, key r ≠ key row) : ((rows ++ [row]).map key).Nodup := by
  rw [List.map_append, List.map_singleton]
  apply List.Nodup.append hnodup (List.nodup_singleton _)
  intro k hk hrow
  rw [List.mem_singleton.mp hrow] at hk
  exact not_mem_of_fresh hfresh hk

/-! ## Foreign keys -/

omit [DecidableEq κ] in
/-- A new row refers to a key as the old ones do. -/
theorem refers_append {ref : ρ → κ} {row : ρ} {rows : List ρ} {keys keys' : List κ}
    (h : ∀ r ∈ rows, ref r ∈ keys) (hkeys : keys ⊆ keys') (hrow : ref row ∈ keys') :
    ∀ r ∈ rows ++ [row], ref r ∈ keys' := by
  intro r hr
  rcases List.mem_append.mp hr with hr | hr
  · exact hkeys (h r hr)
  · rw [List.mem_singleton.mp hr]
    exact hrow

omit [DecidableEq κ] in
/-- An update that does not write the reference keeps it. -/
theorem refers_of_map_eq {ref : ρ → κ} {rows rows' : List ρ} {keys : List κ}
    (h : ∀ r ∈ rows, ref r ∈ keys) (heq : rows'.map ref = rows.map ref) :
    ∀ r ∈ rows', ref r ∈ keys := by
  intro r hr
  obtain ⟨old, hold, hsame⟩ := List.mem_map.mp (heq ▸ List.mem_map_of_mem hr)
  exact hsame ▸ h old hold

end Table
