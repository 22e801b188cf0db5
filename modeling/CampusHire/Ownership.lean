import CampusHire.Table

/-!
# Tables without the rows of an owner

Some rows of a table are an owner's, and with them the rows of other tables that refer to
them.  `others` and `othersOf` are what is left of a table and of a table that refers to it
when the owner and all that is the owner's are taken out.  The lemmas say how the two go
together with the operations on tables: with operations on a row of somebody else they
commute, and they hide the operations on the owner's rows.
-/

namespace Ownership

variable {ρ κ χ : Type*} [DecidableEq κ]

section Definitions

variable (key : ρ → κ) (own : ρ → Bool)

omit [DecidableEq κ] in
def others (rows : List ρ) : List ρ := rows.filter fun r => !own r

/-- The owner has a row with this key. -/
def owns (rows : List ρ) (k : κ) : Bool := rows.any fun r => decide (key r = k) && own r

/-- The rows that refer to none of the owner's. -/
def othersOf (ref : χ → κ) (rows : List ρ) (children : List χ) : List χ :=
  others (fun c => owns key own rows (ref c)) children

end Definitions

variable {key : ρ → κ} {own : ρ → Bool} {ref : χ → κ} {rows : List ρ} {children : List χ}

/-! ## Whose a key is -/

theorem owns_of_mem (hnodup : (rows.map key).Nodup) {r : ρ} (hr : r ∈ rows) :
    owns key own rows (key r) = own r := by
  rw [Bool.eq_iff_iff, owns, List.any_eq_true]
  constructor
  · rintro ⟨x, hx, hown⟩
    obtain ⟨hkey, hown⟩ := Bool.and_eq_true _ _ ▸ hown
    rwa [← List.inj_on_of_nodup_map hnodup hx hr (of_decide_eq_true hkey)]
  · intro hown
    exact ⟨r, hr, by simp [hown]⟩

theorem owns_of_fresh {k : κ} (hfresh : k ∉ rows.map key) : owns key own rows k = false := by
  rw [owns, List.any_eq_false]
  intro r hr hown
  simp only [Bool.and_eq_true, decide_eq_true_eq] at hown
  exact hfresh (hown.1 ▸ List.mem_map_of_mem hr)

theorem owns_append_other {row : ρ} (hown : own row = false) (k : κ) :
    owns key own (rows ++ [row]) k = owns key own rows k := by
  simp [owns, hown]

theorem owns_append_of_ne {row : ρ} {k : κ} (hne : key row ≠ k) :
    owns key own (rows ++ [row]) k = owns key own rows k := by
  simp [owns, hne]

theorem owns_modify {j : κ} {f : ρ → ρ} (hkey : ∀ r, key (f r) = key r)
    (hown : ∀ r, own (f r) = own r) (k : κ) :
    owns key own (Table.modify key j f rows) k = owns key own rows k := by
  have hsame : ((fun r => decide (key r = k) && own r) ∘ fun r => if key r = j then f r else r) =
      fun r => decide (key r = k) && own r := by
    funext r
    by_cases hj : key r = j <;> simp [hj, hkey, hown]
  rw [owns, Table.modify, List.any_map, hsame, owns]

/-! ## The rows of the others -/

theorem lookup_others (hnodup : (rows.map key).Nodup) (k : κ) :
    Table.lookup key k (others own rows) = (Table.lookup key k rows).filter fun r => !own r := by
  rcases hfound : Table.lookup key k rows with _ | r
  · refine Table.lookup_eq_none.mpr ?_
    intro r hr
    exact Table.lookup_eq_none.mp hfound r (List.mem_of_mem_filter hr)
  have hr := Table.mem_of_lookup hfound
  obtain rfl := Table.key_of_lookup hfound
  rcases hown : own r with _ | _
  · have hmem : r ∈ others own rows := List.mem_filter.mpr ⟨hr, by rw [hown]; rfl⟩
    have hnodup' : ((others own rows).map key).Nodup :=
      hnodup.sublist (List.filter_sublist.map key)
    simp [Table.lookup_of_mem hnodup' hmem, Option.filter, hown]
  · simp only [Option.filter, hown, Bool.not_true, Bool.false_eq_true, if_false]
    refine Table.lookup_eq_none.mpr ?_
    intro x hx hkey
    -- the only row with the key is the owner's
    have hx' := List.mem_filter.mp hx
    rw [List.inj_on_of_nodup_map hnodup hx'.1 hr hkey, hown] at hx'
    exact absurd hx'.2 (by decide)

omit [DecidableEq κ] in
theorem others_append_other {row : ρ} (hown : own row = false) :
    others own (rows ++ [row]) = others own rows ++ [row] := by
  simp [others, hown]

omit [DecidableEq κ] in
theorem others_append_own {row : ρ} (hown : own row = true) :
    others own (rows ++ [row]) = others own rows := by
  simp [others, hown]

theorem others_modify {k : κ} {f : ρ → ρ} (hown : ∀ r, own (f r) = own r) :
    others own (Table.modify key k f rows) = Table.modify key k f (others own rows) :=
  Table.filter_modify (fun r => by rw [hown]) rows

/-- An update of the owner's row. -/
theorem others_modify_own {f : ρ → ρ} (hown : ∀ r, own (f r) = own r)
    (hnodup : (rows.map key).Nodup) {row : ρ} (hrow : row ∈ rows) (howner : own row = true) :
    others own (Table.modify key (key row) f rows) = others own rows := by
  rw [others_modify hown]
  apply Table.modify_of_forall_ne
  intro r hr hkey
  have hr' := List.mem_filter.mp hr
  rw [List.inj_on_of_nodup_map hnodup hr'.1 hrow hkey, howner] at hr'
  exact absurd hr'.2 (by decide)

/-! ## The rows that refer to the others -/

theorem othersOf_congr {rows' : List ρ}
    (h : ∀ c ∈ children, owns key own rows' (ref c) = owns key own rows (ref c)) :
    othersOf key own ref rows' children = othersOf key own ref rows children :=
  List.filter_congr fun c hc => congrArg not (h c hc)

theorem othersOf_append_other {child : χ} (howner : owns key own rows (ref child) = false) :
    othersOf key own ref rows (children ++ [child]) =
      othersOf key own ref rows children ++ [child] :=
  others_append_other howner

theorem othersOf_append_own {child : χ} (howner : owns key own rows (ref child) = true) :
    othersOf key own ref rows (children ++ [child]) = othersOf key own ref rows children :=
  others_append_own howner

/-- A new row of the owner: nothing refers to it yet. -/
theorem othersOf_insert {row : ρ} (hrefs : ∀ c ∈ children, ref c ∈ rows.map key)
    (hfresh : key row ∉ rows.map key) :
    othersOf key own ref (rows ++ [row]) children = othersOf key own ref rows children :=
  othersOf_congr fun c hc => owns_append_of_ne fun heq => hfresh (heq ▸ hrefs c hc)

theorem filter_ref_othersOf {k : κ} (howner : owns key own rows k = false) (p : χ → Bool) :
    (othersOf key own ref rows children).filter (fun c => decide (ref c = k) && p c) =
      children.filter fun c => decide (ref c = k) && p c := by
  rw [othersOf, others, List.filter_filter]
  apply List.filter_congr
  intro c _
  by_cases hc : ref c = k <;> simp [hc, howner]

theorem find_ref_othersOf {k : κ} (howner : owns key own rows k = false) (p : χ → Bool) :
    (othersOf key own ref rows children).find? (fun c => decide (ref c = k) && p c) =
      children.find? fun c => decide (ref c = k) && p c := by
  rw [← List.head?_filter, filter_ref_othersOf howner, List.head?_filter]

/-! ## Two owners -/

section Two

variable {own' : ρ → Bool} (hdisjoint : ∀ r, own r = true → own' r = false)

include hdisjoint

omit [DecidableEq κ] in
theorem filter_others (rows : List ρ) : (others own' rows).filter own = rows.filter own := by
  rw [others, List.filter_filter]
  apply List.filter_congr
  intro r _
  rcases hown : own r with _ | _
  · rfl
  · simp [hdisjoint r hown]

theorem owns_others (k : κ) : owns key own (others own' rows) k = owns key own rows k := by
  rw [owns, others, List.any_filter, owns]
  congr 1
  funext r
  rcases hown : own r with _ | _
  · simp
  · simp [hdisjoint r hown]

/-- A key has one owner. -/
theorem not_owns_of_owns (hnodup : (rows.map key).Nodup) {k : κ}
    (howner : owns key own rows k = true) : owns key own' rows k = false := by
  obtain ⟨r, hr, hown⟩ := List.any_eq_true.mp howner
  obtain ⟨hkey, hown⟩ := Bool.and_eq_true _ _ ▸ hown
  rw [← of_decide_eq_true hkey, owns_of_mem hnodup hr, hdisjoint r hown]

theorem filter_othersOf (hnodup : (rows.map key).Nodup) (ref : χ → κ) (children : List χ) :
    (othersOf key own' ref rows children).filter
        (fun c => owns key own (others own' rows) (ref c)) =
      children.filter fun c => owns key own rows (ref c) := by
  simp only [owns_others hdisjoint]
  rw [othersOf, others, List.filter_filter]
  apply List.filter_congr
  intro c _
  rcases howner : owns key own rows (ref c) with _ | _
  · rfl
  · rw [not_owns_of_owns hdisjoint hnodup howner]
    rfl

end Two

end Ownership
