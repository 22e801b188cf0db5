import CampusHire.PythonRepr

/-!
# Aware datetimes

`datetime` with a fixed offset from UTC, as the driver returns a timestamp with time
zone, and the text that `isoformat` gives of it.
-/

namespace CampusHire.Python

def isLeap (year : Nat) : Bool :=
  year % 4 == 0 && (year % 100 != 0 || year % 400 == 0)

def daysInMonth (year month : Nat) : Nat :=
  if month = 2 then (if isLeap year then 29 else 28)
  else if month = 4 ∨ month = 6 ∨ month = 9 ∨ month = 11 then 30
  else 31

/-- `offset` is in minutes, east of UTC. -/
structure Datetime where
  year : Nat
  month : Nat
  day : Nat
  hour : Nat
  minute : Nat
  second : Nat
  microsecond : Nat
  offset : Int
  year_range : 1 ≤ year ∧ year ≤ 9999
  month_range : 1 ≤ month ∧ month ≤ 12
  day_range : 1 ≤ day ∧ day ≤ daysInMonth year month
  time_range : hour < 24 ∧ minute < 60 ∧ second < 60 ∧ microsecond < 1000000
  offset_range : -1440 < offset ∧ offset < 1440

namespace Datetime

def daysBeforeYear (year : Nat) : Nat :=
  (year - 1) * 365 + (year - 1) / 4 - (year - 1) / 100 + (year - 1) / 400

def daysBeforeMonth (year month : Nat) : Nat :=
  ((List.range (month - 1)).map fun m => daysInMonth year (m + 1)).sum

def toordinal (t : Datetime) : Nat :=
  daysBeforeYear t.year + daysBeforeMonth t.year t.month + t.day

/-- Seconds since 1970-01-01 in UTC, whose ordinal is 719163. -/
def timestamp (t : Datetime) : Time :=
  ((t.toordinal : Int) - 719163) * 86400 + t.hour * 3600 + t.minute * 60 + t.second -
    t.offset * 60 + t.microsecond / 1000000

/-- `n` in `w` decimal digits. -/
def padded : Nat → Nat → List Char
  | 0, _ => []
  | w + 1, n => padded w (n / 10) ++ [Char.ofNat (48 + n % 10)]

def isoformat (t : Datetime) : String :=
  String.ofList (padded 4 t.year ++ '-' :: padded 2 t.month ++ '-' :: padded 2 t.day ++
    'T' :: padded 2 t.hour ++ ':' :: padded 2 t.minute ++ ':' :: padded 2 t.second ++
    (if t.microsecond = 0 then [] else '.' :: padded 6 t.microsecond) ++
    (if t.offset < 0 then '-' else '+') :: padded 2 (t.offset.natAbs / 60) ++
      ':' :: padded 2 (t.offset.natAbs % 60))

theorem length_padded (w n : Nat) : (padded w n).length = w := by
  induction w generalizing n with
  | zero => rfl
  | succ w ih => rw [padded, List.length_append, ih, List.length_singleton]

theorem digit_range (n : Nat) : 48 ≤ (Char.ofNat (48 + n % 10)).toNat ∧
    (Char.ofNat (48 + n % 10)).toNat ≤ 57 := by
  have hall : ∀ d < 10, 48 ≤ (Char.ofNat (48 + d)).toNat ∧ (Char.ofNat (48 + d)).toNat ≤ 57 := by
    decide
  exact hall (n % 10) (Nat.mod_lt n (by decide))

theorem mem_padded {w n : Nat} {c : Char} (h : c ∈ padded w n) : 48 ≤ c.toNat ∧ c.toNat ≤ 57 := by
  induction w generalizing n with
  | zero => cases h
  | succ w ih =>
    rcases List.mem_append.mp h with hfront | hlast
    · exact ih hfront
    · rw [List.mem_singleton.mp hlast]
      exact digit_range n

theorem visible_padded (w n : Nat) : Visible (padded w n) := by
  intro c hc
  have hdigit := mem_padded hc
  exact shown_of_ascii (by omega) (by omega)

theorem visible_isoformat (t : Datetime) : Visible t.isoformat.toList := by
  have hmarks : Shown '-' ∧ Shown '+' ∧ Shown ':' ∧ Shown '.' ∧ Shown 'T' := by decide
  rw [isoformat, String.toList_ofList]
  simp only [visible_append, visible_cons, visible_padded]
  split <;> split <;> simp [visible_padded, hmarks]

theorem length_isoformat_le (t : Datetime) : t.isoformat.toList.length ≤ 32 := by
  rw [isoformat, String.toList_ofList]
  simp only [List.length_append, List.length_cons, length_padded]
  split <;> simp [length_padded]

theorem isoformat_head {t : Datetime} {c : Char} (h : t.isoformat.toList.head? = some c) :
    48 ≤ c.toNat ∧ c.toNat ≤ 57 := by
  rw [isoformat, String.toList_ofList] at h
  simp only [List.append_assoc] at h
  -- the first character is a digit of the year
  rcases hyear : padded 4 t.year with _ | ⟨d, rest⟩
  · have hlength := length_padded 4 t.year
    rw [hyear] at hlength
    cases hlength
  · have hdigit := mem_padded (hyear ▸ List.mem_cons_self : d ∈ padded 4 t.year)
    rw [hyear, List.cons_append, List.head?_cons, Option.some_inj] at h
    exact h ▸ hdigit

end Datetime

end CampusHire.Python
