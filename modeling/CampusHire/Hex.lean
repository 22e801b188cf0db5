import Mathlib.Data.Nat.Basic
import Mathlib.Tactic.IntervalCases

/-!
# Fixed-width hexadecimal

`encode w n` writes `n` in exactly `w` lowercase hexadecimal digits, most
significant first; `decode` reads digits of either case.  Reading back what was
written gives the number (`decode_encode`).
-/

namespace Hex

def digit (d : Nat) : Char :=
  if d < 10 then Char.ofNat (48 + d) else Char.ofNat (87 + d)

def value (c : Char) : Option Nat :=
  if '0' ≤ c ∧ c ≤ '9' then some (c.toNat - 48)
  else if 'a' ≤ c ∧ c ≤ 'f' then some (c.toNat - 87)
  else if 'A' ≤ c ∧ c ≤ 'F' then some (c.toNat - 55)
  else none

/-- The lowercase digits, as a set of characters. -/
def lowerDigits : List Char :=
  ['0', '1', '2', '3', '4', '5', '6', '7', '8', '9', 'a', 'b', 'c', 'd', 'e', 'f']

def encode : Nat → Nat → List Char
  | 0, _ => []
  | w + 1, n => encode w (n / 16) ++ [digit (n % 16)]

/-- Read digits after those that gave `acc`. -/
def decodeFrom (acc : Nat) : List Char → Option Nat
  | [] => some acc
  | c :: rest =>
    match value c with
    | some d => decodeFrom (acc * 16 + d) rest
    | none => none

def decode (digits : List Char) : Option Nat := decodeFrom 0 digits

theorem value_digit {d : Nat} (h : d < 16) : value (digit d) = some d := by
  interval_cases d <;> decide

theorem digit_mem {d : Nat} (h : d < 16) : digit d ∈ lowerDigits := by
  interval_cases d <;> decide

/-- What holds of the sixteen digits holds of each. -/
theorem of_mem_lowerDigits {p : Char → Bool} (h : lowerDigits.all p = true) {c : Char}
    (hc : c ∈ lowerDigits) : p c = true :=
  List.all_eq_true.mp h c hc

@[simp] theorem length_encode (w n : Nat) : (encode w n).length = w := by
  induction w generalizing n with
  | zero => rfl
  | succ w ih => simp [encode, ih]

theorem mem_encode {w n : Nat} {c : Char} (h : c ∈ encode w n) : c ∈ lowerDigits := by
  induction w generalizing n with
  | zero => cases h
  | succ w ih =>
    rcases List.mem_append.mp h with h | h
    · exact ih h
    · rw [List.mem_singleton.mp h]
      exact digit_mem (Nat.mod_lt _ (by decide))

theorem decodeFrom_append (acc : Nat) (first second : List Char) :
    decodeFrom acc (first ++ second) =
      (decodeFrom acc first).bind fun acc' => decodeFrom acc' second := by
  induction first generalizing acc with
  | nil => rfl
  | cons c first ih =>
    simp only [List.cons_append, decodeFrom]
    rcases value c with _ | d
    · rfl
    · exact ih _

theorem decodeFrom_encode (w n acc : Nat) (h : n < 16 ^ w) :
    decodeFrom acc (encode w n) = some (acc * 16 ^ w + n) := by
  induction w generalizing n with
  | zero =>
    have hn : n = 0 := by simpa using h
    simp [encode, decodeFrom, hn]
  | succ w ih =>
    have hdiv : n / 16 < 16 ^ w := by
      rw [Nat.div_lt_iff_lt_mul (by decide)]
      simpa [Nat.pow_succ] using h
    rw [encode, decodeFrom_append, ih _ hdiv, Option.bind_some, decodeFrom,
      value_digit (Nat.mod_lt _ (by decide))]
    simp only [decodeFrom, Option.some.injEq]
    have hsplit := Nat.div_add_mod n 16
    rw [Nat.pow_succ, ← Nat.mul_assoc]
    omega

/-- **Round trip.**  A number that fits is read back. -/
theorem decode_encode {w n : Nat} (h : n < 16 ^ w) : decode (encode w n) = some n := by
  simpa [decode] using decodeFrom_encode w n 0 h

end Hex
