import CampusHire.Hex
import Mathlib.Data.List.Basic
import Mathlib.Algebra.Field.Rat

/-!
# Python's text operations

`str.strip`, `str.removeprefix`, `str.replace(old, "")`, `int(text, 16)` and
`float(text)` on lists of characters, as their documentation describes them.
-/

namespace PythonText

def isSpace (c : Char) : Bool :=
  let n := c.toNat
  (9 ≤ n && n ≤ 13) || (28 ≤ n && n ≤ 32) || n == 0x85 || n == 0xA0 || n == 0x1680 ||
  (0x2000 ≤ n && n ≤ 0x200A) || n == 0x2028 || n == 0x2029 || n == 0x202F || n == 0x205F ||
  n == 0x3000

/-- White space among the ASCII characters, as `int` and `float` strip it. -/
def isAsciiSpace (c : Char) : Bool := (9 ≤ c.toNat && c.toNat ≤ 13) || c.toNat == 32

def stripBy (cls : Char → Bool) (l : List Char) : List Char :=
  ((l.dropWhile cls).reverse.dropWhile cls).reverse

def strip (l : List Char) : List Char := stripBy isSpace l

/-- The rest of a text that starts with `start`. -/
def removePrefix? (start l : List Char) : Option (List Char) :=
  if start.isPrefixOf l then some (l.drop start.length) else none

/-- Remove the occurrences of `old` from left to right; `skip` characters of the
    occurrence being removed are still ahead. -/
def eraseFrom (old : List Char) : Nat → List Char → List Char
  | _, [] => []
  | skip + 1, _ :: rest => eraseFrom old skip rest
  | 0, c :: rest =>
      if old.isPrefixOf (c :: rest) then eraseFrom old (old.length - 1) rest
      else c :: eraseFrom old 0 rest

/-- `str.replace(old, "")` for a nonempty `old`. -/
def eraseAll (old l : List Char) : List Char := eraseFrom old 0 l

/-! ## `int(text, 16)` -/

/-- The zeros of the scripts that have decimal digits. -/
def decimalZeros : List Nat :=
  [0x30, 0x660, 0x6F0, 0x7C0, 0x966, 0x9E6, 0xA66, 0xAE6, 0xB66, 0xBE6, 0xC66, 0xCE6, 0xD66,
    0xDE6, 0xE50, 0xED0, 0xF20, 0x1040, 0x1090, 0x17E0, 0x1810, 0x1946, 0x19D0, 0x1A80, 0x1A90,
    0x1B50, 0x1BB0, 0x1C40, 0x1C50, 0xA620, 0xA8D0, 0xA900, 0xA9D0, 0xA9F0, 0xAA50, 0xABF0,
    0xFF10, 0x104A0, 0x10D30, 0x11066, 0x110F0, 0x11136, 0x111D0, 0x112F0, 0x11450, 0x114D0,
    0x11650, 0x116C0, 0x11730, 0x118E0, 0x11950, 0x11C50, 0x11D50, 0x11DA0, 0x16A60, 0x16AC0,
    0x16B50, 0x1D7CE, 0x1D7D8, 0x1D7E2, 0x1D7EC, 0x1D7F6, 0x1E140, 0x1E2F0, 0x1E950, 0x1FBF0]

def decimalValue (c : Char) : Option Nat :=
  decimalZeros.findSome? fun start =>
    if start ≤ c.toNat ∧ c.toNat < start + 10 then some (c.toNat - start) else none

/-- The character as `int` and `float` read it: white space is a blank and a decimal digit of
    any script is one of ours; `?` is in no number. -/
def numeral (c : Char) : Char :=
  if c.toNat < 127 then c
  else if isSpace c then ' '
  else
    match decimalValue c with
    | some d => Char.ofNat (48 + d)
    | none => '?'

/-- What `int` and `float` read of a text. -/
def numerals (l : List Char) : List Char := stripBy isAsciiSpace (l.map numeral)

/-- Hexadecimal digits after a digit: single underscores may separate them. -/
def hexDigitsFrom (acc : Nat) : List Char → Option Nat
  | [] => some acc
  | '_' :: c :: rest => (Hex.value c).bind fun d => hexDigitsFrom (acc * 16 + d) rest
  | c :: rest => (Hex.value c).bind fun d => hexDigitsFrom (acc * 16 + d) rest

def hexDigits : List Char → Option Nat
  | [] => none
  | c :: rest => (Hex.value c).bind fun d => hexDigitsFrom d rest

/-- Digits after an optional base prefix `0x`, which an underscore may follow. -/
def hexBody : List Char → Option Nat
  | '0' :: 'x' :: '_' :: rest => hexDigits rest
  | '0' :: 'X' :: '_' :: rest => hexDigits rest
  | '0' :: 'x' :: rest => hexDigits rest
  | '0' :: 'X' :: rest => hexDigits rest
  | l => hexDigits l

/-- `int(text, 16)`, `none` for `ValueError`. -/
def int16 (l : List Char) : Option Int :=
  match numerals l with
  | '+' :: rest => (hexBody rest).map Int.ofNat
  | '-' :: rest => (hexBody rest).map fun n => -Int.ofNat n
  | rest => (hexBody rest).map Int.ofNat

/-! ## `float(text)` -/

inductive FloatValue where
  | nan
  | infinite (negative : Bool)
  | finite (q : ℚ)
deriving DecidableEq

namespace FloatValue

/-- `a < b`, which is false when either is `nan`. -/
def lt : FloatValue → FloatValue → Bool
  | .finite a, .finite b => decide (a < b)
  | .infinite negative, .finite _ => negative
  | .finite _, .infinite negative => !negative
  | .infinite a, .infinite b => a && !b
  | _, _ => false

def neg : FloatValue → FloatValue
  | .nan => .nan
  | .infinite negative => .infinite !negative
  | .finite q => .finite (-q)

/-- A number that `round` makes a float, infinite if it is too large. -/
def ofRat (round : ℚ → Option ℚ) (q : ℚ) : FloatValue :=
  match round q with
  | some value => .finite value
  | none => .infinite (decide (q < 0))

def isNan : FloatValue → Bool
  | .nan => true
  | _ => false

def number : FloatValue → Option ℚ
  | .finite q => some q
  | _ => none

end FloatValue

/-- Decimal digits after a digit, single underscores between them, and the rest. -/
def decimalsFrom : List Char → List Nat × List Char
  | [] => ([], [])
  | '_' :: c :: rest =>
    match decimalValue c with
    | some d => (d :: (decimalsFrom rest).1, (decimalsFrom rest).2)
    | none => ([], '_' :: c :: rest)
  | c :: rest =>
    match decimalValue c with
    | some d => (d :: (decimalsFrom rest).1, (decimalsFrom rest).2)
    | none => ([], c :: rest)

def decimals : List Char → List Nat × List Char
  | [] => ([], [])
  | c :: rest =>
    match decimalValue c with
    | some d => (d :: (decimalsFrom rest).1, (decimalsFrom rest).2)
    | none => ([], c :: rest)

def ofDecimals (digits : List Nat) : Nat := digits.foldl (fun acc d => acc * 10 + d) 0

def wholeNumber (l : List Char) : Option Int :=
  match decimals l with
  | (d :: digits, []) => some (ofDecimals (d :: digits))
  | _ => none

/-- The exponent of a float, 0 when there is none. -/
def exponent : List Char → Option Int
  | [] => some 0
  | c :: rest =>
    if c ≠ 'e' ∧ c ≠ 'E' then none
    else
      match rest with
      | '+' :: digits => wholeNumber digits
      | '-' :: digits => (wholeNumber digits).map fun n => -n
      | digits => wholeNumber digits

/-- How a number becomes a float is left to `round`. -/
def unsignedFloat (round : ℚ → Option ℚ) (l : List Char) : Option FloatValue :=
  let lower := l.map Char.toLower
  if lower = "inf".toList ∨ lower = "infinity".toList then some (.infinite false)
  else if lower = "nan".toList then some .nan
  else
    let whole := decimals l
    let fraction := match whole.2 with
      | '.' :: rest => decimals rest
      | rest => ([], rest)
    if whole.1 = [] ∧ fraction.1 = [] then none
    else (exponent fraction.2).map fun e => .ofRat round
      (ofDecimals (whole.1 ++ fraction.1) * (10 : ℚ) ^ (e - (fraction.1.length : Int)))

/-- `float(text)`, `none` for `ValueError`. -/
def float (round : ℚ → Option ℚ) (l : List Char) : Option FloatValue :=
  match numerals l with
  | '+' :: rest => unsignedFloat round rest
  | '-' :: rest => (unsignedFloat round rest).map FloatValue.neg
  | rest => unsignedFloat round rest

example : float some " -1_0.25e1".toList = some (.finite (-102.5)) := by decide +kernel

/-! ## Texts on which the operations do nothing -/

theorem dropWhile_eq_self {cls : Char → Bool} {l : List Char} (h : ∀ c ∈ l, cls c = false) :
    l.dropWhile cls = l := by
  cases l with
  | nil => rfl
  | cons c l => simp [h c (by simp)]

theorem stripBy_eq_self {cls : Char → Bool} {l : List Char} (h : ∀ c ∈ l, cls c = false) :
    stripBy cls l = l := by
  rw [stripBy, dropWhile_eq_self h, dropWhile_eq_self (by simpa using h), List.reverse_reverse]

/-- Nothing is erased from a text that lacks one of the characters of `old`. -/
theorem eraseAll_eq_self {old l : List Char} {c : Char} (hc : c ∈ old) (hl : c ∉ l) :
    eraseAll old l = l := by
  unfold eraseAll
  induction l with
  | nil => rfl
  | cons d l ih =>
    have hno : old.isPrefixOf (d :: l) = false := by
      by_contra h
      have hpre : old <+: d :: l := by simpa using h
      exact hl (hpre.subset hc)
    rw [eraseFrom, if_neg (by simp [hno]), ih (fun h => hl (List.mem_cons_of_mem _ h))]

/-! ## Plain digits -/

theorem hexDigitsFrom_eq {l : List Char} (h : '_' ∉ l) (acc : Nat) :
    hexDigitsFrom acc l = Hex.decodeFrom acc l := by
  induction l generalizing acc with
  | nil => rfl
  | cons c l ih =>
    have hc : c ≠ '_' := fun heq => h (by simp [heq])
    have hl : '_' ∉ l := fun hm => h (List.mem_cons_of_mem _ hm)
    rw [hexDigitsFrom.eq_3 acc c l (by intro _ _ heq _; exact hc heq), Hex.decodeFrom]
    rcases Hex.value c with _ | d
    · rfl
    · exact ih hl _

/-- On a nonempty text of lowercase digits, `int(text, 16)` reads the digits. -/
theorem int16_of_digits {l : List Char} (hne : l ≠ [])
    (hdigits : ∀ c ∈ l, c ∈ Hex.lowerDigits) :
    int16 l = (Hex.decode l).map Int.ofNat := by
  have hstrip : numerals l = l := by
    have hmap : l.map numeral = l.map id := by
      apply List.map_congr_left
      intro c hc
      exact beq_iff_eq.mp (Hex.of_mem_lowerDigits (p := fun d => numeral d == d) (by decide)
        (hdigits c hc))
    rw [numerals, hmap, List.map_id]
    apply stripBy_eq_self
    intro c hc
    have hdigit := Hex.of_mem_lowerDigits (p := fun d => !isAsciiSpace d) (by decide)
      (hdigits c hc)
    simpa using hdigit
  obtain ⟨c, rest, rfl⟩ := List.exists_cons_of_ne_nil hne
  have hplain : ∀ d ∈ c :: rest, d ≠ '+' ∧ d ≠ '-' ∧ d ≠ 'x' ∧ d ≠ 'X' ∧ d ≠ '_' := by
    intro d hd
    have hdigit := Hex.of_mem_lowerDigits
      (p := fun d => d != '+' && d != '-' && d != 'x' && d != 'X' && d != '_') (by decide)
      (hdigits d hd)
    simpa [and_assoc] using hdigit
  have hbody : hexBody (c :: rest) = hexDigits (c :: rest) := by
    unfold hexBody
    -- the other branches need an 'x' or an 'X' in second place
    split
    all_goals first
      | rfl
      | (rename_i heq
         have := hplain 'x'
         have := hplain 'X'
         simp_all)
  have hread : hexDigits (c :: rest) = Hex.decode (c :: rest) := by
    have hunder : '_' ∉ rest := fun hm => (hplain '_' (List.mem_cons_of_mem _ hm)).2.2.2.2 rfl
    simp only [hexDigits, Hex.decode, Hex.decodeFrom]
    rcases Hex.value c with _ | d
    · rfl
    · simpa using hexDigitsFrom_eq hunder d
  have hc := hplain c (by simp)
  rw [int16, hstrip]
  split
  · rename_i heq
    exact absurd (List.cons.inj heq).1 hc.1
  · rename_i heq
    exact absurd (List.cons.inj heq).1 hc.2.1
  · rw [hbody, hread]

end PythonText
