import Mathlib.Tactic.Common

/-!
# base64url

The decoder of the standard library as it is called without strict checking: it
skips every byte that is not of the alphabet, drops the bits of the last character
that do not fill a byte, and stops at a padding that completes a group.  It reads
both alphabets, that of base64url and that of base64.  The encoder writes no
padding, and the decoder is given what is missing.
-/

namespace Base64url

/-- `=` -/
def pad : UInt8 := 61

def alphabet : List UInt8 :=
  "ABCDEFGHIJKLMNOPQRSTUVWXYZabcdefghijklmnopqrstuvwxyz0123456789-_".toList.map
    fun c => UInt8.ofNat c.toNat

def digit (n : Nat) : UInt8 := alphabet.getD n pad

/-- The six bits that a byte stands for. -/
def sextet (c : UInt8) : Option Nat :=
  let n := c.toNat
  if 65 ≤ n ∧ n ≤ 90 then some (n - 65)
  else if 97 ≤ n ∧ n ≤ 122 then some (n - 97 + 26)
  else if 48 ≤ n ∧ n ≤ 57 then some (n - 48 + 52)
  else if n = 45 ∨ n = 43 then some 62
  else if n = 95 ∨ n = 47 then some 63
  else none

/-- What the decoder does not skip. -/
def significant (c : UInt8) : Bool := decide (c = pad) || (sextet c).isSome

theorem sextet_digit : ∀ n < 64, sextet (digit n) = some n := by decide +kernel

theorem digit_ne_pad : ∀ n < 64, digit n ≠ pad := by decide +kernel

/-- Four characters are three bytes.  The position in the group of four, with the
    bits that are left over. -/
inductive Quad where
  | start
  | second (left : Nat)
  | third (left : Nat)
  | fourth (left : Nat)
deriving DecidableEq

def Quad.pos : Quad → Nat
  | .start => 0
  | .second _ => 1
  | .third _ => 2
  | .fourth _ => 3

/-- The byte that six more bits complete, and the position after them. -/
def Quad.push : Quad → Nat → Option UInt8 × Quad
  | .start, x => (none, .second x)
  | .second left, x => (some (UInt8.ofNat (left * 4 + x / 16)), .third (x % 16))
  | .third left, x => (some (UInt8.ofNat (left * 16 + x / 4)), .fourth (x % 4))
  | .fourth left, x => (some (UInt8.ofNat (left * 64 + x)), .start)

/-- `pads` counts the `=` since the last character of the alphabet.  A group must be
    complete at the end, by its characters or by its padding. -/
def scan : Quad → Nat → List UInt8 → Option (List UInt8)
  | quad, _, [] => if quad = .start then some [] else none
  | quad, pads, c :: rest =>
    if c = pad then
      if quad.pos < 2 then scan quad pads rest
      else if 4 ≤ quad.pos + (pads + 1) then some []
      else scan quad (pads + 1) rest
    else
      match sextet c with
      | none => scan quad pads rest
      | some x => (scan (quad.push x).2 0 rest).map ((quad.push x).1.toList ++ ·)

/-- The padding that is missing from a text of `n` bytes. -/
def padding (n : Nat) : List UInt8 :=
  if n % 4 = 0 then [] else List.replicate (4 - n % 4) pad

def decode (input : List UInt8) : Option (List UInt8) :=
  scan .start 0 (input ++ padding input.length)

def encode : List UInt8 → List UInt8
  | [] => []
  | [a] => [digit (a.toNat / 4), digit (a.toNat % 4 * 16)]
  | [a, b] =>
    [digit (a.toNat / 4), digit (a.toNat % 4 * 16 + b.toNat / 16), digit (b.toNat % 16 * 4)]
  | a :: b :: c :: rest =>
    digit (a.toNat / 4) :: digit (a.toNat % 4 * 16 + b.toNat / 16) ::
      digit (b.toNat % 16 * 4 + c.toNat / 64) :: digit (c.toNat % 64) :: encode rest

/-! ## What the decoder skips -/

theorem scan_skip {c : UInt8} (h : significant c = false) (quad : Quad) (pads : Nat)
    (rest : List UInt8) : scan quad pads (c :: rest) = scan quad pads rest := by
  have hpad : c ≠ pad := by
    rintro rfl
    cases h
  have hnone : sextet c = none := by simpa [significant, hpad] using h
  rw [scan, if_neg hpad, hnone]

/-- The decoder sees nothing but the characters of the alphabet and the padding. -/
theorem scan_filter (quad : Quad) (pads : Nat) (input : List UInt8) :
    scan quad pads (input.filter significant) = scan quad pads input := by
  induction input generalizing quad pads with
  | nil => rfl
  | cons c rest ih =>
    by_cases hc : significant c = true
    · rw [List.filter_cons_of_pos hc, scan, scan]
      split
      · simp only [ih]
      · simp only [ih]
    · have hskip : significant c = false := by simpa using hc
      rw [List.filter_cons_of_neg hc, ih, scan_skip hskip]

/-- Two texts of the same characters and the same missing padding are one text. -/
theorem decode_congr {input input' : List UInt8}
    (hchars : input.filter significant = input'.filter significant)
    (hlength : input.length % 4 = input'.length % 4) : decode input = decode input' := by
  have hpadding : padding input.length = padding input'.length := by
    rw [padding, padding, hlength]
  rw [decode, decode, ← scan_filter, ← scan_filter _ _ (input' ++ _), List.filter_append,
    List.filter_append, hchars, hpadding]

/-! ## The round trip -/

theorem scan_digit {n : Nat} (h : n < 64) (quad : Quad) (pads : Nat) (rest : List UInt8) :
    scan quad pads (digit n :: rest) =
      (scan (quad.push n).2 0 rest).map ((quad.push n).1.toList ++ ·) := by
  rw [scan, if_neg (digit_ne_pad n h), sextet_digit n h]

theorem joined (a : UInt8) {n : Nat} (h : n = a.toNat) : UInt8.ofNat n = a := by
  rw [h, UInt8.ofNat_toNat]

/-- The characters of the first byte and of its lower bits with those of the next. -/
theorem scan_first (a : UInt8) {k : Nat} (h : k < 16) (rest : List UInt8) :
    scan .start 0 (digit (a.toNat / 4) :: digit (a.toNat % 4 * 16 + k) :: rest) =
      (scan (.third k) 0 rest).map (a :: ·) := by
  have ha := a.toNat_lt
  rw [scan_digit (by omega), scan_digit (by omega)]
  simp only [Quad.push, Option.toList_none, List.nil_append, Option.map_id', Option.toList_some]
  rw [joined a (by omega), show (a.toNat % 4 * 16 + k) % 16 = k by omega]
  rfl

theorem scan_next (b : UInt8) {k : Nat} (h : k < 4) (rest : List UInt8) :
    scan (.third (b.toNat / 16)) 0 (digit (b.toNat % 16 * 4 + k) :: rest) =
      (scan (.fourth k) 0 rest).map (b :: ·) := by
  have hb := b.toNat_lt
  rw [scan_digit (by omega)]
  simp only [Quad.push, Option.toList_some]
  rw [joined b (by omega), show (b.toNat % 16 * 4 + k) % 4 = k by omega]
  rfl

theorem scan_last (c : UInt8) (rest : List UInt8) :
    scan (.fourth (c.toNat / 64)) 0 (digit (c.toNat % 64) :: rest) =
      (scan .start 0 rest).map (c :: ·) := by
  have hc := c.toNat_lt
  rw [scan_digit (by omega)]
  simp only [Quad.push, Option.toList_some]
  rw [joined c (by omega)]
  rfl

theorem padding_add_four (n : Nat) : padding (n + 4) = padding n := by
  rw [padding, padding, Nat.add_mod_right]

theorem decode_encode (bytes : List UInt8) : decode (encode bytes) = some bytes := by
  induction bytes using encode.induct with
  | case1 => rfl
  | case2 a =>
    exact scan_first a (k := 0) (by omega) [pad, pad]
  | case3 a b =>
    have hb := b.toNat_lt
    rw [decode, encode]
    refine (scan_first a (by omega) _).trans ?_
    have hnext := scan_next b (k := 0) (by omega) [pad]
    exact congrArg (Option.map (a :: ·)) hnext
  | case4 a b c rest ih =>
    have hb := b.toNat_lt
    have hc := c.toNat_lt
    rw [decode, encode, List.length_cons, List.length_cons, List.length_cons, List.length_cons,
      padding_add_four]
    simp only [List.cons_append]
    rw [scan_first a (by omega), scan_next b (by omega), scan_last, ← decode, ih]
    rfl

theorem mem_encode {bytes : List UInt8} {c : UInt8} (h : c ∈ encode bytes) :
    ∃ n < 64, c = digit n := by
  induction bytes using encode.induct with
  | case1 => cases h
  | case2 a =>
    have ha := a.toNat_lt
    simp only [encode, List.mem_cons, List.not_mem_nil, or_false] at h
    rcases h with rfl | rfl
    · exact ⟨_, by omega, rfl⟩
    · exact ⟨_, by omega, rfl⟩
  | case3 a b =>
    have ha := a.toNat_lt
    have hb := b.toNat_lt
    simp only [encode, List.mem_cons, List.not_mem_nil, or_false] at h
    rcases h with rfl | rfl | rfl
    · exact ⟨_, by omega, rfl⟩
    · exact ⟨_, by omega, rfl⟩
    · exact ⟨_, by omega, rfl⟩
  | case4 a b c rest ih =>
    have ha := a.toNat_lt
    have hb := b.toNat_lt
    have hc := c.toNat_lt
    simp only [encode, List.mem_cons] at h
    rcases h with rfl | rfl | rfl | rfl | hrest
    · exact ⟨_, by omega, rfl⟩
    · exact ⟨_, by omega, rfl⟩
    · exact ⟨_, by omega, rfl⟩
    · exact ⟨_, by omega, rfl⟩
    · exact ih hrest

end Base64url
