import CampusHire.Hex
import Mathlib.Algebra.Order.Group.Unbundled.Int

/-!
# JSON texts

The text that a JSON value is written as, without blanks between its parts, and the
reader of the standard library.  A character that must be escaped is written with the
letter that stands for it or by its code units; a writer may do so for every character
beyond ASCII.  The reader takes blanks, escapes of either kind and pairs of surrogates,
and makes of an object a dict, where the last value of a key counts.

What is written is read back (`loads_write`): for a value without floats whose objects
have no key twice.
-/

namespace JsonText

/-- A number with a fraction or an exponent is kept as it is written. -/
inductive Value where
  | null
  | bool (b : Bool)
  | int (z : Int)
  | float (literal : List Char)
  | str (text : String)
  | arr (items : List Value)
  | obj (fields : List (String × Value))

/-! ## Characters -/

def quotation : Char := Char.ofNat 34

def backslash : Char := Char.ofNat 92

def comma : Char := Char.ofNat 44

def colon : Char := Char.ofNat 58

def openBracket : Char := Char.ofNat 91

def closeBracket : Char := Char.ofNat 93

def openBrace : Char := Char.ofNat 123

def closeBrace : Char := Char.ofNat 125

/-- The characters that have a letter of their own, with it. -/
def letters : List (Char × Char) :=
  [(quotation, quotation), (backslash, backslash), (Char.ofNat 8, 'b'), (Char.ofNat 12, 'f'),
    (Char.ofNat 10, 'n'), (Char.ofNat 13, 'r'), (Char.ofNat 9, 't')]

def letterOf (c : Char) : Option Char :=
  (letters.find? fun pair => decide (pair.1 = c)).map Prod.snd

/-- The character that a letter after a backslash stands for.  Nobody writes the slash so. -/
def unescape (letter : Char) : Option Char :=
  if letter = '/' then some '/'
  else (letters.find? fun pair => decide (pair.2 = letter)).map Prod.fst

theorem unescape_letterOf {c letter : Char} (h : letterOf c = some letter) :
    letter ≠ 'u' ∧ unescape letter = some c := by
  have hall : ∀ pair ∈ letters, pair.2 ≠ 'u' ∧ unescape pair.2 = some pair.1 := by decide +kernel
  obtain ⟨pair, hfound, rfl⟩ := Option.map_eq_some_iff.mp h
  have hc : pair.1 = c := by simpa using List.find?_some hfound
  rw [← hc]
  exact hall pair (List.mem_of_find?_eq_some hfound)

/-- The code units of a character in UTF-16. -/
def units (c : Char) : List Nat :=
  if c.toNat < 0x10000 then [c.toNat]
  else [0xD800 + (c.toNat - 0x10000) / 0x400, 0xDC00 + (c.toNat - 0x10000) % 0x400]

def writeUnit (n : Nat) : List Char := backslash :: 'u' :: Hex.encode 4 n

def escape (ascii : Bool) (c : Char) : List Char :=
  match letterOf c with
  | some letter => [backslash, letter]
  | none =>
    if c.toNat < 32 ∨ (ascii = true ∧ 127 ≤ c.toNat) then (units c).flatMap writeUnit else [c]

/-- The character that a code unit completes, and the high surrogate that still waits.
    A surrogate on its own is no character here. -/
def assemble : Option Nat → Nat → Option (Option Char × Option Nat)
  | none, n =>
    if 0xD800 ≤ n ∧ n < 0xDC00 then some (none, some n)
    else if 0xDC00 ≤ n ∧ n < 0xE000 then none
    else some (some (Char.ofNat n), none)
  | some high, n =>
    if 0xDC00 ≤ n ∧ n < 0xE000 then
      some (some (Char.ofNat (0x10000 + (high - 0xD800) * 0x400 + (n - 0xDC00))), none)
    else none

/-- Where the scanner of a text stands: before a character, after a backslash, or before
    the last `left + 1` digits of a code unit whose other digits gave `acc`. -/
inductive Position where
  | plain
  | escape
  | digits (left acc : Nat)

def prepend {α β : Type} (l : List α) (found : List α × β) : List α × β := (l ++ found.1, found.2)

/-- The rest of a text up to its closing quotation mark, and what follows.  `high` is the
    high surrogate that waits for a low one. -/
def scan : Option Nat → Position → List Char → Option (List Char × List Char)
  | _, _, [] => none
  | high, .plain, c :: rest =>
    if c = backslash then scan high .escape rest
    else if high.isSome then none
    else if c = quotation then some ([], rest)
    else if c.toNat < 32 then none
    else (scan none .plain rest).map (prepend [c])
  | high, .escape, c :: rest =>
    if c = 'u' then scan high (.digits 3 0) rest
    else if high.isSome then none
    else (unescape c).bind fun d => (scan none .plain rest).map (prepend [d])
  | high, .digits left acc, c :: rest =>
    (Hex.value c).bind fun d =>
      match left with
      | left + 1 => scan high (.digits left (acc * 16 + d)) rest
      | 0 =>
        (assemble high (acc * 16 + d)).bind fun step =>
          (scan step.2 .plain rest).map (prepend step.1.toList)

/-! ## Numbers -/

def fraction : List Char → List Char × List Char
  | [] => ([], [])
  | c :: rest =>
    if c = '.' ∧ rest.takeWhile Char.isDigit ≠ [] then
      (c :: rest.takeWhile Char.isDigit, rest.dropWhile Char.isDigit)
    else ([], c :: rest)

/-- A sign in front, and what follows. -/
def sign (signs : List Char) : List Char → List Char × List Char
  | [] => ([], [])
  | c :: rest => if c ∈ signs then ([c], rest) else ([], c :: rest)

def exponent : List Char → List Char × List Char
  | [] => ([], [])
  | c :: rest =>
    let signed := sign ['+', '-'] rest
    if (c = 'e' ∨ c = 'E') ∧ signed.2.takeWhile Char.isDigit ≠ [] then
      (c :: signed.1 ++ signed.2.takeWhile Char.isDigit, signed.2.dropWhile Char.isDigit)
    else ([], c :: rest)

/-- A whole number has no zero in front. -/
def whole : List Char → Option (List Char × List Char)
  | [] => none
  | c :: rest =>
    if c = '0' then some ([c], rest)
    else if c.isDigit then some (c :: rest.takeWhile Char.isDigit, rest.dropWhile Char.isDigit)
    else none

def ofDigits (negative : Bool) (digits : List Char) : Int :=
  if negative then -(Nat.ofDigitChars 10 digits 0 : Int) else Nat.ofDigitChars 10 digits 0

def number (text : List Char) : Option (Value × List Char) :=
  let signed := sign ['-'] text
  (whole signed.2).map fun found =>
    let fracted := fraction found.2
    let raised := exponent fracted.2
    if fracted.1 ++ raised.1 = [] then (.int (ofDigits (signed.1 ≠ []) found.1), raised.2)
    else (.float (signed.1 ++ found.1 ++ fracted.1 ++ raised.1), raised.2)

def writeInt (z : Int) : List Char :=
  if z < 0 then '-' :: Nat.toDigits 10 z.natAbs else Nat.toDigits 10 z.natAbs

/-! ## Values -/

def constants : List (List Char × Value) :=
  [("null".toList, .null), ("true".toList, .bool true), ("false".toList, .bool false),
    ("NaN".toList, .float "NaN".toList), ("Infinity".toList, .float "Infinity".toList),
    ("-Infinity".toList, .float "-Infinity".toList)]

def constant (text : List Char) : Option (Value × List Char) :=
  constants.findSome? fun entry =>
    if entry.1.isPrefixOf text then some (entry.2, text.drop entry.1.length) else none

def isBlank (c : Char) : Bool :=
  c = ' ' || c = Char.ofNat 9 || c = Char.ofNat 10 || c = Char.ofNat 13

def skip (text : List Char) : List Char := text.dropWhile isBlank

/-- What follows a character that must come next. -/
def expect (c : Char) : List Char → Option (List Char)
  | [] => none
  | c' :: rest => if c' = c then some rest else none

mutual

/-- A value at the start of a text, and what follows.  A call reads a character or goes
    from the elements that are left to the first of them, so twice the length of the text
    is fuel enough. -/
def value : Nat → List Char → Option (Value × List Char)
  | 0, _ => none
  | fuel + 1, text =>
    match text with
    | [] => none
    | c :: rest =>
      if c = quotation then
        (scan none .plain rest).map fun found => (.str (String.ofList found.1), found.2)
      else if c = openBracket then
        match expect closeBracket (skip rest) with
        | some rest => some (.arr [], rest)
        | none => (elements fuel (skip rest)).map fun found => (.arr found.1, found.2)
      else if c = openBrace then
        match expect closeBrace (skip rest) with
        | some rest => some (.obj [], rest)
        | none => (members fuel (skip rest)).map fun found => (.obj found.1, found.2)
      else (constant (c :: rest)).orElse fun _ => number (c :: rest)

/-- The elements of an array up to its closing bracket. -/
def elements : Nat → List Char → Option (List Value × List Char)
  | 0, _ => none
  | fuel + 1, text =>
    (value fuel text).bind fun found =>
      match expect comma (skip found.2) with
      | some rest => (elements fuel (skip rest)).map (prepend [found.1])
      | none => (expect closeBracket (skip found.2)).map fun rest => ([found.1], rest)

/-- The members of an object up to its closing brace. -/
def members : Nat → List Char → Option (List (String × Value) × List Char)
  | 0, _ => none
  | fuel + 1, text =>
    (expect quotation text).bind fun text => (scan none .plain text).bind fun key =>
      (expect colon (skip key.2)).bind fun rest => (value fuel (skip rest)).bind fun found =>
        match expect comma (skip found.2) with
        | some rest =>
          (members fuel (skip rest)).map (prepend [(String.ofList key.1, found.1)])
        | none =>
          (expect closeBrace (skip found.2)).map fun rest =>
            ([(String.ofList key.1, found.1)], rest)

end

/-- The value of a whole text, its objects as they are written. -/
def parse (text : List Char) : Option Value :=
  (value (2 * text.length) (skip text)).bind fun found =>
    if skip found.2 = [] then some found.1 else none

/-! ## Dicts -/

/-- A key keeps its place. -/
def setItem (key : String) (v : Value) : List (String × Value) → List (String × Value)
  | [] => [(key, v)]
  | field :: rest => if field.1 = key then (key, v) :: rest else field :: setItem key v rest

def ofPairs (pairs : List (String × Value)) : List (String × Value) :=
  pairs.foldl (fun fields pair => setItem pair.1 pair.2 fields) []

mutual

/-- The objects of a value as dicts. -/
def Value.dicts : Value → Value
  | .null => .null
  | .bool b => .bool b
  | .int z => .int z
  | .float literal => .float literal
  | .str text => .str text
  | .arr items => .arr (dictsItems items)
  | .obj fields => .obj (ofPairs (dictsFields fields))
termination_by structural v => v

def dictsItems : List Value → List Value
  | [] => []
  | v :: rest => v.dicts :: dictsItems rest
termination_by structural l => l

def dictsFields : List (String × Value) → List (String × Value)
  | [] => []
  | field :: rest => dictsField field :: dictsFields rest
termination_by structural l => l

def dictsField : String × Value → String × Value
  | (key, v) => (key, v.dicts)
termination_by structural field => field

end

/-- `json.loads` -/
def loads (text : List Char) : Option Value := (parse text).map Value.dicts

/-! ## Writing -/

def writeText (ascii : Bool) (text : String) : List Char :=
  quotation :: text.toList.flatMap (escape ascii) ++ [quotation]

mutual

def write (ascii : Bool) : Value → List Char
  | .null => "null".toList
  | .bool true => "true".toList
  | .bool false => "false".toList
  | .int z => writeInt z
  | .float literal => literal
  | .str text => writeText ascii text
  | .arr [] => [openBracket, closeBracket]
  | .arr (v :: rest) => openBracket :: write ascii v ++ writeElements ascii rest
  | .obj [] => [openBrace, closeBrace]
  | .obj (field :: rest) => openBrace :: writeMember ascii field ++ writeMembers ascii rest
termination_by structural v => v

/-- What follows the first element. -/
def writeElements (ascii : Bool) : List Value → List Char
  | [] => [closeBracket]
  | v :: rest => comma :: write ascii v ++ writeElements ascii rest
termination_by structural l => l

def writeMembers (ascii : Bool) : List (String × Value) → List Char
  | [] => [closeBrace]
  | field :: rest => comma :: writeMember ascii field ++ writeMembers ascii rest
termination_by structural l => l

def writeMember (ascii : Bool) : String × Value → List Char
  | (key, v) => writeText ascii key ++ colon :: write ascii v
termination_by structural field => field

end

/-! ## What is written is read -/

/-- The digits of a code unit are read as the unit. -/
theorem scan_digits {digits : List Char} {n : Nat} (high : Option Nat) (acc : Nat)
    (rest : List Char) (hne : digits ≠ []) (h : Hex.decodeFrom acc digits = some n) :
    scan high (.digits (digits.length - 1) acc) (digits ++ rest) =
      (assemble high n).bind fun step =>
        (scan step.2 .plain rest).map (prepend step.1.toList) := by
  induction digits generalizing acc with
  | nil => exact absurd rfl hne
  | cons c digits ih =>
    rw [Hex.decodeFrom] at h
    rcases hvalue : Hex.value c with _ | d
    · rw [hvalue] at h
      cases h
    · rw [hvalue] at h
      rcases digits with _ | ⟨c', digits⟩
      · cases h
        rw [List.length_singleton, Nat.sub_self, List.singleton_append, scan, hvalue,
          Option.bind_some]
      · rw [List.length_cons, Nat.add_sub_cancel, List.length_cons, List.cons_append, scan, hvalue,
          Option.bind_some]
        exact ih _ (List.cons_ne_nil _ _) h

theorem scan_writeUnit {n : Nat} (h : n < 0x10000) (high : Option Nat) (rest : List Char) :
    scan high .plain (writeUnit n ++ rest) =
      (assemble high n).bind fun step =>
        (scan step.2 .plain rest).map (prepend step.1.toList) := by
  have hne : Hex.encode 4 n ≠ [] := List.ne_nil_of_length_eq_add_one (Hex.length_encode 4 n)
  have hdigits := scan_digits high 0 rest hne (Hex.decode_encode (w := 4) h)
  rw [Hex.length_encode] at hdigits
  rw [writeUnit, List.cons_append, scan, if_pos rfl, List.cons_append, scan, if_pos rfl, hdigits]

/-- A character is valid as a code point outside the surrogates. -/
theorem range_of_char (c : Char) : c.toNat < 0xD800 ∨ (0xDFFF < c.toNat ∧ c.toNat < 0x110000) :=
  c.valid

theorem scan_units (c : Char) (rest : List Char) :
    scan none .plain ((units c).flatMap writeUnit ++ rest) =
      (scan none .plain rest).map (prepend [c]) := by
  have hrange := range_of_char c
  unfold units
  split
  · rename_i hsmall
    have hassemble : assemble none c.toNat = some (some c, none) := by
      rw [assemble, if_neg (by omega), if_neg (by omega), Char.ofNat_toNat]
    rw [List.flatMap_singleton, scan_writeUnit hsmall, hassemble, Option.bind_some]
    rfl
  · rename_i hlarge
    obtain ⟨n, hn⟩ : ∃ n, c.toNat = 0x10000 + n := ⟨c.toNat - 0x10000, by omega⟩
    have hhigh : assemble none (0xD800 + n / 0x400) = some (none, some (0xD800 + n / 0x400)) := by
      rw [assemble, if_pos (by omega)]
    have hcode : 0x10000 + (0xD800 + n / 0x400 - 0xD800) * 0x400 + (0xDC00 + n % 0x400 - 0xDC00) =
        c.toNat := by omega
    have hlow : assemble (some (0xD800 + n / 0x400)) (0xDC00 + n % 0x400) =
        some (some c, none) := by
      rw [assemble, if_pos (by omega), hcode, Char.ofNat_toNat]
    rw [hn, Nat.add_sub_cancel_left, List.flatMap_cons, List.flatMap_singleton, List.append_assoc,
      scan_writeUnit (by omega), hhigh, Option.bind_some, scan_writeUnit (by omega), hlow,
      Option.bind_some, Option.map_map]
    congr 1

theorem scan_escape (ascii : Bool) (c : Char) (rest : List Char) :
    scan none .plain (escape ascii c ++ rest) = (scan none .plain rest).map (prepend [c]) := by
  unfold escape
  split
  · rename_i letter hletter
    obtain ⟨hu, hc⟩ := unescape_letterOf hletter
    rw [List.cons_append, scan, if_pos rfl, List.singleton_append, scan, if_neg hu, if_neg nofun]
    rw [hc, Option.bind_some]
  · rename_i hnone
    split
    · exact scan_units c rest
    · rename_i hplain
      have hquotation : c ≠ quotation := by
        rintro rfl
        exact absurd hnone (by decide)
      have hbackslash : c ≠ backslash := by
        rintro rfl
        exact absurd hnone (by decide)
      rw [List.singleton_append, scan, if_neg hbackslash, if_neg nofun, if_neg hquotation,
        if_neg (by omega)]

theorem scan_writeText (ascii : Bool) (text : List Char) (rest : List Char) :
    scan none .plain (text.flatMap (escape ascii) ++ quotation :: rest) = some (text, rest) := by
  induction text with
  | nil =>
    rw [List.flatMap_nil, List.nil_append, scan, if_neg (by decide), if_neg nofun, if_pos rfl]
  | cons c text ih =>
    rw [List.flatMap_cons, List.append_assoc, scan_escape, ih]
    rfl

/-- What may follow a number: nothing that would go on with it. -/
def Follow (rest : List Char) : Prop :=
  ∀ c ∈ rest.head?, c.isDigit = false ∧ c ≠ '.' ∧ c ≠ 'e' ∧ c ≠ 'E'

theorem follow_nil : Follow [] := nofun

theorem follow_cons {c : Char} {rest : List Char}
    (h : c.isDigit = false ∧ c ≠ '.' ∧ c ≠ 'e' ∧ c ≠ 'E') : Follow (c :: rest) := by
  intro c' hc'
  cases hc'
  exact h

theorem takeWhile_digits {digits rest : List Char} (hdigits : ∀ c ∈ digits, c.isDigit = true)
    (hrest : Follow rest) : (digits ++ rest).takeWhile Char.isDigit = digits := by
  rw [List.takeWhile_append_of_pos hdigits]
  rcases rest with _ | ⟨c, rest⟩
  · rw [List.takeWhile_nil, List.append_nil]
  · have hc : c.isDigit = false := (hrest c rfl).1
    rw [List.takeWhile_cons_of_neg (by simp [hc]), List.append_nil]

theorem dropWhile_digits {digits rest : List Char} (hdigits : ∀ c ∈ digits, c.isDigit = true)
    (hrest : Follow rest) : (digits ++ rest).dropWhile Char.isDigit = rest := by
  rw [List.dropWhile_append_of_pos hdigits]
  rcases rest with _ | ⟨c, rest⟩
  · rfl
  · have hc : c.isDigit = false := (hrest c rfl).1
    rw [List.dropWhile_cons_of_neg (by simp [hc])]

theorem digit_of_toDigits {n : Nat} {c : Char} (h : c ∈ Nat.toDigits 10 n) : c.isDigit = true :=
  Nat.isDigit_of_mem_toDigits (by decide) (by decide) h

/-- A number that is not zero does not start with it. -/
theorem head_toDigits {n : Nat} (hn : 0 < n) : ∀ c ∈ (Nat.toDigits 10 n).head?, c ≠ '0' := by
  induction n using Nat.strongRecOn with
  | ind n ih =>
    by_cases hsmall : n < 10
    · have hall : ∀ n < 10, 0 < n → (Nat.toDigits 10 n).head? ≠ some '0' := by decide
      rintro c hc rfl
      exact hall n hsmall hn hc
    · have hlarge : 10 ≤ n := Nat.le_of_not_lt hsmall
      have hhead := ih (n / 10) (Nat.div_lt_self hn (by decide)) (Nat.div_pos hlarge (by decide))
      rw [Nat.toDigits_of_base_le (by decide) hlarge]
      rcases hdigits : Nat.toDigits 10 (n / 10) with _ | ⟨c, digits⟩
      · exact absurd hdigits Nat.toDigits_ne_nil
      · rw [hdigits] at hhead
        exact hhead

theorem whole_toDigits (n : Nat) {rest : List Char} (hrest : Follow rest) :
    whole (Nat.toDigits 10 n ++ rest) = some (Nat.toDigits 10 n, rest) := by
  rcases Nat.eq_zero_or_pos n with rfl | hn
  · rw [Nat.toDigits_zero, List.singleton_append, whole, if_pos rfl]
  · rcases hdigits : Nat.toDigits 10 n with _ | ⟨c, digits⟩
    · exact absurd hdigits Nat.toDigits_ne_nil
    · have hall : ∀ d ∈ c :: digits, d.isDigit = true := by
        intro d hd
        exact digit_of_toDigits (n := n) (by rw [hdigits]; exact hd)
      have hc : c ≠ '0' := head_toDigits hn c (by rw [hdigits]; rfl)
      have htail : ∀ d ∈ digits, d.isDigit = true := fun d hd => hall d (List.mem_cons_of_mem c hd)
      rw [List.cons_append, whole, if_neg hc, if_pos (hall c List.mem_cons_self),
        takeWhile_digits htail hrest, dropWhile_digits htail hrest]

theorem fraction_of_follow {rest : List Char} (h : Follow rest) : fraction rest = ([], rest) := by
  rcases rest with _ | ⟨c, rest⟩
  · rfl
  · have hc : c ≠ '.' := (h c rfl).2.1
    rw [fraction, if_neg fun hand => hc hand.1]

theorem exponent_of_follow {rest : List Char} (h : Follow rest) : exponent rest = ([], rest) := by
  rcases rest with _ | ⟨c, rest⟩
  · rfl
  · have hc : ¬(c = 'e' ∨ c = 'E') := not_or.mpr (h c rfl).2.2
    rw [exponent, if_neg fun hand => hc hand.1]

theorem sign_of_not_mem {signs : List Char} {c : Char} (h : c ∉ signs) (rest : List Char) :
    sign signs (c :: rest) = ([], c :: rest) := by
  rw [sign, if_neg h]

theorem number_writeInt (z : Int) {rest : List Char} (hrest : Follow rest) :
    number (writeInt z ++ rest) = some (.int z, rest) := by
  have hwhole := whole_toDigits z.natAbs hrest
  have hread : Nat.ofDigitChars 10 (Nat.toDigits 10 z.natAbs) 0 = z.natAbs :=
    Nat.ofDigitChars_ten_toDigits
  unfold writeInt
  split
  · rename_i hneg
    rw [List.cons_append, number, sign, if_pos (List.mem_singleton_self _)]
    dsimp only
    rw [hwhole, Option.map_some, fraction_of_follow hrest, exponent_of_follow hrest]
    have hz : -|z| = z := by rw [abs_of_neg hneg, neg_neg]
    simp [ofDigits, hread, hz]
  · rename_i hpos
    have hz : |z| = z := abs_of_nonneg (Int.not_lt.mp hpos)
    have hsign : sign ['-'] (Nat.toDigits 10 z.natAbs ++ rest) =
        ([], Nat.toDigits 10 z.natAbs ++ rest) := by
      rcases hdigits : Nat.toDigits 10 z.natAbs with _ | ⟨c, digits⟩
      · exact absurd hdigits Nat.toDigits_ne_nil
      · have hc : c.isDigit = true := digit_of_toDigits (by rw [hdigits]; exact List.mem_cons_self)
        exact sign_of_not_mem (by rintro hmem; rw [List.mem_singleton.mp hmem] at hc; cases hc) _
    rw [number, hsign]
    dsimp only
    rw [hwhole, Option.map_some, fraction_of_follow hrest, exponent_of_follow hrest]
    simp [ofDigits, hread, hz]


/-! ### Values -/

mutual

/-- `p` holds of a value and of every value in it. -/
def Value.Every (p : Value → Prop) : Value → Prop
  | .null => p .null
  | .bool b => p (.bool b)
  | .int z => p (.int z)
  | .float literal => p (.float literal)
  | .str text => p (.str text)
  | .arr items => p (.arr items) ∧ EveryItem p items
  | .obj fields => p (.obj fields) ∧ EveryField p fields
termination_by structural v => v

def EveryItem (p : Value → Prop) : List Value → Prop
  | [] => True
  | v :: rest => v.Every p ∧ EveryItem p rest
termination_by structural l => l

def EveryField (p : Value → Prop) : List (String × Value) → Prop
  | [] => True
  | field :: rest => FieldEvery p field ∧ EveryField p rest
termination_by structural l => l

def FieldEvery (p : Value → Prop) : String × Value → Prop
  | (_, v) => v.Every p
termination_by structural field => field

end

theorem everyField_of_forall {p : Value → Prop} {fields : List (String × Value)}
    (h : ∀ field ∈ fields, field.2.Every p) : EveryField p fields := by
  induction fields with
  | nil => trivial
  | cons field rest ih =>
    obtain ⟨key, v⟩ := field
    exact ⟨h (key, v) List.mem_cons_self, ih fun f hf => h f (List.mem_cons_of_mem _ hf)⟩

/-- A value without floats: their texts are not written here. -/
def Value.Exact : Value → Prop := Value.Every fun v => ∀ literal, v ≠ .float literal

/-- No object has a key twice. -/
def Value.Distinct : Value → Prop :=
  Value.Every fun v => ∀ fields, v = .obj fields → (fields.map Prod.fst).Nodup

theorem constant_of_head {c : Char} (h : c ∉ ['n', 't', 'f', 'N', 'I', '-']) (rest : List Char) :
    constant (c :: rest) = none := by
  simp only [List.mem_cons, List.not_mem_nil, or_false, not_or] at h
  simp [constant, constants, Ne.symm h.1, Ne.symm h.2.1, Ne.symm h.2.2.1,
    Ne.symm h.2.2.2.1, Ne.symm h.2.2.2.2.1, Ne.symm h.2.2.2.2.2]

theorem constant_of_minus {c : Char} (h : c ≠ 'I') (rest : List Char) :
    constant ('-' :: c :: rest) = none := by
  simp [constant, constants, h.symm]


theorem skip_cons {c : Char} (h : isBlank c = false) (rest : List Char) :
    skip (c :: rest) = c :: rest := by
  rw [skip, List.dropWhile_cons_of_neg (by simp [h])]

theorem expect_cons (c : Char) (rest : List Char) : expect c (c :: rest) = some rest := if_pos rfl

theorem expect_other {c c' : Char} (h : c' ≠ c) (rest : List Char) : expect c (c' :: rest) = none :=
  if_neg h

/-- A character that can start a value. -/
def Starts (c : Char) : Prop := isBlank c = false ∧ c ≠ closeBracket

theorem starts_of_digit {c : Char} (h : c.isDigit = true) : Starts c := by
  have hne : ∀ d : Char, d.isDigit = false → c ≠ d := by
    rintro d hd rfl
    exact Bool.eq_false_iff.mp hd h
  constructor
  · simp [isBlank, hne _ (show ' '.isDigit = false from rfl),
      hne _ (show (Char.ofNat 9).isDigit = false from rfl),
      hne _ (show (Char.ofNat 10).isDigit = false from rfl),
      hne _ (show (Char.ofNat 13).isDigit = false from rfl)]
  · exact hne _ rfl

theorem writeInt_head (z : Int) :
    ∃ c tail, writeInt z = c :: tail ∧ (c = '-' ∨ c.isDigit = true) := by
  unfold writeInt
  split
  · exact ⟨_, _, rfl, Or.inl rfl⟩
  · rcases hdigits : Nat.toDigits 10 z.natAbs with _ | ⟨c, digits⟩
    · exact absurd hdigits Nat.toDigits_ne_nil
    · exact ⟨c, digits, rfl, Or.inr (digit_of_toDigits (by rw [hdigits]; exact List.mem_cons_self))⟩

theorem value_text (ascii : Bool) (fuel : Nat) (text : String) (rest : List Char) :
    value (fuel + 1) (writeText ascii text ++ rest) = some (.str text, rest) := by
  rw [writeText, List.append_assoc, List.cons_append, List.singleton_append, value]
  rw [if_pos rfl, scan_writeText, Option.map_some, String.ofList_toList]

theorem value_other {c : Char} (hquotation : c ≠ quotation) (hbracket : c ≠ openBracket)
    (hbrace : c ≠ openBrace) (fuel : Nat) (rest : List Char) :
    value (fuel + 1) (c :: rest) =
      (constant (c :: rest)).orElse fun _ => number (c :: rest) := by
  rw [value]
  rw [if_neg hquotation, if_neg hbracket, if_neg hbrace]

theorem not_mem_of_digit {c : Char} (h : c.isDigit = true) {l : List Char}
    (hl : l.any Char.isDigit = false) : c ∉ l := by
  intro hmem
  rw [List.any_eq_false] at hl
  exact hl c hmem h

theorem constant_writeInt (z : Int) (rest : List Char) : constant (writeInt z ++ rest) = none := by
  unfold writeInt
  rcases hdigits : Nat.toDigits 10 z.natAbs with _ | ⟨c, digits⟩
  · exact absurd hdigits Nat.toDigits_ne_nil
  · have hc : c.isDigit = true := digit_of_toDigits (by rw [hdigits]; exact List.mem_cons_self)
    split
    · refine constant_of_minus ?_ _
      rintro rfl
      cases hc
    · exact constant_of_head (not_mem_of_digit hc (by decide)) _

theorem value_int (fuel : Nat) (z : Int) {rest : List Char} (hrest : Follow rest) :
    value (fuel + 1) (writeInt z ++ rest) = some (.int z, rest) := by
  have hconstant := constant_writeInt z rest
  have hnumber := number_writeInt z hrest
  obtain ⟨c, tail, hwritten, hc⟩ := writeInt_head z
  have hplain : c ∉ [quotation, openBracket, openBrace] := by
    rcases hc with rfl | hc
    · decide
    · exact not_mem_of_digit hc (by decide)
  simp only [List.mem_cons, List.not_mem_nil, or_false, not_or] at hplain
  rw [hwritten, List.cons_append] at hconstant hnumber ⊢
  rw [value_other hplain.1 hplain.2.1 hplain.2.2, hconstant, hnumber]
  rfl

theorem follow_of_mem {c : Char} (h : c ∈ [comma, closeBracket, closeBrace]) (rest : List Char) :
    Follow (c :: rest) := by
  simp only [List.mem_cons, List.not_mem_nil, or_false] at h
  rcases h with rfl | rfl | rfl <;> exact follow_cons (by decide)

theorem follow_writeElements (ascii : Bool) (items : List Value) (rest : List Char) :
    Follow (writeElements ascii items ++ rest) := by
  cases items with
  | nil => exact follow_of_mem (by decide) _
  | cons v items => exact follow_of_mem (c := comma) (by decide) _

theorem follow_writeMembers (ascii : Bool) (fields : List (String × Value)) (rest : List Char) :
    Follow (writeMembers ascii fields ++ rest) := by
  cases fields with
  | nil => exact follow_of_mem (by decide) _
  | cons field fields => exact follow_of_mem (c := comma) (by decide) _

/-- A value is read back, whatever follows it. -/
structure Reads (ascii : Bool) (v : Value) : Prop where
  head : ∃ c tail, write ascii v = c :: tail ∧ Starts c
  value : ∀ (fuel : Nat) (rest : List Char), Follow rest → 2 * (write ascii v).length ≤ fuel + 1 →
    value (fuel + 1) (write ascii v ++ rest) = some (v, rest)

theorem Reads.skip {ascii : Bool} {v : Value} (h : Reads ascii v) (rest : List Char) :
    skip (write ascii v ++ rest) = write ascii v ++ rest := by
  obtain ⟨c, tail, hwritten, hc⟩ := h.head
  rw [hwritten, List.cons_append, skip_cons hc.1]

theorem Reads.no_close {ascii : Bool} {v : Value} (h : Reads ascii v) (rest : List Char) :
    expect closeBracket (write ascii v ++ rest) = none := by
  obtain ⟨c, tail, hwritten, hc⟩ := h.head
  rw [hwritten, List.cons_append, expect_other hc.2]

/-- The elements of an array are read in turn: the first, and after a comma the others. -/
theorem elements_write {ascii : Bool} {v : Value} {items : List Value}
    (h : ∀ w ∈ v :: items, Reads ascii w) (fuel : Nat) (rest : List Char)
    (hfuel : 2 * (write ascii v ++ writeElements ascii items).length ≤ fuel) :
    elements (fuel + 1) (write ascii v ++ (writeElements ascii items ++ rest)) =
      some (v :: items, rest) := by
  induction items generalizing v fuel with
  | nil =>
    rw [writeElements, List.length_append, List.length_singleton] at hfuel
    obtain ⟨k, rfl⟩ : ∃ k, fuel = k + 1 := ⟨fuel - 1, by omega⟩
    rw [elements,
      (h v List.mem_cons_self).value k _ (follow_writeElements ascii [] rest) (by omega),
      Option.bind_some, writeElements, List.singleton_append]
    dsimp only
    rw [skip_cons (by decide), expect_other (by decide), expect_cons, Option.map_some]
  | cons w items ih =>
    have hw : Reads ascii w := h w (List.mem_cons_of_mem v List.mem_cons_self)
    rw [writeElements, List.length_append, List.cons_append, List.length_cons] at hfuel
    obtain ⟨k, rfl⟩ : ∃ k, fuel = k + 1 := ⟨fuel - 1, by omega⟩
    have htail := ih (fun x hx => h x (List.mem_cons_of_mem v hx)) k (by omega)
    rw [elements, (h v List.mem_cons_self).value k _ (follow_writeElements ascii _ rest) (by omega),
      Option.bind_some, writeElements, List.cons_append, List.cons_append, List.append_assoc]
    dsimp only
    rw [skip_cons (by decide), expect_cons]
    dsimp only
    rw [hw.skip, htail, Option.map_some]
    rfl

theorem skip_writeMember (ascii : Bool) (field : String × Value) (rest : List Char) :
    skip (writeMember ascii field ++ rest) = writeMember ascii field ++ rest := by
  rw [writeMember, writeText]
  exact skip_cons (by decide) _

/-- One member, up to what follows it. -/
theorem members_member {ascii : Bool} {field : String × Value} {rest : List Char} {fuel : Nat}
    (h : Reads ascii field.2) (hrest : Follow rest)
    (hfuel : 2 * (write ascii field.2).length ≤ fuel + 1) :
    members (fuel + 2) (writeMember ascii field ++ rest) =
      match expect comma (skip rest) with
      | some rest => (members (fuel + 1) (skip rest)).map (prepend [field])
      | none => (expect closeBrace (skip rest)).map fun rest => ([field], rest) := by
  rw [members, writeMember, writeText]
  simp only [List.cons_append, List.append_assoc, List.nil_append]
  rw [expect_cons, Option.bind_some, scan_writeText, Option.bind_some, skip_cons (by decide),
    expect_cons, Option.bind_some, h.skip, h.value fuel rest hrest hfuel, Option.bind_some,
    String.ofList_toList]

/-- So are the members of an object. -/
theorem members_write {ascii : Bool} {field : String × Value} {fields : List (String × Value)}
    (h : ∀ entry ∈ field :: fields, Reads ascii entry.2) (fuel : Nat) (rest : List Char)
    (hfuel : 2 * (writeMember ascii field ++ writeMembers ascii fields).length ≤ fuel) :
    members (fuel + 1) (writeMember ascii field ++ (writeMembers ascii fields ++ rest)) =
      some (field :: fields, rest) := by
  have hlength : (write ascii field.2).length + 1 ≤ (writeMember ascii field).length := by
    rw [writeMember, List.length_append, List.length_cons]
    exact Nat.le_add_left _ _
  rw [List.length_append] at hfuel
  obtain ⟨k, rfl⟩ : ∃ k, fuel = k + 1 := ⟨fuel - 1, by omega⟩
  induction fields generalizing field k with
  | nil =>
    rw [members_member (h field List.mem_cons_self) (follow_writeMembers ascii [] rest) (by omega),
      writeMembers, List.singleton_append, skip_cons (by decide), expect_other (by decide),
      expect_cons]
    rfl
  | cons entry fields ih =>
    rw [writeMembers, List.cons_append, List.length_cons, List.length_append] at hfuel
    have hentry : (write ascii entry.2).length + 1 ≤ (writeMember ascii entry).length := by
      rw [writeMember, List.length_append, List.length_cons]
      exact Nat.le_add_left _ _
    obtain ⟨j, rfl⟩ : ∃ j, k = j + 1 := ⟨k - 1, by omega⟩
    have htail := ih (fun x hx => h x (List.mem_cons_of_mem _ hx)) hentry j (by omega)
    rw [members_member (h field List.mem_cons_self) (follow_writeMembers ascii _ rest) (by omega),
      writeMembers, List.cons_append, List.cons_append, List.append_assoc, skip_cons (by decide),
      expect_cons]
    dsimp only
    rw [skip_writeMember, htail, Option.map_some]
    rfl

theorem reads_constant {ascii : Bool} {v : Value} {c : Char} {tail : List Char}
    (hwritten : write ascii v = c :: tail) (hc : Starts c)
    (hplain : c ≠ quotation ∧ c ≠ openBracket ∧ c ≠ openBrace)
    (hconstant : ∀ rest, constant (c :: tail ++ rest) = some (v, rest)) : Reads ascii v where
  head := ⟨c, tail, hwritten, hc⟩
  value fuel rest _ _ := by
    rw [hwritten, List.cons_append, value_other hplain.1 hplain.2.1 hplain.2.2, ← List.cons_append,
      hconstant]
    rfl

theorem reads_int (ascii : Bool) (z : Int) : Reads ascii (.int z) where
  head := by
    obtain ⟨c, tail, hwritten, hc⟩ := writeInt_head z
    refine ⟨c, tail, by rw [write, hwritten], ?_⟩
    rcases hc with rfl | hc
    · constructor <;> decide
    · exact starts_of_digit hc
  value fuel rest hrest _ := by
    rw [write]
    exact value_int fuel z hrest

theorem reads_str (ascii : Bool) (text : String) : Reads ascii (.str text) where
  head := ⟨_, _, by rw [write, writeText, List.cons_append], by constructor <;> decide⟩
  value fuel rest _ _ := by
    rw [write]
    exact value_text ascii fuel text rest

theorem reads_arr {ascii : Bool} {items : List Value} (h : ∀ v ∈ items, Reads ascii v) :
    Reads ascii (.arr items) where
  head := by
    cases items with
    | nil => exact ⟨_, _, by rw [write], by constructor <;> decide⟩
    | cons v rest => exact ⟨_, _, by rw [write, List.cons_append], by constructor <;> decide⟩
  value fuel rest hrest hfuel := by
    cases items with
    | nil =>
      rw [write, List.cons_append, value, if_neg (by decide), if_pos rfl, List.singleton_append,
        skip_cons (by decide), expect_cons]
    | cons v items =>
      have hv : Reads ascii v := h v List.mem_cons_self
      rw [write, List.cons_append, List.length_cons] at hfuel
      obtain ⟨k, rfl⟩ : ∃ k, fuel = k + 1 := ⟨fuel - 1, by omega⟩
      rw [write, List.cons_append, List.cons_append, List.append_assoc, value,
        if_neg (by decide), if_pos rfl, hv.skip, hv.no_close]
      dsimp only
      rw [elements_write h k rest (by omega), Option.map_some]

theorem reads_obj {ascii : Bool} {fields : List (String × Value)}
    (h : ∀ field ∈ fields, Reads ascii field.2) : Reads ascii (.obj fields) where
  head := by
    cases fields with
    | nil => exact ⟨_, _, by rw [write], by constructor <;> decide⟩
    | cons field rest => exact ⟨_, _, by rw [write, List.cons_append], by constructor <;> decide⟩
  value fuel rest hrest hfuel := by
    cases fields with
    | nil =>
      rw [write, List.cons_append, value, if_neg (by decide), if_neg (by decide), if_pos rfl,
        List.singleton_append, skip_cons (by decide), expect_cons]
    | cons field fields =>
      have hhead : ∀ rest, ∃ tail, writeMember ascii field ++ rest = quotation :: tail := by
        intro rest
        rw [writeMember, writeText]
        exact ⟨_, rfl⟩
      obtain ⟨tail, htail⟩ := hhead (writeMembers ascii fields ++ rest)
      have hopen : expect closeBrace
          (writeMember ascii field ++ (writeMembers ascii fields ++ rest)) = none := by
        rw [htail, expect_other (by decide)]
      have hskip : skip (writeMember ascii field ++ (writeMembers ascii fields ++ rest)) =
          writeMember ascii field ++ (writeMembers ascii fields ++ rest) := by
        rw [htail, skip_cons (by decide)]
      rw [write, List.cons_append, List.length_cons] at hfuel
      obtain ⟨k, rfl⟩ : ∃ k, fuel = k + 1 := ⟨fuel - 1, by omega⟩
      rw [write, List.cons_append, List.cons_append, List.append_assoc, value,
        if_neg (by decide), if_neg (by decide), if_pos rfl, hskip, hopen]
      dsimp only
      rw [members_write h k rest (by omega), Option.map_some]

mutual

theorem reads_write (ascii : Bool) : ∀ v : Value, v.Exact → Reads ascii v
  | .null, _ => reads_constant (by rw [write]; rfl) (by constructor <;> decide) (by decide)
      fun _ => rfl
  | .bool true, _ => reads_constant (by rw [write]; rfl) (by constructor <;> decide) (by decide)
      fun _ => rfl
  | .bool false, _ => reads_constant (by rw [write]; rfl) (by constructor <;> decide) (by decide)
      fun _ => rfl
  | .int z, _ => reads_int ascii z
  | .float literal, h => absurd rfl (h literal)
  | .str text, _ => reads_str ascii text
  | .arr items, h => reads_arr (reads_items ascii items h.2)
  | .obj fields, h => reads_obj (reads_fields ascii fields h.2)
termination_by structural v => v

theorem reads_items (ascii : Bool) : ∀ items : List Value,
    EveryItem (fun v => ∀ literal, v ≠ .float literal) items → ∀ v ∈ items, Reads ascii v
  | [], _ => List.forall_mem_nil _
  | v :: rest, h => List.forall_mem_cons.mpr ⟨reads_write ascii v h.1, reads_items ascii rest h.2⟩
termination_by structural items => items

theorem reads_fields (ascii : Bool) : ∀ fields : List (String × Value),
    EveryField (fun v => ∀ literal, v ≠ .float literal) fields →
      ∀ field ∈ fields, Reads ascii field.2
  | [], _ => List.forall_mem_nil _
  | field :: rest, h =>
    List.forall_mem_cons.mpr ⟨reads_field ascii field h.1, reads_fields ascii rest h.2⟩
termination_by structural fields => fields

theorem reads_field (ascii : Bool) : ∀ field : String × Value,
    FieldEvery (fun v => ∀ literal, v ≠ .float literal) field → Reads ascii field.2
  | (_, v), h => reads_write ascii v h
termination_by structural field => field

end

/-- **Round trip.**  The text of a value without floats is read as the value. -/
theorem parse_write (ascii : Bool) {v : Value} (h : v.Exact) :
    parse (write ascii v) = some v := by
  have hreads := reads_write ascii v h
  have hskip := hreads.skip []
  obtain ⟨c, tail, hwritten, _⟩ := hreads.head
  have hpos : 0 < (write ascii v).length := by rw [hwritten]; exact Nat.succ_pos _
  obtain ⟨k, hk⟩ : ∃ k, 2 * (write ascii v).length = k + 1 :=
    ⟨2 * (write ascii v).length - 1, by omega⟩
  have hvalue := hreads.value k [] follow_nil (by omega)
  rw [List.append_nil] at hskip hvalue
  rw [parse, hskip, hk, hvalue, Option.bind_some]
  rfl

theorem setItem_of_not_mem {key : String} {v : Value} {fields : List (String × Value)}
    (h : key ∉ fields.map Prod.fst) : setItem key v fields = fields ++ [(key, v)] := by
  induction fields with
  | nil => rfl
  | cons field rest ih =>
    rw [List.map_cons] at h
    rw [setItem, if_neg (Ne.symm (List.ne_of_not_mem_cons h)), ih (List.not_mem_of_not_mem_cons h)]
    rfl

/-- A dict whose keys are written once is as it is written. -/
theorem ofPairs_of_nodup {fields : List (String × Value)} (h : (fields.map Prod.fst).Nodup) :
    ofPairs fields = fields := by
  have hfold : ∀ (pairs done : List (String × Value)), ((done ++ pairs).map Prod.fst).Nodup →
      pairs.foldl (fun fields pair => setItem pair.1 pair.2 fields) done = done ++ pairs := by
    intro pairs
    induction pairs with
    | nil => exact fun done _ => (List.append_nil done).symm
    | cons pair pairs ih =>
      intro done hdone
      have hfresh : pair.1 ∉ done.map Prod.fst := by
        rw [List.map_append, List.map_cons, List.nodup_append] at hdone
        exact fun hmem => hdone.2.2 _ hmem _ List.mem_cons_self rfl
      rw [List.foldl_cons, setItem_of_not_mem hfresh, ih _ (by simpa using hdone),
        List.append_assoc]
      rfl
  exact hfold fields [] h

mutual

theorem dicts_of_distinct : ∀ v : Value, v.Distinct → v.dicts = v
  | .null, _ => by rw [Value.dicts]
  | .bool _, _ => by rw [Value.dicts]
  | .int _, _ => by rw [Value.dicts]
  | .float _, _ => by rw [Value.dicts]
  | .str _, _ => by rw [Value.dicts]
  | .arr items, h => by rw [Value.dicts, dictsItems_of_distinct items h.2]
  | .obj fields, h => by
    rw [Value.dicts, dictsFields_of_distinct fields h.2, ofPairs_of_nodup (h.1 fields rfl)]
termination_by structural v => v

theorem dictsItems_of_distinct : ∀ items : List Value,
    EveryItem (fun v => ∀ fields, v = .obj fields → (fields.map Prod.fst).Nodup) items →
      dictsItems items = items
  | [], _ => by rw [dictsItems]
  | v :: rest, h => by
    rw [dictsItems, dicts_of_distinct v h.1, dictsItems_of_distinct rest h.2]
termination_by structural items => items

theorem dictsFields_of_distinct : ∀ fields : List (String × Value),
    EveryField (fun v => ∀ fields, v = .obj fields → (fields.map Prod.fst).Nodup) fields →
      dictsFields fields = fields
  | [], _ => by rw [dictsFields]
  | field :: rest, h => by
    rw [dictsFields, dictsField_of_distinct field h.1, dictsFields_of_distinct rest h.2]
termination_by structural fields => fields

theorem dictsField_of_distinct : ∀ field : String × Value,
    FieldEvery (fun v => ∀ fields, v = .obj fields → (fields.map Prod.fst).Nodup) field →
      dictsField field = field
  | (key, v), h => by rw [dictsField, dicts_of_distinct v h]
termination_by structural field => field

end

theorem loads_write (ascii : Bool) {v : Value} (hexact : v.Exact) (hdistinct : v.Distinct) :
    loads (write ascii v) = some v := by
  rw [loads, parse_write ascii hexact, Option.map_some, dicts_of_distinct v hdistinct]

/-- A text or a whole number. -/
def Value.Flat : Value → Prop
  | .str _ | .int _ => True
  | _ => False

theorem Value.Flat.every {p : Value → Prop} (hstr : ∀ text, p (.str text)) (hint : ∀ z, p (.int z))
    {v : Value} (h : v.Flat) : v.Every p := by
  cases v with
  | str text => exact hstr text
  | int z => exact hint z
  | _ => exact h.elim

/-- An object of texts and whole numbers is read back. -/
theorem loads_write_flat (ascii : Bool) {fields : List (String × Value)}
    (hflat : ∀ field ∈ fields, field.2.Flat) (hkeys : (fields.map Prod.fst).Nodup) :
    loads (write ascii (.obj fields)) = some (.obj fields) := by
  apply loads_write
  · constructor
    · intro literal heq
      cases heq
    · refine everyField_of_forall fun field hfield => (hflat field hfield).every ?_ ?_
      · intro text literal heq
        cases heq
      · intro z literal heq
        cases heq
  · constructor
    · intro fields heq
      cases heq
      exact hkeys
    · refine everyField_of_forall fun field hfield => (hflat field hfield).every ?_ ?_
      · intro text fields heq
        cases heq
      · intro z fields heq
        cases heq


end JsonText
