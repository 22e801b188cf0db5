import CampusHire.Common
import CampusHire.Hex

/-!
# `repr`

The values that `json.loads` makes, and the text that `str` gives of them.  A character of
a text is escaped unless it is printable; which characters beyond ASCII are, and how a
float is written, is left to the interpreter.
-/

namespace CampusHire.Python

inductive Value where
  | none
  | bool (b : Bool)
  | int (z : Int)
  | float (q : ℚ)
  | str (s : String)
  | list (items : List Value)
  | dict (fields : List (String × Value))

/-- A float is written in decimal or exponent notation, or as `inf` or `nan`; U+FFFE and U+FFFF,
    which are no characters, are not printable. -/
structure Interpreter where
  printable : Char → Bool
  printable_ne : ∀ c, printable c = true → c.toNat ≠ 0xFFFE ∧ c.toNat ≠ 0xFFFF
  floatRepr : ℚ → List Char
  floatRepr_chars : ∀ q, ∀ c ∈ floatRepr q, c ∈ "0123456789.e+-infa".toList

/-! ## As JSON -/

mutual

def Value.json : Value → Json
  | .none => .null
  | .bool b => .bool b
  | .int z => .num z
  | .float q => .num q
  | .str s => .str s
  | .list items => .arr (jsonItems items)
  | .dict fields => .obj (jsonFields fields)
termination_by structural v => v

def jsonItems : List Value → List Json
  | [] => []
  | v :: rest => v.json :: jsonItems rest
termination_by structural l => l

def jsonFields : List (String × Value) → List (String × Json)
  | [] => []
  | field :: rest => jsonField field :: jsonFields rest
termination_by structural l => l

def jsonField : String × Value → String × Json
  | (key, v) => (key, v.json)
termination_by structural field => field

end

/-! ## As text -/

def apostrophe : Char := Char.ofNat 39

def quotation : Char := Char.ofNat 34

def backslash : Char := Char.ofNat 92

def escape (printable : Char → Bool) (quote c : Char) : List Char :=
  if c = quote ∨ c = backslash then [backslash, c]
  else if c = Char.ofNat 9 then [backslash, 't']
  else if c = Char.ofNat 10 then [backslash, 'n']
  else if c = Char.ofNat 13 then [backslash, 'r']
  else if c.toNat < 32 ∨ c.toNat = 127 then backslash :: 'x' :: Hex.encode 2 c.toNat
  else if c.toNat < 127 ∨ printable c then [c]
  else if c.toNat < 256 then backslash :: 'x' :: Hex.encode 2 c.toNat
  else if c.toNat < 65536 then backslash :: 'u' :: Hex.encode 4 c.toNat
  else backslash :: 'U' :: Hex.encode 8 c.toNat

/-- Apostrophes are the quotes, unless that would need escapes that quotation marks do not. -/
def quoteOf (s : List Char) : Char :=
  if apostrophe ∈ s ∧ quotation ∉ s then quotation else apostrophe

def reprStr (printable : Char → Bool) (s : List Char) : List Char :=
  quoteOf s :: s.flatMap (escape printable (quoteOf s)) ++ [quoteOf s]

def separated (texts : List (List Char)) : List Char := List.intercalate ", ".toList texts

section Repr

variable (python : Interpreter)

mutual

def Value.repr : Value → List Char
  | .none => "None".toList
  | .bool b => (if b then "True" else "False").toList
  | .int z => z.repr.toList
  | .float q => python.floatRepr q
  | .str s => reprStr python.printable s.toList
  | .list items => '[' :: separated (reprItems items) ++ [']']
  | .dict fields => Char.ofNat 123 :: separated (reprFields fields) ++ [Char.ofNat 125]
termination_by structural v => v

def reprItems : List Value → List (List Char)
  | [] => []
  | v :: rest => v.repr :: reprItems rest
termination_by structural l => l

def reprFields : List (String × Value) → List (List Char)
  | [] => []
  | field :: rest => reprField field :: reprFields rest
termination_by structural l => l

def reprField : String × Value → List Char
  | (key, v) => reprStr python.printable key.toList ++ ':' :: ' ' :: v.repr
termination_by structural field => field

end

/-- `str` of a dict. -/
def strDict (fields : List (String × Value)) : String :=
  String.ofList ((Value.dict fields).repr python)

end Repr

/-! ## No characters that a document lacks -/

/-- None of the first 32 characters, and a character at all. -/
def Shown (c : Char) : Prop := 32 ≤ c.toNat ∧ c.toNat ≠ 0xFFFE ∧ c.toNat ≠ 0xFFFF

instance (c : Char) : Decidable (Shown c) := inferInstanceAs (Decidable (_ ∧ _))

theorem shown_of_ascii {c : Char} (h : 32 ≤ c.toNat) (hlt : c.toNat < 128) : Shown c :=
  ⟨h, by omega, by omega⟩

def Visible (l : List Char) : Prop := ∀ c ∈ l, Shown c

instance (l : List Char) : Decidable (Visible l) := List.decidableBAll _ l

@[simp] theorem visible_nil : Visible [] := nofun

@[simp] theorem visible_cons {c : Char} {l : List Char} :
    Visible (c :: l) ↔ Shown c ∧ Visible l :=
  List.forall_mem_cons

@[simp] theorem visible_append {l l' : List Char} : Visible (l ++ l') ↔ Visible l ∧ Visible l' :=
  List.forall_mem_append

theorem visible_flatMap {f : Char → List Char} {l : List Char} (h : ∀ c ∈ l, Visible (f c)) :
    Visible (l.flatMap f) := by
  intro c hc
  obtain ⟨d, hd, hmem⟩ := List.mem_flatMap.mp hc
  exact h d hd c hmem

theorem visible_separated {texts : List (List Char)} (h : ∀ t ∈ texts, Visible t) :
    Visible (separated texts) := by
  have hcomma : Visible ", ".toList := by decide
  induction texts with
  | nil => exact visible_nil
  | cons t rest ih =>
    have ht := h t List.mem_cons_self
    have hrest := ih fun t' ht' => h t' (List.mem_cons_of_mem t ht')
    cases rest with
    | nil => simpa [separated] using ht
    | cons t' rest =>
      rw [separated] at hrest ⊢
      rw [List.intercalate_cons_cons, visible_append, visible_append]
      exact ⟨⟨ht, hcomma⟩, hrest⟩

theorem visible_hex (w n : Nat) : Visible (Hex.encode w n) := by
  intro c hc
  have hdigits : Hex.lowerDigits.all (fun c => decide (Shown c)) = true := by decide
  simpa using Hex.of_mem_lowerDigits hdigits (Hex.mem_encode hc)

section Repr

variable (python : Interpreter)

theorem visible_escape {quote : Char} (hquote : Shown quote) (c : Char) :
    Visible (escape python.printable quote c) := by
  have hbackslash : Shown backslash := by decide
  have hletters : Shown 't' ∧ Shown 'n' ∧ Shown 'r' ∧ Shown 'x' ∧ Shown 'u' ∧ Shown 'U' := by
    decide
  unfold escape
  split
  · rename_i hc
    rcases hc with rfl | rfl
    · simp [hbackslash, hquote]
    · simp [hbackslash]
  split
  · simp [hbackslash, hletters]
  split
  · simp [hbackslash, hletters]
  split
  · simp [hbackslash, hletters]
  split
  · simp [hbackslash, hletters, visible_hex]
  split
  · -- a character that is written as it is
    rename_i hlow hwritten
    have hle : 32 ≤ c.toNat := Nat.not_lt.mp (not_or.mp hlow).1
    rw [visible_cons]
    refine ⟨⟨hle, ?_⟩, visible_nil⟩
    rcases hwritten with hascii | hprintable
    · omega
    · exact python.printable_ne c hprintable
  split
  · simp [hbackslash, hletters, visible_hex]
  split
  · simp [hbackslash, hletters, visible_hex]
  · simp [hbackslash, hletters, visible_hex]

theorem visible_reprStr (s : List Char) : Visible (reprStr python.printable s) := by
  have hquote : Shown (quoteOf s) := by
    unfold quoteOf
    split
    · decide
    · decide
  rw [reprStr, visible_append, visible_cons, visible_cons]
  exact ⟨⟨hquote, visible_flatMap fun c _ => visible_escape python hquote c⟩, hquote,
    visible_nil⟩

theorem visible_digits (n : Nat) : Visible n.repr.toList := by
  intro c hc
  rw [Nat.toList_repr] at hc
  have hdigit := Nat.isDigit_of_mem_toDigits (by decide) (by decide) hc
  have hzero : 48 ≤ c.toNat := (Char.isDigit_iff_toNat.mp hdigit).1
  have hnine : c.toNat ≤ 57 := (Char.isDigit_iff_toNat.mp hdigit).2
  exact shown_of_ascii (by omega) (by omega)

theorem visible_int (z : Int) : Visible z.repr.toList := by
  cases z with
  | ofNat n => exact visible_digits n
  | negSucc n =>
    rw [Int.repr, String.toList_append, visible_append]
    exact ⟨by decide, visible_digits (n + 1)⟩

theorem visible_float (q : ℚ) : Visible (python.floatRepr q) := by
  intro c hc
  have hall : Visible "0123456789.e+-infa".toList := by decide
  exact hall c (python.floatRepr_chars q c hc)

mutual

theorem visible_repr : ∀ v : Value, Visible (v.repr python)
  | .none => (by decide : Visible "None".toList)
  | .bool true => (by decide : Visible "True".toList)
  | .bool false => (by decide : Visible "False".toList)
  | .int z => visible_int z
  | .float q => visible_float python q
  | .str s => visible_reprStr python s.toList
  | .list items => by
    rw [Value.repr, visible_append, visible_cons]
    exact ⟨⟨by decide, visible_separated (visible_reprItems items)⟩, by decide⟩
  | .dict fields => by
    rw [Value.repr, visible_append, visible_cons]
    exact ⟨⟨by decide, visible_separated (visible_reprFields fields)⟩, by decide⟩
termination_by structural v => v

theorem visible_reprItems : ∀ items : List Value, ∀ t ∈ reprItems python items, Visible t
  | [] => nofun
  | v :: rest => List.forall_mem_cons.mpr ⟨visible_repr v, visible_reprItems rest⟩
termination_by structural items => items

theorem visible_reprFields :
    ∀ fields : List (String × Value), ∀ t ∈ reprFields python fields, Visible t
  | [] => nofun
  | field :: rest =>
    List.forall_mem_cons.mpr ⟨visible_reprField field, visible_reprFields rest⟩
termination_by structural fields => fields

theorem visible_reprField : ∀ field : String × Value, Visible (reprField python field)
  | (key, v) => by
    rw [reprField, visible_append, visible_cons, visible_cons]
    exact ⟨visible_reprStr python key.toList, by decide, by decide, visible_repr v⟩
termination_by structural field => field

end

end Repr

end CampusHire.Python
