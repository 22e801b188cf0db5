import CampusHire.PythonText
import Mathlib.Data.Rat.Floor

/-!
# What the services share

Identifiers, roles and statuses (`campushire_common.enums`), JSON values, clock
readings, and the exceptions a request can end in.
-/

namespace CampusHire

/-- A clock reading in seconds. -/
abbrev Time := ℚ

/-- `int(q)`: towards zero. -/
def truncate (q : ℚ) : Int := if 0 ≤ q then ⌊q⌋ else ⌈q⌉

/-! ## `uuid.UUID` -/

structure UUID where
  int : Nat
  isLt : int < 16 ^ 32
deriving DecidableEq

namespace UUID

/-- A UUID from a number, of which 128 bits count. -/
def ofNat (n : Nat) : UUID := ⟨n % 16 ^ 32, Nat.mod_lt n (by decide)⟩

/-- The characters of `str(uuid)`: the digits in groups of 8, 4, 4, 4 and 12. -/
def chars (u : UUID) : List Char :=
  let hex := Hex.encode 32 u.int
  hex.take 8 ++ '-' :: ((hex.drop 8).take 4 ++ '-' :: ((hex.drop 12).take 4 ++ '-' ::
    ((hex.drop 16).take 4 ++ '-' :: hex.drop 20)))

def str (u : UUID) : String := String.ofList u.chars

/-- The digits that `UUID(hex)` keeps of its argument: without `urn:`, `uuid:`,
    surrounding braces and hyphens. -/
def hexOf (text : List Char) : List Char :=
  (PythonText.stripBy (fun c => c == '{' || c == '}')
    (PythonText.eraseAll "uuid:".toList (PythonText.eraseAll "urn:".toList text))).filter
      (fun c => c != '-')

/-- `UUID(int=n)`, `none` for `ValueError`. -/
def ofInt (n : Int) : Option UUID :=
  if n < 0 then none
  else if h : n.toNat < 16 ^ 32 then some ⟨n.toNat, h⟩ else none

/-- `UUID(hex)`, `none` for `ValueError`: 32 characters that `int(hex, 16)` reads
    as a number in range. -/
def parse (text : String) : Option UUID :=
  if (hexOf text.toList).length ≠ 32 then none
  else (PythonText.int16 (hexOf text.toList)).bind ofInt

theorem filter_chars (u : UUID) : u.chars.filter (fun c => c != '-') = Hex.encode 32 u.int := by
  have hdigits : ∀ l : List Char, (∀ c ∈ l, c ∈ Hex.encode 32 u.int) →
      l.filter (fun c => c != '-') = l := by
    intro l hl
    rw [List.filter_eq_self]
    intro c hc
    exact Hex.of_mem_lowerDigits (p := fun d => d != '-') (by decide) (Hex.mem_encode (hl c hc))
  have htake : ∀ n k : Nat, ((Hex.encode 32 u.int).drop n |>.take k).filter (fun c => c != '-') =
      ((Hex.encode 32 u.int).drop n).take k := fun n k =>
    hdigits _ fun c hc => List.mem_of_mem_drop (List.mem_of_mem_take hc)
  have hfirst : ((Hex.encode 32 u.int).take 8).filter (fun c => c != '-') =
      (Hex.encode 32 u.int).take 8 := hdigits _ fun c hc => List.mem_of_mem_take hc
  have hlast : ((Hex.encode 32 u.int).drop 20).filter (fun c => c != '-') =
      (Hex.encode 32 u.int).drop 20 := hdigits _ fun c hc => List.mem_of_mem_drop hc
  simp only [chars, List.filter_append, List.filter_cons, bne_self_eq_false, Bool.false_eq_true,
    if_false, hfirst, htake, hlast]
  -- the five groups, put together again
  generalize Hex.encode 32 u.int = hex
  rw [← List.append_assoc, ← List.append_assoc, ← List.append_assoc]
  have h20 : hex.take 20 = hex.take 8 ++ (hex.drop 8).take 4 ++ (hex.drop 12).take 4 ++
      (hex.drop 16).take 4 := by
    rw [show (20 : Nat) = 16 + 4 from rfl, List.take_add, show (16 : Nat) = 12 + 4 from rfl,
      List.take_add, show (12 : Nat) = 8 + 4 from rfl, List.take_add]
  rw [← h20, List.take_append_drop]

theorem mem_chars {u : UUID} {c : Char} (h : c ∈ u.chars) : c = '-' ∨ c ∈ Hex.lowerDigits := by
  by_cases hc : c = '-'
  · exact Or.inl hc
  · right
    have hmem : c ∈ u.chars.filter (fun c => c != '-') := by simp [List.mem_filter, h, hc]
    rw [filter_chars] at hmem
    exact Hex.mem_encode hmem

theorem hexOf_chars (u : UUID) : hexOf u.chars = Hex.encode 32 u.int := by
  have hplain : ∀ c ∈ u.chars, c ≠ ':' ∧ (c == '{' || c == '}') = false := by
    intro c hc
    rcases mem_chars hc with rfl | hc
    · decide
    · have hdigit := Hex.of_mem_lowerDigits (p := fun d => d != ':' && d != '{' && d != '}')
        (by decide) hc
      simpa [and_assoc] using hdigit
  have hcolon : ':' ∉ u.chars := fun h => (hplain ':' h).1 rfl
  rw [hexOf, PythonText.eraseAll_eq_self (c := ':') (by decide) hcolon,
    PythonText.eraseAll_eq_self (c := ':') (by decide) hcolon,
    PythonText.stripBy_eq_self (fun c hc => (hplain c hc).2), filter_chars]

theorem ofInt_of_lt {n : Nat} (h : n < 16 ^ 32) : ofInt (Int.ofNat n) = some ⟨n, h⟩ := by
  have hnonneg : ¬ Int.ofNat n < 0 := Int.not_lt.mpr (Int.natCast_nonneg n)
  have hrange : (Int.ofNat n).toNat < 16 ^ 32 := h
  rw [ofInt, if_neg hnonneg, dif_pos hrange]
  rfl

/-- **`UUID(str(u)) == u`.** -/
@[simp] theorem parse_str (u : UUID) : parse u.str = some u := by
  have hlen : (Hex.encode 32 u.int).length = 32 := Hex.length_encode 32 u.int
  have hne : Hex.encode 32 u.int ≠ [] := List.ne_nil_of_length_pos (by omega)
  have hread : PythonText.int16 (Hex.encode 32 u.int) = some (Int.ofNat u.int) := by
    rw [PythonText.int16_of_digits hne (fun c hc => Hex.mem_encode hc),
      Hex.decode_encode u.isLt, Option.map_some]
  rw [parse, str, String.toList_ofList, hexOf_chars, if_neg (not_not.mpr hlen), hread,
    Option.bind_some, ofInt_of_lt u.isLt]

@[simp] theorem str_inj {u v : UUID} : u.str = v.str ↔ u = v :=
  ⟨fun h => Option.some_injective _ (by rw [← parse_str u, h, parse_str v]), congrArg str⟩

theorem length_chars (u : UUID) : u.chars.length = 36 := by
  simp [chars, Hex.length_encode]

theorem str_ne_empty (u : UUID) : u.str ≠ "" := by
  intro h
  have hlen := congrArg (fun s => s.toList.length) h
  simp [str, chars] at hlen

/-- The digits of `xxxxxxxx-xxxx-xxxx-xxxx-xxxxxxxxxxxx`. -/
def ungrouped (text : List Char) : Option (List Char) :=
  if text.length = 36 ∧ ∀ i ∈ [8, 13, 18, 23], text[i]? = some '-' then
    some (text.filter fun c => c != '-')
  else none

/-- The digits of what pydantic takes for a UUID: they stand alone, in groups, in groups
    between braces, or in groups after `urn:uuid:`. -/
def digitsOf (text : List Char) : Option (List Char) :=
  if text.length = 32 then some text
  else if text.head? = some '{' ∧ text.getLast? = some '}' then ungrouped text.tail.dropLast
  else if "urn:uuid:".toList <+: text then ungrouped (text.drop 9)
  else ungrouped text

/-- A field of type `UUID`, `none` where pydantic finds it invalid.  It takes less than
    `UUID(hex)`. -/
def validate (text : String) : Option UUID :=
  (digitsOf text.toList).bind fun digits =>
    if digits.length = 32 then (Hex.decode digits).bind fun n => ofInt n else none

theorem ungrouped_chars (u : UUID) : ungrouped u.chars = some (Hex.encode 32 u.int) := by
  have hhyphens : ∀ i ∈ [8, 13, 18, 23], u.chars[i]? = some '-' := by
    simp [chars, List.getElem?_append, Hex.length_encode]
  rw [ungrouped, if_pos ⟨length_chars u, hhyphens⟩, filter_chars]

@[simp] theorem validate_str (u : UUID) : validate u.str = some u := by
  have hlength := length_chars u
  have hdigits : digitsOf u.chars = some (Hex.encode 32 u.int) := by
    have hplain : ∀ c ∈ u.chars, c ≠ '{' ∧ c ≠ ':' := by
      intro c hc
      rcases mem_chars hc with rfl | hc
      · decide
      · have hdigit := Hex.of_mem_lowerDigits (p := fun d => d != '{' && d != ':') (by decide) hc
        simpa using hdigit
    have hbrace : ¬ (u.chars.head? = some '{' ∧ u.chars.getLast? = some '}') := fun h =>
      (hplain '{' (List.mem_of_mem_head? h.1)).1 rfl
    have hurn : ¬ "urn:uuid:".toList <+: u.chars := fun h =>
      (hplain ':' (h.subset (by decide))).2 rfl
    rw [digitsOf, if_neg (by omega), if_neg hbrace, if_neg hurn, ungrouped_chars]
  rw [validate, str, String.toList_ofList, hdigits, Option.bind_some,
    if_pos (Hex.length_encode 32 u.int), Hex.decode_encode u.isLt, Option.bind_some]
  exact ofInt_of_lt u.isLt

end UUID

/-! ## Enumerations -/

inductive UserRole where
  | student
  | coordinator
deriving DecidableEq, Repr

def UserRole.value : UserRole → String
  | .student => "student"
  | .coordinator => "coordinator"

def UserRole.ofValue (text : String) : Option UserRole :=
  if text = "student" then some .student
  else if text = "coordinator" then some .coordinator
  else none

@[simp] theorem UserRole.ofValue_value (role : UserRole) : ofValue role.value = some role := by
  cases role <;> rfl

theorem UserRole.value_ne_empty (role : UserRole) : role.value ≠ "" := by
  cases role <;> decide

inductive ApplicationStatus where
  | applied
  | shortlisted
  | assessment
  | technicalInterview
  | hrInterview
  | selected
  | rejected
deriving DecidableEq, Repr

def ApplicationStatus.value : ApplicationStatus → String
  | .applied => "Applied"
  | .shortlisted => "Shortlisted"
  | .assessment => "Assessment"
  | .technicalInterview => "Technical Interview"
  | .hrInterview => "HR Interview"
  | .selected => "Selected"
  | .rejected => "Rejected"

structure CurrentUser where
  id : UUID
  role : UserRole
deriving DecidableEq

/-! ## JSON values -/

inductive Json where
  | null
  | bool (b : Bool)
  | num (q : ℚ)
  | str (s : String)
  | arr (items : List Json)
  | obj (fields : List (String × Json))

/-- The number that Python compares a value as. -/
def Json.number : Json → Option ℚ
  | .num q => some q
  | .bool b => some (if b then 1 else 0)
  | _ => none

mutual

/-- Python's `==`: `True` equals `1`, and dicts are equal whatever their order. -/
def Json.eq : Json → Json → Bool
  | .null, b => match b with | .null => true | _ => false
  | .bool a, b => decide (b.number = (Json.bool a).number)
  | .num a, b => decide (b.number = some a)
  | .str a, b => match b with | .str b => decide (a = b) | _ => false
  | .arr a, b => match b with | .arr b => Json.eqItems a b | _ => false
  | .obj a, b => match b with
    | .obj b => decide (a.length = b.length) && Json.eqFields a b
    | _ => false
termination_by structural a => a

def Json.eqItems : List Json → List Json → Bool
  | [], b => b.isEmpty
  | x :: xs, b => match b with | [] => false | y :: ys => Json.eq x y && Json.eqItems xs ys
termination_by structural a => a

def Json.eqFields : List (String × Json) → List (String × Json) → Bool
  | [], _ => true
  | x :: xs, b => Json.eqField x b && Json.eqFields xs b
termination_by structural a => a

def Json.eqField : String × Json → List (String × Json) → Bool
  | (k, x), b => match b.lookup k with | none => false | some y => Json.eq x y
termination_by structural a => a

end

/-- `bool(value)`. -/
def Json.truthy : Json → Bool
  | .null => false
  | .bool b => b
  | .num q => decide (q ≠ 0)
  | .str text => decide (text ≠ "")
  | .arr items => !items.isEmpty
  | .obj fields => !fields.isEmpty

abbrev Dict := List (String × Json)

/-- `d.get(key)`, `none` when the key is absent. -/
def Dict.get (d : Dict) (key : String) : Option Json := d.lookup key

/-! ## Columns -/

/-- What a `VARCHAR(n)` holds of a text. -/
def varchar (n : Nat) (text : String) : String := String.ofList (text.toList.take n)

/-- A text goes into a `VARCHAR(n)`: spaces beyond its length are cut off, anything else there
    is an error. -/
def fits (n : Nat) (text : Option String) : Bool :=
  text.all fun t => (t.toList.drop n).all fun c => c == ' '

/-- A text that a `VARCHAR(n)` can hold. -/
def within (n : Nat) (text : Option String) : Bool := text.all fun t => decide (t.length ≤ n)

/-- A text that is equal to none in a `VARCHAR(n)`. -/
def overlong (n : Nat) (text : String) : Bool := decide (n < text.length)

theorem varchar_eq_self {n : Nat} {text : String} (h : text.length ≤ n) :
    varchar n text = text := by
  rw [varchar, List.take_of_length_le (String.length_toList ▸ h), String.ofList_toList]

theorem within_varchar (n : Nat) (text : Option String) :
    within n (text.map (varchar n)) = true := by
  rcases text with _ | t
  · rfl
  · simp [within, varchar]

theorem fits_of_within {n : Nat} {text : Option String} (h : within n text = true) :
    fits n text = true := by
  rcases text with _ | t
  · rfl
  · have hlength : t.toList.length ≤ n := String.length_toList ▸ of_decide_eq_true h
    rw [fits, Option.all_some, List.drop_of_length_le hlength]
    rfl

/-- What an `UPDATE` writes to a column: the assigned value, when it differs from the
    one the session loaded. -/
def written {α : Type} [DecidableEq α] (loaded : α) (assigned : Option α) : Option α :=
  assigned.filter fun value => decide (value ≠ loaded)

/-- The same of a column that holds `value a` once `a` has been assigned, when `differs` tells
    of values that are equal to none, not even to themselves. -/
def writtenAs {α β : Type} [DecidableEq β] (value : α → β) (differs : α → Bool) (loaded : β)
    (assigned : Option α) : Option β :=
  (assigned.filter fun a => differs a || decide (value a ≠ loaded)).map value

/-- What is written to a `VARCHAR(n)` that holds `loaded`. -/
abbrev writtenText (n : Nat) (loaded : Option String) (assigned : Option (Option String)) :
    Option (Option String) :=
  writtenAs (Option.map (varchar n)) (Option.any (overlong n)) loaded assigned

@[simp] theorem writtenAs_none {α β : Type} [DecidableEq β] (value : α → β) (differs : α → Bool)
    (loaded : β) : writtenAs value differs loaded none = none := rfl

theorem within_writtenText {n : Nat} {loaded stored : Option String}
    (hstored : within n stored = true) (assigned : Option (Option String)) :
    within n ((writtenText n loaded assigned).getD stored) = true := by
  rcases h : writtenText n loaded assigned with _ | v
  · exact hstored
  · obtain ⟨a, -, rfl⟩ := Option.map_eq_some_iff.mp h
    exact within_varchar n a

/-- A text that the column can hold is written when it differs from the loaded one. -/
theorem writtenText_of_within {n : Nat} {text : Option String} (h : within n text = true)
    (loaded : Option String) : writtenText n loaded (some text) = written loaded (some text) := by
  have hsame : text.map (varchar n) = text := by
    rcases text with _ | t
    · rfl
    · rw [Option.map_some, varchar_eq_self (of_decide_eq_true h)]
  have hshort : text.any (overlong n) = false := by
    rcases text with _ | t
    · rfl
    · exact decide_eq_false (Nat.not_lt.mpr (of_decide_eq_true h))
  rw [writtenText, writtenAs, written, Option.filter_some, Option.filter_some, hshort, hsame,
    Bool.false_or]
  split
  · rw [Option.map_some, hsame]
  · rfl

/-- A value that is not written is the loaded one, and that was accepted before. -/
theorem written_all {α : Type} [DecidableEq α] {loaded : α} {p : α → Bool} (h : p loaded = true)
    (assigned : Option α) : (written loaded assigned).all p = assigned.all p := by
  rcases assigned with _ | v
  · rfl
  · by_cases hv : v = loaded
    · subst hv
      simp [written, Option.filter, h]
    · simp [written, Option.filter, hv]

/-- A condition on what a lookup finds. -/
theorem forall_found_iff {α : Type} {found : Option α} {x : α} {p : α → Prop}
    (h : found = some x) : (∀ y, found = some y → p y) ↔ p x := by
  constructor
  · intro hall
    exact hall x h
  · intro hx y hy
    rw [h, Option.some_inj] at hy
    exact hy ▸ hx

/-! ## How a request fails -/

/-- What a handler raises: an `HTTPException`, or an error it does not catch (an
    answer of another service that is missing or not JSON, a refusal by the
    database, a publisher that is not connected or is refused, a value that Python
    cannot read or compare as the code asks for). -/
inductive ServiceError where
  | http (statusCode : Nat) (detail : String)
  | upstream
  | database
  | publisher
  | value
deriving DecidableEq, Repr

theorem toOption_eq_some {ε α : Type} {x : Except ε α} {a : α} :
    x.toOption = some a ↔ x = .ok a := by
  cases x <;> simp [Except.toOption]

/-- What an HTTP client gets back from another service: no answer, or a status
    code and a body, `none` when the body is not JSON. -/
inductive HttpAnswer where
  | unreachable
  | answered (statusCode : Nat) (body : Option Json)

def HttpAnswer.json (body : Option Json) : Except ServiceError Json :=
  match body with
  | some value => .ok value
  | none => .error .upstream

end CampusHire
