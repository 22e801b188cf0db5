import Mathlib.Data.List.Basic

/-!
# Texts in a worksheet

What openpyxl makes of a text that is appended to a worksheet: it is cut to 32767
characters, refused when a control character other than tab, newline and carriage
return occurs in what is left, taken for a formula when that starts with `=` and goes on,
and for an error value when it is one of the codes of these.  Every other text becomes the
text of its cell.

The file is XML.  Its reader does not open it when U+FFFE or U+FFFF occurs, and hands on
every end of a line as a newline.  So what is read back is the text that was appended
exactly when it is `Literal` (`written_eq_text_iff`).
-/

namespace Spreadsheet

/-- An empty cell is one of the empty text. -/
inductive Cell where
  | text (s : String)
  | formula (s : String)
  | error (s : String)
deriving DecidableEq

/-! ## Appending -/

def maxLength : Nat := 32767

def illegal (c : Char) : Bool :=
  decide (c.toNat < 32) && decide (c.toNat ≠ 9) && decide (c.toNat ≠ 10) && decide (c.toNat ≠ 13)

def truncated (s : String) : String := String.ofList (s.toList.take maxLength)

def startsFormula (s : String) : Bool :=
  decide (1 < s.toList.length) && decide (s.toList.head? = some '=')

def errorCodes : List String :=
  ["#NULL!", "#DIV/0!", "#VALUE!", "#REF!", "#NAME?", "#NUM!", "#N/A"]

/-- The cell of a text, `none` for `IllegalCharacterError`. -/
def bindValue (s : String) : Option Cell :=
  if (truncated s).toList.any illegal then none
  else if startsFormula (truncated s) then some (.formula (truncated s))
  else if truncated s ∈ errorCodes then some (.error (truncated s))
  else some (.text (truncated s))

/-- A worksheet to which the rows have been appended one after the other. -/
def appendRows (rows : List (List String)) : Option (List (List Cell)) :=
  rows.mapM fun row => row.mapM bindValue

/-! ## Reading -/

/-- Not allowed in a document, and not refused by `bindValue`. -/
def noncharacter (c : Char) : Bool := decide (c.toNat = 0xFFFE) || decide (c.toNat = 0xFFFF)

/-- The text with every end of a line as a newline. -/
def newlines : List Char → List Char
  | [] => []
  | '\r' :: '\n' :: rest => '\n' :: newlines rest
  | '\r' :: rest => '\n' :: newlines rest
  | c :: rest => c :: newlines rest

/-- The text of an element as it is read back, `none` when the document does not open. -/
def readText (s : String) : Option String :=
  if s.toList.any noncharacter then none else some (String.ofList (newlines s.toList))

def Cell.read : Cell → Option Cell
  | .text s => (readText s).map .text
  | .formula s => (readText s).map .formula
  | .error s => (readText s).map .error

/-- The worksheet of a saved file. -/
def readRows (sheet : List (List Cell)) : Option (List (List Cell)) :=
  sheet.mapM fun row => row.mapM Cell.read

/-! ## What stays as it is -/

structure Literal (s : String) : Prop where
  short : s.toList.length ≤ maxLength
  legal : s.toList.any illegal = false
  plain : startsFormula s = false
  noError : s ∉ errorCodes
  allowed : s.toList.any noncharacter = false
  oneLineEnd : '\r' ∉ s.toList

theorem truncated_eq_self {s : String} (h : s.toList.length ≤ maxLength) : truncated s = s := by
  rw [truncated, List.take_of_length_le h, String.ofList_toList]

theorem length_truncated_le (s : String) : (truncated s).toList.length ≤ maxLength := by
  rw [truncated, String.toList_ofList]
  exact List.length_take_le _ _

theorem length_newlines_le (l : List Char) : (newlines l).length ≤ l.length := by
  induction l using newlines.induct with
  | case1 => exact Nat.le_refl 0
  | case2 rest ih =>
    rw [newlines, List.length_cons, List.length_cons, List.length_cons]
    omega
  | case3 rest _ ih =>
    rw [newlines, List.length_cons, List.length_cons]
    · omega
    · assumption
  | case4 c rest _ _ ih =>
    rw [newlines, List.length_cons, List.length_cons]
    · omega
    all_goals assumption

theorem not_mem_newlines (l : List Char) : '\r' ∉ newlines l := by
  induction l using newlines.induct with
  | case1 => exact List.not_mem_nil
  | case2 rest ih =>
    rw [newlines, List.mem_cons, not_or]
    exact ⟨by decide, ih⟩
  | case3 rest _ ih =>
    rw [newlines, List.mem_cons, not_or]
    · exact ⟨by decide, ih⟩
    · assumption
  | case4 c rest _ hreturn ih =>
    rw [newlines, List.mem_cons, not_or]
    · exact ⟨fun h => hreturn h.symm, ih⟩
    all_goals assumption

theorem newlines_eq_self {l : List Char} (h : '\r' ∉ l) : newlines l = l := by
  induction l using newlines.induct with
  | case1 => rfl
  | case2 rest _ => exact absurd List.mem_cons_self h
  | case3 rest _ _ => exact absurd List.mem_cons_self h
  | case4 c rest _ _ ih =>
    rw [newlines, ih fun hmem => h (List.mem_cons_of_mem c hmem)]
    all_goals assumption

/-- What is read back of a text that has been appended. -/
def written (s : String) : Option Cell := (bindValue s).bind Cell.read

theorem Literal.bindValue {s : String} (h : Literal s) : bindValue s = some (.text s) := by
  rw [Spreadsheet.bindValue, truncated_eq_self h.short, h.legal, h.plain, if_neg h.noError]
  rfl

theorem Literal.written {s : String} (h : Literal s) : written s = some (.text s) := by
  rw [Spreadsheet.written, h.bindValue, Option.bind_some, Cell.read, readText, h.allowed,
    newlines_eq_self h.oneLineEnd, String.ofList_toList]
  rfl

/-- Nothing but the text of a cell is read as one. -/
theorem of_written {s t : String} (h : written s = some (.text t)) :
    (truncated s).toList.any illegal = false ∧ startsFormula (truncated s) = false ∧
      truncated s ∉ errorCodes ∧ (truncated s).toList.any noncharacter = false ∧
      t = String.ofList (newlines (truncated s).toList) := by
  have hread : ∀ c : Cell, c.read = some (.text t) → ∃ u, c = .text u ∧
      u.toList.any noncharacter = false ∧ t = String.ofList (newlines u.toList) := by
    intro c hc
    cases c with
    | text u =>
      rw [Cell.read, readText] at hc
      split at hc
      · cases hc
      · rename_i hallowed
        simp only [Option.map_some, Option.some_inj, Cell.text.injEq] at hc
        exact ⟨u, rfl, by simpa using hallowed, hc.symm⟩
    | formula u | error u =>
      obtain ⟨v, -, hv⟩ := Option.map_eq_some_iff.mp hc
      cases hv
  obtain ⟨c, hbind, hc⟩ := Option.bind_eq_some_iff.mp h
  obtain ⟨u, rfl, hallowed, ht⟩ := hread c hc
  unfold bindValue at hbind
  split at hbind
  · cases hbind
  rename_i hlegal
  split at hbind
  · cases hbind
  rename_i hplain
  split at hbind
  · cases hbind
  rename_i hcode
  obtain rfl : truncated s = u := Cell.text.inj (Option.some_inj.mp hbind)
  exact ⟨by simpa using hlegal, by simpa using hplain, hcode, hallowed, ht⟩

theorem written_eq_text_iff {s : String} : written s = some (.text s) ↔ Literal s := by
  constructor
  · intro h
    obtain ⟨hlegal, hplain, hcode, hallowed, hsame⟩ := of_written h
    have hchars : s.toList = newlines (truncated s).toList := by
      conv_lhs => rw [hsame]
      rw [String.toList_ofList]
    have hshort : s.toList.length ≤ maxLength := by
      rw [hchars]
      exact Nat.le_trans (length_newlines_le _) (length_truncated_le s)
    rw [truncated_eq_self hshort] at hlegal hplain hcode hallowed hchars
    exact ⟨hshort, hlegal, hplain, hcode, hallowed, hchars ▸ not_mem_newlines s.toList⟩
  · exact Literal.written

theorem bindValue_eq_none_iff {s : String} (h : s.toList.length ≤ maxLength) :
    bindValue s = none ↔ s.toList.any illegal = true := by
  unfold bindValue
  rw [truncated_eq_self h]
  split
  · rename_i hillegal
    exact iff_of_true rfl hillegal
  · rename_i hlegal
    split
    · exact iff_of_false nofun hlegal
    · split
      · exact iff_of_false nofun hlegal
      · exact iff_of_false nofun hlegal

theorem Literal.bindValue_ne_none {s : String} (h : Literal s) :
    Spreadsheet.bindValue s ≠ none := by
  rw [h.bindValue]
  nofun

theorem mapM_eq_map_iff {α β : Type*} {f : α → Option β} {g : α → β} {l : List α} :
    l.mapM f = some (l.map g) ↔ ∀ x ∈ l, f x = some (g x) := by
  induction l with
  | nil => simp
  | cons x l ih =>
    rw [List.mapM_cons, List.map_cons, List.forall_mem_cons, ← ih]
    rcases f x with _ | y
    · simp
    · rcases l.mapM f with _ | ys
      · simp
      · simp

theorem mapM_eq_none_iff {α β : Type*} {f : α → Option β} {l : List α} :
    l.mapM f = none ↔ ∃ x ∈ l, f x = none := by
  induction l with
  | nil => simp
  | cons x l ih =>
    rw [List.mapM_cons, List.exists_mem_cons_iff, ← ih]
    rcases f x with _ | y
    · simp
    · rcases l.mapM f with _ | ys
      · simp
      · simp

/-- To map and to map again, where either may fail. -/
theorem mapM_bind_mapM {α β γ : Type*} (f : α → Option β) (g : β → Option γ) (l : List α) :
    (l.mapM f).bind (fun ys => ys.mapM g) = l.mapM fun x => (f x).bind g := by
  induction l with
  | nil => rfl
  | cons x l ih =>
    rw [List.mapM_cons, List.mapM_cons, ← ih]
    rcases f x with _ | y
    · rfl
    rcases l.mapM f with _ | ys
    · rcases hy : g y with _ | z
      · simp [hy]
      · simp [hy]
    · simp [List.mapM_cons]

theorem appendRows_eq_none_iff {rows : List (List String)} :
    appendRows rows = none ↔ ∃ row ∈ rows, ∃ s ∈ row, bindValue s = none := by
  simp only [appendRows, mapM_eq_none_iff]

theorem readRows_appendRows_iff {rows : List (List String)} :
    (appendRows rows).bind readRows = some (rows.map fun row => row.map .text) ↔
      ∀ row ∈ rows, ∀ s ∈ row, Literal s := by
  have hrow : ∀ row : List String,
      (row.mapM bindValue).bind (fun cells => cells.mapM Cell.read) = row.mapM written :=
    mapM_bind_mapM bindValue Cell.read
  have hrows : (appendRows rows).bind readRows = rows.mapM fun row => row.mapM written :=
    calc (appendRows rows).bind readRows
        = rows.mapM fun row => (row.mapM bindValue).bind fun cells => cells.mapM Cell.read :=
          mapM_bind_mapM _ _ rows
      _ = rows.mapM fun row => row.mapM written := by simp only [hrow]
  rw [hrows, mapM_eq_map_iff]
  simp only [mapM_eq_map_iff, written_eq_text_iff]

end Spreadsheet
