import CampusHire.OpportunityTasks
import CampusHire.PythonDatetime
import CampusHire.Spreadsheet

/-!
# The Excel export

`generate_excel_export` with what it writes: a row of headers and a row for every
registration of the opportunity, in the order in which the database returns them.  The
texts of a row are the student's id, the `str` of the responses, the link of the resume
and the time in ISO format; of these the student chooses the second and the third.
-/

namespace CampusHire.ExcelExport

open CampusHire OpportunityService Schedule Python Spreadsheet

/-! ## Registrations as the session loads them -/

structure Row where
  studentId : UUID
  fieldResponses : List (String × Value)
  resumeUrl : Option String
  submittedAt : Datetime

/-- The object of a stored registration: its responses are the stored JSON, its time is
    the stored time. -/
structure Reads (reg : Registration) (row : Row) : Prop where
  student : row.studentId = reg.studentId
  responses : (Json.obj (jsonFields row.fieldResponses)).eq (.obj reg.fieldResponses) = true
  resume : row.resumeUrl = reg.resumeUrl
  submitted : row.submittedAt.timestamp = reg.submittedAt

/-- `db.query(Registration).filter(...).all()` returns them in any order. -/
def Queried (s : State) (opportunityId : UUID) (rows : List Row) : Prop :=
  ∃ regs, regs.Perm (s.registrations.filter fun r => decide (r.opportunityId = opportunityId)) ∧
    List.Forall₂ Reads regs rows

/-! ## The workbook -/

def headers : List String := ["Student ID", "Responses", "Resume Link", "Submitted At"]

section Export

variable (python : Interpreter)

def texts (reg : Row) : List String :=
  [reg.studentId.str, strDict python reg.fieldResponses,
    -- `reg.resume_url or ""`
    reg.resumeUrl.getD "", reg.submittedAt.isoformat]

def generateExcelExport (s : State) (opportunityId : UUID) (regs : List Row) :
    Except ServiceError (List (List Cell)) :=
  match getOpportunity s opportunityId with
  | .error e => .error e
  | .ok _ =>
    match appendRows (headers :: regs.map (texts python)) with
    | some sheet => .ok sheet
    | none => .error .value

/-- The rows in their literal texts. -/
def literalSheet (regs : List Row) : List (List Cell) :=
  (headers :: regs.map (texts python)).map fun row => row.map .text

/-! ## What is written as it is -/

theorem not_illegal {c : Char} (h : Shown c) : illegal c = false := by
  simp [illegal, Nat.not_lt.mpr h.1]

theorem literal_of_visible {s : String} (hvisible : Visible s.toList)
    (hshort : s.toList.length ≤ maxLength) (hhead : s.toList.head? ≠ some '=')
    (hcode : s.toList.head? ≠ some '#') : Literal s where
  short := hshort
  legal := by
    rw [List.any_eq_false]
    intro c hc
    simp [not_illegal (hvisible c hc)]
  plain := by simp [startsFormula, hhead]
  noError := by
    have hall : ∀ code ∈ errorCodes, code.toList.head? = some '#' := by decide
    intro hmem
    exact hcode (hall s hmem)
  allowed := by
    rw [List.any_eq_false]
    intro c hc
    simp [noncharacter, (hvisible c hc).2]
  oneLineEnd := by
    intro hreturn
    exact absurd (hvisible _ hreturn) (by decide)

theorem literal_str (u : UUID) : Literal u.str := by
  have hchars : ∀ c ∈ u.chars, Shown c ∧ c ≠ '=' ∧ c ≠ '#' := by
    intro c hc
    rcases UUID.mem_chars hc with rfl | hdigit
    · decide
    · have hall : Hex.lowerDigits.all (fun c => decide (Shown c ∧ c ≠ '=' ∧ c ≠ '#')) = true := by
        decide
      simpa using Hex.of_mem_lowerDigits hall hdigit
  apply literal_of_visible
  · rw [UUID.str, String.toList_ofList]
    exact fun c hc => (hchars c hc).1
  · rw [UUID.str, String.toList_ofList, UUID.length_chars]
    decide
  · rw [UUID.str, String.toList_ofList]
    intro hhead
    exact (hchars '=' (List.mem_of_mem_head? hhead)).2.1 rfl
  · rw [UUID.str, String.toList_ofList]
    intro hhead
    exact (hchars '#' (List.mem_of_mem_head? hhead)).2.2 rfl

theorem literal_isoformat (t : Datetime) : Literal t.isoformat := by
  apply literal_of_visible t.visible_isoformat (le_trans t.length_isoformat_le (by decide))
  · intro hhead
    exact absurd (Datetime.isoformat_head hhead) (by decide)
  · intro hhead
    exact absurd (Datetime.isoformat_head hhead) (by decide)

/-- The text of a dict starts with a brace and escapes its control characters. -/
theorem literal_strDict_iff (fields : List (String × Value)) :
    Literal (strDict python fields) ↔ (strDict python fields).toList.length ≤ maxLength := by
  constructor
  · exact Literal.short
  · intro hshort
    have hrepr := visible_repr python (.dict fields)
    have hhead : (strDict python fields).toList.head? = some (Char.ofNat 123) := by
      rw [strDict, String.toList_ofList, Value.repr, List.cons_append, List.head?_cons]
    refine literal_of_visible ?_ hshort ?_ ?_
    · rw [strDict, String.toList_ofList]
      exact hrepr
    · rw [hhead]
      decide
    · rw [hhead]
      decide

theorem short_resumeUrl {reg : Row} (hshort : within 500 reg.resumeUrl = true) :
    (reg.resumeUrl.getD "").toList.length ≤ maxLength := by
  rcases hurl : reg.resumeUrl with _ | url
  · decide
  · rw [hurl] at hshort
    have hlength : url.length ≤ 500 := of_decide_eq_true hshort
    rw [Option.getD_some, String.length_toList]
    exact le_trans hlength (by decide)

/-- A registration whose row is written as it is. -/
structure Exportable (reg : Row) : Prop where
  responses : (strDict python reg.fieldResponses).toList.length ≤ maxLength
  legal : (reg.resumeUrl.getD "").toList.any illegal = false
  plain : startsFormula (reg.resumeUrl.getD "") = false
  noError : reg.resumeUrl.getD "" ∉ errorCodes
  allowed : (reg.resumeUrl.getD "").toList.any noncharacter = false
  oneLineEnd : '\r' ∉ (reg.resumeUrl.getD "").toList

theorem literal_texts_iff {reg : Row} (hshort : within 500 reg.resumeUrl = true) :
    (∀ s ∈ texts python reg, Literal s) ↔ Exportable python reg := by
  simp only [texts, List.forall_mem_cons, literal_str, literal_isoformat, literal_strDict_iff,
    true_and]
  constructor
  · rintro ⟨hresponses, hresume, -⟩
    exact ⟨hresponses, hresume.legal, hresume.plain, hresume.noError, hresume.allowed,
      hresume.oneLineEnd⟩
  · intro h
    exact ⟨h.responses, ⟨short_resumeUrl hshort, h.legal, h.plain, h.noError, h.allowed,
      h.oneLineEnd⟩, nofun⟩

theorem literal_headers : ∀ s ∈ headers, Literal s := by
  have hall : ∀ s ∈ headers, Visible s.toList ∧ s.toList.length ≤ maxLength ∧
      s.toList.head? ≠ some '=' ∧ s.toList.head? ≠ some '#' := by decide
  intro s hs
  obtain ⟨hvisible, hshort, hhead, hcode⟩ := hall s hs
  exact literal_of_visible hvisible hshort hhead hcode

/-- The export does not raise, its file opens, and the worksheet of the file is the literal
    one. -/
def Faithful (s : State) (opportunityId : UUID) (regs : List Row) : Prop :=
  ∃ sheet, generateExcelExport python s opportunityId regs = .ok sheet ∧
    readRows sheet = some (literalSheet python regs)

theorem faithful_iff_exportable {s : State} {id : UUID} {opp : Opportunity}
    (hopp : findOpportunity s id = some opp) {rows : List Row}
    (hshort : ∀ row ∈ rows, within 500 row.resumeUrl = true) :
    Faithful python s id rows ↔ ∀ row ∈ rows, Exportable python row := by
  have hexport : Faithful python s id rows ↔
      (appendRows (headers :: rows.map (texts python))).bind readRows =
        some (literalSheet python rows) := by
    rw [Faithful, generateExcelExport, getOpportunity, hopp]
    dsimp only
    rcases appendRows (headers :: rows.map (texts python)) with _ | sheet
    · exact iff_of_false (by rintro ⟨sheet, h, -⟩; cases h) nofun
    · simp only [Except.ok.injEq, Option.bind_some, exists_eq_left']
  rw [hexport, literalSheet, readRows_appendRows_iff, List.forall_mem_cons, List.forall_mem_map]
  constructor
  · intro h row hrow
    exact (literal_texts_iff python (hshort row hrow)).mp (h.2 row hrow)
  · intro h
    refine ⟨literal_headers, fun row hrow => ?_⟩
    exact (literal_texts_iff python (hshort row hrow)).mpr (h row hrow)

/-! ## What raises -/

/-- However long it is, the text of a dict has no control characters. -/
theorem bindValue_strDict (fields : List (String × Value)) :
    bindValue (strDict python fields) ≠ none := by
  have hlegal : (truncated (strDict python fields)).toList.any illegal = false := by
    rw [List.any_eq_false]
    intro c hc
    rw [truncated, strDict, String.toList_ofList, String.toList_ofList] at hc
    simp [not_illegal (visible_repr python (.dict fields) c (List.mem_of_mem_take hc))]
  rw [bindValue, if_neg (by simp [hlegal])]
  split
  · exact Option.some_ne_none _
  · split
    · exact Option.some_ne_none _
    · exact Option.some_ne_none _

/-- The export of rows is refused for a control character in the link of a resume. -/
theorem appendRows_eq_none_iff_illegal {rows : List Row}
    (hshort : ∀ row ∈ rows, within 500 row.resumeUrl = true) :
    appendRows (headers :: rows.map (texts python)) = none ↔
      ∃ row ∈ rows, (row.resumeUrl.getD "").toList.any illegal = true := by
  have hheaders : ¬ ∃ s ∈ headers, bindValue s = none := by
    rintro ⟨s, hs, hnone⟩
    exact (literal_headers s hs).bindValue_ne_none hnone
  have hrow : ∀ row ∈ rows, (∃ s ∈ texts python row, bindValue s = none) ↔
      (row.resumeUrl.getD "").toList.any illegal = true := by
    intro row hmem
    simp only [texts, List.exists_mem_cons_iff, (literal_str row.studentId).bindValue_ne_none,
      bindValue_strDict, (literal_isoformat row.submittedAt).bindValue_ne_none, false_or,
      List.not_mem_nil, false_and, exists_false, or_false]
    exact bindValue_eq_none_iff (short_resumeUrl (hshort row hmem))
  rw [appendRows_eq_none_iff, List.exists_mem_cons_iff, or_iff_right hheaders]
  constructor
  · rintro ⟨_, hmem, hnone⟩
    obtain ⟨row, hrows, rfl⟩ := List.mem_map.mp hmem
    exact ⟨row, hrows, (hrow row hrows).mp hnone⟩
  · rintro ⟨row, hrows, hillegal⟩
    exact ⟨texts python row, List.mem_map_of_mem hrows, (hrow row hrows).mpr hillegal⟩

end Export

/-! ## What registrations hold -/

theorem within_insertRegistration {s s' : State} {env : Env} {opportunityId studentId : UUID}
    {data : RegistrationCreate}
    (h : insertRegistration s env opportunityId studentId data = .ok s')
    (hrows : ∀ r ∈ s.registrations, within 500 r.resumeUrl = true) :
    ∀ r ∈ s'.registrations, within 500 r.resumeUrl = true := by
  rw [(insertRegistration_ok h).2]
  intro r hr
  rcases List.mem_append.mp hr with hold | hnew
  · exact hrows r hold
  · rw [List.mem_singleton.mp hnew]
    exact within_varchar 500 data.resumeUrl

theorem resumeUrls_within {ι : Type*} [DecidableEq ι] (jobs : ι → Job) (schedule : List (ι × Env)) :
    ∀ r ∈ (run program (arrive jobs) schedule).store.registrations,
      within 500 r.resumeUrl = true := by
  have hempty : ∀ r ∈ State.empty.registrations, within 500 r.resumeUrl = true :=
    fun r hr => by cases hr
  refine run_store_invariant program
    (I := fun s => ∀ r ∈ s.registrations, within 500 r.resumeUrl = true) ?_ hempty schedule
  intro env s t hrows
  apply taskStep_preserves
    (I := fun s => ∀ r ∈ s.registrations, within 500 r.resumeUrl = true) hrows
  · intro coordinatorId data s' hins
    rw [(insertOpportunity_ok hins).2.2]
    exact hrows
  · intro opp data s' hcommit
    rw [commitUpdate_ok hcommit]
    exact hrows
  · intro opportunityId studentId data s' hins
    exact within_insertRegistration hins hrows

theorem within_queried {s : State} {id : UUID} {rows : List Row} (hrows : Queried s id rows)
    (hshort : ∀ r ∈ s.registrations, within 500 r.resumeUrl = true) :
    ∀ row ∈ rows, within 500 row.resumeUrl = true := by
  obtain ⟨regs, hperm, hreads⟩ := hrows
  have hregs : ∀ r ∈ regs, within 500 r.resumeUrl = true :=
    fun r hr => hshort r (List.mem_of_mem_filter (hperm.mem_iff.mp hr))
  clear hperm
  induction hreads with
  | nil => exact List.forall_mem_nil _
  | cons hread _ ih =>
    rw [List.forall_mem_cons] at hregs ⊢
    exact ⟨hread.resume ▸ hregs.1, ih hregs.2⟩

/-! ## The export of what requests have stored -/

section Runs

variable {ι : Type*} [DecidableEq ι] (python : Interpreter) (jobs : ι → Job)
  (schedule : List (ι × Env))

/-- **The export is faithful exactly when no student's texts are changed or refused.**
    For every opportunity of a state that requests have reached and whatever its
    registrations are: the export returns a file that opens, with a row of headers and the row
    of each of them in literal texts, if and only if the text of no responses is over 32767
    characters and no link reads as a formula or an error value or has a carriage return, a
    forbidden control character, U+FFFE or U+FFFF. -/
theorem export_faithful_iff (id : UUID) (opp : Opportunity) (rows : List Row)
    (hopp : findOpportunity (run program (arrive jobs) schedule).store id = some opp)
    (hrows : Queried (run program (arrive jobs) schedule).store id rows) :
    Faithful python (run program (arrive jobs) schedule).store id rows ↔
      ∀ row ∈ rows, Exportable python row :=
  faithful_iff_exportable python hopp (within_queried hrows (resumeUrls_within jobs schedule))

/-- What the other models take the export for: it fails when a link is refused. -/
theorem export_refines (id : UUID) (rows : List Row) (env : Env)
    (hrows : Queried (run program (arrive jobs) schedule).store id rows)
    (hfails : env.exportFails id =
      rows.any fun row => (row.resumeUrl.getD "").toList.any illegal) :
    OpportunityService.generateExcelExport (run program (arrive jobs) schedule).store env id =
      (generateExcelExport python (run program (arrive jobs) schedule).store id rows).map
        fun _ => () := by
  have hnone := appendRows_eq_none_iff_illegal python
    (within_queried hrows (resumeUrls_within jobs schedule))
  rw [OpportunityService.generateExcelExport, generateExcelExport]
  rcases getOpportunity (run program (arrive jobs) schedule).store id with e | opp
  · rfl
  dsimp only
  rcases happend : appendRows (headers :: rows.map (texts python)) with _ | sheet
  · have hillegal : env.exportFails id = true := by
      rw [hfails, List.any_eq_true]
      exact hnone.mp happend
    rw [hillegal]
    rfl
  · have hlegal : env.exportFails id = false := by
      rw [hfails, ← Bool.not_eq_true, List.any_eq_true]
      intro hillegal
      rw [hnone.mpr hillegal] at happend
      cases happend
    rw [hlegal]
    rfl

end Runs

/-! ## A formula and a control character -/

def plainPython : Interpreter where
  printable := fun _ => false
  printable_ne := fun _ h => by cases h
  floatRepr := fun _ => "0.0".toList
  floatRepr_chars := fun _ => by simp

/-- A coordinator posts an opportunity and a student registers with a link. -/
def posting (url : String) : Bool → Job
  | false => .request ⟨.ofNat 2, .coordinator⟩ (.createOpp { title := "Intern" })
  | true => .request ⟨.ofNat 3, .student⟩
      (.createRegistration (.ofNat 1) { resumeUrl := some url })

def exportEnv : Env where
  profile := .answered 404 none
  uuid4 := fun _ => .ofNat 1
  txnStart := 0
  clock := 0
  databaseFails := false
  exportFails := fun _ => false
  reloadFails := fun _ => false

def postedOrder : List (Bool × Env) :=
  [(false, exportEnv), (false, exportEnv)] ++ List.replicate 5 (true, exportEnv)

def registered (url : String) : State := (run program (arrive (posting url)) postedOrder).store

def epoch : Datetime where
  year := 1970
  month := 1
  day := 1
  hour := 0
  minute := 0
  second := 0
  microsecond := 0
  offset := 0
  year_range := by decide
  month_range := by decide
  day_range := by decide
  time_range := by decide
  offset_range := by decide

def registeredRow (url : String) : Row := ⟨.ofNat 3, [], some url, epoch⟩

def stored (url : String) : Registration := ⟨.ofNat 1, .ofNat 1, .ofNat 3, [], some url, 0⟩

theorem timestamp_epoch : epoch.timestamp = 0 := by decide +kernel

theorem reads_stored (url : String) : Reads (stored url) (registeredRow url) where
  student := rfl
  responses := rfl
  resume := rfl
  submitted := timestamp_epoch

theorem queried_registered {url : String} (h : (registered url).registrations = [stored url]) :
    Queried (registered url) (.ofNat 1) [registeredRow url] := by
  refine ⟨[stored url], ?_, .cons (reads_stored url) .nil⟩
  rewrite [h]
  rfl

/-- A link that starts with `=` becomes a formula. -/
theorem link_becomes_formula :
    ¬ ∀ (python : Interpreter) (jobs : Bool → Job) (schedule : List (Bool × Env)) (id : UUID)
      (opp : Opportunity) (rows : List Row),
      findOpportunity (run program (arrive jobs) schedule).store id = some opp →
      Queried (run program (arrive jobs) schedule).store id rows →
      Faithful python (run program (arrive jobs) schedule).store id rows := by
  intro h
  have hfaithful := h plainPython (posting "=1+1") postedOrder (.ofNat 1) _
    [registeredRow "=1+1"] rfl (queried_registered rfl)
  have hexportable := (faithful_iff_exportable plainPython rfl (by decide)).mp hfaithful _
    List.mem_cons_self
  exact absurd hexportable.plain (by decide)

/-- A control character makes the export raise. -/
example : generateExcelExport plainPython (registered "\x01") (.ofNat 1) [registeredRow "\x01"] =
    .error .value := rfl

/-- A link like any other is written as it is. -/
theorem link_is_written :
    Faithful plainPython (registered "https://cv") (.ofNat 1) [registeredRow "https://cv"] := by
  refine (export_faithful_iff plainPython (posting "https://cv") postedOrder (.ofNat 1) _
    [registeredRow "https://cv"] rfl (queried_registered rfl)).mpr ?_
  intro row hrow
  rw [List.mem_singleton.mp hrow]
  exact ⟨by decide, by decide, by decide, by decide, by decide, by decide⟩

end CampusHire.ExcelExport
