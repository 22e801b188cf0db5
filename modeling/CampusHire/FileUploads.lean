import CampusHire.Common
import CampusHire.PathTemplate
import Mathlib.Data.List.DropRight

/-!
# Uploaded files and their URLs

`campushire_storage` with the local backend, the two routes that upload through it, and
`serve_local_file`.  The route of the files has one segment for the folder.  A file that
is saved under a folder of one segment is served at the URL it was given
(`served_of_segment`), and one under a folder of several segments is not
(`not_served_of_slash`).  Both services save under folders of two.
-/

namespace CampusHire.FileUploads

open CampusHire PathTemplate

/-! ## Paths and the disk -/

/-- The components of a path from the root. -/
abbrev Path := List (List Char)

/-- `Path(text)` drops empty components and dots. -/
def components (text : List Char) : Path :=
  (segments text).filter fun part => decide (part ≠ []) && decide (part ≠ ['.'])

/-- `base / text`: an absolute text replaces the base. -/
def joinpath (base : Path) (text : List Char) : Path :=
  if text.head? = some '/' then components text else base ++ components text

/-- `path.suffix`: from the last dot of the name, unless that is its first or last
    character. -/
def suffix (path : Path) : List Char :=
  let name := path.getLast?.getD []
  let ending := name.rtakeWhile fun c => c != '.'
  if 1 + ending.length < name.length ∧ ending ≠ [] then '.' :: ending else []

inductive Node where
  | directory
  | file (content : List UInt8)

abbrev Disk := Path → Option Node

/-- A directory, unless there is one; `none` when a file is in the way. -/
def makeDirectory (disk : Disk) (dir : Path) : Option Disk :=
  match disk dir with
  | none => some (Function.update disk dir (some .directory))
  | some .directory => some disk
  | some (.file _) => none

/-- `path.mkdir(parents=True, exist_ok=True)` -/
def mkdir (disk : Disk) (path : Path) : Option Disk := path.inits.foldlM makeDirectory disk

/-- `path.write_bytes(content)`, `none` when a directory has the name. -/
def writeBytes (disk : Disk) (path : Path) (content : List UInt8) : Option Disk :=
  match disk path with
  | some .directory => none
  | _ => some (Function.update disk path (some (.file content)))

/-! ## `campushire_storage` -/

structure UploadFile where
  filename : Option String
  content : List UInt8

def allowedExtensions : List (List Char) :=
  [".pdf".toList, ".csv".toList, ".doc".toList, ".docx".toList]

/-- No character outside ASCII has a lowercase that is in one of the extensions. -/
def validateUpload (file : UploadFile) : Except ServiceError Unit :=
  match file.filename with
  | none => .error .value
  | some name =>
    if name = "" then .error .value
    else if (suffix (components name.toList)).map Char.toLower ∈ allowedExtensions then .ok ()
    else .error .value

/-- `file.filename or "upload"`. -/
def UploadFile.name (file : UploadFile) : List Char :=
  match file.filename with
  | none => "upload".toList
  | some name => if name = "" then "upload".toList else name.toList

/-- The name that `save` makes up. -/
def savedName (uuid4 : UUID) (file : UploadFile) : List Char :=
  uuid4.chars ++ suffix (components file.name)

/-- `LocalStorageBackend.save`: what is on the disk, and the URL. -/
def save (base : Path) (publicBaseUrl : List Char) (disk : Disk) (uuid4 : UUID) (file : UploadFile)
    (folder : List Char) : Disk × Except ServiceError (List Char) :=
  match mkdir disk (joinpath base folder) with
  | none => (disk, .error .value)
  | some disk =>
    let key := folder ++ '/' :: savedName uuid4 file
    match writeBytes disk (joinpath base key) file.content with
    | none => (disk, .error .value)
    | some disk => (disk, .ok (publicBaseUrl ++ '/' :: key))

/-! ## The routes -/

/-- `public_base_url` in both services. -/
def publicBaseUrl : List Char := "/api/v1/files".toList

/-- `/api/v1/files/{folder}/{filename}` -/
def filesRoute : List Part :=
  (segments publicBaseUrl).map .fixed ++ [.param, .param]

inductive Upload where
  | resume (user : CurrentUser) (file : UploadFile)
  | driveFile (user : CurrentUser) (file : UploadFile)

def Upload.file : Upload → UploadFile
  | .resume _ file => file
  | .driveFile _ file => file

def Upload.folder : Upload → List Char
  | .resume user _ => "resumes/".toList ++ user.id.chars
  | .driveFile user _ => "drives/".toList ++ user.id.chars

/-- `upload_resume` and `upload_file`. -/
def uploadFile (base : Path) (disk : Disk) (uuid4 : UUID) (upload : Upload) :
    Disk × Except ServiceError (List Char) :=
  match validateUpload upload.file with
  | .error e => (disk, .error e)
  | .ok () => save base publicBaseUrl disk uuid4 upload.file upload.folder

/-- The routes `resume_upload` and `upload_drive_file`. -/
def handle (base : Path) (disk : Disk) (uuid4 : UUID) :
    Upload → Disk × Except ServiceError (List Char)
  | .resume user file =>
      if user.role ≠ .student then (disk, .error (.http 403 "Student only"))
      else uploadFile base disk uuid4 (.resume user file)
  | .driveFile user file => uploadFile base disk uuid4 (.driveFile user file)

/-- Uploads handled one after the other, each with the name that it draws. -/
def execute (base : Path) (disk : Disk) (uploads : List (Upload × UUID)) : Disk :=
  uploads.foldl (fun disk upload => (handle base disk upload.2 upload.1).1) disk

/-- What `serve_local_file` answers with. -/
inductive Served where
  | notFound
  | content (bytes : List UInt8)

/-- A `FileResponse` cannot send a directory. -/
def serveLocalFile (base : Path) (disk : Disk) (folder filename : List Char) :
    Except ServiceError Served :=
  match disk (joinpath (joinpath base folder) filename) with
  | none => .ok .notFound
  | some .directory => .error .value
  | some (.file bytes) => .ok (.content bytes)

/-- The URL matches the route of the files, the path that comes out of it is `dest`, and
    `content` is sent. -/
def ServedAt (base : Path) (disk : Disk) (url : List Char) (dest : Path) (content : List UInt8) :
    Prop :=
  ∃ folder filename, matchPath filesRoute url = some [folder, filename] ∧
    joinpath (joinpath base folder) filename = dest ∧
    serveLocalFile base disk folder filename = .ok (.content content)

/-! ## What a save leaves on the disk -/

theorem writeBytes_eq_some {disk disk' : Disk} {path : Path} {content : List UInt8}
    (h : writeBytes disk path content = some disk') :
    disk' = Function.update disk path (some (.file content)) := by
  unfold writeBytes at h
  split at h
  · cases h
  · exact (Option.some.inj h).symm

/-- `mkdir` leaves every node as it is. -/
theorem mkdir_keeps {disk disk' : Disk} {dir path : Path} (h : mkdir disk dir = some disk')
    {node : Node} (hnode : disk path = some node) : disk' path = some node := by
  rw [mkdir] at h
  generalize dir.inits = dirs at h
  induction dirs generalizing disk with
  | nil =>
    cases h
    exact hnode
  | cons first rest ih =>
    obtain ⟨next, hfirst, hrest⟩ := Option.bind_eq_some_iff.mp h
    refine ih ?_ hrest
    unfold makeDirectory at hfirst
    split at hfirst
    · rename_i hnone
      cases hfirst
      have hne : path ≠ first := fun heq => by
        rw [heq, hnone] at hnode
        cases hnode
      rw [Function.update_of_ne hne, hnode]
    · cases hfirst
      exact hnode
    · cases hfirst

theorem save_ok {base : Path} {publicBaseUrl folder url : List Char} {disk : Disk} {uuid4 : UUID}
    {file : UploadFile} (h : (save base publicBaseUrl disk uuid4 file folder).2 = .ok url) :
    url = publicBaseUrl ++ '/' :: (folder ++ '/' :: savedName uuid4 file) ∧
      (save base publicBaseUrl disk uuid4 file folder).1
        (joinpath base (folder ++ '/' :: savedName uuid4 file)) = some (.file file.content) := by
  rcases hmade : mkdir disk (joinpath base folder) with _ | made
  · simp only [save, hmade] at h
    cases h
  rcases hwrite : writeBytes made (joinpath base (folder ++ '/' :: savedName uuid4 file))
    file.content with _ | written
  · simp only [save, hmade, hwrite] at h
    cases h
  · simp only [save, hmade, hwrite] at h ⊢
    cases h
    refine ⟨rfl, ?_⟩
    rw [writeBytes_eq_some hwrite, Function.update_self]

/-- A save changes no file but the one it writes. -/
theorem save_keeps {base path : Path} {publicBaseUrl folder : List Char} {disk : Disk}
    {uuid4 : UUID}
    {file : UploadFile} (hne : path ≠ joinpath base (folder ++ '/' :: savedName uuid4 file))
    {node : Node} (hnode : disk path = some node) :
    (save base publicBaseUrl disk uuid4 file folder).1 path = some node := by
  unfold save
  rcases hmade : mkdir disk (joinpath base folder) with _ | made
  · exact hnode
  dsimp only
  have hkept := mkdir_keeps hmade hnode
  rcases hwrite : writeBytes made (joinpath base (folder ++ '/' :: savedName uuid4 file))
    file.content with _ | written
  · exact hkept
  · rw [writeBytes_eq_some hwrite]
    exact (Function.update_of_ne hne _ _).trans hkept

/-- The path that an upload is saved under. -/
def destination (base : Path) (uuid4 : UUID) (upload : Upload) : Path :=
  joinpath base (upload.folder ++ '/' :: savedName uuid4 upload.file)

theorem handle_cases (base : Path) (disk : Disk) (uuid4 : UUID) (upload : Upload) :
    (∃ e, handle base disk uuid4 upload = (disk, .error e)) ∨
      handle base disk uuid4 upload =
        save base publicBaseUrl disk uuid4 upload.file upload.folder := by
  have hupload : (∃ e, uploadFile base disk uuid4 upload = (disk, .error e)) ∨
      uploadFile base disk uuid4 upload =
        save base publicBaseUrl disk uuid4 upload.file upload.folder := by
    rw [uploadFile]
    rcases validateUpload upload.file with e | ⟨⟩
    · exact Or.inl ⟨e, rfl⟩
    · exact Or.inr rfl
  cases upload with
  | resume user file =>
    rw [handle]
    split
    · exact Or.inl ⟨_, rfl⟩
    · exact hupload
  | driveFile user file => exact hupload

/-- **A saved file stays**: under the name it was saved under, with what was uploaded,
    whatever is uploaded later under other names. -/
theorem saved_stays {base : Path} {disk : Disk} {uuid4 : UUID} {upload : Upload} {url : List Char}
    (h : (handle base disk uuid4 upload).2 = .ok url) (later : List (Upload × UUID))
    (hfresh : ∀ other ∈ later, destination base other.2 other.1 ≠ destination base uuid4 upload) :
    execute base (handle base disk uuid4 upload).1 later (destination base uuid4 upload) =
      some (.file upload.file.content) := by
  have hsaved : (handle base disk uuid4 upload).1 (destination base uuid4 upload) =
      some (.file upload.file.content) := by
    rcases handle_cases base disk uuid4 upload with ⟨e, heq⟩ | heq
    · rw [heq] at h
      cases h
    · rw [heq] at h ⊢
      exact (save_ok h).2
  generalize (handle base disk uuid4 upload).1 = disk' at hsaved
  induction later generalizing disk' with
  | nil => exact hsaved
  | cons other later ih =>
    refine ih (fun o ho => hfresh o (List.mem_cons_of_mem _ ho)) _ ?_
    dsimp only
    rcases handle_cases base disk' other.2 other.1 with ⟨e, heq⟩ | heq
    · rw [heq]
      exact hsaved
    · rw [heq]
      exact save_keeps (hfresh other List.mem_cons_self).symm hsaved

/-! ## The URL -/

theorem segments_url (folder name : List Char) :
    segments (publicBaseUrl ++ '/' :: (folder ++ '/' :: name)) =
      segments publicBaseUrl ++ (segments folder ++ segments name) := by
  rw [segments_append, segments_append]

/-- The URL of a file in a folder of several segments has too many of them. -/
theorem matchPath_of_slash {folder : List Char} (hslash : '/' ∈ folder) (name : List Char) :
    matchPath filesRoute (publicBaseUrl ++ '/' :: (folder ++ '/' :: name)) = none := by
  rw [Option.eq_none_iff_forall_ne_some]
  intro params hmatch
  have hlength := length_of_matchParts hmatch
  have hfolder := one_lt_length_segments hslash
  have hname := List.length_pos_of_ne_nil (List.splitOn_ne_nil '/' name)
  rw [segments_url, filesRoute] at hlength
  simp only [List.length_append, List.length_map, List.length_cons, List.length_nil, segments]
    at hlength hfolder
  omega

theorem matchPath_of_segment {folder name : List Char} (hfolder : '/' ∉ folder)
    (hfolder' : folder ≠ []) (hname : '/' ∉ name) (hname' : name ≠ []) :
    matchPath filesRoute (publicBaseUrl ++ '/' :: (folder ++ '/' :: name)) =
      some [folder, name] := by
  rw [matchPath, segments_url, segments_of_not_mem hfolder, segments_of_not_mem hname,
    filesRoute, matchParts_fixed]
  have hparams : matchParts ([folder, name].map fun _ => .param) [folder, name] =
      some [folder, name] := matchParts_params (by simp [hfolder', hname'])
  exact hparams

theorem not_served_of_slash {folder : List Char} (hslash : '/' ∈ folder) (base dest : Path)
    (disk : Disk) (name : List Char) (content : List UInt8) :
    ¬ ServedAt base disk (publicBaseUrl ++ '/' :: (folder ++ '/' :: name)) dest content := by
  rintro ⟨_, _, hmatch, -⟩
  rw [matchPath_of_slash hslash] at hmatch
  cases hmatch

/-! ## A folder of one segment -/

theorem components_append (first second : List Char) :
    components (first ++ '/' :: second) = components first ++ components second := by
  rw [components, segments_append, List.filter_append]
  rfl

theorem joinpath_of_not_slash {text : List Char} (h : text.head? ≠ some '/') (base : Path) :
    joinpath base text = base ++ components text := by
  rw [joinpath, if_neg h]

theorem slash_not_mem_suffix {path : Path} (h : ∀ part ∈ path, '/' ∉ part) : '/' ∉ suffix path := by
  intro hmem
  simp only [suffix] at hmem
  split at hmem
  · rcases List.mem_cons.mp hmem with heq | hending
    · exact absurd heq (by decide)
    · have hname := (List.rtakeWhile_suffix _ _).subset hending
      rcases hlast : path.getLast? with _ | part
      · rw [hlast] at hname
        cases hname
      · rw [hlast] at hname
        exact h part (List.mem_of_getLast? hlast) hname
  · cases hmem

theorem slash_not_mem_savedName (uuid4 : UUID) (file : UploadFile) :
    '/' ∉ savedName uuid4 file := by
  intro hmem
  rcases List.mem_append.mp hmem with hid | hsuffix
  · rcases UUID.mem_chars hid with heq | hdigit
    · exact absurd heq (by decide)
    · exact absurd (Hex.of_mem_lowerDigits (p := fun c => c != '/') (by decide) hdigit) (by decide)
  · refine slash_not_mem_suffix ?_ hsuffix
    intro part hpart hslash
    have hsegment := List.mem_of_mem_filter hpart
    exact absurd hslash (slash_not_mem_of_mem_segments hsegment)

theorem served_of_segment {base : Path} {folder : List Char} {disk : Disk} {uuid4 : UUID}
    {file : UploadFile} (hslash : '/' ∉ folder) (hne : folder ≠ [])
    (hdisk : disk (joinpath base (folder ++ '/' :: savedName uuid4 file)) =
      some (.file file.content)) :
    ServedAt base disk (publicBaseUrl ++ '/' :: (folder ++ '/' :: savedName uuid4 file))
      (joinpath base (folder ++ '/' :: savedName uuid4 file)) file.content := by
  have hname : '/' ∉ savedName uuid4 file := slash_not_mem_savedName uuid4 file
  have hnameNe : savedName uuid4 file ≠ [] := by
    apply List.ne_nil_of_length_pos
    rw [savedName, List.length_append, UUID.length_chars]
    omega
  have hhead : ∀ {text : List Char} (rest : List Char), text ≠ [] → '/' ∉ text →
      (text ++ rest).head? ≠ some '/' := by
    intro text rest htext hmem heq
    obtain ⟨c, text, rfl⟩ := List.exists_cons_of_ne_nil htext
    exact hmem (Option.some.inj heq ▸ List.mem_cons_self)
  have hdest : joinpath (joinpath base folder) (savedName uuid4 file) =
      joinpath base (folder ++ '/' :: savedName uuid4 file) := by
    rw [joinpath_of_not_slash (hhead _ hne hslash), components_append,
      joinpath_of_not_slash (by simpa using hhead [] hnameNe hname),
      joinpath_of_not_slash (by simpa using hhead [] hne hslash), List.append_assoc]
  refine ⟨folder, savedName uuid4 file, matchPath_of_segment hslash hne hname hnameNe, hdest, ?_⟩
  rw [serveLocalFile, hdest, hdisk]

/-- **A saved file is served at its URL exactly when its folder is one segment.** -/
theorem served_iff_segment {base : Path} {folder url : List Char} {disk : Disk} {uuid4 : UUID}
    {file : UploadFile} (hne : folder ≠ [])
    (h : (save base publicBaseUrl disk uuid4 file folder).2 = .ok url) :
    ServedAt base (save base publicBaseUrl disk uuid4 file folder).1 url
      (joinpath base (folder ++ '/' :: savedName uuid4 file)) file.content ↔ '/' ∉ folder := by
  obtain ⟨rfl, hdisk⟩ := save_ok h
  constructor
  · intro hserved hslash
    exact not_served_of_slash hslash base _ _ _ _ hserved
  · intro hslash
    exact served_of_segment hslash hne hdisk

/-! ## What the services upload -/

theorem slash_mem_folder (upload : Upload) : '/' ∈ upload.folder := by
  cases upload with
  | resume user file => exact List.mem_append_left _ (by decide)
  | driveFile user file => exact List.mem_append_left _ (by decide)

/-- **No uploaded file can be fetched at the URL it was given**, whoever uploads it,
    whatever its name and content, and whatever is uploaded later: the folder and the file
    are three segments, and the route has two. -/
theorem upload_never_served (base : Path) (disk : Disk) (uuid4 : UUID) (upload : Upload)
    (later : List (Upload × UUID)) (url : List Char)
    (h : (handle base disk uuid4 upload).2 = .ok url) :
    ¬ ServedAt base (execute base (handle base disk uuid4 upload).1 later) url
      (destination base uuid4 upload) upload.file.content := by
  rcases handle_cases base disk uuid4 upload with ⟨e, heq⟩ | heq
  · rw [heq] at h
    cases h
  · rw [heq] at h
    rw [(save_ok h).1]
    exact not_served_of_slash (slash_mem_folder upload) _ _ _ _ _

/-- A resume of student 1, saved under the name 2 on an empty disk. -/
def resumeUpload : Upload :=
  .resume ⟨.ofNat 1, .student⟩ ⟨some "cv.PDF", [37, 80, 68, 70]⟩

def resumeUrl : List Char :=
  "/api/v1/files/resumes/00000000-0000-0000-0000-000000000001/00000000-0000-0000-0000-000000000002.PDF".toList

theorem resume_saved :
    (handle ["data".toList] (fun _ => none) (.ofNat 2) resumeUpload).2 = .ok resumeUrl := by
  decide +kernel

theorem resume_saved_not_served :
    (handle ["data".toList] (fun _ => none) (.ofNat 2) resumeUpload).2 = .ok resumeUrl ∧
      ¬ ServedAt ["data".toList]
        (handle ["data".toList] (fun _ => none) (.ofNat 2) resumeUpload).1 resumeUrl
        (destination ["data".toList] (.ofNat 2) resumeUpload) resumeUpload.file.content := by
  refine ⟨resume_saved, ?_⟩
  rintro ⟨folder, filename, hmatch, -⟩
  have hnone : matchPath filesRoute resumeUrl = none := by decide +kernel
  rw [hnone] at hmatch
  cases hmatch

theorem resume_never_served :
    ¬ ServedAt ["data".toList]
      (execute ["data".toList] (handle ["data".toList] (fun _ => none) (.ofNat 2) resumeUpload).1
        [(resumeUpload, .ofNat 3)]) resumeUrl
      (destination ["data".toList] (.ofNat 2) resumeUpload) resumeUpload.file.content :=
  upload_never_served _ _ _ _ _ _ resume_saved

end CampusHire.FileUploads
