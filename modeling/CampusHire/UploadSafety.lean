import CampusHire.FileUploads

/-!
# What an upload can write

The name of a saved file is made of a fresh identifier and of a suffix of the client's
filename.  The suffix holds no slash and has passed the check of the extensions, so the
file is a direct child of its folder, whatever the client calls it.  The first 36
characters of the name are the identifier, so files with different identifiers have
different paths, and over a run of uploads no save touches an earlier file.
-/

namespace CampusHire.UploadSafety

open CampusHire PathTemplate FileUploads

/-! ## The saved name -/

theorem savedName_ne_nil (uuid4 : UUID) (file : UploadFile) : savedName uuid4 file ≠ [] := by
  apply List.ne_nil_of_length_pos
  rw [savedName, List.length_append, UUID.length_chars]
  omega

theorem components_savedName (uuid4 : UUID) (file : UploadFile) :
    components (savedName uuid4 file) = [savedName uuid4 file] := by
  have hdot : savedName uuid4 file ≠ ['.'] := by
    intro heq
    have hlength := congrArg List.length heq
    rw [savedName, List.length_append, UUID.length_chars] at hlength
    simp at hlength
    omega
  rw [components, segments_of_not_mem (slash_not_mem_savedName uuid4 file)]
  simp [savedName_ne_nil, hdot]

/-- A saved file is a direct child of its folder. -/
theorem joinpath_savedName (base : Path) {folder : List Char} (hne : folder ≠ []) (uuid4 : UUID)
    (file : UploadFile) :
    joinpath base (folder ++ '/' :: savedName uuid4 file) =
      joinpath base folder ++ [savedName uuid4 file] := by
  have hhead : (folder ++ '/' :: savedName uuid4 file).head? = folder.head? := by
    obtain ⟨c, rest, rfl⟩ := List.exists_cons_of_ne_nil hne
    rfl
  rw [joinpath, joinpath, hhead, components_append, components_savedName]
  split
  · rfl
  · rw [List.append_assoc]

theorem folder_ne_nil (upload : Upload) : upload.folder ≠ [] :=
  List.ne_nil_of_mem (slash_mem_folder upload)

theorem destination_eq (base : Path) (uuid4 : UUID) (upload : Upload) :
    destination base uuid4 upload =
      joinpath base upload.folder ++ [savedName uuid4 upload.file] :=
  joinpath_savedName base (folder_ne_nil upload) uuid4 upload.file

/-- The identifier can be read off the path. -/
theorem uuid4_of_destination {base : Path} {uuid4 uuid4' : UUID} {upload upload' : Upload}
    (h : destination base uuid4 upload = destination base uuid4' upload') : uuid4 = uuid4' := by
  rw [destination_eq, destination_eq] at h
  have hname : savedName uuid4 upload.file = savedName uuid4' upload'.file := by
    simpa using congrArg List.getLast? h
  rw [savedName, savedName] at hname
  have hchars : uuid4.chars = uuid4'.chars :=
    (List.append_inj hname (by rw [UUID.length_chars, UUID.length_chars])).1
  exact UUID.str_inj.mp (congrArg String.ofList hchars)

/-- What `validate_upload` has checked is the suffix that `save` keeps, up to case. -/
theorem suffix_checked {file : UploadFile} (h : validateUpload file = .ok ()) :
    ∃ name, file.filename = some name ∧ file.name = name.toList ∧
      (suffix (components name.toList)).map Char.toLower ∈ allowedExtensions := by
  rw [validateUpload] at h
  rcases hname : file.filename with _ | name
  · rw [hname] at h
    cases h
  rw [hname] at h
  dsimp only at h
  by_cases hempty : name = ""
  · rw [if_pos hempty] at h
    cases h
  rw [if_neg hempty] at h
  by_cases hmem : (suffix (components name.toList)).map Char.toLower ∈ allowedExtensions
  · refine ⟨name, rfl, ?_, hmem⟩
    rw [UploadFile.name, hname]
    exact if_neg hempty
  · rw [if_neg hmem] at h
    cases h

/-! ## One upload -/

/-- `mkdir` makes no file. -/
theorem mkdir_files {disk disk' : Disk} {dir path : Path} (h : mkdir disk dir = some disk')
    {content : List UInt8} (hfile : disk' path = some (.file content)) :
    disk path = some (.file content) := by
  rw [mkdir] at h
  generalize dir.inits = dirs at h
  induction dirs generalizing disk with
  | nil =>
    cases h
    exact hfile
  | cons first rest ih =>
    obtain ⟨next, hfirst, hrest⟩ := Option.bind_eq_some_iff.mp h
    have hnext := ih hrest
    unfold makeDirectory at hfirst
    split at hfirst
    · cases hfirst
      by_cases heq : path = first
      · rw [heq, Function.update_self] at hnext
        cases hnext
      · rwa [Function.update_of_ne heq] at hnext
    · cases hfirst
      exact hnext
    · cases hfirst

/-- A file that is there after an upload was there before, or is the upload's own. -/
theorem file_handle {base path : Path} {disk : Disk} {uuid4 : UUID} {upload : Upload}
    {content : List UInt8}
    (hfile : (handle base disk uuid4 upload).1 path = some (.file content)) :
    disk path = some (.file content) ∨ (∃ url, (handle base disk uuid4 upload).2 = .ok url) ∧
      path = destination base uuid4 upload ∧ content = upload.file.content := by
  rcases handle_cases base disk uuid4 upload with ⟨e, heq⟩ | heq
  · rw [heq] at hfile
    exact Or.inl hfile
  rw [heq] at hfile ⊢
  unfold save at hfile ⊢
  rcases hmade : mkdir disk (joinpath base upload.folder) with _ | made
  · rw [hmade] at hfile
    exact Or.inl hfile
  rw [hmade] at hfile
  dsimp only at hfile ⊢
  rcases hwrite : writeBytes made
    (joinpath base (upload.folder ++ '/' :: savedName uuid4 upload.file)) upload.file.content
    with _ | written
  · rw [hwrite] at hfile
    exact Or.inl (mkdir_files hmade hfile)
  rw [hwrite] at hfile
  dsimp only at hfile ⊢
  rw [writeBytes_eq_some hwrite] at hfile
  by_cases hpath : path = destination base uuid4 upload
  · right
    rw [hpath, destination, Function.update_self] at hfile
    cases hfile
    exact ⟨⟨_, rfl⟩, hpath, rfl⟩
  · left
    rw [destination] at hpath
    rw [Function.update_of_ne hpath] at hfile
    exact mkdir_files hmade hfile

/-! ## A run of uploads -/

theorem execute_append (base : Path) (disk : Disk) (first second : List (Upload × UUID)) :
    execute base disk (first ++ second) = execute base (execute base disk first) second :=
  List.foldl_append

/-- A file that is there after a run was there at its start, or an upload of the run has
    stored it. -/
theorem file_execute {base path : Path} {disk : Disk} {uploads : List (Upload × UUID)}
    {content : List UInt8} (hfile : execute base disk uploads path = some (.file content)) :
    disk path = some (.file content) ∨ ∃ before upload uuid4 after url,
      uploads = before ++ (upload, uuid4) :: after ∧
        (handle base (execute base disk before) uuid4 upload).2 = .ok url ∧
        path = destination base uuid4 upload ∧ content = upload.file.content := by
  induction uploads using List.reverseRecOn with
  | nil => exact Or.inl hfile
  | append_singleton uploads last ih =>
    obtain ⟨upload, uuid4⟩ := last
    rw [execute_append] at hfile
    rcases file_handle hfile with hold | ⟨⟨url, hurl⟩, hpath, hcontent⟩
    · rcases ih hold with hstart | ⟨before, earlier, id, after, url, rfl, hrest⟩
      · exact Or.inl hstart
      · refine Or.inr ⟨before, earlier, id, after ++ [(upload, uuid4)], url, ?_, hrest⟩
        rw [List.append_assoc, List.cons_append]
    · exact Or.inr ⟨uploads, upload, uuid4, [], url, rfl, hurl, hpath, hcontent⟩

/-- No two uploads of a run share an identifier. -/
theorem uuid4_ne {before after : List (Upload × UUID)} {upload : Upload} {uuid4 : UUID}
    (h : ((before ++ (upload, uuid4) :: after).map Prod.snd).Nodup) :
    (∀ other ∈ before, other.2 ≠ uuid4) ∧ ∀ other ∈ after, other.2 ≠ uuid4 := by
  rw [List.map_append, List.map_cons] at h
  obtain ⟨-, hrest, hdisjoint⟩ := List.nodup_append.mp h
  constructor
  · intro other hother
    exact hdisjoint _ (List.mem_map_of_mem hother) _ List.mem_cons_self
  · intro other hother heq
    have hmem : other.2 ∈ after.map Prod.snd := List.mem_map_of_mem hother
    rw [heq] at hmem
    exact (List.nodup_cons.mp hrest).1 hmem

/-- **Uploads stay in their folder, keep an allowed type and never clobber.**  Whatever
    the filename and the content of a file that `validate_upload` accepts, its key is the
    folder, the identifier and an ending without a slash, the ending in lower case is the
    suffix that was checked, and the path is a direct child of the folder.  In every run
    of uploads with fresh identifiers, from a disk without files: a save finds no file at
    its path, what it stores stays to the end, and every file at the end is the content
    of one upload at the path of that upload. -/
theorem uploads_are_safe (base : Path) (disk : Disk)
    (hstart : ∀ path content, disk path ≠ some (.file content))
    (uploads : List (Upload × UUID)) (hfresh : (uploads.map Prod.snd).Nodup) :
    (∀ file folder uuid4, folder ≠ [] → validateUpload file = .ok () →
      ∃ name ending, file.filename = some name ∧
        folder ++ '/' :: savedName uuid4 file = folder ++ '/' :: (uuid4.chars ++ ending) ∧
        '/' ∉ ending ∧ ending.map Char.toLower ∈ allowedExtensions ∧
        ending.map Char.toLower = (suffix (components name.toList)).map Char.toLower ∧
        joinpath base (folder ++ '/' :: savedName uuid4 file) =
          joinpath base folder ++ [uuid4.chars ++ ending]) ∧
    (∀ before upload uuid4 after url, uploads = before ++ (upload, uuid4) :: after →
      (handle base (execute base disk before) uuid4 upload).2 = .ok url →
      (∀ content, execute base disk before (destination base uuid4 upload) ≠
          some (.file content)) ∧
        execute base disk uploads (destination base uuid4 upload) =
          some (.file upload.file.content)) ∧
    ∀ path content, execute base disk uploads path = some (.file content) →
      ∃ before upload uuid4 after url, uploads = before ++ (upload, uuid4) :: after ∧
        (handle base (execute base disk before) uuid4 upload).2 = .ok url ∧
        path = destination base uuid4 upload ∧ content = upload.file.content := by
  refine ⟨?_, ?_, ?_⟩
  · intro file folder uuid4 hfolder hok
    obtain ⟨name, hname, hchars, hmem⟩ := suffix_checked hok
    have hslash : '/' ∉ suffix (components name.toList) := fun h =>
      slash_not_mem_savedName uuid4 file (List.mem_append_right _ (by rwa [hchars]))
    refine ⟨name, suffix (components name.toList), hname, ?_, hslash, hmem, rfl, ?_⟩
    · rw [savedName, hchars]
    · rw [joinpath_savedName base hfolder, savedName, hchars]
  · rintro before upload uuid4 after url rfl hok
    obtain ⟨hbefore, hafter⟩ := uuid4_ne hfresh
    constructor
    · intro content hfile
      rcases file_execute hfile with hold | ⟨first, earlier, id, rest, _, rfl, -, hpath, -⟩
      · exact hstart _ _ hold
      · exact hbefore (earlier, id) (by simp) (uuid4_of_destination hpath).symm
    · rw [execute_append]
      apply saved_stays hok
      intro other hother heq
      exact hafter other hother (uuid4_of_destination heq)
  · intro path content hfile
    rcases file_execute hfile with hold | hstored
    · exact absurd hold (hstart path content)
    · exact hstored

/-- A second upload of the same file, by a coordinator. -/
def driveUpload : Upload := .driveFile ⟨.ofNat 9, .coordinator⟩ resumeUpload.file

theorem two_uploads_kept :
    execute ["data".toList] (fun _ => none) [(resumeUpload, .ofNat 2), (driveUpload, .ofNat 3)]
        (destination ["data".toList] (.ofNat 2) resumeUpload) =
      some (.file resumeUpload.file.content) := by
  have hsafe := uploads_are_safe ["data".toList] (fun _ => none) (fun _ _ => nofun)
    [(resumeUpload, .ofNat 2), (driveUpload, .ofNat 3)] (by decide +kernel)
  exact (hsafe.2.1 [] resumeUpload (.ofNat 2) [(driveUpload, .ofNat 3)] _ rfl resume_saved).2

end CampusHire.UploadSafety
