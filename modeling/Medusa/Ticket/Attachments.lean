import Medusa.Derived
import Medusa.Files
import Medusa.Ticket.Requests
import Mathlib.Data.List.TakeWhile

/-! The files of a form that are attached to a ticket or a post. A file is saved in the
upload folder under a name that is drawn at random. A drawn name is refused if there is
such a file in the directory that the server runs in, which need not be the upload
folder. -/

namespace Medusa

open Relational

def nameChars : List Char := "abcdefghijklmnopqrstuvwxyz0123456789".toList

/-- The choices of eight characters. -/
abbrev Choices := Fin 8 → Fin nameChars.length

def outputString (choices : Choices) : String :=
  String.ofList (List.ofFn (fun k => nameChars.get (choices k)))

/-- The files of each directory. -/
abbrev Disk (γ : Type) := String → Files γ

def Disk.save {γ : Type} (disk : Disk γ) (directory name : String) (content : γ) : Disk γ :=
  Function.update disk directory ((disk directory).write name content)

structure SubmittedFile (γ : Type) where
  filename : String
  content : γ

/-- `cwd` is the directory of the server. The upload folder is the directory that its
setting names, if the setting is not empty. -/
structure UploadConfig where
  cwd : String
  uploadFolder : Option String
  allowedExtensions : List String

/-- `filename.rsplit('.', 1)[1]`: what follows the last dot. -/
def getExtension (filename : String) : Option String :=
  if '.' ∈ filename.toList then
    some (String.ofList (filename.toList.reverse.takeWhile (fun c => c != '.')).reverse)
  else none

/-- The first drawn name that no file among `tested` has, and the draws that are left.
Without a result the loop is still drawing. -/
def randomFilename {γ : Type} (tested : Files γ) (extension : String) :
    List Choices → Option (String × List Choices)
  | [] => none
  | choices :: draws =>
    let name := outputString choices ++ "." ++ extension
    if (tested name).isSome then randomFilename tested extension draws else some (name, draws)

/-- An upload at some point: the disk, the draws to come, what is kept for the database,
and the files that were saved. -/
structure UploadRun (γ : Type) where
  disk : Disk γ
  draws : List Choices
  newFiles : List UploadedFile
  written : List (String × γ)

namespace UploadRun

variable {γ : Type}

def skip (run : UploadRun γ) (file : SubmittedFile γ) (draws : List Choices) : UploadRun γ :=
  { run with
    draws := draws
    newFiles := run.newFiles ++ [⟨file.filename, none⟩] }

def save (run : UploadRun γ) (folder : String) (file : SubmittedFile γ) (name : String)
    (draws : List Choices) : UploadRun γ where
  disk := run.disk.save folder name file.content
  draws := draws
  newFiles := run.newFiles ++ [⟨file.filename, some name⟩]
  written := run.written ++ [(name, file.content)]

/-- One turn of the loop over the files. A name is drawn for any file with an extension,
before the extension is looked up. -/
def upload (config : UploadConfig) (tested : Files γ) (run : UploadRun γ)
    (file : SubmittedFile γ) : Option (UploadRun γ) :=
  match getExtension file.filename with
  | none => some (run.skip file run.draws)
  | some extension =>
    if extension = "" then some (run.skip file run.draws)
    else
      (randomFilename tested extension run.draws).map (fun drawn =>
        match config.uploadFolder with
        | none => run.skip file drawn.2
        | some folder =>
          if '.' ∈ drawn.1.toList ∧ extension ∈ config.allowedExtensions then
            run.save folder file drawn.1 drawn.2
          else run.skip file drawn.2)

end UploadRun

section

variable {γ : Type}

def areAttachements : List (SubmittedFile γ) → Bool
  | [] => false
  | file :: _ => file.filename != ""

/-- The uploads of a form, where `tested` are the files that a name is compared with. -/
def uploadFilesTesting (tested : Disk γ → Files γ) (config : UploadConfig) (disk : Disk γ)
    (draws : List Choices) (files : List (SubmittedFile γ)) : Option (UploadRun γ) :=
  if areAttachements files then
    files.foldlM (fun run file => run.upload config (tested run.disk) file) ⟨disk, draws, [], []⟩
  else some ⟨disk, draws, [], []⟩

/-- `os.path.isfile` is asked for the bare name, hence for a file of the directory that
the server runs in. -/
def uploadFiles (config : UploadConfig) (disk : Disk γ) (draws : List Choices)
    (files : List (SubmittedFile γ)) : Option (UploadRun γ) :=
  uploadFilesTesting (fun disk => disk config.cwd) config disk draws files

/-- What the form writes if each name is compared with the files before the request. -/
def plannedWrites (config : UploadConfig) (disk : Disk γ) (draws : List Choices)
    (files : List (SubmittedFile γ)) : List (String × γ) :=
  (uploadFilesTesting (fun _ => disk config.cwd) config disk draws files).elim []
    UploadRun.written

theorem dot_mem_drawn (s extension : String) : '.' ∈ (s ++ "." ++ extension).toList := by
  simp

theorem getExtension_drawn {filename extension : String} (s : String)
    (h : getExtension filename = some extension) :
    getExtension (s ++ "." ++ extension) = some extension := by
  have hno : ∀ c ∈ extension.toList.reverse, (c != '.') = true := by
    unfold getExtension at h
    split at h
    · cases h
      intro c hc
      simp only [String.toList_ofList, List.reverse_reverse] at hc
      exact List.mem_takeWhile_imp (p := fun c => c != '.') hc
    · cases h
  rw [getExtension, if_pos (dot_mem_drawn s extension)]
  have hreverse : (s ++ "." ++ extension).toList.reverse =
      extension.toList.reverse ++ '.' :: s.toList.reverse := by simp
  rw [hreverse, List.takeWhile_append_of_pos hno]
  simp

theorem randomFilename_spec {tested : Files γ} {extension name : String}
    {draws rest : List Choices} (h : randomFilename tested extension draws = some (name, rest)) :
    tested name = none ∧ ∃ choices, name = outputString choices ++ "." ++ extension := by
  induction draws with
  | nil => cases h
  | cons choices draws ih =>
    simp only [randomFilename] at h
    split at h
    · exact ih h
    · rename_i hfree
      cases h
      exact ⟨Option.not_isSome_iff_eq_none.mp hfree, choices, rfl⟩

namespace UploadRun

theorem upload_cases {config : UploadConfig} {tested : Files γ} {run run' : UploadRun γ}
    {file : SubmittedFile γ} (h : run.upload config tested file = some run') :
    (∃ draws, run' = run.skip file draws) ∨
      ∃ folder extension name draws, config.uploadFolder = some folder ∧
        extension ∈ config.allowedExtensions ∧ getExtension name = some extension ∧
        tested name = none ∧ run' = run.save folder file name draws := by
  unfold upload at h
  split at h
  · cases h
    exact Or.inl ⟨_, rfl⟩
  · rename_i extension hextension
    split at h
    · cases h
      exact Or.inl ⟨_, rfl⟩
    · obtain ⟨⟨name, draws⟩, hdrawn, hrun⟩ := Option.map_eq_some_iff.mp h
      obtain ⟨hfree, choices, rfl⟩ := randomFilename_spec hdrawn
      cases hfolder : config.uploadFolder with
      | none =>
        rw [hfolder] at hrun
        exact Or.inl ⟨draws, hrun.symm⟩
      | some folder =>
        simp only [hfolder] at hrun
        split at hrun
        · rename_i hallowed
          exact Or.inr ⟨folder, extension, _, draws, rfl, hallowed.2,
            getExtension_drawn _ hextension, hfree, hrun.symm⟩
        · exact Or.inl ⟨draws, hrun.symm⟩

/-- What a run has done to the disk and keeps for the database. -/
structure Records (config : UploadConfig) (disk : Disk γ) (run : UploadRun γ) : Prop where
  saved : ∀ folder, config.uploadFolder = some folder →
    run.disk folder = (disk folder).writeAll run.written
  allowed : ∀ w ∈ run.written, ∃ extension ∈ config.allowedExtensions,
    getExtension w.1 = some extension
  stored : run.newFiles.filterMap UploadedFile.stored = run.written.map Prod.fst

theorem Records.start (config : UploadConfig) (disk : Disk γ) (draws : List Choices) :
    Records config disk ⟨disk, draws, [], []⟩ :=
  ⟨fun _ _ => rfl, by simp, rfl⟩

theorem Records.upload {config : UploadConfig} {tested : Files γ} {disk : Disk γ}
    {run run' : UploadRun γ} {file : SubmittedFile γ}
    (h : run.upload config tested file = some run') (hrun : run.Records config disk) :
    run'.Records config disk := by
  rcases upload_cases h with ⟨draws, rfl⟩ |
      ⟨folder, extension, name, draws, hfolder, hallowed, hextension, -, rfl⟩
  · exact ⟨hrun.saved, hrun.allowed, by simp [skip, hrun.stored]⟩
  · refine ⟨?_, ?_, by simp [save, hrun.stored]⟩
    · intro folder' hfolder'
      obtain rfl := Option.some.inj (hfolder.symm.trans hfolder')
      simp [save, Disk.save, hrun.saved folder hfolder, Files.writeAll]
    · intro w hw
      rcases List.mem_append.mp hw with hw | hw
      · exact hrun.allowed w hw
      · rw [List.mem_singleton.mp hw]
        exact ⟨extension, hallowed, hextension⟩

/-- The names that were written differ and were free. -/
structure Unused (config : UploadConfig) (disk : Disk γ) (run : UploadRun γ) : Prop where
  nodup : (run.written.map Prod.fst).Nodup
  free : ∀ w ∈ run.written, disk config.cwd w.1 = none

/-- A name that is compared with the upload folder itself is that of no file there. -/
theorem Unused.upload {config : UploadConfig} {disk : Disk γ} {run run' : UploadRun γ}
    {file : SubmittedFile γ} (hcwd : config.uploadFolder = some config.cwd)
    (h : run.upload config (run.disk config.cwd) file = some run')
    (hrecords : run.Records config disk) (hrun : run.Unused config disk) :
    run'.Unused config disk := by
  rcases upload_cases h with ⟨draws, rfl⟩ | ⟨folder, extension, name, draws, -, -, -, hfree, rfl⟩
  · exact ⟨hrun.nodup, hrun.free⟩
  · rw [hrecords.saved _ hcwd] at hfree
    have hnew : name ∉ run.written.map Prod.fst := by
      intro hmem
      obtain ⟨w, hw, rfl⟩ := List.mem_map.mp hmem
      rw [Files.writeAll_of_mem hrun.nodup hw] at hfree
      cases hfree
    rw [Files.writeAll_of_not_mem hnew] at hfree
    constructor
    · simp only [save, List.map_append, List.map_cons, List.map_nil]
      exact List.nodup_append.mpr ⟨hrun.nodup, List.nodup_singleton _,
        fun a ha b hb => by rw [List.mem_singleton.mp hb]; rintro rfl; exact hnew ha⟩
    · intro w hw
      rcases List.mem_append.mp hw with hw | hw
      · exact hrun.free w hw
      · rw [List.mem_singleton.mp hw]
        exact hfree

/-- Saving in another directory leaves the files that names are compared with. -/
theorem upload_cwd {config : UploadConfig} {tested : Files γ} {run run' : UploadRun γ}
    {file : SubmittedFile γ} (hcwd : config.uploadFolder ≠ some config.cwd)
    (h : run.upload config tested file = some run') :
    run'.disk config.cwd = run.disk config.cwd := by
  rcases upload_cases h with ⟨draws, rfl⟩ | ⟨folder, extension, name, draws, hfolder, -, -, -, rfl⟩
  · rfl
  · have hne : config.cwd ≠ folder := fun he => hcwd (he ▸ hfolder)
    simp [save, Disk.save, Function.update_of_ne hne]

theorem upload_names {config : UploadConfig} {tested : Files γ} {run run' : UploadRun γ}
    {file : SubmittedFile γ} (h : run.upload config tested file = some run') :
    run'.newFiles.map UploadedFile.name = run.newFiles.map UploadedFile.name ++ [file.filename] := by
  rcases upload_cases h with ⟨draws, rfl⟩ | ⟨folder, extension, name, draws, -, -, -, -, rfl⟩
  · simp [skip]
  · simp [save]

theorem foldlM_names {config : UploadConfig} {tested : Disk γ → Files γ}
    {files : List (SubmittedFile γ)} {run run' : UploadRun γ}
    (h : files.foldlM (fun run file => run.upload config (tested run.disk) file) run = some run') :
    run'.newFiles.map UploadedFile.name =
      run.newFiles.map UploadedFile.name ++ files.map SubmittedFile.filename := by
  induction files generalizing run with
  | nil =>
    obtain rfl := Option.some.inj h
    simp
  | cons file files ih =>
    rw [List.foldlM_cons, Option.bind_eq_bind, Option.bind_eq_some_iff] at h
    obtain ⟨middle, hmiddle, hrest⟩ := h
    rw [ih hrest, upload_names hmiddle, List.append_assoc]
    rfl

end UploadRun

theorem uploadFilesTesting_records {tested : Disk γ → Files γ} {config : UploadConfig}
    {disk : Disk γ} {draws : List Choices} {files : List (SubmittedFile γ)} {run : UploadRun γ}
    (h : uploadFilesTesting tested config disk draws files = some run) :
    run.Records config disk := by
  unfold uploadFilesTesting at h
  split at h
  · exact foldlM_keeps UploadRun.Records.upload h (UploadRun.Records.start config disk draws)
  · cases h
    exact UploadRun.Records.start config disk draws

theorem storedFiles_names {files : List UploadedFile}
    (h : ∀ name ∈ (files.map UploadedFile.name).head?, name ≠ "") :
    (storedFiles files).map Prod.snd = files.filterMap UploadedFile.stored := by
  cases files with
  | nil => rfl
  | cons file files =>
    have hname : file.name ≠ "" := h file.name (by simp)
    rw [storedFiles, if_neg hname, List.map_filterMap]
    congr 1
    funext f
    rw [Option.map_map]
    exact Option.map_id_fun' ▸ rfl

/-- What `populate_db` stores are the files that were written. -/
theorem storedFiles_uploaded {tested : Disk γ → Files γ} {config : UploadConfig}
    {disk : Disk γ} {draws : List Choices} {files : List (SubmittedFile γ)} {run : UploadRun γ}
    (h : uploadFilesTesting tested config disk draws files = some run) :
    (storedFiles run.newFiles).map Prod.snd = run.written.map Prod.fst := by
  rw [← (uploadFilesTesting_records h).stored]
  apply storedFiles_names
  unfold uploadFilesTesting at h
  split at h
  · rename_i hfiles
    rw [UploadRun.foldlM_names h]
    cases files with
    | nil => simp
    | cons file files => simpa [areAttachements] using hfiles
  · cases h
    simp

theorem addUploads_rows (t : Uploads) (post topic : Option Nat) (files : List UploadedFile) :
    ∃ new, (addUploads t post topic files).rows = t.rows ++ new ∧
      new.map FlicketUploads.filename = (storedFiles files).map Prod.snd := by
  unfold addUploads
  generalize storedFiles files = named
  induction named generalizing t with
  | nil => exact ⟨[], by simp, rfl⟩
  | cons file named ih =>
    obtain ⟨new, hrows, hnames⟩ :=
      ih (t.insert (newUpload post topic file) (newUpload_id post topic file))
    refine ⟨newUpload post topic file t.nextKey :: new, ?_, ?_⟩
    · rw [List.foldl_cons, hrows, Table.rows_insert, List.append_assoc]
      rfl
    · rw [List.map_cons, List.map_cons, hnames]
      rfl

/-- An upload leaves the files of the folder as they are, writes names with an allowed
extension only, and adds one row for each file that it has written. -/
structure Attaches (config : UploadConfig) (disk : Disk γ) (run : UploadRun γ)
    (t t' : Uploads) : Prop where
  kept : ∀ folder, config.uploadFolder = some folder → ∀ name content,
    disk folder name = some content → run.disk folder name = some content
  allowed : ∀ w ∈ run.written, ∃ extension ∈ config.allowedExtensions,
    getExtension w.1 = some extension
  rows : ∃ new, t'.rows = t.rows ++ new ∧ (new.map FlicketUploads.filename).Nodup ∧
    ∀ name, name ∈ new.map FlicketUploads.filename ↔ name ∈ run.written.map Prod.fst

/-- Names that differ, and that in the folder are free or stand for the same content. -/
def Harmless (config : UploadConfig) (disk : Disk γ) (writes : List (String × γ)) : Prop :=
  (writes.map Prod.fst).Nodup ∧ ∀ folder, config.uploadFolder = some folder →
    ∀ w ∈ writes, ∀ content, disk folder w.1 = some content → content = w.2

theorem attaches_iff_harmless {config : UploadConfig} {disk : Disk γ} {draws : List Choices}
    {files : List (SubmittedFile γ)} {run : UploadRun γ}
    (h : uploadFiles config disk draws files = some run) (t : Uploads) (post topic : Option Nat) :
    Attaches config disk run t (addUploads t post topic run.newFiles) ↔
      Harmless config disk run.written := by
  have hrecords := uploadFilesTesting_records h
  have hstored := storedFiles_uploaded h
  obtain ⟨new, hrows, hnew⟩ := addUploads_rows t post topic run.newFiles
  rw [hstored] at hnew
  constructor
  · rintro ⟨hkept, -, new', hrows', hnodup, -⟩
    obtain rfl : new' = new := List.append_cancel_left (hrows'.symm.trans hrows)
    rw [hnew] at hnodup
    refine ⟨hnodup, ?_⟩
    intro folder hfolder w hw content hcontent
    have hafter := hkept folder hfolder w.1 content hcontent
    rw [hrecords.saved folder hfolder, Files.writeAll_of_mem hnodup hw] at hafter
    exact (Option.some.inj hafter).symm
  · rintro ⟨hnodup, hsame⟩
    refine ⟨?_, hrecords.allowed, new, hrows, hnew ▸ hnodup, fun name => by rw [hnew]⟩
    intro folder hfolder name content hcontent
    rw [hrecords.saved folder hfolder]
    by_cases hmem : name ∈ run.written.map Prod.fst
    · obtain ⟨w, hw, rfl⟩ := List.mem_map.mp hmem
      rw [Files.writeAll_of_mem hnodup hw, hsame folder hfolder w hw content hcontent]
    · rw [Files.writeAll_of_not_mem hmem, hcontent]

/-- In the directory that the server runs in the names are compared with the right files. -/
theorem harmless_of_cwd {config : UploadConfig} {disk : Disk γ} {draws : List Choices}
    {files : List (SubmittedFile γ)} {run : UploadRun γ}
    (hcwd : config.uploadFolder = some config.cwd)
    (h : uploadFiles config disk draws files = some run) :
    Harmless config disk run.written := by
  have hstart : UploadRun.Records config disk ⟨disk, draws, [], []⟩ ∧
      UploadRun.Unused config disk ⟨disk, draws, [], []⟩ :=
    ⟨UploadRun.Records.start config disk draws, List.nodup_nil, by simp⟩
  have hstep : ∀ {run : UploadRun γ} {file run'},
      run.upload config (run.disk config.cwd) file = some run' →
      run.Records config disk ∧ run.Unused config disk →
      run'.Records config disk ∧ run'.Unused config disk :=
    fun hupload hrun => ⟨hrun.1.upload hupload, hrun.2.upload hcwd hupload hrun.1⟩
  have hunused : run.Unused config disk := by
    unfold uploadFiles uploadFilesTesting at h
    split at h
    · exact (foldlM_keeps hstep h hstart).2
    · cases h
      exact hstart.2
  refine ⟨hunused.nodup, ?_⟩
  intro folder hfolder w hw content hcontent
  obtain rfl := Option.some.inj (hcwd.symm.trans hfolder)
  rw [hunused.free w hw] at hcontent
  cases hcontent

/-- Elsewhere the names are compared with the files before the request throughout. -/
theorem uploadFiles_eq_planned {config : UploadConfig} (disk : Disk γ) (draws : List Choices)
    (files : List (SubmittedFile γ)) (hcwd : config.uploadFolder ≠ some config.cwd) :
    uploadFiles config disk draws files =
      uploadFilesTesting (fun _ => disk config.cwd) config disk draws files := by
  unfold uploadFiles uploadFilesTesting
  split
  · have hstep : ∀ (run : UploadRun γ) file, run.disk config.cwd = disk config.cwd →
        run.upload config (run.disk config.cwd) file = run.upload config (disk config.cwd) file :=
      fun run file hdisk => by rw [hdisk]
    have hkeep : ∀ {run : UploadRun γ} {file run'},
        run.upload config (run.disk config.cwd) file = some run' →
        run.disk config.cwd = disk config.cwd → run'.disk config.cwd = disk config.cwd :=
      fun hupload hdisk => (UploadRun.upload_cwd hcwd hupload).trans hdisk
    exact foldlM_congr hstep hkeep files rfl
  · rfl

theorem written_eq_planned {config : UploadConfig} {disk : Disk γ} {draws : List Choices}
    {files : List (SubmittedFile γ)} {run : UploadRun γ}
    (hcwd : config.uploadFolder ≠ some config.cwd)
    (h : uploadFiles config disk draws files = some run) :
    run.written = plannedWrites config disk draws files := by
  rw [plannedWrites, ← uploadFiles_eq_planned disk draws files hcwd, h]
  rfl

end

def ticketUploads : UploadConfig := ⟨"/srv/medusa", some "/srv/uploads", ["png", "pdf"]⟩

/-- A plan is in the upload folder. -/
def planStored : Disk String := fun directory name =>
  if directory = "/srv/uploads" ∧ name = "aaaaaaaa.png" then some "plan" else none

def photo : List (SubmittedFile String) := [⟨"pump.room.png", "photo"⟩]

theorem nameChars_length : nameChars.length = 36 := by decide +kernel

/-- The same character eight times. -/
def repeated (k : Fin 36) : Choices := fun _ => k.cast nameChars_length.symm

end Medusa
