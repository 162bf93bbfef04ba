import Mathlib.Data.List.Infix
import PidtreeBcc.Python.Builtins
import PidtreeBcc.Support.Dict
import PidtreeBcc.Support.Effects
import PidtreeBcc.Support.Run

/-!
# RemoteFetch — one fetch of a remote configuration

`_fetch_remote_configuration_impl` downloads to a temporary file and renames it over the output file if the
two differ in their checksums.  The temporary file goes away only with the rename: it stays where the
content is unchanged, and where anything fails after it was made.

A fetch changes nothing but its output file, and that from the old content to the whole new one, just when
it ends before a temporary file is made or gets as far as the rename with all of the content.
-/

namespace PidtreeBcc

open Support

namespace YamlLoader

namespace RemoteFetch

abbrev Bytes := List UInt8

/-- A name that `mkstemp` makes in the directory for temporary files, or any other path. -/
inductive Path
  | temporary (name : String)
  | file (path : String)
  deriving DecidableEq, Repr

abbrev Files := Dict Path Bytes

/-- The files, with those of every moment of the call, which the code does not record. -/
structure Disk where
  files : Files
  seen : List Files

/-- The digest of all the bytes a hash was updated with; it is never empty. -/
structure Md5 where
  hexdigest : Bytes → String
  ne_empty : ∀ content, hexdigest content ≠ ""

/-- The response to a download: what arrives of the remote content, in the chunks that are read, and the
exception that ends the download or the writing of it, if any.  A connection that is closed early need not
raise one. -/
structure Response where
  content : Bytes
  chunks : List Bytes
  arrives : chunks.flatten <+: content
  error : Option PyErr

/-- How the outside answers one call: the exceptions, if any, of reading the output file, of closing and
of reading the temporary file, and of the rename; the `ETag` of the HEAD response, if it has one; the names
that `mkstemp` tries. -/
structure Answers where
  outputError : Option PyErr
  head : Except PyErr (Option String)
  candidates : List String
  response : Response
  closeError : Option PyErr
  tmpError : Option PyErr
  renameError : Option PyErr

abbrev FetchEff := Eff PyErr Disk

/-! ## The code -/

def orRaise : Option PyErr → FetchEff Unit
  | none => pure ()
  | some err => throw err

def change (f : Files → Files) : FetchEff Unit :=
  modify fun disk => ⟨f disk.files, f disk.files :: disk.seen⟩

/-- The chunks of a file that is read to its end. -/
def readChunks : Nat → Bytes → List Bytes
  | 0, _ => []
  | fuel + 1, content =>
      if content = [] then [] else content.take 4096 :: readChunks fuel (content.drop 4096)

/-- The digest of a hash that was updated with the chunks. -/
def md5Of (md5 : Md5) (content : Bytes) : String :=
  md5.hexdigest ((readChunks content.length content).foldl (· ++ ·) [])

/-- `_md5sum` -/
def md5sum (md5 : Md5) (error : Option PyErr) (filepath : Path) : FetchEff String := do
  let disk ← get
  match disk.files.get? filepath with
  | none => throw (.builtin .OSError)
  | some content => do
      orRaise error
      pure (md5Of md5 content)

/-- The empty file has the first of the names that is not taken. -/
def mkstemp (candidates : List String) : FetchEff Path := do
  let disk ← get
  match candidates.find? fun name => disk.files.get? (.temporary name) = none with
  | none => throw (.builtin .OSError)
  | some name => do
      change fun files => files.set (.temporary name) []
      pure (.temporary name)

def copyChunks (tmppath : Path) : List Bytes → FetchEff Unit
  | [] => pure ()
  | chunk :: chunks => do
      change fun files => files.set tmppath ((files.get? tmppath).getD [] ++ chunk)
      copyChunks tmppath chunks

def rename (error : Option PyErr) (tmppath outputPath : Path) : FetchEff Unit := do
  let disk ← get
  match disk.files.get? tmppath with
  | none => throw (.builtin .OSError)
  | some content => do
      orRaise error
      change fun files => (files.erase tmppath).set outputPath content

def isS3 (url : String) : Bool := ".s3.amazonaws.".toList <:+: url.toList

/-- `response.headers.get('ETag').strip('"').lower()` -/
def Answers.responseEtag (w : Answers) : Except PyErr String :=
  match w.head with
  | .error err => .error err
  | .ok none => .error (.builtin .AttributeError)
  | .ok (some etag) =>
      let stripped := ((etag.toList.dropWhile (· = '"')).reverse.dropWhile (· = '"')).reverse
      .ok (String.ofList (stripped.map Char.toLower))

/-- `_md5sum(output_path) if os.path.exists(output_path) else ''` -/
def outputChecksum (md5 : Md5) (w : Answers) (outputPath : String) : FetchEff String := do
  let disk ← get
  match disk.files.get? (.file outputPath) with
  | none => pure ""
  | some _ => md5sum md5 w.outputError (.file outputPath)

/-- The shortcut for S3. -/
def s3Unchanged (w : Answers) (url checksum : String) : FetchEff Bool :=
  if checksum ≠ "" ∧ isS3 url = true then
    match w.responseEtag with
    | .error err => throw err
    | .ok etag => pure (etag == checksum)
  else pure false

def download (md5 : Md5) (w : Answers) (outputPath checksum : String) : FetchEff Unit := do
  let tmppath ← mkstemp w.candidates
  copyChunks tmppath w.response.chunks
  orRaise w.response.error
  orRaise w.closeError
  let sum ← md5sum md5 w.tmpError tmppath
  if sum ≠ checksum then rename w.renameError tmppath (.file outputPath) else pure ()

def fetchRemoteConfigurationImpl (md5 : Md5) (w : Answers) (url outputPath : String) :
    FetchEff Unit := do
  let checksum ← outputChecksum md5 w outputPath
  let unchanged ← s3Unchanged w url checksum
  if unchanged then pure () else download md5 w outputPath checksum

/-- How a call ends that finds these files, and the disk that it leaves. -/
def fetch (md5 : Md5) (w : Answers) (url outputPath : String) (files : Files) :
    Except PyErr Unit × Disk :=
  (fetchRemoteConfigurationImpl md5 w url outputPath).exec ⟨files, [files]⟩

/-! ## Checksums -/

theorem flatten_readChunks : ∀ (fuel : Nat) (content : Bytes), content.length ≤ fuel →
    (readChunks fuel content).flatten = content
  | 0, content, h => by
      have hnil : content = [] := List.length_eq_zero_iff.1 (Nat.le_zero.1 h)
      simp [readChunks, hnil]
  | fuel + 1, content, h => by
      by_cases hnil : content = []
      · simp [readChunks, hnil]
      · have hpos : 0 < content.length := List.length_pos_iff.2 hnil
        have hrest : (content.drop 4096).length ≤ fuel := by
          rw [List.length_drop]
          omega
        simp [readChunks, hnil, flatten_readChunks fuel _ hrest]

/-- Reading in chunks makes no difference to the digest. -/
theorem md5Of_eq (md5 : Md5) (content : Bytes) : md5Of md5 content = md5.hexdigest content := by
  have hfold : ∀ (chunks : List Bytes) (hashed : Bytes),
      chunks.foldl (· ++ ·) hashed = hashed ++ chunks.flatten := by
    intro chunks
    induction chunks with
    | nil => simp
    | cons chunk chunks ih => simp [ih]
  rw [md5Of, hfold, List.nil_append, flatten_readChunks _ _ (Nat.le_refl _)]

/-- The checksum of the output file, empty if there is none. -/
def checksumOf (md5 : Md5) (files : Files) (outputPath : String) : String :=
  ((files.get? (.file outputPath)).map md5.hexdigest).getD ""

theorem checksumOf_ne_empty_iff {md5 : Md5} {files : Files} {outputPath : String} :
    checksumOf md5 files outputPath ≠ "" ↔ files.get? (.file outputPath) ≠ none := by
  cases h : files.get? (.file outputPath) with
  | none => simp [checksumOf, h]
  | some content => simp [checksumOf, h, md5.ne_empty]

/-! ## When a fetch changes only its output file -/

/-- In every moment of the call the output file, if it is there, holds the old content or the whole remote
one; afterwards no other file has changed, and the output file is the new one if the call returned and the
checksums differ. -/
structure ChangesOnlyOutput (md5 : Md5) (content : Bytes) (outputPath : String) (files : Files)
    (r : Except PyErr Unit × Disk) : Prop where
  output : ∀ moment ∈ r.2.files :: r.2.seen, moment.get? (.file outputPath) = files.get? (.file outputPath) ∨
    moment.get? (.file outputPath) = some content
  others : ∀ path, path ≠ .file outputPath → r.2.files.get? path = files.get? path
  renewed : r.1 = .ok () → md5.hexdigest content ≠ checksumOf md5 files outputPath →
    r.2.files.get? (.file outputPath) = some content

namespace Answers

variable (w : Answers) (md5 : Md5) (url outputPath : String) (files : Files)

/-- The output file is there and cannot be read. -/
def Unreadable : Prop := files.get? (.file outputPath) ≠ none ∧ w.outputError ≠ none

/-- The output file is there, and the url is one of S3. -/
def AsksHead : Prop := files.get? (.file outputPath) ≠ none ∧ isS3 url = true

/-- The ETag is the checksum of the output file. -/
def Shortcut : Prop :=
  AsksHead url outputPath files ∧ w.responseEtag = .ok (checksumOf md5 files outputPath)

/-- The HEAD request is made, and it raises or brings no ETag. -/
def HeadFails : Prop := AsksHead url outputPath files ∧ ∃ err, w.responseEtag = .error err

/-- `mkstemp` finds no name. -/
def NoName : Prop := ∀ name ∈ w.candidates, files.get? (.temporary name) ≠ none

/-- The exception, if any, that comes between the making of the temporary file and the comparison. -/
def downloadError : Option PyErr := (w.response.error.or w.closeError).or w.tmpError

/-- All of the content arrives, with another checksum, and nothing fails up to the rename. -/
structure Installs : Prop where
  whole : w.response.chunks.flatten = w.response.content
  noError : w.downloadError = none
  renames : w.renameError = none
  differs : md5.hexdigest w.response.content ≠ checksumOf md5 files outputPath

/-- The call ends before it makes a temporary file, and not because of a wrong ETag, or it installs the
remote content. -/
def FetchesCleanly : Prop :=
  w.Unreadable outputPath files ∨
    w.HeadFails url outputPath files ∨
      (w.Shortcut md5 url outputPath files ∧
        md5.hexdigest w.response.content = checksumOf md5 files outputPath) ∨
        (¬ w.Shortcut md5 url outputPath files ∧
          (w.NoName files ∨ w.Installs md5 outputPath files))

end Answers

open Answers

variable {md5 : Md5} {w : Answers} {url outputPath : String} {files : Files}

/-! ### Up to the temporary file -/

theorem exec_orRaise (error : Option PyErr) (disk : Disk) :
    (orRaise error).exec disk =
      match error with
      | none => (.ok (), disk)
      | some err => (.error err, disk) := by
  cases error <;> rfl

theorem exec_change (f : Files → Files) (disk : Disk) :
    (change f).exec disk = (.ok (), ⟨f disk.files, f disk.files :: disk.seen⟩) := rfl

theorem exec_md5sum (md5 : Md5) {filepath : Path} {content : Bytes} {disk : Disk}
    (h : disk.files.get? filepath = some content) (error : Option PyErr) :
    (md5sum md5 error filepath).exec disk =
      match error with
      | none => (.ok (md5.hexdigest content), disk)
      | some err => (.error err, disk) := by
  simp only [md5sum, Eff.exec_bind, Eff.exec_get, h, exec_orRaise, md5Of_eq]
  cases error <;> rfl

theorem exec_outputChecksum (md5 : Md5) (w : Answers) (outputPath : String) (disk : Disk) :
    (w.Unreadable outputPath disk.files ∧
      ∃ err, (outputChecksum md5 w outputPath).exec disk = (.error err, disk)) ∨
      (¬ w.Unreadable outputPath disk.files ∧ (outputChecksum md5 w outputPath).exec disk =
        (.ok (checksumOf md5 disk.files outputPath), disk)) := by
  cases hfile : disk.files.get? (.file outputPath) with
  | none => exact .inr ⟨by simp [Unreadable, hfile], by simp [outputChecksum, Eff.exec_bind, hfile, checksumOf]⟩
  | some content =>
      cases herror : w.outputError with
      | none =>
          refine .inr ⟨by simp [Unreadable, herror], ?_⟩
          simp [outputChecksum, Eff.exec_bind, hfile, exec_md5sum md5 hfile, herror, checksumOf]
      | some err =>
          refine .inl ⟨by simp [Unreadable, hfile, herror], err, ?_⟩
          simp [outputChecksum, Eff.exec_bind, hfile, exec_md5sum md5 hfile, herror]

theorem exec_s3Unchanged (md5 : Md5) (w : Answers) (url outputPath : String) (disk : Disk) :
    (w.HeadFails url outputPath disk.files ∧
      ∃ err, (s3Unchanged w url (checksumOf md5 disk.files outputPath)).exec disk = (.error err, disk)) ∨
      (¬ w.HeadFails url outputPath disk.files ∧
        ∃ unchanged, (s3Unchanged w url (checksumOf md5 disk.files outputPath)).exec disk =
          (.ok unchanged, disk) ∧ (unchanged = true ↔ w.Shortcut md5 url outputPath disk.files)) := by
  by_cases hasks : AsksHead url outputPath disk.files
  · have hcond : checksumOf md5 disk.files outputPath ≠ "" ∧ isS3 url = true :=
      ⟨checksumOf_ne_empty_iff.2 hasks.1, hasks.2⟩
    cases hetag : w.responseEtag with
    | error err =>
        refine .inl ⟨⟨hasks, err, hetag⟩, err, ?_⟩
        rw [s3Unchanged, if_pos hcond, hetag]
        rfl
    | ok etag =>
        refine .inr ⟨by simp [HeadFails, hetag], etag == checksumOf md5 disk.files outputPath, ?_, ?_⟩
        · rw [s3Unchanged, if_pos hcond, hetag]
          rfl
        · simp [Shortcut, hasks, hetag]
  · have hcond : ¬ (checksumOf md5 disk.files outputPath ≠ "" ∧ isS3 url = true) := by
      intro h
      exact hasks ⟨checksumOf_ne_empty_iff.1 h.1, h.2⟩
    refine .inr ⟨fun h => hasks h.1, false, ?_, by simp [Shortcut, hasks]⟩
    rw [s3Unchanged, if_neg hcond]
    rfl

/-- A call that leaves the files as they are keeps to its output file, unless it returns although the
checksums differ. -/
theorem changesOnlyOutput_of_untouched {content : Bytes} {result : Except PyErr Unit}
    (h : result = .ok () → md5.hexdigest content = checksumOf md5 files outputPath) :
    ChangesOnlyOutput md5 content outputPath files (result, ⟨files, [files]⟩) where
  output := by simp
  others := fun _ _ => rfl
  renewed := fun hok hdiffers => absurd (h hok) hdiffers

/-! ### From the temporary file on -/

/-- The temporary file has the given content, and at no moment has any other file changed. -/
structure TmpOnly (files : Files) (name : String) (content : Bytes) (disk : Disk) : Prop where
  tmp : disk.files.get? (.temporary name) = some content
  frame : ∀ moment ∈ disk.seen, ∀ path, path ≠ .temporary name → moment.get? path = files.get? path
  now : disk.files ∈ disk.seen
  size : disk.files.size = files.size + 1

theorem TmpOnly.write {name : String} {content : Bytes} {disk : Disk}
    (h : TmpOnly files name content disk) (chunk : Bytes) :
    TmpOnly files name (content ++ chunk)
      ⟨disk.files.set (.temporary name) (content ++ chunk),
        disk.files.set (.temporary name) (content ++ chunk) :: disk.seen⟩ where
  tmp := Dict.get?_set_self _ _ _
  now := List.mem_cons_self
  size := by
    have hmem : Path.temporary name ∈ disk.files.keys := Dict.mem_keys_iff.2 ⟨content, h.tmp⟩
    calc
      (disk.files.set (.temporary name) (content ++ chunk)).size
          = (disk.files.set (.temporary name) (content ++ chunk)).keys.length := (Dict.length_keys _).symm
      _ = disk.files.keys.length := by rw [Dict.keys_set_of_mem hmem]
      _ = files.size + 1 := by rw [Dict.length_keys, h.size]
  frame := by
    intro moment hmem path hpath
    rcases List.mem_cons.1 hmem with rfl | hmem
    · calc
        (disk.files.set (.temporary name) (content ++ chunk)).get? path
            = disk.files.get? path := Dict.get?_set_of_ne _ (Ne.symm hpath) _
        _ = files.get? path := h.frame disk.files h.now path hpath
    · exact h.frame moment hmem path hpath

theorem exec_copyChunks {name : String} :
    ∀ (chunks : List Bytes) {content : Bytes} {disk : Disk}, TmpOnly files name content disk →
      ∃ disk', (copyChunks (.temporary name) chunks).exec disk = (.ok (), disk') ∧
        TmpOnly files name (content ++ chunks.flatten) disk'
  | [], content, disk, h => ⟨disk, rfl, by simpa using h⟩
  | chunk :: chunks, content, disk, h => by
      obtain ⟨disk', hexec, hdisk'⟩ := exec_copyChunks chunks (h.write chunk)
      refine ⟨disk', ?_, by simpa using hdisk'⟩
      rw [copyChunks, Eff.exec_bind, exec_change]
      simpa [h.tmp] using hexec

theorem exec_mkstemp {candidates : List String} {name : String}
    (hname : (candidates.find? fun name => files.get? (.temporary name) = none) = some name) :
    ∃ disk, (mkstemp candidates).exec ⟨files, [files]⟩ = (.ok (.temporary name), disk) ∧
      TmpOnly files name [] disk := by
  have hfresh : files.get? (.temporary name) = none := by simpa using List.find?_some hname
  refine ⟨⟨files.set (.temporary name) [], [files.set (.temporary name) [], files]⟩, ?_, ?_⟩
  · simp only [mkstemp, Eff.exec_bind, Eff.exec_get, hname]
    rfl
  · refine ⟨Dict.get?_set_self _ _ _, ?_, List.mem_cons_self, ?_⟩
    · intro moment hmem path hpath
      rcases List.mem_cons.1 hmem with rfl | hmem
      · exact Dict.get?_set_of_ne _ (Ne.symm hpath) _
      · rw [List.mem_singleton.1 hmem]
    · simp [Dict.size, Dict.entries_set_of_not_mem (Dict.get?_eq_none_iff.1 hfresh)]

/-- What a download has done when it comes to compare the checksums, or raises before that. -/
theorem exec_download (md5 : Md5) (outputPath checksum : String) {name : String}
    (hname : (w.candidates.find? fun name => files.get? (.temporary name) = none) = some name) :
    ∃ disk, TmpOnly files name w.response.chunks.flatten disk ∧
      (download md5 w outputPath checksum).exec ⟨files, [files]⟩ =
        match w.downloadError with
        | some err => (.error err, disk)
        | none =>
            if md5.hexdigest w.response.chunks.flatten = checksum then (.ok (), disk)
            else (rename w.renameError (.temporary name) (.file outputPath)).exec disk := by
  obtain ⟨made, hmake, hempty⟩ := exec_mkstemp hname
  obtain ⟨disk, hcopy, hdisk⟩ := exec_copyChunks w.response.chunks hempty
  rw [List.nil_append] at hdisk
  refine ⟨disk, hdisk, ?_⟩
  have hsum := exec_md5sum md5 hdisk.tmp w.tmpError
  simp only [download, Eff.exec_bind, hmake, hcopy, exec_orRaise, downloadError]
  cases w.response.error with
  | some err => rfl
  | none =>
      cases w.closeError with
      | some err => rfl
      | none =>
          simp only [hsum]
          cases w.tmpError with
          | some err => rfl
          | none =>
              by_cases hsame : md5.hexdigest w.response.chunks.flatten = checksum
              · simp [hsame]
              · simp [hsame]

/-- A temporary file that was left is a change of another file. -/
theorem TmpOnly.not_changesOnlyOutput {name : String} {content received : Bytes} {disk : Disk}
    (h : TmpOnly files name received disk) (hfresh : files.get? (.temporary name) = none)
    (result : Except PyErr Unit) : ¬ ChangesOnlyOutput md5 content outputPath files (result, disk) := by
  intro hchanges
  have hother := hchanges.others (.temporary name) (by simp)
  simp [h.tmp, hfresh] at hother

/-- The files after the rename. -/
def installed (name outputPath : String) (received : Bytes) (files : Files) : Files :=
  (files.erase (.temporary name)).set (.file outputPath) received

theorem TmpOnly.exec_rename {name : String} {received : Bytes} {disk : Disk}
    (h : TmpOnly files name received disk) (error : Option PyErr) (outputPath : String) :
    (rename error (.temporary name) (.file outputPath)).exec disk =
      match error with
      | some err => (.error err, disk)
      | none => (.ok (), ⟨installed name outputPath received disk.files,
          installed name outputPath received disk.files :: disk.seen⟩) := by
  simp only [rename, Eff.exec_bind, Eff.exec_get, h.tmp, exec_orRaise]
  cases error <;> rfl

/-- What a rename installs is right if it is the whole content. -/
theorem TmpOnly.changesOnlyOutput_installed_iff {name : String} {content received : Bytes} {disk : Disk}
    (h : TmpOnly files name received disk) (hfresh : files.get? (.temporary name) = none)
    (hdiffers : md5.hexdigest received ≠ checksumOf md5 files outputPath) :
    ChangesOnlyOutput md5 content outputPath files (.ok (), ⟨installed name outputPath received disk.files,
        installed name outputPath received disk.files :: disk.seen⟩) ↔ received = content := by
  have houtput : (installed name outputPath received disk.files).get? (.file outputPath) = some received :=
    Dict.get?_set_self _ _ _
  constructor
  · intro hchanges
    have hmoment := hchanges.output _ List.mem_cons_self
    rw [houtput] at hmoment
    rcases hmoment with hold | hnew
    · -- The old content has the old checksum.
      exact absurd (by simp [checksumOf, ← hold]) hdiffers
    · exact Option.some.inj hnew
  · rintro rfl
    refine ⟨?_, ?_, fun _ _ => houtput⟩
    · intro moment hmem
      rcases List.mem_cons.1 hmem with rfl | hmem
      · exact .inr houtput
      · rcases List.mem_cons.1 hmem with rfl | hmem
        · exact .inr houtput
        · exact .inl (h.frame moment hmem _ (by simp))
    · intro path hpath
      by_cases htmp : path = .temporary name
      · calc
          (installed name outputPath received disk.files).get? path
              = (disk.files.erase (.temporary name)).get? path := Dict.get?_set_of_ne _ (Ne.symm hpath) _
          _ = none := by simp [htmp, Dict.get?_erase]
          _ = files.get? path := by rw [htmp, hfresh]
      · calc
          (installed name outputPath received disk.files).get? path
              = (disk.files.erase (.temporary name)).get? path := Dict.get?_set_of_ne _ (Ne.symm hpath) _
          _ = disk.files.get? path := Dict.get?_erase_of_ne _ (Ne.symm htmp)
          _ = files.get? path := h.frame disk.files h.now path htmp

/-- A download leaves its temporary file as it is, or renames it. -/
theorem exec_download_cases (md5 : Md5) (outputPath checksum : String) {name : String}
    (hname : (w.candidates.find? fun name => files.get? (.temporary name) = none) = some name) :
    ∃ disk, TmpOnly files name w.response.chunks.flatten disk ∧
      ((w.downloadError ≠ none ∨ md5.hexdigest w.response.chunks.flatten = checksum ∨
          w.renameError ≠ none) ∧
          (∃ result, (download md5 w outputPath checksum).exec ⟨files, [files]⟩ = (result, disk)) ∨
        (w.downloadError = none ∧ md5.hexdigest w.response.chunks.flatten ≠ checksum ∧
          w.renameError = none) ∧
          (download md5 w outputPath checksum).exec ⟨files, [files]⟩ =
            (.ok (), ⟨installed name outputPath w.response.chunks.flatten disk.files,
              installed name outputPath w.response.chunks.flatten disk.files :: disk.seen⟩)) := by
  obtain ⟨disk, hdisk, hexec⟩ := exec_download md5 outputPath checksum hname
  refine ⟨disk, hdisk, ?_⟩
  cases hdownload : w.downloadError with
  | some err => exact .inl ⟨.inl (by simp), _, by rw [hexec, hdownload]⟩
  | none =>
      by_cases hsame : md5.hexdigest w.response.chunks.flatten = checksum
      · -- Unchanged: the temporary file is left.
        exact .inl ⟨.inr (.inl hsame), .ok (), by simp [hexec, hdownload, hsame]⟩
      · rw [hdownload] at hexec
        simp only [hsame, if_false, hdisk.exec_rename] at hexec
        cases hrename : w.renameError with
        | some err => exact .inl ⟨.inr (.inr (by simp)), _, by rw [hexec, hrename]⟩
        | none => exact .inr ⟨⟨rfl, hsame, rfl⟩, by rw [hexec, hrename]⟩

/-- What a download without the shortcut comes to. -/
theorem download_changesOnlyOutput_iff :
    ChangesOnlyOutput md5 w.response.content outputPath files
        ((download md5 w outputPath (checksumOf md5 files outputPath)).exec ⟨files, [files]⟩) ↔
      w.NoName files ∨ w.Installs md5 outputPath files := by
  cases hname : w.candidates.find? fun name => files.get? (.temporary name) = none with
  | none =>
      have hnone : w.NoName files := by simpa [NoName] using hname
      have hexec : (download md5 w outputPath (checksumOf md5 files outputPath)).exec ⟨files, [files]⟩ =
          (.error (.builtin .OSError), ⟨files, [files]⟩) := by
        simp only [download, mkstemp, Eff.exec_bind, Eff.exec_get, hname]
        rfl
      rw [hexec]
      exact iff_of_true (changesOnlyOutput_of_untouched (by simp)) (.inl hnone)
  | some name =>
      have hfresh : files.get? (.temporary name) = none := by simpa using List.find?_some hname
      have hsome : ¬ w.NoName files := fun hnone => hnone name (List.mem_of_find?_eq_some hname) hfresh
      rw [or_iff_right hsome]
      obtain ⟨disk, hdisk, ⟨hleft, result, hexec⟩ | ⟨⟨hdownload, hdiffers, hrename⟩, hexec⟩⟩ :=
        exec_download_cases md5 outputPath (checksumOf md5 files outputPath) hname
      · rw [hexec]
        refine iff_of_false (hdisk.not_changesOnlyOutput hfresh result) fun hinstalls => ?_
        rcases hleft with hdownload | hsame | hrename
        · exact hdownload hinstalls.noError
        · exact hinstalls.differs (hinstalls.whole ▸ hsame)
        · exact hrename hinstalls.renames
      · rw [hexec, hdisk.changesOnlyOutput_installed_iff hfresh hdiffers]
        constructor
        · intro hwhole
          exact ⟨hwhole, hdownload, hrename, hwhole ▸ hdiffers⟩
        · exact fun hinstalls => hinstalls.whole

/-! ### The exits of a call -/

theorem fetch_of_unreadable (md5 : Md5) (url : String) (h : w.Unreadable outputPath files) :
    ∃ err, fetch md5 w url outputPath files = (.error err, ⟨files, [files]⟩) := by
  rcases exec_outputChecksum md5 w outputPath ⟨files, [files]⟩ with
    ⟨-, err, hexec⟩ | ⟨hreadable, -⟩
  · exact ⟨err, by rw [fetch, fetchRemoteConfigurationImpl, Eff.exec_bind, hexec]⟩
  · exact absurd h hreadable

/-- A call that has read the output file. -/
theorem fetch_of_readable (h : ¬ w.Unreadable outputPath files) :
    fetch md5 w url outputPath files =
      (s3Unchanged w url (checksumOf md5 files outputPath) >>= fun unchanged =>
        if unchanged then pure () else download md5 w outputPath (checksumOf md5 files outputPath)).exec
          ⟨files, [files]⟩ := by
  rcases exec_outputChecksum md5 w outputPath ⟨files, [files]⟩ with
    ⟨hunreadable, -⟩ | ⟨-, hexec⟩
  · exact absurd hunreadable h
  · rw [fetch, fetchRemoteConfigurationImpl, Eff.exec_bind, hexec]

theorem fetch_of_head_error (md5 : Md5) (h : ¬ w.Unreadable outputPath files)
    (hhead : w.HeadFails url outputPath files) :
    ∃ err, fetch md5 w url outputPath files = (.error err, ⟨files, [files]⟩) := by
  rcases exec_s3Unchanged md5 w url outputPath ⟨files, [files]⟩ with ⟨-, err, hexec⟩ | ⟨hok, -⟩
  · exact ⟨err, by rw [fetch_of_readable h, Eff.exec_bind, hexec]⟩
  · exact absurd hhead hok

theorem fetch_of_shortcut (h : ¬ w.Unreadable outputPath files)
    (hhead : ¬ w.HeadFails url outputPath files) (hshortcut : w.Shortcut md5 url outputPath files) :
    fetch md5 w url outputPath files = (.ok (), ⟨files, [files]⟩) := by
  rcases exec_s3Unchanged md5 w url outputPath ⟨files, [files]⟩ with ⟨hfails, -⟩ | ⟨-, unchanged, hexec, hiff⟩
  · exact absurd hfails hhead
  · rw [fetch_of_readable h, Eff.exec_bind, hexec, hiff.2 hshortcut]
    rfl

theorem fetch_eq_download (h : ¬ w.Unreadable outputPath files)
    (hhead : ¬ w.HeadFails url outputPath files) (hshortcut : ¬ w.Shortcut md5 url outputPath files) :
    fetch md5 w url outputPath files =
      (download md5 w outputPath (checksumOf md5 files outputPath)).exec ⟨files, [files]⟩ := by
  rcases exec_s3Unchanged md5 w url outputPath ⟨files, [files]⟩ with ⟨hfails, -⟩ | ⟨-, unchanged, hexec, hiff⟩
  · exact absurd hfails hhead
  · have hnot : unchanged = false := Bool.eq_false_iff.2 fun htrue => hshortcut (hiff.1 htrue)
    rw [fetch_of_readable h, Eff.exec_bind, hexec, hnot]
    rfl

/-- A fetch changes only its output file, from the old content to the whole remote one, just when it ends
before a temporary file is made and no ETag is wrong, or installs the content. -/
theorem fetch_changes_only_output_iff (md5 : Md5) (w : Answers) (url outputPath : String)
    (files : Files) :
    ChangesOnlyOutput md5 w.response.content outputPath files (fetch md5 w url outputPath files) ↔
      w.FetchesCleanly md5 url outputPath files := by
  by_cases hunreadable : w.Unreadable outputPath files
  · obtain ⟨err, hexec⟩ := fetch_of_unreadable md5 url hunreadable
    rw [hexec]
    exact iff_of_true (changesOnlyOutput_of_untouched (by simp)) (.inl hunreadable)
  · by_cases hhead : w.HeadFails url outputPath files
    · obtain ⟨err, hexec⟩ := fetch_of_head_error md5 hunreadable hhead
      rw [hexec]
      exact iff_of_true (changesOnlyOutput_of_untouched (by simp)) (.inr (.inl hhead))
    · rw [FetchesCleanly, or_iff_right hunreadable, or_iff_right hhead]
      by_cases hshortcut : w.Shortcut md5 url outputPath files
      · -- The call returns with the files as they were.
        rw [fetch_of_shortcut hunreadable hhead hshortcut]
        simp only [hshortcut, not_true, false_and, or_false, true_and]
        constructor
        · intro hchanges
          by_contra hdiffers
          have hrenewed : files.get? (.file outputPath) = some w.response.content :=
            hchanges.renewed rfl hdiffers
          exact hdiffers (by simp [checksumOf, hrenewed])
        · intro hsame
          exact changesOnlyOutput_of_untouched fun _ => hsame
      · rw [fetch_eq_download hunreadable hhead hshortcut]
        simp only [hshortcut, false_and, false_or, not_false_eq_true, true_and]
        exact download_changesOnlyOutput_iff

/-! ## Refreshes -/

/-- The temporary file is made, and the call does not come to rename it. -/
structure Answers.LeavesFile (w : Answers) (md5 : Md5) (url outputPath : String) (files : Files) : Prop where
  readable : ¬ w.Unreadable outputPath files
  head : ¬ w.HeadFails url outputPath files
  noShortcut : ¬ w.Shortcut md5 url outputPath files
  named : ¬ w.NoName files
  notRenamed : w.downloadError ≠ none ∨
    md5.hexdigest w.response.chunks.flatten = checksumOf md5 files outputPath ∨ w.renameError ≠ none

theorem size_fetch (h : w.LeavesFile md5 url outputPath files) :
    (fetch md5 w url outputPath files).2.files.size = files.size + 1 := by
  rw [fetch_eq_download h.readable h.head h.noShortcut]
  cases hname : w.candidates.find? fun name => files.get? (.temporary name) = none with
  | none => exact absurd (by simpa [NoName] using hname) h.named
  | some name =>
      obtain ⟨disk, hdisk, ⟨-, result, hexec⟩ | ⟨⟨hdownload, hdiffers, hrename⟩, -⟩⟩ :=
        exec_download_cases md5 outputPath (checksumOf md5 files outputPath) hname
      · rw [hexec]
        exact hdisk.size
      · rcases h.notRenamed with herror | hsame | herror
        · exact absurd hdownload herror
        · exact absurd hsame hdiffers
        · exact absurd hrename herror

/-- The files after a call. -/
def refresh (md5 : Md5) (url outputPath : String) (files : Files) (w : Answers) : Option Files :=
  some (fetch md5 w url outputPath files).2.files

/-- Each refresh that finds the content unchanged, or fails after its temporary file was made, leaves one
more file. -/
theorem refreshes_accumulate (md5 : Md5) (url outputPath : String) :
    ∀ {ws : List Answers} {files : Files},
      Run.StepsMeet (refresh md5 url outputPath)
        (fun files w => w.LeavesFile md5 url outputPath files) files ws →
      ∃ files', ws.foldlM (refresh md5 url outputPath) files = some files' ∧
        files'.size = files.size + ws.length
  | [], files, _ => ⟨files, rfl, rfl⟩
  | w :: ws, files, h => by
      obtain ⟨hfirst, hrest⟩ := (Run.stepsMeet_cons rfl ws).1 h
      obtain ⟨files', hrun, hsize⟩ := refreshes_accumulate md5 url outputPath hrest
      refine ⟨files', hrun, ?_⟩
      rw [hsize, size_fetch hfirst, List.length_cons]
      omega

/-- The digest of `a: 1` and a newline, and something for all other contents. -/
def exampleMd5 : Md5 := ⟨fun _ => "e0ccdaf42c593022e15b18cc0e96d201", fun _ => by decide⟩

/-- A download of `a: 1` and a newline. -/
def unchangedDownload : Answers where
  outputError := none
  head := .ok none
  candidates := ["tmpk3j9x_2a"]
  response := ⟨[97, 58, 32, 49, 10], [[97, 58, 32, 49, 10]], by simp, none⟩
  closeError := none
  tmpError := none
  renameError := none

/-- The output file of an earlier download. -/
def downloadedOnce : Files := Dict.empty.set (.file "/tmp/conf/a.yaml") [97, 58, 32, 49, 10]

/-- The output file is fetched once more. -/
def unchangedFetch : Except PyErr Unit × Disk :=
  fetch exampleMd5 unchangedDownload "https://host/a.yaml" "/tmp/conf/a.yaml" downloadedOnce

theorem unchanged_fetch_leaves_file :
    unchangedFetch.1 = .ok () ∧
      unchangedFetch.2.files.keys = [.file "/tmp/conf/a.yaml", .temporary "tmpk3j9x_2a"] ∧
      ¬ ChangesOnlyOutput exampleMd5 unchangedDownload.response.content "/tmp/conf/a.yaml" downloadedOnce
        unchangedFetch := by
  refine ⟨by decide +kernel, by decide +kernel, ?_⟩
  intro hchanges
  have hleft : unchangedFetch.2.files.get? (.temporary "tmpk3j9x_2a") = some [97, 58, 32, 49, 10] := by
    decide +kernel
  have hother := hchanges.others (.temporary "tmpk3j9x_2a") (by decide)
  rw [hleft] at hother
  exact absurd hother (by decide)

end RemoteFetch

end YamlLoader

end PidtreeBcc
