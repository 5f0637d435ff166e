import LifeEngine.BlobFs.Places

/-!
# Writes that fail

The files as a map, where creating a directory, writing or renaming can fail at any time.  A
blob and its sidecar are replaced one after the other, and when the second fails, the first is
removed.
-/

namespace LifeEngine.BlobFs

open Support StorageContext Function

abbrev Files := Place → Option Bytes

/-- The operation of an atomic write that fails. A failed write leaves part of the data. -/
inductive Fault where
  | mkdir (e : IoError)
  | write (e : IoError) (left : Option Bytes)
  | rename (e : IoError)

namespace FsBlobAdapter

variable (env : FsEnv) (a : FsBlobAdapter)

/-- `atomic_write`. -/
def writeFile (fault : Option Fault) (dest : Place) (data : Bytes) (files : Files) :
    Except StorageError Unit × Files :=
  let path := AbsPath.ofNames dest
  let tmpPath := withSuffix path tmpSuffix
  match fault with
  | some (.mkdir e) => (.error (internalError "mkdir" (path.parent.getD []) e), files)
  | some (.write e left) =>
    (.error (internalError "write" tmpPath e), update files (tmpOf dest) left)
  | some (.rename e) =>
    -- the temporary file is removed
    (.error (internalError "rename to" path e), update files (tmpOf dest) none)
  | none =>
    (.ok (), update (update files (tmpOf dest) none) dest (some data))

def readMetaIn (files : Files) (key : BlobKey) : Except StorageError BlobMeta :=
  match files (a.metaAt key) with
  | none => .error (notFound key)
  | some bytes => a.parseMeta env key bytes

def retrieveIn (files : Files) (key : BlobKey) : Except StorageError (Bytes × BlobMeta) :=
  match files (a.blobAt key) with
  | none => .error (notFound key)
  | some data => do
      let info ← a.readMetaIn env files key
      checkBlob env.toBlobEnv key data info

/-- What a call is to write: the data, the metadata and the bytes of the sidecar. -/
abbrev Intended := Except StorageError (Bytes × BlobMeta × Bytes)

/-- `store`, up to its first write. -/
def prepareStore (now : Timestamp) (key : BlobKey) (input : BlobInput) (files : Files) :
    Intended := do
  let info := storedMeta env.toBlobEnv key input (createdAt now (a.readMetaIn env files key))
  let metaBytes ← serialiseMeta env info
  return (input.data, info, metaBytes)

/-- `copy`, up to its first write. -/
def prepareCopy (now : Timestamp) (source dest : BlobKey) (files : Files) : Intended :=
  match files (a.blobAt source) with
  | none => .error (notFound source)
  | some data => do
      let sourceInfo ← a.readMetaIn env files source
      let info : BlobMeta := { sourceInfo with key := dest.asStr, createdAt := now }
      let metaBytes ← serialiseMeta env info
      return (data, info, metaBytes)

/-- The writes of `store` and `copy`, with the faults of the blob and of its sidecar. -/
def finishWrites (blobFault metaFault : Option Fault) (key : BlobKey) (intended : Intended)
    (files : Files) : Except StorageError BlobMeta × Files :=
  match intended with
  | .error e => (.error e, files)
  | .ok (data, info, metaBytes) =>
    match writeFile blobFault (a.blobAt key) data files with
    | (.error e, files) => (.error e, files)
    | (.ok (), files) =>
      match writeFile metaFault (a.metaAt key) metaBytes files with
      -- the blob is removed
      | (.error e, files) => (.error e, update files (a.blobAt key) none)
      | (.ok (), files) => (.ok info, files)

def storeWith (blobFault metaFault : Option Fault) (now : Timestamp) (key : BlobKey)
    (input : BlobInput) (files : Files) : Except StorageError BlobMeta × Files :=
  a.finishWrites blobFault metaFault key (a.prepareStore env now key input files) files

def copyWith (blobFault metaFault : Option Fault) (now : Timestamp) (source dest : BlobKey)
    (files : Files) : Except StorageError BlobMeta × Files :=
  a.finishWrites blobFault metaFault dest (a.prepareCopy env now source dest files) files

/-- A failed call leaves the blob that was there. -/
def KeepsBlob (key : BlobKey) (files : Files) (result : Except StorageError BlobMeta × Files) :
    Prop :=
  ∀ e, result.1 = .error e → a.retrieveIn env result.2 key = a.retrieveIn env files key

variable {env a} {key : BlobKey} {files files' : Files} {blob : Bytes × BlobMeta}

theorem tmpOf_ne (place : Place) : tmpOf place ≠ place := by
  by_cases h : place = []
  · subst h
    exact sibling_ne_nil _ _
  · exact sibling_ne h (by decide)

/-- A failed write leaves everything but the temporary file. -/
theorem writeFile_error (fault : Fault) (dest : Place) (data : Bytes) (files : Files) :
    ∃ e left, writeFile (some fault) dest data files =
      (.error e, update files (tmpOf dest) left) := by
  rcases fault with e | ⟨e, left⟩ | e
  · exact ⟨_, files (tmpOf dest), by rw [update_eq_self]; rfl⟩
  · exact ⟨_, left, rfl⟩
  · exact ⟨_, none, rfl⟩

theorem keepsBlob_finishWrites_iff (hblob : a.retrieveIn env files key = .ok blob)
    (intended : Intended) (blobFault metaFault : Option Fault) :
    KeepsBlob env a key files (a.finishWrites blobFault metaFault key intended files) ↔
      (intended.isOk → blobFault = none → metaFault = none) := by
  rcases intended with e | ⟨data, info, metaBytes⟩
  · exact iff_of_true (fun _ _ => rfl) nofun
  rcases blobFault with _ | fault
  · rcases metaFault with _ | fault
    · exact iff_of_true nofun fun _ _ => rfl
    · refine iff_of_false (fun hkeeps => ?_) (by simp [Except.toBool])
      -- the blob is removed when only the sidecar fails
      obtain ⟨e, left, hwrite⟩ := writeFile_error fault (a.metaAt key) metaBytes
        (writeFile none (a.blobAt key) data files).2
      obtain ⟨files', hresult⟩ : ∃ files', a.finishWrites none (some fault) key
          (.ok (data, info, metaBytes)) files = (.error e, update files' (a.blobAt key) none) :=
        ⟨_, by rw [finishWrites]; dsimp only [writeFile] at hwrite ⊢; rw [hwrite]⟩
      rw [hresult] at hkeeps
      have hlost : retrieveIn env a (update files' _ none) key = _ := hkeeps e rfl
      rw [hblob, retrieveIn, update_self] at hlost
      cases hlost
  · refine iff_of_true (fun e _ => ?_) nofun
    obtain ⟨e', left, hwrite⟩ := writeFile_error fault (a.blobAt key) data files
    simp only [finishWrites, hwrite]
    simp only [retrieveIn, readMetaIn, update_of_ne (tmpOf_ne _).symm,
      update_of_ne (a.tmpOf_ne_metaAt _ key).symm]

/-- A failed `store` or `copy` leaves the blob that was there, unless it fails with the sidecar. -/
theorem keepsBlob_iff (hblob : a.retrieveIn env files key = .ok blob) (now : Timestamp)
    (input : BlobInput) (source : BlobKey) (blobFault metaFault : Option Fault) :
    (KeepsBlob env a key files (a.storeWith env blobFault metaFault now key input files) ↔
      ((a.prepareStore env now key input files).isOk → blobFault = none → metaFault = none)) ∧
    (KeepsBlob env a key files (a.copyWith env blobFault metaFault now source key files) ↔
      ((a.prepareCopy env now source key files).isOk → blobFault = none → metaFault = none)) :=
  ⟨keepsBlob_finishWrites_iff hblob _ _ _, keepsBlob_finishWrites_iff hblob _ _ _⟩

/-- All metadata are those of a blob with one byte. -/
def singleEnv : FsEnv where
  sha256Hex data := toString data.length
  inferGet _ := none
  mimeGuess _ := none
  toVecPretty _ := .ok []
  fromSlice _ := .ok ⟨"a", 1, "text/plain", "1", 0, []⟩

def singleKey : BlobKey := ⟨"notes/drafts/a", by decide⟩

/-- One blob and its sidecar. -/
def singleFiles : Files :=
  update (update (fun _ => none) (metaAt ⟨[]⟩ singleKey) (some []))
    (blobAt ⟨[]⟩ singleKey) (some [1])

theorem keepsBlob_single :
    KeepsBlob singleEnv ⟨[]⟩ singleKey singleFiles
      (storeWith singleEnv ⟨[]⟩ (some (.rename .notFound)) none 0 singleKey ⟨[2], none, []⟩
        singleFiles) :=
  ((keepsBlob_iff (by rfl) 0 ⟨[2], none, []⟩ singleKey _ _).1).mpr nofun

/-- The sidecar cannot be renamed: the old blob is gone with the new one. -/
theorem not_keepsBlob_single :
    (∃ blob, retrieveIn singleEnv ⟨[]⟩ singleFiles singleKey = .ok blob) ∧
      ¬ KeepsBlob singleEnv ⟨[]⟩ singleKey singleFiles
        (storeWith singleEnv ⟨[]⟩ none (some (.rename .notFound)) 0 singleKey ⟨[2], none, []⟩
          singleFiles) := by
  refine ⟨⟨_, rfl⟩, fun hkeeps => ?_⟩
  cases hkeeps _ rfl

end FsBlobAdapter

end LifeEngine.BlobFs
