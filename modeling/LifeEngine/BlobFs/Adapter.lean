import LifeEngine.StorageContext.Blobs
import LifeEngine.Support.Action
import LifeEngine.Support.FileTree

/-!
# The file system adapter for blobs

`FsBlobAdapter` keeps each blob in a file below its root directory, at the path
that the key spells, and the metadata of the blob in a second file beside it.  The
model runs on a disk: a file tree together with a log of the places that have been
looked at or changed.
-/

namespace LifeEngine.BlobFs

open Support StorageContext

/-! ## The disk -/

abbrev Name := List Char

/-- The names from `/` down to a file or directory. -/
abbrev Place := List Name

structure Disk where
  tree : FileTree Name Bytes
  log : List Place

abbrev Path := AbsPath Name

namespace Fs

variable {ε α : Type}

/-- An operation that leaves the tree as it is. -/
def look (place : Place) (f : FileTree Name Bytes → Except ε α) : Action Disk ε α :=
  Action.ofStep fun d => (f d.tree, { d with log := place :: d.log })

/-- An operation that changes the tree if it succeeds. -/
def change (places : FileTree Name Bytes → List Place)
    (f : FileTree Name Bytes → Except IoError (FileTree Name Bytes)) :
    Action Disk IoError Unit :=
  Action.ofStep fun d =>
    match f d.tree with
    | .ok t => (.ok (), ⟨t, places d.tree ++ d.log⟩)
    | .error e => (.error e, ⟨d.tree, places d.tree ++ d.log⟩)

def isDir (path : Path) : Action Disk ε Bool :=
  look path.resolve fun t => .ok (t.isDir path.resolve)

/-- `Path::exists`. -/
def occupied (path : Path) : Action Disk ε Bool :=
  look path.resolve fun t => .ok (t.occupied path.resolve)

def read (path : Path) : Action Disk IoError Bytes :=
  look path.resolve fun t => t.read path.resolve

def readDir (path : Path) : Action Disk IoError (List Name) :=
  look path.resolve fun t => t.readDir path.resolve

def write (path : Path) (data : Bytes) : Action Disk IoError Unit :=
  change (fun _ => [path.resolve]) fun t => t.write path.resolve data

def removeFile (path : Path) : Action Disk IoError Unit :=
  change (fun _ => [path.resolve]) fun t => t.removeFile path.resolve

def rename (path path' : Path) : Action Disk IoError Unit :=
  change (fun _ => [path.resolve, path'.resolve])
    fun t => t.renameFile path.resolve path'.resolve

/-- `create_dir_all`; new directories count as accessed, too. -/
def createDirAll (path : Path) : Action Disk IoError Unit :=
  change (fun t => path.resolve :: path.resolve.inits.filter fun p => !t.occupied p)
    fun t => t.createDirAll path.resolve

@[simp] theorem exec_look (place : Place) (f : FileTree Name Bytes → Except ε α) (d : Disk) :
    Action.exec (look place f) d = (f d.tree, { d with log := place :: d.log }) := rfl

section Change

variable {places : FileTree Name Bytes → List Place}
  {f : FileTree Name Bytes → Except IoError (FileTree Name Bytes)} {d : Disk}

theorem exec_change_ok {t : FileTree Name Bytes} (h : f d.tree = .ok t) :
    Action.exec (change places f) d = (.ok (), ⟨t, places d.tree ++ d.log⟩) := by
  rw [change, Action.exec_ofStep, h]

theorem exec_change_error {e : IoError} (h : f d.tree = .error e) :
    Action.exec (change places f) d = (.error e, ⟨d.tree, places d.tree ++ d.log⟩) := by
  rw [change, Action.exec_ofStep, h]

/-- A change succeeds, or fails and leaves the tree. -/
theorem of_exec_change {r : Except IoError Unit} {d' : Disk}
    (h : Action.exec (change places f) d = (r, d')) :
    (r = .ok () ∧ f d.tree = .ok d'.tree) ∨
      ∃ e, r = .error e ∧ f d.tree = .error e ∧ d'.tree = d.tree := by
  cases hf : f d.tree with
  | ok t =>
    rw [exec_change_ok hf, Prod.mk.injEq] at h
    exact Or.inl ⟨h.1.symm, by rw [← h.2]⟩
  | error e =>
    rw [exec_change_error hf, Prod.mk.injEq] at h
    exact Or.inr ⟨e, h.1.symm, rfl, by rw [← h.2]⟩

end Change

end Fs

/-! ## Paths -/

/-- The component that a piece of a path text stands for. -/
def component (piece : List Char) : Option (Component Name) :=
  if piece = [] ∨ piece = ['.'] then none
  else if piece = ['.', '.'] then some .up
  else some (.name piece)

def components (text : String) : Path :=
  (text.toList.splitOn '/').filterMap component

/-- `Path::join`: an absolute text replaces the path. -/
def join (path : Path) (text : String) : Path :=
  if text.toList.head? = some '/' then components text else path ++ components text

def renderComponent : Component Name → List Char
  | .name n => n
  | .up => ['.', '.']

/-- The text of a path relative to some directory. -/
def renderRelative (path : Path) : List Char :=
  List.intercalate ['/'] (path.map renderComponent)

def display (path : Path) : String :=
  String.ofList ('/' :: renderRelative path)

/-- The name of the sidecar or of the temporary file. -/
def withSuffix (path : Path) (suffix : List Char) : Path :=
  path.setFileName (path.fileName.getD [] ++ suffix)

/-- `Path::extension`: what follows the last dot, unless it comes first. -/
def extension (name : Name) : Option Name :=
  if (name.reverse.dropWhile fun c => c ≠ '.').length ≤ 1 then none
  else some (name.reverse.takeWhile fun c => c ≠ '.').reverse

/-- Removes a pattern from the front as often as it stands there. -/
def trimStart (pattern : List Char) : Nat → List Char → List Char
  | 0, text => text
  | fuel + 1, text =>
    if pattern <+: text then trimStart pattern fuel (text.drop pattern.length) else text

/-- `trim_end_matches`. -/
def trimEnd (pattern text : List Char) : List Char :=
  (trimStart pattern.reverse text.length text.reverse).reverse

def metaSuffix : List Char := ".meta.json".toList

def tmpSuffix : List Char := ".tmp".toList

/-! ## The adapter -/

/-- The libraries that the adapter calls. -/
structure FsEnv where
  sha256Hex : Bytes → String
  inferGet : Bytes → Option String
  mimeGuess : String → Option String
  toVecPretty : BlobMeta → Except String Bytes
  fromSlice : Bytes → Except String BlobMeta

def detectContentType (env : FsEnv) (key : BlobKey) (data : Bytes) : String :=
  match env.inferGet data with
  | some kind => kind
  | none => (env.mimeGuess key.asStr).getD "application/octet-stream"

def FsEnv.toBlobEnv (env : FsEnv) : BlobEnv where
  checksum := env.sha256Hex
  detectContentType := detectContentType env

structure FsBlobAdapter where
  root : Place

inductive HealthStatus where
  | healthy
  | degraded
  | unhealthy
  deriving DecidableEq

structure HealthCheck where
  name : String
  status : HealthStatus
  message : Option String

structure HealthReport where
  status : HealthStatus
  message : Option String
  checks : List HealthCheck

abbrev BlobAction := Action Disk StorageError

open Action

def internalError (start : String) (path : Path) (e : IoError) : StorageError :=
  .internal (start ++ " " ++ display path ++ ": " ++ e.display)

def notFound (key : BlobKey) : StorageError :=
  .notFound "blob" key.asStr

/-- The error of a read: not found, or another failure. -/
def readError (start : String) (key : BlobKey) (path : Path) (e : IoError) : StorageError :=
  if e = .notFound then notFound key else internalError start path e

def atomicWrite (dest : Path) (data : Bytes) : BlobAction Unit := do
  let parent ← ofResult (okOr dest.parent
    (.internal ("no parent directory for " ++ display dest)))
  mapErr (internalError "mkdir" parent) (Fs.createDirAll parent)
  let tmpPath := withSuffix dest tmpSuffix
  mapErr (internalError "write" tmpPath) (Fs.write tmpPath data)
  let renamed ← attempt (Fs.rename tmpPath dest)
  match renamed with
  | .ok () => pure ()
  | .error e => do
      -- the temporary file is removed, and a failure to do so is ignored
      let _ ← attempt (Fs.removeFile tmpPath)
      throw (internalError "rename to" dest e)

namespace FsBlobAdapter

variable (env : FsEnv) (a : FsBlobAdapter)

def rootPath : Path := AbsPath.ofNames a.root

def blobPath (key : BlobKey) : Path :=
  join a.rootPath key.asStr

def metaPath (key : BlobKey) : Path :=
  withSuffix (a.blobPath key) metaSuffix

def parseMeta (key : BlobKey) (bytes : Bytes) : Except StorageError BlobMeta :=
  (env.fromSlice bytes).mapError fun e =>
    .internal ("parse meta " ++ display (a.metaPath key) ++ ": " ++ e)

def readMeta (key : BlobKey) : BlobAction BlobMeta := do
  let bytes ← mapErr (readError "read meta" key (a.metaPath key)) (Fs.read (a.metaPath key))
  ofResult (a.parseMeta env key bytes)

def serialiseMeta (info : BlobMeta) : Except StorageError Bytes :=
  (env.toVecPretty info).mapError fun e => .internal ("serialise meta: " ++ e)

/-- The blob is written, then its sidecar; if that fails, the blob is removed. -/
def writeBoth (key : BlobKey) (data metaBytes : Bytes) : BlobAction Unit := do
  atomicWrite (a.blobPath key) data
  let written ← attempt (atomicWrite (a.metaPath key) metaBytes)
  match written with
  | .ok () => pure ()
  | .error e => do
      let _ ← attempt (Fs.removeFile (a.blobPath key))
      throw e

/-- A blob keeps its creation time. -/
def createdAt (now : Timestamp) (previous : Except StorageError BlobMeta) : Timestamp :=
  (previous.toOption.map fun info => info.createdAt).getD now

def store (now : Timestamp) (key : BlobKey) (input : BlobInput) : BlobAction BlobMeta := do
  let previous ← attempt (a.readMeta env key)
  let info := storedMeta env.toBlobEnv key input (createdAt now previous)
  let metaBytes ← ofResult (serialiseMeta env info)
  a.writeBoth key input.data metaBytes
  return info

def retrieve (key : BlobKey) : BlobAction (Bytes × BlobMeta) := do
  let data ← mapErr (readError "read blob" key (a.blobPath key)) (Fs.read (a.blobPath key))
  let info ← a.readMeta env key
  ofResult (checkBlob env.toBlobEnv key data info)

def delete (key : BlobKey) : BlobAction Unit := do
  let found ← Fs.occupied (a.blobPath key)
  if found then do
    mapErr (internalError "delete blob" (a.blobPath key)) (Fs.removeFile (a.blobPath key))
    let _ ← attempt (Fs.removeFile (a.metaPath key))
    pure ()
  else throw (notFound key)

/-- `exists`. -/
def exist (key : BlobKey) : BlobAction Bool :=
  Fs.occupied (a.blobPath key)

def copy (now : Timestamp) (source dest : BlobKey) : BlobAction BlobMeta := do
  let found ← Fs.occupied (a.blobPath source)
  if found then do
    let data ← mapErr (internalError "read blob" (a.blobPath source))
      (Fs.read (a.blobPath source))
    let sourceInfo ← a.readMeta env source
    let info : BlobMeta := { sourceInfo with key := dest.asStr, createdAt := now }
    let metaBytes ← ofResult (serialiseMeta env info)
    a.writeBoth dest data metaBytes
    return info
  else throw (notFound source)

def metadata (key : BlobKey) : BlobAction BlobMeta :=
  a.readMeta env key

/-! ### Listing -/

/-- The test of `collect_metas` for a sidecar file. -/
def isSidecar (path : Path) : Bool :=
  path.fileName.any fun name =>
    extension name = some "json".toList && decide (metaSuffix <:+ name)

/-- Without the pieces in front that are no components. -/
def trimLeft (pieces : List (List Char)) : List (List Char) :=
  pieces.dropWhile fun piece => component piece = none

def trimRight (pieces : List (List Char)) : List (List Char) :=
  (trimLeft pieces.reverse).reverse

/-- What `Path::strip_prefix` leaves behind a number of components: single dots and empty pieces
further on are kept. -/
def stripComponents : Nat → List (List Char) → List (List Char)
  | 0, pieces => trimLeft pieces
  | n + 1, pieces => stripComponents n (trimLeft pieces).tail

/-- The pieces of the text of the directory that `list` walks. -/
def dirPieces (start : String) (directory : Bool) : List (List Char) :=
  let pieces := start.toList.splitOn '/'
  let pieces := if start.toList.head? = some '/' then pieces else a.root ++ pieces
  if directory then pieces else trimRight (trimRight pieces).dropLast

/-- The key that the name of a sidecar file spells, in a walk of the directory. -/
def sidecarKey (start : String) (directory : Bool) (dir path : Path) : List Char :=
  let pieces := a.dirPieces start directory ++ (path.drop dir.length).map renderComponent
  trimEnd metaSuffix (List.intercalate ['/']
    (if a.rootPath <+: path then stripComponents a.root.length pieces
      else [] :: pieces.dropWhile fun piece => piece = []))

/-- One entry of a directory, where `descend` walks a directory; `wanted` compares the key of a
sidecar with the text to list by. -/
def collectEntry (wanted : Path → Bool) (descend : Path → BlobAction (List BlobMeta))
    (path : Path) : BlobAction (List BlobMeta) := do
  let directory ← Fs.isDir path
  if directory then descend path
  else if isSidecar path ∧ wanted path then do
    let bytes ← mapErr (internalError "read meta" path) (Fs.read path)
    pure (env.fromSlice bytes).toOption.toList
  else pure []

/-- `collect_metas`.  The fuel bounds the depth of the walk. -/
def collectMetas (wanted : Path → Bool) : Nat → Path → BlobAction (List BlobMeta)
  | 0, _ => pure []
  | fuel + 1, dir => do
      let names ← mapErr (internalError "readdir" dir) (Fs.readDir dir)
      let found ← names.mapM fun n =>
        collectEntry env wanted (collectMetas wanted fuel) (dir ++ [.name n])
      return found.flatten

/-- The directory that `list` walks. -/
def walkDir (searchDir : Path) (directory : Bool) : Path :=
  if directory then searchDir else searchDir.parent.getD a.rootPath

/-- What `list` does once it knows the directory to walk. -/
def walk (wanted : Path → Bool) (dir : Path) : BlobAction (List BlobMeta) := do
  let found ← Fs.occupied dir
  if found then do
    let fuel ← ofStep fun d => (.ok (d.tree.depth + 1), d)
    collectMetas env wanted fuel dir
  else return []

/-- The test of the prefix in `collect_metas`. -/
def wanted (start : String) (directory : Bool) (path : Path) : Bool :=
  start.toList <+: a.sidecarKey start directory
    (a.walkDir (join a.rootPath start) directory) path

def list (start : String) : BlobAction (List BlobMeta) := do
  let searchDir := join a.rootPath start
  let directory ← Fs.isDir searchDir
  walk env (a.wanted start directory) (a.walkDir searchDir directory)

/-! ### Health -/

def probePath : Path := join a.rootPath ".health_probe"

/-- Whether a file can be written below the root directory. -/
def probe : BlobAction Bool := do
  let written ← attempt (Fs.write a.probePath "ok".toUTF8.toList)
  let _ ← attempt (Fs.removeFile a.probePath)
  return written.toBool

def healthReport (dirExists writable : Bool) : HealthReport where
  status :=
    if dirExists && writable then .healthy else if dirExists then .degraded else .unhealthy
  message := none
  checks :=
    [⟨"root_exists", if dirExists then .healthy else .unhealthy, none⟩,
      ⟨"root_writable", if writable then .healthy else .unhealthy, none⟩]

def health : BlobAction HealthReport := do
  let dirExists ← Fs.isDir a.rootPath
  if dirExists then do
    let writable ← a.probe
    return healthReport true writable
  else return healthReport false false

/-! ### Calls -/

/-- A call, with its time where that matters. -/
inductive Call where
  | store (now : Timestamp) (key : BlobKey) (input : BlobInput)
  | retrieve (key : BlobKey)
  | delete (key : BlobKey)
  | exist (key : BlobKey)
  | copy (now : Timestamp) (source dest : BlobKey)
  | list (start : String)
  | metadata (key : BlobKey)
  | health

/-- The disk after a call. -/
def step (d : Disk) : Call → Disk
  | .store now key input => (exec (a.store env now key input) d).2
  | .retrieve key => (exec (a.retrieve env key) d).2
  | .delete key => (exec (a.delete key) d).2
  | .exist key => (exec (a.exist key) d).2
  | .copy now source dest => (exec (a.copy env now source dest) d).2
  | .list start => (exec (a.list env start) d).2
  | .metadata key => (exec (a.metadata env key) d).2
  | .health => (exec a.health d).2

end FsBlobAdapter

end LifeEngine.BlobFs
