import LifeEngine.Records.Storage
import LifeEngine.Support.Machine

/-!
# Conflicting versions of a record

`detect_conflict` compares the versions of two copies of a record with the version they
have in common.  A version counts the edits of its own copy, so the comparison knows how
many edits each side has made, and nothing about what they did.
-/

namespace LifeEngine.Sync

open Support Storage Records

inductive ResolutionStrategy where
  | lastWriteWins
  | fieldLevelMerge
  | manualResolution
  deriving DecidableEq, Repr

inductive ConflictResolution where
  | keepLocal
  | keepRemote
  | merged (data : Json)
  | requiresManual
  deriving DecidableEq

structure Conflict where
  id : String
  collection : String
  recordId : String
  localVersion : Record
  remoteVersion : Record
  strategy : ResolutionStrategy
  resolved : Bool
  resolution : Option ConflictResolution
  detectedAt : Timestamp
  deriving DecidableEq

def strategyForCollection (collection : String) : ResolutionStrategy :=
  if collection = "events" ∨ collection = "contacts" then .fieldLevelMerge
  else if collection = "notes" then .manualResolution
  -- Emails, tasks, files, and any unknown collection.
  else .lastWriteWins

/-- With the drawn id and the time of the call. -/
def detectConflict (id : String) (now : Timestamp) (localRecord remoteRecord : Record)
    (baseVersion : Int) : Option Conflict :=
  if localRecord.version = remoteRecord.version then none
  else if localRecord.version = baseVersion ∨ remoteRecord.version = baseVersion then none
  else some
    { id := id
      collection := localRecord.collection
      recordId := localRecord.id
      localVersion := localRecord
      remoteVersion := remoteRecord
      strategy := strategyForCollection localRecord.collection
      resolved := false
      resolution := none
      detectedAt := now }

theorem detectConflict_isSome (id : String) (now : Timestamp)
    (localRecord remoteRecord : Record) (baseVersion : Int) :
    (detectConflict id now localRecord remoteRecord baseVersion).isSome ↔
      localRecord.version ≠ remoteRecord.version ∧ localRecord.version ≠ baseVersion ∧
        remoteRecord.version ≠ baseVersion := by
  rw [detectConflict]
  split_ifs with hsame hbase
  · simp [hsame]
  · rcases hbase with hbase | hbase <;> simp [hbase]
  · rw [not_or] at hbase
    simp [hsame, hbase]

/-! ## Replicas -/

/-- An edit gives the record new data and raises its version. -/
structure Edit where
  data : Json
  updatedAt : Timestamp

def edit (r : Record) (e : Edit) : Record :=
  { r with data := e.data, version := r.version + 1, updatedAt := e.updatedAt }

theorem version_run_edit (base : Record) (edits : List Edit) :
    (run edit base edits).version = base.version + edits.length := by
  induction edits generalizing base with
  | nil => simp
  | cons e edits ih =>
    rw [run_cons, ih (edit base e), List.length_cons]
    simp only [edit]
    omega

theorem version_run_edit_eq_iff (base : Record) (edits : List Edit) :
    (run edit base edits).version = base.version ↔ edits = [] := by
  rw [version_run_edit, ← List.length_eq_zero_iff]
  omega

/-- A conflict is reported exactly if both were edited, unequally often. -/
theorem detectConflict_replicas (id : String) (now : Timestamp) (base : Record)
    (localEdits remoteEdits : List Edit) :
    (detectConflict id now (run edit base localEdits) (run edit base remoteEdits)
        base.version).isSome ↔
      localEdits ≠ [] ∧ remoteEdits ≠ [] ∧ localEdits.length ≠ remoteEdits.length := by
  have hcount : (run edit base localEdits).version = (run edit base remoteEdits).version ↔
      localEdits.length = remoteEdits.length := by
    rw [version_run_edit, version_run_edit]
    omega
  rw [detectConflict_isSome, Ne, Ne, version_run_edit_eq_iff, Ne, version_run_edit_eq_iff]
  tauto

/-- Both replicas were edited, and their data differ. -/
def Diverged (base : Record) (localEdits remoteEdits : List Edit) : Prop :=
  localEdits ≠ [] ∧ remoteEdits ≠ [] ∧
    (run edit base localEdits).data ≠ (run edit base remoteEdits).data

/-- The number of edits tells whether the data agree. -/
theorem detectConflict_iff_diverged_iff (id : String) (now : Timestamp) (base : Record)
    (localEdits remoteEdits : List Edit) :
    ((detectConflict id now (run edit base localEdits) (run edit base remoteEdits)
        base.version).isSome ↔ Diverged base localEdits remoteEdits) ↔
      localEdits = [] ∨ remoteEdits = [] ∨
        (localEdits.length = remoteEdits.length ↔
          (run edit base localEdits).data = (run edit base remoteEdits).data) := by
  rw [detectConflict_replicas, Diverged]
  tauto

/-- Two replicas with one edit each have the same version. -/
theorem detectConflict_misses_two_titles :
    let base : Record :=
      ⟨"n1", "core", "notes", .obj [("title", .str "draft")], 1, none, none, 0, 0⟩
    let localEdits : List Edit := [⟨.obj [("title", .str "mine")], 1⟩]
    let remoteEdits : List Edit := [⟨.obj [("title", .str "theirs")], 2⟩]
    Diverged base localEdits remoteEdits ∧
      detectConflict "c1" 3 (run edit base localEdits) (run edit base remoteEdits)
        base.version = none := by
  refine ⟨⟨by decide, by decide, ?_⟩, by decide⟩
  simp [edit]

end LifeEngine.Sync
