import LifeEngine.Migration.Manifest
import LifeEngine.SqliteDocument.Adapter

/-!
# Rows and entries of a migration

`run_migrations` goes through the entries of a manifest in the order of their
targets.  For each entry it selects the plugin's records of the entry's collection
whose `version` is the major number of the entry's range, transforms them, and
writes the target's major number back; a record whose transform fails goes to
quarantine and stays as it is.  Each entry is one transaction.

The transforms run in a WASM sandbox and are a parameter.  This file is about one row on its
way through the entries; `Migration.Calls` has the engine, and reads a run in these terms.
-/

namespace LifeEngine.Migration

open Support SqliteDocument List

/-! ## The engine -/

structure MigrationEnv where
  semver : SemverEnv
  /-- `run_transform`, with the name of the exported function. -/
  runTransform : String → Json → Except MigrationError Json
  /-- The time at which an entry writes a record. -/
  clock : MigrationEntry → String → String

/-- How the calls of a run end: at most one for an entry and a record. -/
structure Calls where
  /-- `run_transform`. -/
  runTransform : MigrationEntry → String → Json → Except MigrationError Json
  /-- Whether `quarantine_record` stores its row. -/
  storesRecord : MigrationEntry → String → Bool
  /-- The time at which an entry writes a record. -/
  clock : MigrationEntry → String → String

/-- Calls that depend on the transform and its input only. -/
def MigrationEnv.calls (env : MigrationEnv) : Calls where
  runTransform entry _ := env.runTransform entry.transform
  storesRecord _ _ := true
  clock := env.clock

/-- `parse_from_version`: the major number of a range. -/
def parseFromVersion (fromRange : String) : Except MigrationError Int :=
  match readI64 ((segments fromRange).headD fromRange) with
  | some version => .ok version
  | none => .error (.manifestValidation
      ("cannot parse major version from '" ++ fromRange ++ "'"))

/-- `entry.to.major as i64`. -/
@[irreducible] def toVersion (entry : MigrationEntry) : Int :=
  Int.bmod entry.target.major (2 ^ 64)

structure QuarantinedRecord where
  recordData : Except String Json
  pluginId : String
  collection : String
  fromVersion : String
  toVersion : String
  errorMessage : String

/-- What a run works on and counts, with the calls of `run_transform`. -/
structure MigrationState where
  table : Documents
  quarantine : List QuarantinedRecord
  migrated : Nat
  quarantined : Nat
  entriesApplied : List String
  calls : List (MigrationEntry × String)

/-- The condition of `query_records`. -/
def hasVersion (pluginId collection : String) (version : Int) (r : DocumentRow) : Bool :=
  r.pluginId = pluginId ∧ r.collection = collection ∧ r.version = version

def queryRecords (table : Documents) (pluginId collection : String) (version : Int) :
    List DocumentRow :=
  table.rows.filter (hasVersion pluginId collection version)

def updateRecord (table : Documents) (recordId : String) (newData : Json)
    (newVersion : Int) (now : String) : Documents :=
  table.updateWhere (fun r => r.id = recordId)
    (fun r => { r with data := .ok newData, version := newVersion, updatedAt := now })
    (fun _ => rfl)

def MigrationState.start (table : Documents) (quarantine : List QuarantinedRecord) :
    MigrationState where
  table := table
  quarantine := quarantine
  migrated := 0
  quarantined := 0
  entriesApplied := []
  calls := []

/-! ## One row -/

/-- The entry selects the row. -/
def selects (pluginId : String) (entry : MigrationEntry) (r : DocumentRow) : Bool :=
  match parseFromVersion entry.fromRange with
  | .ok version => hasVersion pluginId entry.collection version r
  | .error _ => false

namespace Calls

variable (calls : Calls) (pluginId : String)

/-- The row after its transform. -/
def migrateRow (entry : MigrationEntry) (r : DocumentRow) : DocumentRow :=
  match r.data with
  | .error _ => r
  | .ok input =>
    match calls.runTransform entry r.id input with
    | .ok output =>
      { r with
        data := .ok output
        version := toVersion entry
        updatedAt := calls.clock entry r.id }
    | .error _ => r

def applyEntry (r : DocumentRow) (entry : MigrationEntry) : DocumentRow :=
  if selects pluginId entry r then calls.migrateRow entry r else r

/-- The row after the entries, one after the other. -/
def runRow (entries : List MigrationEntry) (r : DocumentRow) : DocumentRow :=
  entries.foldl (calls.applyEntry pluginId) r

/-- The entries that select the row. -/
def attempts (entries : List MigrationEntry) (r : DocumentRow) : List MigrationEntry :=
  stepsTaken (selects pluginId) (calls.applyEntry pluginId) entries r

end Calls

/-- The text of the row is not JSON. -/
def DocumentRow.corrupt (r : DocumentRow) : Bool :=
  match r.data with
  | .ok _ => false
  | .error _ => true

/-- The run stops here: the range has no `i64` major number, or a selected row is not JSON. -/
def blocked (pluginId : String) (rows : List DocumentRow) (entry : MigrationEntry) : Bool :=
  match parseFromVersion entry.fromRange with
  | .error _ => true
  | .ok _ => rows.any fun r => DocumentRow.corrupt r && selects pluginId entry r

/-- The entries before the first blocked one. -/
def effective (pluginId : String) (rows : List DocumentRow) (entries : List MigrationEntry) :
    List MigrationEntry :=
  entries.takeWhile fun entry => !blocked pluginId rows entry

variable {pluginId : String} {entry : MigrationEntry}

theorem selects_eq_true_iff {r : DocumentRow} :
    selects pluginId entry r = true ↔ r.pluginId = pluginId ∧
      r.collection = entry.collection ∧ parseFromVersion entry.fromRange = .ok r.version := by
  unfold selects
  cases hversion : parseFromVersion entry.fromRange with
  | error e => simp
  | ok version =>
    have hversion' : version = r.version ↔ r.version = version := eq_comm
    simp [hasVersion, hversion']

/-- What no entry changes of a record. -/
structure SameRecord (r r' : DocumentRow) : Prop where
  id : r'.id = r.id
  pluginId : r'.pluginId = r.pluginId
  collection : r'.collection = r.collection
  corrupt : DocumentRow.corrupt r' = DocumentRow.corrupt r
  kept : DocumentRow.corrupt r = true → r' = r

theorem SameRecord.refl (r : DocumentRow) : SameRecord r r := ⟨rfl, rfl, rfl, rfl, fun _ => rfl⟩

theorem SameRecord.trans {r r₁ r₂ : DocumentRow} (h₁ : SameRecord r r₁)
    (h₂ : SameRecord r₁ r₂) : SameRecord r r₂ where
  id := h₂.id.trans h₁.id
  pluginId := h₂.pluginId.trans h₁.pluginId
  collection := h₂.collection.trans h₁.collection
  corrupt := h₂.corrupt.trans h₁.corrupt
  kept hcorrupt := (h₂.kept (h₁.corrupt.trans hcorrupt)).trans (h₁.kept hcorrupt)

namespace Calls

section Row

variable {calls : Calls} {pluginId : String} {entry : MigrationEntry} {r : DocumentRow}

theorem migrateRow_of_ok {input output : Json} (hdata : r.data = .ok input)
    (houtput : calls.runTransform entry r.id input = .ok output) :
    calls.migrateRow entry r =
      { r with
        data := .ok output
        version := toVersion entry
        updatedAt := calls.clock entry r.id } := by
  simp [migrateRow, hdata, houtput]

theorem migrateRow_of_failed {input : Json} {e : MigrationError} (hdata : r.data = .ok input)
    (houtput : calls.runTransform entry r.id input = .error e) :
    calls.migrateRow entry r = r := by
  simp [migrateRow, hdata, houtput]

/-- A corrupt row is not touched, and the others stay JSON. -/
theorem migrateRow_same (entry : MigrationEntry) (r : DocumentRow) :
    SameRecord r (calls.migrateRow entry r) := by
  rcases hdata : r.data with e | input
  · have hstay : calls.migrateRow entry r = r := by simp [migrateRow, hdata]
    rw [hstay]
    exact .refl r
  · rcases houtput : calls.runTransform entry r.id input with e | output
    · rw [migrateRow_of_failed hdata houtput]
      exact .refl r
    · have hjson : DocumentRow.corrupt r = false := by simp [DocumentRow.corrupt, hdata]
      rw [migrateRow_of_ok hdata houtput]
      exact ⟨rfl, rfl, rfl, hjson.symm, by simp [hjson]⟩

theorem applyEntry_of_not_selects (h : ¬ selects pluginId entry r = true) :
    calls.applyEntry pluginId r entry = r :=
  if_neg h

theorem applyEntry_same (r : DocumentRow) (entry : MigrationEntry) :
    SameRecord r (calls.applyEntry pluginId r entry) := by
  unfold applyEntry
  split
  · exact migrateRow_same entry r
  · exact .refl r

theorem runRow_cons (entry : MigrationEntry) (rest : List MigrationEntry) (r : DocumentRow) :
    calls.runRow pluginId (entry :: rest) r =
      calls.runRow pluginId rest (calls.applyEntry pluginId r entry) := rfl

theorem runRow_same (entries : List MigrationEntry) (r : DocumentRow) :
    SameRecord r (calls.runRow pluginId entries r) := by
  induction entries generalizing r with
  | nil => exact .refl r
  | cons entry rest ih => exact (applyEntry_same r entry).trans (ih _)

theorem runRow_of_not_selects {entries : List MigrationEntry}
    (h : ∀ entry ∈ entries, ¬ selects pluginId entry r = true) :
    calls.runRow pluginId entries r = r := by
  induction entries with
  | nil => rfl
  | cons entry rest ih =>
    rw [runRow_cons, applyEntry_of_not_selects (h entry mem_cons_self)]
    exact ih fun other hother => h other (mem_cons_of_mem entry hother)

end Row

end Calls

/-! ## Blocked entries -/

/-- Only corrupt rows block an entry. -/
theorem blocked_map {f : DocumentRow → DocumentRow} (hf : ∀ r, SameRecord r (f r))
    (pluginId : String) (rows : List DocumentRow) (entry : MigrationEntry) :
    blocked pluginId (rows.map f) entry = blocked pluginId rows entry := by
  unfold blocked
  cases parseFromVersion entry.fromRange with
  | error e => rfl
  | ok version =>
    simp only [any_map]
    congr 1
    funext r
    by_cases hcorrupt : DocumentRow.corrupt r = true
    · simp [(hf r).kept hcorrupt]
    · simp [(hf r).corrupt, hcorrupt]

section Blocked

variable {pluginId : String}

theorem blocked_of_unparsed {entry : MigrationEntry} {rows : List DocumentRow}
    {e : MigrationError} (h : parseFromVersion entry.fromRange = .error e) :
    blocked pluginId rows entry = true := by
  rw [blocked, h]

theorem blocked_iff_of_parsed {entry : MigrationEntry} {rows : List DocumentRow}
    {version : Int} (h : parseFromVersion entry.fromRange = .ok version) :
    blocked pluginId rows entry = true ↔
      ∃ record ∈ rows.filter (selects pluginId entry), DocumentRow.corrupt record = true := by
  rw [blocked, h]
  simp only [any_eq_true, Bool.and_eq_true, mem_filter]
  constructor
  · rintro ⟨r, hr, hcorrupt, hselects⟩
    exact ⟨r, ⟨hr, hselects⟩, hcorrupt⟩
  · rintro ⟨r, ⟨hr, hselects⟩, hcorrupt⟩
    exact ⟨r, hr, hcorrupt, hselects⟩

end Blocked

/-! ## The records of one entry -/

/-- No transform ever fails. -/
def MigrationEnv.Total (env : MigrationEnv) : Prop :=
  ∀ function input, ∃ output, env.runTransform function input = .ok output

section Entry

variable {pluginId : String} {entry : MigrationEntry}

variable {t : Documents} {record : DocumentRow}

theorem rows_of_failed {calls : Calls} (hrecord : record ∈ t.rows) {input : Json}
    {e : MigrationError} (hdata : record.data = .ok input)
    (houtput : calls.runTransform entry record.id input = .error e) :
    t.rows = t.rows.map fun r => if r.id ∈ [record.id] then calls.migrateRow entry r else r := by
  have hsame : ∀ r ∈ t.rows, (if r.id ∈ [record.id] then calls.migrateRow entry r else r) = r := by
    intro r hr
    by_cases hid : r.id = record.id
    · have hr' : r = record := t.eq_of_key_eq hr hrecord hid
      subst hr'
      simp [Calls.migrateRow_of_failed hdata houtput]
    · simp [hid]
  rw [map_congr_left hsame, map_id']

theorem mem_ids_selected_iff {r : DocumentRow} (hr : r ∈ t.rows) :
    r.id ∈ (t.rows.filter (selects pluginId entry)).map DocumentRow.id ↔
      selects pluginId entry r = true := by
  constructor
  · intro hid
    obtain ⟨other, hother, heq⟩ := mem_map.mp hid
    obtain ⟨hrow, hselects⟩ := mem_filter.mp hother
    rwa [← t.eq_of_key_eq hrow hr heq]
  · intro hselects
    exact mem_map_of_mem (mem_filter.mpr ⟨hr, hselects⟩)

theorem filter_log_eq {β : Type} (event : DocumentRow → β) (idOf : β → String)
    (hid : ∀ r, idOf (event r) = r.id) {p : DocumentRow → Bool} {r : DocumentRow}
    (hr : r ∈ t.rows) :
    ((t.rows.filter p).map event).filter (fun e => idOf e = r.id) =
      if p r then [event r] else [] := by
  have honly : (t.rows.filter p).filter (fun other => other.id = r.id) =
      if p r then [r] else [] := by
    rw [filter_comm, t.filter_key_eq hr]
    by_cases hp : p r = true <;> simp [hp]
  have hcomp : (fun e => decide (idOf e = r.id)) ∘ event = fun other => decide (other.id = r.id) :=
    funext fun other => by rw [Function.comp_apply, hid]
  rw [filter_map, hcomp, honly]
  by_cases hp : p r = true <;> simp [hp]

end Entry

/-! ## A small database -/

/-- Transforms that change nothing. -/
def identityEnv : MigrationEnv where
  semver := plainSemver
  runTransform _ input := .ok input
  clock _ _ := "2026-01-01T00:00:00Z"

theorem identityEnv_total : identityEnv.Total := fun _ input => ⟨input, rfl⟩

/-- One record of version 1. -/
def oneEvent : Documents where
  rows := [⟨"r1", "p", "events", .ok (.obj []), 1, "2025-01-01T00:00:00Z",
    "2025-01-01T00:00:00Z"⟩]
  keys_nodup := by simp

def eventsEntry (fromRange : String) (target : Version) : MigrationEntry :=
  ⟨fromRange, target, "migrate", "", "events"⟩

def majorEntry : MigrationEntry :=
  eventsEntry "1.x" (Version.new 2 0 0)

def minorEntry : MigrationEntry :=
  eventsEntry "1.0.x" (Version.new 1 1 0)

theorem majorEntry_accepted : Accepted plainSemver [majorEntry] := by
  refine ⟨.ok (some [⟨some "1.x", some "2.0.0", some "migrate", some "", some "events"⟩]), ?_⟩
  decide +kernel

theorem minorEntry_accepted : Accepted plainSemver [minorEntry] := by
  refine ⟨.ok (some [⟨some "1.0.x", some "1.1.0", some "migrate", some "", some "events"⟩]), ?_⟩
  decide +kernel

end LifeEngine.Migration
