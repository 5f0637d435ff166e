import LifeEngine.Records.Storage
import LifeEngine.Support.Action
import LifeEngine.Support.Parameters
import Mathlib.Data.List.Dedup
import Mathlib.Data.List.Sort

/-!
# Copying SQLite into PostgreSQL

`migrate_sqlite_to_pg` reads each collection of `plugin_data` in batches and inserts the
records into the table of the same name in PostgreSQL, where a row with the same id stays
as it is.  All of it happens in one transaction, which is committed when the numbers of
rows agree.  The driver refuses the parameters of the insertion.
-/

namespace LifeEngine.StorageMigration

open Support Storage
open LifeEngine.Records (Record QueryResult Pagination)

/-! ## The two databases -/

/-- A row of `plugin_data` in SQLite: data and times are texts. -/
structure SourceRow where
  id : String
  pluginId : String
  collection : String
  data : String
  version : Int
  userId : Option String
  householdId : Option String
  createdAt : String
  updatedAt : String

abbrev Source := Table String SourceRow SourceRow.id

/-- A row of `plugin_data` in PostgreSQL. -/
structure TargetRow where
  id : String
  pluginId : String
  collection : String
  data : Json
  version : Int
  userId : Option String
  householdId : Option String
  createdAt : Timestamp
  updatedAt : Timestamp

abbrev Target := Table String TargetRow TargetRow.id

/-- SQLite and its parsers. The rows of an unchanged table come in one order. -/
structure SqliteEnv where
  fromStr : String → Except String Json
  parseFromRfc3339 : String → Except String Timestamp
  order : (rows : List SourceRow) → { sorted : List SourceRow // sorted.Perm rows }

/-- What PostgreSQL makes of values, and where it fails. -/
structure PgEnv where
  connect : Except String Unit
  jsonb : Json → Except String Json
  timestamptz : Timestamp → Timestamp
  execute : Target → TargetRow → Except String Unit
  queryOne : Target → Except String Unit
  commit : Target → Except String Unit

def rowToRecord (env : SqliteEnv) (row : SourceRow) : Except String Record := do
  let data ← env.fromStr row.data
  let createdAt ← env.parseFromRfc3339 row.createdAt
  let updatedAt ← env.parseFromRfc3339 row.updatedAt
  return ⟨row.id, row.pluginId, row.collection, data, row.version, row.userId,
    row.householdId, createdAt, updatedAt⟩

/-- The rows of a plugin's collection. -/
def selected (source : Source) (pluginId collection : String) : List SourceRow :=
  source.rows.filter fun row => row.pluginId = pluginId ∧ row.collection = collection

/-- The same, in the order in which SQLite returns them. -/
def scan (env : SqliteEnv) (source : Source) (pluginId collection : String) :
    List SourceRow :=
  (env.order (selected source pluginId collection)).1

/-- `list` without sort options. -/
def list (env : SqliteEnv) (source : Source) (pluginId collection : String)
    (pagination : Pagination) : Except String QueryResult := do
  let pagination := pagination.clamped
  let total := (selected source pluginId collection).length
  let page := ((scan env source pluginId collection).drop pagination.offset).take
    pagination.limit
  let records ← page.mapM (rowToRecord env)
  return ⟨records, total, pagination.limit, pagination.offset⟩

def pairLe (a b : String × String) : Prop :=
  a.1 < b.1 ∨ a.1 = b.1 ∧ ¬ b.2 < a.2

instance : DecidableRel pairLe := fun a b =>
  inferInstanceAs (Decidable (a.1 < b.1 ∨ a.1 = b.1 ∧ ¬ b.2 < a.2))

/-- The distinct pairs of plugin and collection, in order. -/
def discoverCollections (source : Source) : List (String × String) :=
  (source.rows.map fun row => (row.pluginId, row.collection)).dedup.insertionSort pairLe

/-! ## The migration -/

def migrationBatchSize : Nat := 500

structure MigrationProgress where
  totalRecords : Nat
  migratedRecords : Nat
  currentCollection : String
  complete : Bool
  deriving DecidableEq, Repr

structure MigrationResult where
  recordsMigrated : Nat
  collectionsMigrated : List String
  deriving DecidableEq, Repr

/-- The table in the transaction, the migrated records and the progress reported. -/
structure Copying where
  target : Target
  migrated : Nat
  reports : List MigrationProgress

/-- The columns of user and household are not named. -/
def targetRow (pg : PgEnv) (record : Record) (data : Json) : TargetRow :=
  ⟨record.id, record.pluginId, record.collection, data, record.version, none, none,
    pg.timestamptz record.createdAt, pg.timestamptz record.updatedAt⟩

/-- The values of the insertion, and the types of `$1, $2, $3, $4::jsonb, $5, $6, $7`. The data is
sent as its text. -/
def insertParams : List (RustType × PgType) :=
  [(.string, .text), (.string, .text), (.string, .text), (.string, .jsonb), (.int64, .int8),
    (.dateTime, .timestamptz), (.dateTime, .timestamptz)]

/-- `INSERT … ON CONFLICT (id) DO NOTHING`. -/
def insertRecord (pg : PgEnv) (target : Target) (record : Record) : Except String Target := do
  checkParams insertParams
  let data ← pg.jsonb record.data
  pg.execute target (targetRow pg record data)
  return (target.insert (targetRow pg record data)).getD target

def copyRecord (pg : PgEnv) (pluginId collection : String) (record : Record) :
    Action Copying String Unit :=
  Action.ofStep fun s =>
    match insertRecord pg s.target record with
    | .ok target => (.ok (), { s with target := target, migrated := s.migrated + 1 })
    | .error e =>
      (.error ("failed to migrate record " ++ record.id ++ " in " ++ pluginId ++ "/" ++
        collection ++ ": " ++ e), s)

section

variable (env : SqliteEnv) (pg : PgEnv) (source : Source)

/-- The loop over the batches. The offset is counted in 64 bits and sent in 32. -/
def copyBatches (pluginId collection : String) : Nat → Nat → Action Copying String Unit
  | 0, _ => throw "out of fuel"
  | fuel + 1, offset => do
      let batch ← Action.ofResult
        (list env source pluginId collection ⟨migrationBatchSize, offset % 2 ^ 32⟩)
      if batch.records.isEmpty then pure ()
      else do
        batch.records.forM (copyRecord pg pluginId collection)
        let next := offset + batch.records.length
        if next ≥ batch.total then pure ()
        else copyBatches pluginId collection fuel next

/-- A call of the progress callback, if there is one. -/
def report (callback : Bool) (progress : Nat → MigrationProgress) :
    Action Copying String Unit :=
  Action.ofStep fun s =>
    (.ok (), if callback then { s with reports := s.reports ++ [progress s.migrated] } else s)

def copyCollection (callback : Bool) (total : Nat) (scope : String × String) :
    Action Copying String String := do
  report callback fun migrated => ⟨total, migrated, scope.2, false⟩
  copyBatches env pg source scope.1 scope.2 (source.rows.length + 1) 0
  pure scope.2

/-- The rows of the collection are counted in both databases. -/
def verifyCollection (scope : String × String) : Action Copying String Unit := do
  let result ← Action.ofResult (list env source scope.1 scope.2 ⟨1, 0⟩)
  let count ← Action.ofStep fun s =>
    ((pg.queryOne s.target).map fun _ =>
      s.target.countWhere fun row => row.pluginId = scope.1 ∧ row.collection = scope.2, s)
  if count ≠ result.total then
    throw ("record count mismatch for " ++ scope.1 ++ "/" ++ scope.2 ++ ": SQLite has " ++
      toString result.total ++ " records, PostgreSQL has " ++ toString count ++ " records")
  else pure ()

/-- Copy, verify and commit. -/
def transaction (callback : Bool) (total : Nat) (collections : List (String × String)) :
    Action Copying String MigrationResult := do
  let migrated ← collections.mapM (copyCollection env pg source callback total)
  let final ← Action.ofStep fun s => (.ok s.migrated, s)
  collections.forM (verifyCollection env pg source)
  Action.ofStep fun s =>
    ((pg.commit s.target).mapError fun e =>
      "failed to commit migration transaction: " ++ e, s)
  report callback fun _ => ⟨total, final, "", true⟩
  pure ⟨final, migrated⟩

def countRecords (collections : List (String × String)) : Except String Nat :=
  collections.foldlM (fun total scope => do
    let result ← list env source scope.1 scope.2 ⟨1, 0⟩
    return total + result.total) 0

/-- The result, the target and the reports. Without a commit all is rolled back. -/
def migrateSqliteToPg (callback : Bool) (target : Target) :
    Except String MigrationResult × Target × List MigrationProgress :=
  let collections := discoverCollections source
  if collections.isEmpty then (.ok ⟨0, []⟩, target, [])
  else
    match (do let total ← countRecords env source collections; pg.connect; return total) with
    | .error e => (.error e, target, [])
    | .ok total =>
      match Action.exec (transaction env pg source callback total collections)
          ⟨target, 0, []⟩ with
      | (.error e, s) => (.error e, target, s.reports)
      | (.ok result, s) => (.ok result, s.target, s.reports)

end

/-! ## What a batch reads -/

section

variable {env : SqliteEnv} {pg : PgEnv} {source : Source} {pluginId collection : String}

theorem length_scan :
    (scan env source pluginId collection).length = (selected source pluginId collection).length :=
  (env.order _).2.length_eq

/-- A batch holds the records of one page. -/
theorem of_list_batch {offset : Nat} {batch : QueryResult}
    (h : list env source pluginId collection ⟨migrationBatchSize, offset⟩ = .ok batch) :
    batch.total = (selected source pluginId collection).length ∧
      batch.records.length =
        min migrationBatchSize ((selected source pluginId collection).length - offset) := by
  obtain ⟨records, hrecords, h⟩ := bind_eq_ok_iff.mp h
  obtain rfl := Except.ok.inj h
  refine ⟨rfl, ?_⟩
  have hlength := (forall₂_of_mapM_ok hrecords).length_eq
  rw [List.length_take, List.length_drop, length_scan] at hlength
  exact hlength.symm

/-! ## The loop ends -/

/-- Each batch moves the offset, so the loop ends. -/
theorem copyBatches_succ {fuel offset : Nat}
    (h : (selected source pluginId collection).length ≤ offset + fuel) :
    copyBatches env pg source pluginId collection (fuel + 2) offset =
      copyBatches env pg source pluginId collection (fuel + 1) offset := by
  induction fuel generalizing offset with
  | zero =>
    apply Action.ofResult_bind_congr
    intro batch hbatch
    by_cases hempty : batch.records.isEmpty = true
    · rw [if_pos hempty, if_pos hempty]
    · have htotal := (of_list_batch hbatch).1
      have hnext : offset + batch.records.length ≥ batch.total := by omega
      simp only [if_pos hnext]
  | succ fuel ih =>
    apply Action.ofResult_bind_congr
    intro batch hbatch
    by_cases hempty : batch.records.isEmpty = true
    · rw [if_pos hempty, if_pos hempty]
    · have hpos : 0 < batch.records.length := by
        rw [List.isEmpty_iff] at hempty
        exact List.length_pos_iff.mpr hempty
      have hrest : (selected source pluginId collection).length ≤
          offset + batch.records.length + fuel := by omega
      simp only [ih hrest]

/-- More rounds than the migration allows for change nothing. -/
theorem copyBatches_of_le {fuel : Nat} (h : source.rows.length + 1 ≤ fuel) :
    copyBatches env pg source pluginId collection fuel 0 =
      copyBatches env pg source pluginId collection (source.rows.length + 1) 0 := by
  have hlength : (selected source pluginId collection).length ≤ source.rows.length :=
    List.length_filter_le _ _
  induction fuel, h using Nat.le_induction with
  | base => rfl
  | succ fuel hfuel ih =>
    obtain ⟨rounds, rfl⟩ : ∃ rounds, fuel = rounds + 1 := ⟨fuel - 1, by omega⟩
    rw [copyBatches_succ (by omega), ih]

end

end LifeEngine.StorageMigration
