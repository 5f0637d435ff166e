import LifeEngine.StorageMigration.Copy

/-!
# What a migration preserves

A migration that succeeds has lost nothing.  The insertion binds the text of the data to a
parameter of type `jsonb`, which the driver refuses, so the first record of a source ends
the migration: it succeeds for the empty source alone.
-/

namespace LifeEngine.StorageMigration

open Support Storage List
open LifeEngine.Records (Record QueryResult Pagination)

variable {env : SqliteEnv} {pg : PgEnv} {source : Source} {callback : Bool} {s s' : Copying}

/-! ## The first record -/

theorem insertRecord_ne_ok (pg : PgEnv) (target : Target) (record : Record) (after : Target) :
    insertRecord pg target record ≠ .ok after := by
  intro h
  obtain ⟨_, hparams, -⟩ := bind_eq_ok_iff.mp h
  have haccepted := checkParams_eq_ok_iff.mp hparams (.string, .jsonb) (by decide)
  cases haccepted

theorem copyRecord_ne_ok {pluginId collection : String} {record : Record} {u : Unit} :
    Action.exec (copyRecord pg pluginId collection record) s ≠ (.ok u, s') := by
  intro h
  rw [copyRecord, Action.exec_ofStep] at h
  rcases hinsert : insertRecord pg s.target record with e | target
  · rw [hinsert] at h
    cases h
  · exact insertRecord_ne_ok pg s.target record target hinsert

/-- The first batch of a collection with rows has a record. -/
theorem copyBatches_ne_ok {pluginId collection : String} {fuel : Nat} {u : Unit}
    (hrows : 0 < (selected source pluginId collection).length) :
    Action.exec (copyBatches env pg source pluginId collection fuel 0) s ≠ (.ok u, s') := by
  intro h
  cases fuel with
  | zero => cases h
  | succ fuel =>
    obtain ⟨batch, s₀, hbatch, h⟩ := Action.of_exec_bind_ok h
    obtain ⟨hlist, rfl⟩ := Prod.mk.inj hbatch
    have hlength := (of_list_batch hlist).2
    rcases hrecords : batch.records with _ | ⟨record, records⟩
    · rw [hrecords, List.length_nil, Nat.zero_mod, migrationBatchSize] at hlength
      omega
    · rw [hrecords] at h
      obtain ⟨_, s₁, hcopied, -⟩ := Action.of_exec_bind_ok h
      obtain ⟨_, s₂, hfirst, -⟩ := Action.of_exec_bind_ok hcopied
      exact copyRecord_ne_ok hfirst

/-! ## The whole migration -/

theorem mem_discoverCollections {scope : String × String} :
    scope ∈ discoverCollections source ↔
      ∃ row ∈ source.rows, (row.pluginId, row.collection) = scope := by
  rw [discoverCollections, mem_insertionSort, mem_dedup, mem_map]

theorem transaction_ne_ok {total : Nat} {result : MigrationResult}
    (hsource : discoverCollections source ≠ []) :
    Action.exec (transaction env pg source callback total (discoverCollections source)) s ≠
      (.ok result, s') := by
  intro h
  obtain ⟨names, s₁, hcopied, -⟩ := Action.of_exec_bind_ok h
  obtain ⟨scope, scopes, hscopes⟩ := exists_cons_of_ne_nil hsource
  rw [hscopes, mapM_cons] at hcopied
  obtain ⟨_, s₂, hfirst, -⟩ := Action.of_exec_bind_ok hcopied
  obtain ⟨_, s₃, -, hrest⟩ := Action.of_exec_bind_ok hfirst
  obtain ⟨_, s₄, hbatches, -⟩ := Action.of_exec_bind_ok hrest
  obtain ⟨row, hrow, rfl⟩ := mem_discoverCollections.mp (hscopes ▸ mem_cons_self)
  refine copyBatches_ne_ok ?_ hbatches
  exact length_pos_of_mem (mem_filter.mpr ⟨hrow, decide_eq_true ⟨rfl, rfl⟩⟩)

/-- A migration succeeds exactly if the source is empty. -/
theorem migrate_eq_ok_iff {target : Target} {result : MigrationResult} :
    (migrateSqliteToPg env pg source callback target).1 = .ok result ↔
      source.rows = [] ∧ result = ⟨0, []⟩ := by
  unfold migrateSqliteToPg
  by_cases hempty : (discoverCollections source).isEmpty = true
  · have hrows : source.rows = [] := by
      refine eq_nil_iff_forall_not_mem.mpr fun row hrow => ?_
      have hscope := mem_discoverCollections.mpr ⟨row, hrow, rfl⟩
      rw [isEmpty_iff.mp hempty] at hscope
      cases hscope
    rw [if_pos hempty, and_iff_right hrows, Except.ok.injEq, eq_comm]
  · have hsource : discoverCollections source ≠ [] := fun h => hempty (isEmpty_iff.mpr h)
    have hrows : source.rows ≠ [] := by
      intro hrows
      exact hsource (by rw [discoverCollections, hrows]; rfl)
    refine iff_of_false ?_ fun h => hrows h.1
    rw [if_neg hempty]
    rcases (do
        let total ← countRecords env source (discoverCollections source)
        pg.connect
        return total : Except String Nat) with e | total
    · exact nofun
    · dsimp only
      rcases hrun : Action.exec
        (transaction env pg source callback total (discoverCollections source))
        ⟨target, 0, []⟩ with ⟨_ | result', s'⟩
      · exact nofun
      · exact absurd hrun (transaction_ne_ok hsource)

/-- The row of the target holds the record of the source. -/
structure SameRecord (env : SqliteEnv) (row : SourceRow) (copy : TargetRow) : Prop where
  id : copy.id = row.id
  pluginId : copy.pluginId = row.pluginId
  collection : copy.collection = row.collection
  data : env.fromStr row.data = .ok copy.data
  version : copy.version = row.version
  userId : copy.userId = row.userId
  householdId : copy.householdId = row.householdId

/-- Every record of the source is in the target. -/
def Preserved (env : SqliteEnv) (source : Source) (target : Target) : Prop :=
  ∀ row ∈ source.rows, ∃ copy ∈ target.rows, SameRecord env row copy

/-- Rows in the order of insertion, with JSON strings for data. -/
def textSqlite : SqliteEnv where
  fromStr text := .ok (.str text)
  parseFromRfc3339 _ := .ok 0
  order rows := ⟨rows, List.Perm.refl rows⟩

/-- A PostgreSQL that answers. -/
def steadyPg : PgEnv where
  connect := .ok ()
  jsonb value := .ok value
  timestamptz time := time
  execute _ _ := .ok ()
  queryOne _ := .ok ()
  commit _ := .ok ()

/-- A target that has a note before the migration. -/
def oldNote : Target :=
  ⟨[⟨"n1", "core", "notes", .str "old", 1, none, none, 0, 0⟩], by decide⟩

/-- A source with one note, and what becomes of its migration. -/
example :
    (migrateSqliteToPg textSqlite steadyPg
      ⟨[⟨"n1", "core", "notes", "new", 2, none, none, "", ""⟩], by decide⟩ true oldNote).1 =
      .error "failed to migrate record n1 in core/notes: error serializing parameter 3" := by
  rfl

end LifeEngine.StorageMigration
