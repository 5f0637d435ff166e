import LifeEngine.Storage.Sqlite
import LifeEngine.Support.Machine

/-!
# What a mutation does

`execute_mutation` either refuses a mutation and changes nothing, or runs one SQL
statement and logs it if the mutation names the collection of credentials.  This
is said once here, and everything about runs of mutations is derived from it.
-/

namespace LifeEngine.Storage

open Support

/-- The collection that the mutation names decides. -/
def modifyEntries (collection : String) (id : Uuid) (pluginId operation : String) :
    List AuditEntry :=
  if collection = "credentials" then [⟨.modify, id, pluginId, operation⟩] else []

theorem ite_logCredential (condition : Prop) [Decidable condition] (s : SqliteStorage)
    (event : CredentialEvent) (documentId : Uuid) (pluginId operation : String) :
    (if condition then s.logCredential event documentId pluginId operation else s) =
      ⟨s.data,
        s.audit ++ if condition then [⟨event, documentId, pluginId, operation⟩] else []⟩ := by
  by_cases h : condition
  · simp [h, SqliteStorage.logCredential]
  · simp [h]

/-- The row that an insertion adds. -/
def insertedRow (draw : Draw) (pluginId collection : String) (data : Json) : DataRow Uuid :=
  ⟨draw.uuid, pluginId, collection, data, 1, draw.now, draw.now⟩

/-- The states that a mutation can leave behind. -/
inductive Effect (env : SqliteEnv) (draw : Draw) (s : SqliteStorage) :
    StorageMutation → SqliteStorage → Prop where
  | insertRefused {pluginId collection : String} {message : PipelineMessage} :
      Effect env draw s (.insert pluginId collection message) s
  | inserted {pluginId collection : String} {message : PipelineMessage} {data : Json}
      {table : PluginData Uuid}
      (hdata : insertData env draw pluginId collection message.payload = .ok data)
      (hinsert : s.data.insert (insertedRow draw pluginId collection data) = some table) :
      Effect env draw s (.insert pluginId collection message)
        ⟨table, s.audit ++ modifyEntries collection draw.uuid pluginId "insert"⟩
  | updateRefused {pluginId collection : String} {id : Uuid} {message : PipelineMessage}
      {version : Nat}
      (hrefused : ∀ data, updateData env draw s pluginId collection id message.payload = .ok data →
        ∀ r ∈ s.data.rows, updateHits pluginId id version r = false) :
      Effect env draw s (.update pluginId collection id message version) s
  | updated {pluginId collection : String} {id : Uuid} {message : PipelineMessage}
      {version : Nat} {data : Json} {r : DataRow Uuid}
      (hdata : updateData env draw s pluginId collection id message.payload = .ok data)
      (hr : r ∈ s.data.rows) (hhit : updateHits pluginId id version r = true) :
      Effect env draw s (.update pluginId collection id message version)
        ⟨s.data.updateWhere (updateHits pluginId id version) (rewriteRow data draw.now)
          (fun _ => rfl), s.audit ++ modifyEntries collection id pluginId "update"⟩
  | nothingDeleted {pluginId collection : String} {id : Uuid}
      (hnone : ∀ r ∈ s.data.rows, deleteHits pluginId id r = false) :
      Effect env draw s (.delete pluginId collection id) s
  | deleted {pluginId collection : String} {id : Uuid} {r : DataRow Uuid}
      (hr : r ∈ s.data.rows) (hhit : deleteHits pluginId id r = true) :
      Effect env draw s (.delete pluginId collection id)
        ⟨s.data.deleteWhere (deleteHits pluginId id),
          s.audit ++ modifyEntries collection id pluginId "delete"⟩

theorem exists_of_countWhere_ne_zero {table : PluginData Uuid} {p : DataRow Uuid → Bool}
    (h : table.countWhere p ≠ 0) : ∃ r ∈ table.rows, p r = true := by
  by_contra hnone
  push Not at hnone
  apply h
  rw [Table.countWhere_eq_zero_iff]
  intro r hr
  simpa using hnone r hr

theorem executeMutation_effect (env : SqliteEnv) (draw : Draw) (s : SqliteStorage)
    (mutation : StorageMutation) :
    Effect env draw s mutation (executeMutation env draw s mutation).2 := by
  cases mutation with
  | insert pluginId collection message =>
    simp only [executeMutation]
    cases hdata : insertData env draw pluginId collection message.payload with
    | error e => exact Effect.insertRefused
    | ok data =>
      simp only
      cases hinsert : s.data.insert ⟨draw.uuid, pluginId, collection, data, 1, draw.now,
          draw.now⟩ with
      | none => exact Effect.insertRefused
      | some table =>
        simp only [ite_logCredential]
        exact Effect.inserted hdata hinsert
  | update pluginId collection id message version =>
    simp only [executeMutation]
    cases hdata : updateData env draw s pluginId collection id message.payload with
    | error e =>
      apply Effect.updateRefused
      intro data hok
      rw [hdata] at hok
      cases hok
    | ok data =>
      simp only
      split
      next hzero =>
        apply Effect.updateRefused
        intro _ _
        exact Table.countWhere_eq_zero_iff.mp hzero
      next hsome =>
        obtain ⟨r, hr, hhit⟩ := exists_of_countWhere_ne_zero hsome
        simp only [ite_logCredential]
        exact Effect.updated hdata hr hhit
  | delete pluginId collection id =>
    simp only [executeMutation, ite_logCredential]
    by_cases hzero : s.data.countWhere (deleteHits pluginId id) = 0
    · have hnone := Table.countWhere_eq_zero_iff.mp hzero
      rw [Table.deleteWhere_eq_self hnone]
      simp only [hzero, ne_eq, not_true_eq_false, and_false, if_false, List.append_nil]
      exact Effect.nothingDeleted hnone
    · obtain ⟨r, hr, hhit⟩ := exists_of_countWhere_ne_zero hzero
      simp only [hzero, ne_eq, not_false_eq_true, and_true]
      exact Effect.deleted hr hhit

/-- One mutation, with what it draws. -/
def mutationStep (env : SqliteEnv) (s : SqliteStorage) (input : Draw × StorageMutation) :
    SqliteStorage :=
  (executeMutation env input.1 s input.2).2

/-- A database without records. -/
def emptyStorage : SqliteStorage where
  data := Table.empty
  audit := []

theorem updateHits_iff {pluginId : String} {id : Uuid} {version : Nat} {r : DataRow Uuid} :
    updateHits pluginId id version r = true ↔
      r.id = id ∧ r.pluginId = pluginId ∧ r.version = asI64 version := by
  simp [updateHits]

/-- The rows after an update: the rows it reaches are rewritten. -/
theorem mem_rewritten {table : PluginData Uuid} {p : DataRow Uuid → Bool} {data : Json}
    {now : Timestamp} {r' : DataRow Uuid} :
    r' ∈ (table.updateWhere p (rewriteRow data now) (fun _ => rfl)).rows ↔
      ∃ r ∈ table.rows, (p r = true ∧ r' = rewriteRow data now r) ∨ (p r = false ∧ r' = r) :=
  Table.mem_updateWhere

end LifeEngine.Storage
