import LifeEngine.SqliteDocument.Adapter
import LifeEngine.Storage.Sqlite
import LifeEngine.Support.Machine

/-!
# The backend on the shared table

`SqliteStorage` and `SqliteDocumentAdapter` write to the same table `plugin_data`.  The
backend draws UUIDs and times, which the table keeps as texts; the adapter also stores
documents under identifiers that are no UUIDs.  Here are the mutations of the backend on
the table that both share, and that they are those of the backend on a table of its own.
-/

namespace LifeEngine.SharedTable

open Support Storage
open LifeEngine.SqliteDocument (Documents DocumentRow)

variable (env : SqliteEnv) (timeText : Timestamp → String)

/-- The row as the backend reads it: without times, and data that are not JSON are none. -/
def rowAt (t : Documents) (id : Uuid) : Option (DataRow Uuid) :=
  (t.rows.find? fun r => r.id = uuidText id).bind fun r =>
    match r.data with
    | .ok data => some ⟨id, r.pluginId, r.collection, data, r.version, 0, 0⟩
    | .error _ => none

/-- What an update of the identifier can read of the table. -/
def viewAt (t : Documents) (id : Uuid) : SqliteStorage where
  data :=
    match rowAt t id with
    | some row => ⟨[row], List.nodup_singleton row.id⟩
    | none => Table.empty
  audit := []

def insertedRow (draw : Draw) (pluginId collection : String) (data : Json) : DocumentRow :=
  ⟨uuidText draw.uuid, pluginId, collection, .ok data, 1, timeText draw.now,
    timeText draw.now⟩

def updateHits (pluginId : String) (id : Uuid) (expectedVersion : Nat) (r : DocumentRow) :
    Bool :=
  r.id = uuidText id ∧ r.pluginId = pluginId ∧ r.version = asI64 expectedVersion

def rewriteRow (data : Json) (now : String) (r : DocumentRow) : DocumentRow :=
  { r with data := .ok data, version := r.version + 1, updatedAt := now }

def deleteHits (pluginId : String) (id : Uuid) (r : DocumentRow) : Bool :=
  r.id = uuidText id ∧ r.pluginId = pluginId

def executeMutation (draw : Draw) (t : Documents) :
    StorageMutation → Except Failure Unit × Documents
  | .insert pluginId collection message =>
    match insertData env draw pluginId collection message.payload with
    | .error e => (.error (.error e), t)
    | .ok data =>
      match t.insert (insertedRow timeText draw pluginId collection data) with
      | none =>
        (.error (.error (.database "UNIQUE constraint failed: plugin_data.id")), t)
      | some t' => (.ok (), t')
  | .update pluginId collection id message expectedVersion =>
    match updateData env draw (viewAt t id) pluginId collection id message.payload with
    | .error e => (.error e, t)
    | .ok data =>
      if t.countWhere (updateHits pluginId id expectedVersion) = 0 then
        (.error (.error (.concurrencyConflict id expectedVersion)), t)
      else
        (.ok (), t.updateWhere (updateHits pluginId id expectedVersion)
          (rewriteRow data (timeText draw.now)) (fun _ => rfl))
  | .delete pluginId _ id => (.ok (), t.deleteWhere (deleteHits pluginId id))

/-! ## The backend alone -/

/-- The row of the shared table for a row of the backend. -/
def documentOf (r : DataRow Uuid) : DocumentRow :=
  ⟨uuidText r.id, r.pluginId, r.collection, .ok r.data, r.version, timeText r.createdAt,
    timeText r.updatedAt⟩

/-- The shared table holds what the backend holds, and nothing else. -/
def Mirrors (t : Documents) (data : PluginData Uuid) : Prop :=
  t.rows = data.rows.map (documentOf timeText)

variable {env timeText} {t : Documents} {s : SqliteStorage} {draw : Draw}

theorem Mirrors.find? (h : Mirrors timeText t s.data) (id : Uuid) :
    t.rows.find? (fun r => r.id = uuidText id) =
      (s.data.rows.find? fun r => r.id = id).map (documentOf timeText) := by
  rw [h, List.find?_map]
  simp only [Function.comp_def, documentOf, uuidText_injective.eq_iff]

theorem Mirrors.mem_keys (h : Mirrors timeText t s.data) (id : Uuid) :
    uuidText id ∈ t.keys ↔ id ∈ s.data.keys := by
  have hrows : t.rows = s.data.rows.map (documentOf timeText) := h
  simp [Table.keys, hrows, documentOf, uuidText_injective.eq_iff]

/-- An update reads the same extensions. -/
theorem Mirrors.updateData (h : Mirrors timeText t s.data) (pluginId collection : String)
    (id : Uuid) (payload : TypedPayload) :
    updateData env draw (viewAt t id) pluginId collection id payload =
      updateData env draw s pluginId collection id payload := by
  have hstored : ((viewAt t id).data.rows.find? fun r => r.id = id).bind
        (fun r => storedExtensions env r.data) =
      (s.data.rows.find? fun r => r.id = id).bind fun r => storedExtensions env r.data := by
    rw [viewAt, rowAt, h.find? id]
    rcases s.data.rows.find? _ with _ | r
    · rfl
    · simp [documentOf]
  simp only [Storage.updateData, mergeExistingExtensions, hstored]

theorem updateHits_documentOf (pluginId : String) (id : Uuid) (version : Nat)
    (r : DataRow Uuid) :
    updateHits pluginId id version (documentOf timeText r) =
      Storage.updateHits pluginId id version r := by
  simp only [updateHits, Storage.updateHits, documentOf, uuidText_injective.eq_iff]

theorem Mirrors.countWhere (h : Mirrors timeText t s.data) (pluginId : String) (id : Uuid)
    (version : Nat) :
    t.countWhere (updateHits pluginId id version) =
      s.data.countWhere (Storage.updateHits pluginId id version) := by
  rw [Table.countWhere, Table.countWhere, h, List.countP_map]
  simp only [Function.comp_def, updateHits_documentOf]

/-- On the rows of the backend, these are its mutations. -/
theorem executeMutation_mirrors (h : Mirrors timeText t s.data) (mutation : StorageMutation) :
    (executeMutation env timeText draw t mutation).1 =
        (Storage.executeMutation env draw s mutation).1 ∧
      Mirrors timeText (executeMutation env timeText draw t mutation).2
        (Storage.executeMutation env draw s mutation).2.data := by
  have hrows : t.rows = s.data.rows.map (documentOf timeText) := h
  rcases mutation with ⟨pluginId, collection, message⟩ |
    ⟨pluginId, collection, id, message, version⟩ | ⟨pluginId, collection, id⟩
  · simp only [executeMutation, Storage.executeMutation]
    rcases insertData env draw pluginId collection message.payload with e | data
    · exact ⟨rfl, h⟩
    · have hkey : (insertedRow timeText draw pluginId collection data).id ∈ t.keys ↔
          draw.uuid ∈ s.data.keys := h.mem_keys draw.uuid
      dsimp only [Table.insert]
      by_cases hused : draw.uuid ∈ s.data.keys
      · rw [dif_pos hused, dif_pos (hkey.mpr hused)]
        exact ⟨rfl, h⟩
      · rw [dif_neg hused, dif_neg (mt hkey.mp hused)]
        simp only [ite_logCredential_data, Mirrors, hrows, List.map_append]
        exact ⟨trivial, rfl⟩
  · simp only [executeMutation, Storage.executeMutation, h.updateData]
    rcases Storage.updateData env draw s pluginId collection id message.payload with e | data
    · exact ⟨rfl, h⟩
    · dsimp only
      rw [h.countWhere]
      split
      · exact ⟨rfl, h⟩
      · simp only [ite_logCredential_data, Mirrors, Table.updateWhere, hrows, List.map_map]
        refine ⟨trivial, List.map_congr_left fun r _ => ?_⟩
        simp only [Function.comp_apply, updateHits_documentOf]
        split <;> rfl
  · simp only [executeMutation, Storage.executeMutation, ite_logCredential_data, Mirrors,
      Table.deleteWhere, hrows, List.filter_map]
    refine ⟨trivial, congrArg _ (List.filter_congr fun r _ => ?_)⟩
    simp only [Function.comp_apply, deleteHits, Storage.deleteHits, documentOf,
      uuidText_injective.eq_iff]

/-- Where nobody else writes, the backend replies as on a table of its own. -/
theorem replies_executeMutation (audit : List AuditEntry) (calls : List (Draw × StorageMutation)) :
    replies (fun t call => executeMutation env timeText call.1 t call.2) Table.empty calls =
      replies (fun s call => Storage.executeMutation env call.1 s call.2) ⟨Table.empty, audit⟩
        calls := by
  apply replies_eq (R := fun t s => Mirrors timeText t s.data)
  · intro call _ t s h
    exact executeMutation_mirrors h call.2
  · exact rfl

end LifeEngine.SharedTable
