import LifeEngine.Plugins.Manifest
import LifeEngine.Storage.Sqlite
import LifeEngine.Support.Machine

/-!
# Storage host functions

The three host functions through which a plugin reaches the storage backend.
Each checks one capability, reads its input, puts the id of the calling plugin
into the request, and hands it on.  The results below say when the requests of a
plugin respect the collections it declared, and when they remove no record.
-/

namespace LifeEngine.Plugins

open Support Storage

/-! ## Declared collections -/

def checkCollectionAccess (pluginId collection : String)
    (declared : List (String × CollectionDef)) : Except PluginError Unit :=
  if (pluginId ++ ".").toList.isPrefixOf collection.toList then .ok ()
  else if declared.any (fun entry => entry.1 = collection) then .ok ()
  else .error (.runtimeCapabilityViolation ("plugin '" ++ pluginId ++
    "' is not allowed to access collection '" ++ collection ++
    "': collection not declared in manifest [collections] section"))

theorem checkCollectionAccess_ok_iff {pluginId collection : String}
    {declared : List (String × CollectionDef)} :
    checkCollectionAccess pluginId collection declared = .ok () ↔
      (pluginId ++ ".").toList <+: collection.toList ∨
        ∃ entry ∈ declared, entry.1 = collection := by
  unfold checkCollectionAccess
  split
  · rename_i hscoped
    exact iff_of_true rfl (.inl (List.isPrefixOf_iff_prefix.mp hscoped))
  · rename_i hscoped
    split
    · rename_i hany
      exact iff_of_true rfl (.inr (by simpa using hany))
    · rename_i hany
      refine iff_of_false (by simp) ?_
      rintro (h | h)
      · exact hscoped (List.isPrefixOf_iff_prefix.mpr h)
      · exact hany (by simpa using h)

/-! ## The host functions -/

/-- How the inputs of plugins are read and results are written. -/
structure Serde where
  query : Bytes → Except String StorageQuery
  mutation : Bytes → Except String StorageMutation
  results : List PipelineMessage → Except String Bytes

/-- `StorageHostContext`, apart from the backend. -/
structure StorageHostContext where
  pluginId : String
  capabilities : List Capability

/-- A request that arrives at the backend. -/
inductive StorageRequest where
  | query (q : StorageQuery)
  | mutation (m : StorageMutation)

def StorageRequest.collection : StorageRequest → String
  | query q => q.collection
  | mutation m => m.collection

/-- The answer, the requests made, and the backend's new state. -/
structure HostOutcome (σ : Type) where
  reply : Except PluginError Bytes
  requests : List StorageRequest
  state : σ

/-- The error for a call without the capability it needs. -/
def lacksCapability (ctx : StorageHostContext) (required : Capability) : PluginError :=
  .runtimeCapabilityViolation
    ("plugin '" ++ ctx.pluginId ++ "' lacks capability '" ++ required.toStr ++ "'")

def scopeMutation (pluginId : String) : StorageMutation → StorageMutation
  | .insert _ collection data => .insert pluginId collection data
  | .update _ collection id data expectedVersion =>
    .update pluginId collection id data expectedVersion
  | .delete _ collection id => .delete pluginId collection id

def emptyObject : Bytes := [0x7b, 0x7d]

section HostFunctions

variable {σ : Type} (serde : Serde) (backend : StorageBackend σ)
  (ctx : StorageHostContext) (draw : Draw) (s : σ)

def hostStorageRead (input : Bytes) : HostOutcome σ :=
  if .storageRead ∈ ctx.capabilities then
    match serde.query input with
    | .error e => ⟨.error (.executionFailed
        ("failed to deserialize storage query from plugin '" ++ ctx.pluginId ++ "': " ++
          e)), [], s⟩
    | .ok query =>
      -- The collection of the query is handed on as it is.
      let query := { query with pluginId := ctx.pluginId }
      let (results, s') := backend.execute draw s query
      let reply := match results with
        | .error e => .error (.executionFailed
            ("storage read failed for plugin '" ++ ctx.pluginId ++ "': " ++ e))
        | .ok messages => (serde.results messages).mapError fun e =>
          .executionFailed ("failed to serialize storage read results for plugin '" ++
            ctx.pluginId ++ "': " ++ e)
      ⟨reply, [.query query], s'⟩
  else ⟨.error (lacksCapability ctx .storageRead), [], s⟩

def runMutation (what : String) (mutation : StorageMutation) : HostOutcome σ :=
  let (result, s') := backend.mutate draw s mutation
  ⟨(result.mapError fun e => PluginError.executionFailed
      ("storage " ++ what ++ " failed for plugin '" ++ ctx.pluginId ++ "': " ++ e)).map
        (fun _ => emptyObject), [.mutation mutation], s'⟩

def hostStorageWrite (input : Bytes) : HostOutcome σ :=
  if .storageWrite ∈ ctx.capabilities then
    match serde.mutation input with
    | .error e => ⟨.error (.executionFailed
        ("failed to deserialize storage mutation from plugin '" ++ ctx.pluginId ++
          "': " ++ e)), [], s⟩
    -- All three kinds of mutation pass, deletions included.
    | .ok mutation => runMutation backend ctx draw s "write"
        (scopeMutation ctx.pluginId mutation)
  else ⟨.error (lacksCapability ctx .storageWrite), [], s⟩

def hostStorageDelete (input : Bytes) : HostOutcome σ :=
  if .storageDelete ∈ ctx.capabilities then
    match serde.mutation input with
    | .error e => ⟨.error (.executionFailed
        ("failed to deserialize storage delete from plugin '" ++ ctx.pluginId ++
          "': " ++ e)), [], s⟩
    | .ok (.delete _ collection id) => runMutation backend ctx draw s "delete"
        (.delete ctx.pluginId collection id)
    | .ok _ => ⟨.error (.executionFailed
        ("host_storage_delete received non-delete mutation from plugin '" ++
          ctx.pluginId ++ "'")), [], s⟩
  else ⟨.error (lacksCapability ctx .storageDelete), [], s⟩

end HostFunctions

/-! ## Calls of a plugin -/

/-- The host functions whose context holds no storage backend. -/
inductive OtherHostFunction where
  | blobStore
  | blobRetrieve
  | blobDelete
  | httpRequest
  | eventsEmit
  | eventsSubscribe
  | configRead
  | log
  deriving DecidableEq, Repr

/-- A host call; its reply without storage is left open. -/
inductive HostCall where
  | storageRead (input : Bytes)
  | storageWrite (input : Bytes)
  | storageDelete (input : Bytes)
  | other (function : OtherHostFunction) (reply : Except PluginError Bytes)

section Calls

variable {σ : Type} (serde : Serde) (backend : StorageBackend σ)
  (ctx : StorageHostContext)

def performCall (s : σ) (call : Draw × HostCall) : HostOutcome σ :=
  match call.2 with
  | .storageRead input => hostStorageRead serde backend ctx call.1 s input
  | .storageWrite input => hostStorageWrite serde backend ctx call.1 s input
  | .storageDelete input => hostStorageDelete serde backend ctx call.1 s input
  | .other _ reply => ⟨reply, [], s⟩

def callStep (s : σ) (call : Draw × HostCall) : σ :=
  (performCall serde backend ctx s call).state

/-- The plugin holds the capability, and its input names the collection. -/
def HostCall.Names (collection : String) : HostCall → Prop
  | .storageRead input => .storageRead ∈ ctx.capabilities ∧
      ∃ query, serde.query input = .ok query ∧ query.collection = collection
  | .storageWrite input => .storageWrite ∈ ctx.capabilities ∧
      ∃ mutation, serde.mutation input = .ok mutation ∧ mutation.collection = collection
  | .storageDelete input => .storageDelete ∈ ctx.capabilities ∧
      ∃ pluginId id, serde.mutation input = .ok (.delete pluginId collection id)
  | .other _ _ => False

end Calls

section Requests

variable {σ : Type} {serde : Serde} {backend : StorageBackend σ}
  {ctx : StorageHostContext} {draw : Draw} {s : σ}

theorem scopeMutation_collection (pluginId : String) (mutation : StorageMutation) :
    (scopeMutation pluginId mutation).collection = mutation.collection := by
  cases mutation <;> rfl

/-- A host function makes a request for a collection exactly when its capability check passes and
its input names it. -/
theorem exists_request_iff_names (call : HostCall) (collection : String) :
    (∃ r ∈ (performCall serde backend ctx s (draw, call)).requests,
        r.collection = collection) ↔ call.Names serde ctx collection := by
  cases call with
  | storageRead input =>
    by_cases hcap : Capability.storageRead ∈ ctx.capabilities
    · cases hquery : serde.query input <;>
        simp [performCall, hostStorageRead, HostCall.Names, hcap, hquery, StorageRequest.collection]
    · simp [performCall, hostStorageRead, HostCall.Names, hcap]
  | storageWrite input =>
    by_cases hcap : Capability.storageWrite ∈ ctx.capabilities
    · cases hmutation : serde.mutation input <;>
        simp [performCall, hostStorageWrite, HostCall.Names, hcap, hmutation,
          runMutation, StorageRequest.collection, scopeMutation_collection]
    · simp [performCall, hostStorageWrite, HostCall.Names, hcap]
  | storageDelete input =>
    by_cases hcap : Capability.storageDelete ∈ ctx.capabilities
    · rcases hmutation : serde.mutation input with _ | _ | _ | _ <;>
        simp [performCall, hostStorageDelete, HostCall.Names, hcap, hmutation,
          runMutation, StorageRequest.collection, StorageMutation.collection]
    · simp [performCall, hostStorageDelete, HostCall.Names, hcap]
  | other function reply => simp [performCall, HostCall.Names]

end Requests

/-- No request reaches the backend for a collection that `check_collection_access` denies exactly
when every permitted call names one that is declared or starts with the plugin's id and a dot. -/
theorem requests_allowed_iff {σ : Type} (serde : Serde) (backend : StorageBackend σ)
    (manifest : PluginManifest) (capabilities : List Capability) (s : σ)
    (calls : List (Draw × HostCall)) :
    EveryStep (callStep serde backend ⟨manifest.plugin.id, capabilities⟩)
        (fun s call => ∀ r ∈ (performCall serde backend
          ⟨manifest.plugin.id, capabilities⟩ s call).requests,
          checkCollectionAccess manifest.plugin.id r.collection manifest.collections =
            .ok ()) s calls ↔
      ∀ call ∈ calls, ∀ collection,
        call.2.Names serde ⟨manifest.plugin.id, capabilities⟩ collection →
          (manifest.plugin.id ++ ".").toList <+: collection.toList ∨
            ∃ entry ∈ manifest.collections, entry.1 = collection := by
  constructor
  · intro hallowed call hcall collection hnames
    obtain ⟨pre, post, hsplit⟩ := List.append_of_mem hcall
    have hstep := hallowed pre call post hsplit
    obtain ⟨r, hr, rfl⟩ := (exists_request_iff_names call.2 collection).mpr hnames
    exact checkCollectionAccess_ok_iff.mp (hstep r hr)
  · intro hnamed pre call post hsplit r hr
    have hcall : call ∈ calls := by simp [hsplit]
    have hnames := (exists_request_iff_names call.2 r.collection).mp ⟨r, hr, rfl⟩
    exact checkCollectionAccess_ok_iff.mpr (hnamed call hcall r.collection hnames)

/-- Reads one text as the value, and fails on everything else. -/
def readsOnly {α : Type} (text : Bytes) (value : α) (input : Bytes) : Except String α :=
  if input = text then .ok value else .error "unexpected input"

/-- The text of a query for all credentials. -/
def credentialsQueryText : Bytes :=
  ("\x7b\"collection\":\"credentials\",\"plugin_id\":\"notes\",\"filters\":[]," ++
    "\"sort\":[],\"limit\":null,\"offset\":null\x7d").toUTF8.toList

/-- A plugin without declared collections reads the credentials. -/
theorem not_requests_allowed_credentials :
    ¬ EveryStep
      (callStep
        ⟨readsOnly credentialsQueryText ⟨"credentials", "notes", [], [], none, none⟩,
          fun _ => .error "unexpected input", fun _ => .ok emptyObject⟩
        (⟨fun _ s _ => (.ok [], s), fun _ s _ => (.ok (), s)⟩ : StorageBackend Unit)
        ⟨"notes", [.storageRead]⟩)
      (fun s call => ∀ r ∈ (performCall
        ⟨readsOnly credentialsQueryText ⟨"credentials", "notes", [], [], none, none⟩,
          fun _ => .error "unexpected input", fun _ => .ok emptyObject⟩
        (⟨fun _ s _ => (.ok [], s), fun _ s _ => (.ok (), s)⟩ : StorageBackend Unit)
        ⟨"notes", [.storageRead]⟩ s call).requests,
        checkCollectionAccess "notes" r.collection [] = .ok ())
      () [(⟨1, 0, []⟩, .storageRead credentialsQueryText)] := by
  intro hallowed
  have hstep := hallowed [] _ [] rfl
    (.query ⟨"credentials", "notes", [], [], none, none⟩)
    (by simp [performCall, hostStorageRead, readsOnly])
  exact absurd hstep (by decide)

/-! ## Records that a plugin removes -/

/-- A permitted `host_storage_write` that deletes a stored record. -/
def HostCall.DeletesStored (serde : Serde) (ctx : StorageHostContext)
    (s : SqliteStorage) : HostCall → Prop
  | .storageWrite input => .storageWrite ∈ ctx.capabilities ∧
      ∃ pluginId collection id,
        serde.mutation input = .ok (.delete pluginId collection id) ∧
        ∃ r ∈ s.data.rows, r.id = id ∧ r.pluginId = ctx.pluginId
  | .storageRead _ | .storageDelete _ | .other _ _ => False

/-- Every record present before the call is present after it. -/
def RecordsKept (before after : SqliteStorage) : Prop :=
  ∀ id ∈ before.data.keys, id ∈ after.data.keys

theorem recordsKept_of_data_eq {before after : SqliteStorage}
    (h : after.data = before.data) : RecordsKept before after := by
  intro id hid
  rwa [h]

variable (env : SqliteEnv)

/-- A deletion keeps every record exactly when it addresses none. -/
theorem recordsKept_delete_iff (draw : Draw) (s : SqliteStorage)
    (pluginId collection : String) (id : Uuid) :
    RecordsKept s (executeMutation env draw s (.delete pluginId collection id)).2 ↔
      ¬ ∃ r ∈ s.data.rows, r.id = id ∧ r.pluginId = pluginId := by
  simp only [RecordsKept, executeMutation, ite_logCredential_data]
  constructor
  · rintro hkept ⟨r, hr, hid, hplugin⟩
    have hkey : r.id ∈ s.data.keys := Table.mem_keys.mpr ⟨r, hr, rfl⟩
    obtain ⟨r', hr', hmiss, hsame⟩ := Table.mem_keys_deleteWhere.mp (hkept r.id hkey)
    obtain rfl : r' = r := Table.eq_of_key_eq hr' hr hsame
    simp [deleteHits, hid, hplugin] at hmiss
  · intro hnone key hkey
    obtain ⟨r, hr, rfl⟩ := Table.mem_keys.mp hkey
    refine Table.mem_keys_deleteWhere.mpr ⟨r, hr, ?_, rfl⟩
    by_contra hhit
    have hboth : r.id = id ∧ r.pluginId = pluginId := by
      simpa [deleteHits] using hhit
    exact hnone ⟨r, hr, hboth⟩

def DeletesRow (s : SqliteStorage) : StorageMutation → Prop
  | .delete pluginId _ id => ∃ r ∈ s.data.rows, r.id = id ∧ r.pluginId = pluginId
  | .insert _ _ _ | .update _ _ _ _ _ => False

theorem recordsKept_mutation_iff (draw : Draw) (s : SqliteStorage)
    (mutation : StorageMutation) :
    RecordsKept s (executeMutation env draw s mutation).2 ↔ ¬ DeletesRow s mutation := by
  cases mutation with
  | insert pluginId collection data =>
    refine iff_of_true ?_ id
    intro id hid
    rcases executeMutation_insert_keys env draw s pluginId collection data with hsame | hkeys
    · rwa [hsame]
    · rw [hkeys]
      exact List.mem_append_left _ hid
  | update pluginId collection id data version =>
    refine iff_of_true ?_ (by simp [DeletesRow])
    intro key hkey
    rwa [executeMutation_update_keys]
  | delete pluginId collection id => exact recordsKept_delete_iff ..

theorem deletesStored_write_iff {serde : Serde} {ctx : StorageHostContext}
    {s : SqliteStorage} {input : Bytes} {mutation : StorageMutation}
    (hcap : .storageWrite ∈ ctx.capabilities)
    (hmutation : serde.mutation input = .ok mutation) :
    (HostCall.storageWrite input).DeletesStored serde ctx s ↔
      DeletesRow s (scopeMutation ctx.pluginId mutation) := by
  constructor
  · rintro ⟨-, pluginId, collection, id, hdelete, hrow⟩
    rw [hmutation] at hdelete
    cases hdelete
    exact hrow
  · intro hrow
    cases mutation with
    | insert _ _ _ | update _ _ _ _ _ => exact hrow.elim
    | delete pluginId collection id =>
      exact ⟨hcap, pluginId, collection, id, hmutation, hrow⟩

/-- One host call of a plugin without `storage:doc:delete`. -/
theorem recordsKept_call_iff (serde : Serde)
    {ctx : StorageHostContext} (hdelete : .storageDelete ∉ ctx.capabilities)
    (s : SqliteStorage) (call : Draw × HostCall) :
    RecordsKept s (callStep serde (sqliteBackend env) ctx s call) ↔
      ¬ call.2.DeletesStored serde ctx s := by
  obtain ⟨draw, call⟩ := call
  cases call with
  | storageRead input =>
    refine iff_of_true (recordsKept_of_data_eq ?_) (by simp [HostCall.DeletesStored])
    simp only [callStep, performCall, hostStorageRead]
    split
    · split
      · rfl
      · simp only [sqliteBackend, executeQuery_data]
    · rfl
  | storageWrite input =>
    by_cases hcap : Capability.storageWrite ∈ ctx.capabilities
    · cases hmutation : serde.mutation input with
      | error e =>
        refine iff_of_true (recordsKept_of_data_eq ?_) ?_
        · simp [callStep, performCall, hostStorageWrite, hcap, hmutation]
        · simp [HostCall.DeletesStored, hmutation]
      | ok mutation =>
        have hstate : callStep serde (sqliteBackend env) ctx s
            (draw, .storageWrite input) =
            (executeMutation env draw s (scopeMutation ctx.pluginId mutation)).2 := by
          simp [callStep, performCall, hostStorageWrite, hcap, hmutation,
            runMutation, sqliteBackend]
        rw [hstate, recordsKept_mutation_iff, deletesStored_write_iff hcap hmutation]
    · refine iff_of_true (recordsKept_of_data_eq ?_) ?_
      · simp [callStep, performCall, hostStorageWrite, hcap]
      · simp [HostCall.DeletesStored, hcap]
  | storageDelete input =>
    refine iff_of_true (recordsKept_of_data_eq ?_) (by simp [HostCall.DeletesStored])
    simp [callStep, performCall, hostStorageDelete, hdelete]
  | other function reply =>
    exact iff_of_true (recordsKept_of_data_eq rfl) (by simp [HostCall.DeletesStored])

/-- Without `storage:doc:delete` no record is removed exactly when no permitted `host_storage_write`
deletes a stored record of the plugin. -/
theorem recordsKept_along_iff (env : SqliteEnv) (serde : Serde)
    (ctx : StorageHostContext) (hdelete : .storageDelete ∉ ctx.capabilities)
    (s : SqliteStorage) (calls : List (Draw × HostCall)) :
    EveryStep (callStep serde (sqliteBackend env) ctx)
        (fun s call => RecordsKept s (callStep serde (sqliteBackend env) ctx s call))
        s calls ↔
      EveryStep (callStep serde (sqliteBackend env) ctx)
        (fun s call => ¬ call.2.DeletesStored serde ctx s) s calls :=
  everyStep_congr (recordsKept_call_iff env serde hdelete) s calls

/-- Nothing fails, and a filter tests the equality of its field. -/
def plainEnv : SqliteEnv where
  canonicalErrors := fun _ _ => []
  privateSchema := fun _ _ => some fun _ => []
  encryptClaims := fun _ _ _ => .ok "sealed"
  decryptClaims := fun _ _ => .ok .null
  readCdm := fun _ value => .ok value
  parseText := fun _ => none
  select := fun filters _ rows => .ok (rows.filter fun r =>
    filters.all fun f => r.data.get f.field = some f.value)

/-- A store with one note of plugin `notes`. -/
def oneNote : SqliteStorage where
  data := ⟨[⟨5, "notes", "notes", .str "milk", 1, 0, 0⟩], by simp⟩
  audit := []

/-- The text of the deletion of the record with id 5. -/
def deleteText : Bytes :=
  ("\x7b\"Delete\":\x7b\"plugin_id\":\"notes\",\"collection\":\"notes\"," ++
    "\"id\":\"00000000-0000-0000-0000-000000000005\"\x7d\x7d").toUTF8.toList

/-- All inputs of `notes` are the deletion of record 5. -/
def deleteSerde : Serde where
  query := fun _ => .error "unexpected input"
  mutation := readsOnly deleteText (.delete "notes" "notes" 5)
  results := fun _ => .ok emptyObject

/-- The deletion by another plugin removes nothing. -/
theorem recordsKept_along_tasks :
    EveryStep (callStep deleteSerde (sqliteBackend plainEnv) ⟨"tasks", [.storageWrite]⟩)
      (fun s call => RecordsKept s (callStep deleteSerde (sqliteBackend plainEnv)
        ⟨"tasks", [.storageWrite]⟩ s call))
      oneNote [(⟨1, 0, []⟩, .storageWrite deleteText)] := by
  refine (recordsKept_along_iff plainEnv deleteSerde ⟨"tasks", [.storageWrite]⟩
    (by decide) oneNote _).mpr ?_
  rw [everyStep_cons]
  refine ⟨?_, everyStep_nil _ _⟩
  rintro ⟨-, pluginId, collection, id, hread, r, hr, -, hplugin⟩
  obtain rfl : r = ⟨5, "notes", "notes", .str "milk", 1, 0, 0⟩ := by
    simpa [oneNote] using hr
  exact absurd hplugin (by decide)

/-- With `storage:doc:write` only, a plugin deletes its record through `host_storage_write`. -/
theorem not_recordsKept_along_notes :
    ¬ EveryStep
      (callStep deleteSerde (sqliteBackend plainEnv) ⟨"notes", [.storageWrite]⟩)
      (fun s call => RecordsKept s (callStep deleteSerde (sqliteBackend plainEnv)
        ⟨"notes", [.storageWrite]⟩ s call))
      oneNote [(⟨1, 0, []⟩, .storageWrite deleteText)] := by
  intro hkept
  have hcall : RecordsKept oneNote (callStep deleteSerde (sqliteBackend plainEnv)
      ⟨"notes", [.storageWrite]⟩ oneNote (⟨1, 0, []⟩, .storageWrite deleteText)) :=
    hkept [] _ [] rfl
  rw [recordsKept_call_iff plainEnv deleteSerde (by decide)] at hcall
  exact hcall ⟨by decide, "notes", "notes", 5, by simp [deleteSerde, readsOnly],
    ⟨5, "notes", "notes", .str "milk", 1, 0, 0⟩, by simp [oneNote], rfl, rfl⟩

/-! ## Records of other plugins -/

def othersRows (pluginId : String) (s : SqliteStorage) : List (DataRow Uuid) :=
  s.data.rows.filter fun r => r.pluginId ≠ pluginId

theorem othersRows_mutation (draw : Draw) (s : SqliteStorage) (pluginId : String)
    (mutation : StorageMutation) :
    othersRows pluginId (executeMutation env draw s (scopeMutation pluginId mutation)).2 =
      othersRows pluginId s := by
  cases mutation with
  | insert _ collection message =>
    simp only [scopeMutation, executeMutation]
    split
    · rfl
    · split
      · rfl
      · next htable =>
        simp [othersRows, ite_logCredential_data, Table.rows_of_insert htable]
  | update _ collection id message version =>
    simp only [scopeMutation, executeMutation]
    split
    · rfl
    · split
      · rfl
      · simp only [othersRows, ite_logCredential_data, Table.updateWhere]
        generalize s.data.rows = rows
        induction rows with
        | nil => rfl
        | cons r rest ih =>
          rw [List.map_cons, List.filter_cons, List.filter_cons, ih]
          by_cases hhit : updateHits pluginId id version r = true
          · have hown : r.pluginId = pluginId := (of_decide_eq_true hhit).2.1
            simp [hhit, hown, rewriteRow]
          · simp [hhit]
  | delete _ collection id =>
    simp only [scopeMutation, executeMutation, othersRows, ite_logCredential_data,
      Table.deleteWhere, List.filter_filter]
    apply List.filter_congr
    intro r _
    by_cases hown : r.pluginId = pluginId <;> simp [deleteHits, hown]

/-- A host call leaves the rows as they are, or runs a mutation in the plugin's own name. -/
theorem callStep_cases (serde : Serde) (ctx : StorageHostContext) (s : SqliteStorage)
    (call : Draw × HostCall) :
    (callStep serde (sqliteBackend env) ctx s call).data = s.data ∨
      ∃ mutation, callStep serde (sqliteBackend env) ctx s call =
        (executeMutation env call.1 s (scopeMutation ctx.pluginId mutation)).2 := by
  obtain ⟨draw, call⟩ := call
  cases call with
  | storageRead input =>
    left
    simp only [callStep, performCall, hostStorageRead]
    split
    · split
      · rfl
      · exact executeQuery_data env draw s _
    · rfl
  | storageWrite input =>
    simp only [callStep, performCall, hostStorageWrite]
    split
    · split
      · exact Or.inl rfl
      · next mutation _ => exact Or.inr ⟨mutation, rfl⟩
    · exact Or.inl rfl
  | storageDelete input =>
    simp only [callStep, performCall, hostStorageDelete]
    split
    · split
      · exact Or.inl rfl
      · next pluginId collection id _ => exact Or.inr ⟨.delete pluginId collection id, rfl⟩
      · exact Or.inl rfl
    · exact Or.inl rfl
  | other function reply => exact Or.inl rfl

/-- Whatever a plugin may do and whatever it sends, the rows of other plugins stay. -/
theorem othersRows_run (env : SqliteEnv) (serde : Serde) (ctx : StorageHostContext)
    (s : SqliteStorage) (calls : List (Draw × HostCall)) :
    othersRows ctx.pluginId (run (callStep serde (sqliteBackend env) ctx) s calls) =
      othersRows ctx.pluginId s := by
  induction calls generalizing s with
  | nil => rfl
  | cons call rest ih =>
    rw [run_cons, ih]
    rcases callStep_cases env serde ctx s call with hdata | ⟨mutation, hstep⟩
    · rw [othersRows, hdata, othersRows]
    · rw [hstep, othersRows_mutation]

end LifeEngine.Plugins
