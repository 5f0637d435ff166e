import LifeEngine.Storage.Backend
import LifeEngine.Support.Fallible
import LifeEngine.Support.Table
import Mathlib.Algebra.Group.Int.Defs

/-!
# The SQLite backend

`SqliteStorage` keeps the records of all plugins in the table `plugin_data` and
logs accesses to credentials.  A write is validated, then credentials are
encrypted, then one SQL statement runs.  JSON Schema validation, encryption, the
typed records and the evaluation of SQL expressions belong to other crates; they
are the parameters of `SqliteEnv`.
-/

namespace LifeEngine.Storage

open Support

/-! ## Errors -/

/-- The variants that queries and mutations return. -/
inductive SqliteError where
  | database (message : String)
  | serialization (message : String)
  | concurrencyConflict (id : Uuid) (expected : Nat)
  | validationFailed (collection message : String)
  | unknownCollection (message : String)
  | credentialEncryption (credentialId message : String)
  deriving DecidableEq, Repr

def SqliteError.display : SqliteError → String
  | database message => "database error: " ++ message
  | serialization message => "serialization error: " ++ message
  | concurrencyConflict id expected => "concurrency conflict: record " ++ uuidText id ++
      " expected version " ++ toString expected ++ " but was modified"
  | validationFailed collection message =>
    "validation failed for collection '" ++ collection ++ "': " ++ message
  | unknownCollection message => "unknown collection: " ++ message
  | credentialEncryption credentialId message =>
    "credential encryption error for credential '" ++ credentialId ++ "': " ++ message

/-- A call that does not succeed returns an error or panics. -/
inductive Failure where
  | error (e : SqliteError)
  | panic
  deriving DecidableEq, Repr

/-! ## State -/

structure DataRow (κ : Type) where
  id : κ
  pluginId : String
  collection : String
  data : Json
  version : Int
  createdAt : Timestamp
  updatedAt : Timestamp

/-- The table `plugin_data`, with its primary key. -/
abbrev PluginData (κ : Type) := Table κ (DataRow κ) DataRow.id

inductive CredentialEvent where
  | access
  | modify
  deriving DecidableEq, Repr

structure AuditEntry where
  event : CredentialEvent
  documentId : Uuid
  pluginId : String
  operation : String

structure SqliteStorage where
  data : PluginData Uuid
  audit : List AuditEntry

/-- What the backend takes from other crates. -/
structure SqliteEnv where
  /-- The errors that the canonical schema of a collection finds. -/
  canonicalErrors : String → Json → List String
  /-- The registered private schemas, by plugin and collection. -/
  privateSchema : String → String → Option (Json → List String)
  /-- The claims of a credential, with a nonce. -/
  encryptClaims : String → Bytes → Json → Except String String
  /-- Decrypt the claims of the credential with the given id. -/
  decryptClaims : String → String → Except String Json
  /-- Read a canonical value into its struct, and back. -/
  readCdm : CdmKind → Json → Except String Json
  /-- `serde_json::from_str`. -/
  parseText : String → Option Json
  /-- The rows that meet the filters of a query, in its order. -/
  select : List QueryFilter → List SortField → List (DataRow Uuid) →
    Except String (List (DataRow Uuid))

/-! ## Validation and encryption -/

def canonicalCollections : List String :=
  ["events", "tasks", "contacts", "notes", "emails", "files", "credentials"]

def isCanonical (collection : String) : Bool :=
  canonicalCollections.contains collection

/-- The first of the errors that a validator finds. -/
def firstError (collection : String) : List String → Except SqliteError Unit
  | [] => .ok ()
  | message :: _ => .error (.validationFailed collection message)

def validatePrivate (env : SqliteEnv) (pluginId collection : String) (data : Json) :
    Except SqliteError Unit :=
  match env.privateSchema pluginId collection with
  | none => .error (.unknownCollection (pluginId ++ ":" ++ collection ++
      " — no schema registered for this private collection"))
  | some validator => firstError collection (validator data)

/-- `validate_canonical` or `validate_private`, by collection. -/
def validate (env : SqliteEnv) (pluginId collection : String) (data : Json) :
    Except SqliteError Unit :=
  if isCanonical collection then
    firstError collection (env.canonicalErrors collection data)
  else validatePrivate env pluginId collection data

def credentialId (doc : Json) : Except SqliteError String :=
  okOr ((doc.get "id").bind Json.asStr)
    (.credentialEncryption "unknown" "missing 'id' field in credential")

/-- `doc[key] = value` for a document with fields. -/
def setField (doc : Json) (key : String) (value : Json) : Json :=
  match doc with
  | .obj fields => .obj (JsonMap.insert key value fields)
  | other => other

def encryptCredential (env : SqliteEnv) (nonce : Bytes) (doc : Json) :
    Except SqliteError Json := do
  let id ← credentialId doc
  let claims := (doc.get "claims").getD .null
  let ciphertext ← (env.encryptClaims id nonce claims).mapError fun e =>
    SqliteError.credentialEncryption id ("encryption failed: " ++ e)
  return setField (setField doc "claims" (.str ciphertext)) "encrypted" (.bool true)

def decryptCredential (env : SqliteEnv) (doc : Json) : Except SqliteError Json :=
  if ((doc.get "encrypted").bind Json.asBool).getD false then do
    let id ← credentialId doc
    let ciphertext ← okOr ((doc.get "claims").bind Json.asStr)
      (.credentialEncryption id
        "missing or non-string 'claims' field in encrypted credential")
    let claims ← (env.decryptClaims id ciphertext).mapError
      (SqliteError.credentialEncryption id)
    match setField doc "claims" claims with
    | .obj fields => return .obj (JsonMap.remove fields "encrypted")
    | other => return other
  else .ok doc

/-- `json_extract(data, '$.extensions')`, read as a text and parsed again: numbers and booleans are
no texts, and a string has lost its quotes. -/
def storedExtensions (env : SqliteEnv) (data : Json) : Option Json :=
  match data.get "extensions" with
  | some (.obj fields) => some (.obj fields)
  | some (.arr items) => some (.arr items)
  | some (.str s) => env.parseText s
  | _ => none

/-- An update without extensions keeps the stored ones. Assigning a field to anything but an object
or null panics. -/
def mergeExistingExtensions (env : SqliteEnv) (data : PluginData Uuid) (id : Uuid)
    (new : Json) : Except Failure Json :=
  if (new.get "extensions").getD .null = .null then
    let existing := (data.rows.find? (fun r => r.id = id)).bind
      fun r => storedExtensions env r.data
    if existing.getD .null = .null then .ok new
    else match new with
      | .obj fields =>
        .ok (.obj (JsonMap.insert "extensions" (existing.getD .null) fields))
      | .null => .ok (.obj [("extensions", existing.getD .null)])
      | _ => .error .panic
  else .ok new

/-! ## Payloads -/

def serializePayload : TypedPayload → Json
  | .cdm _ value => value
  | .custom value => value

/-- The struct that a canonical collection is read into. -/
def collectionKind (collection : String) : Option CdmKind :=
  if collection = "events" then some .event
  else if collection = "tasks" then some .task
  else if collection = "contacts" then some .contact
  else if collection = "notes" then some .note
  else if collection = "emails" then some .email
  else if collection = "files" then some .file
  else if collection = "credentials" then some .credential
  else none

/-- `parse_payload`: credentials are decrypted first. -/
def parsePayload (env : SqliteEnv) (collection : String) (data : Json) :
    Except SqliteError TypedPayload :=
  match collectionKind collection with
  | none => .ok (.custom data)
  | some kind => do
      let plain ← if kind = .credential then decryptCredential env data else .ok data
      let value ← (env.readCdm kind plain).mapError SqliteError.serialization
      return .cdm kind value

/-! ## Queries -/

def maxLimit : Nat := 1000

def SqliteStorage.logCredential (s : SqliteStorage) (event : CredentialEvent)
    (documentId : Uuid) (pluginId operation : String) : SqliteStorage :=
  { s with audit := s.audit ++ [⟨event, documentId, pluginId, operation⟩] }

/-- Turn the selected rows into messages, one after the other. -/
def readRows (env : SqliteEnv) (now : Timestamp) (pluginId : String) :
    SqliteStorage → List (DataRow Uuid) →
      Except SqliteError (List PipelineMessage) × SqliteStorage
  | s, [] => (.ok [], s)
  | s, row :: rest =>
    match parsePayload env row.collection row.data with
    | .error e => (.error e, s)
    | .ok payload =>
      let s' := if row.collection = "credentials" then
        s.logCredential .access row.id pluginId "read" else s
      let (messages, s'') := readRows env now pluginId s' rest
      (messages.map (⟨⟨row.id, "storage:" ++ row.collection, now, none, []⟩,
        payload⟩ :: ·), s'')

/-- Canonical collections are read across all plugins. -/
def queryScope (s : SqliteStorage) (query : StorageQuery) : List (DataRow Uuid) :=
  s.data.rows.filter fun r =>
    r.collection = query.collection ∧
      (isCanonical query.collection ∨ r.pluginId = query.pluginId)

def executeQuery (env : SqliteEnv) (draw : Draw) (s : SqliteStorage)
    (query : StorageQuery) :
    Except SqliteError (List PipelineMessage) × SqliteStorage :=
  match env.select query.filters query.sort (queryScope s query) with
  | .error message => (.error (.database message), s)
  | .ok rows =>
    let limit := ((query.limit.map (min · maxLimit)).getD maxLimit)
    readRows env draw.now query.pluginId s
      ((rows.drop (query.offset.getD 0)).take limit)

/-! ## Mutations -/

/-- `u64 as i64`. -/
def asI64 (n : Nat) : Int :=
  if n < 2 ^ 63 then n else n - 2 ^ 64

def insertData (env : SqliteEnv) (draw : Draw) (pluginId collection : String)
    (payload : TypedPayload) : Except SqliteError Json := do
  let data := serializePayload payload
  validate env pluginId collection data
  if collection = "credentials" then encryptCredential env draw.nonce data else .ok data

def updateData (env : SqliteEnv) (draw : Draw) (s : SqliteStorage)
    (pluginId collection : String) (id : Uuid) (payload : TypedPayload) :
    Except Failure Json := do
  let data := serializePayload payload
  let merged ← if isCanonical collection ∧ collection ≠ "credentials" then
      mergeExistingExtensions env s.data id data
    else .ok data
  (validate env pluginId collection merged).mapError Failure.error
  if collection = "credentials" then
    (encryptCredential env draw.nonce merged).mapError Failure.error
  else .ok merged

def updateHits (pluginId : String) (id : Uuid) (expectedVersion : Nat)
    (r : DataRow Uuid) : Bool :=
  r.id = id ∧ r.pluginId = pluginId ∧ r.version = asI64 expectedVersion

def rewriteRow (data : Json) (now : Timestamp) (r : DataRow Uuid) : DataRow Uuid :=
  { r with data := data, version := r.version + 1, updatedAt := now }

/-- The collection is not compared. -/
def deleteHits (pluginId : String) (id : Uuid) (r : DataRow Uuid) : Bool :=
  r.id = id ∧ r.pluginId = pluginId

def executeMutation (env : SqliteEnv) (draw : Draw) (s : SqliteStorage) :
    StorageMutation → Except Failure Unit × SqliteStorage
  | .insert pluginId collection message =>
    match insertData env draw pluginId collection message.payload with
    | .error e => (.error (.error e), s)
    | .ok data =>
      -- The row gets an id of its own, whatever id the message carries.
      match s.data.insert ⟨draw.uuid, pluginId, collection, data, 1, draw.now,
        draw.now⟩ with
      | none =>
        (.error (.error (.database "UNIQUE constraint failed: plugin_data.id")), s)
      | some table =>
        let s' := { s with data := table }
        (.ok (), if collection = "credentials" then
          s'.logCredential .modify draw.uuid pluginId "insert" else s')
  | .update pluginId collection id message expectedVersion =>
    match updateData env draw s pluginId collection id message.payload with
    | .error e => (.error e, s)
    | .ok data =>
      if s.data.countWhere (updateHits pluginId id expectedVersion) = 0 then
        (.error (.error (.concurrencyConflict id expectedVersion)), s)
      else
        let table := s.data.updateWhere (updateHits pluginId id expectedVersion)
          (rewriteRow data draw.now) (fun _ => rfl)
        let s' := { s with data := table }
        (.ok (), if collection = "credentials" then
          s'.logCredential .modify id pluginId "update" else s')
  | .delete pluginId collection id =>
    let s' := { s with data := s.data.deleteWhere (deleteHits pluginId id) }
    (.ok (), if collection = "credentials" ∧
        s.data.countWhere (deleteHits pluginId id) ≠ 0 then
      s'.logCredential .modify id pluginId "delete" else s')

/-! ## Row ids -/

theorem ite_logCredential_data (condition : Prop) [Decidable condition]
    (s : SqliteStorage) (event : CredentialEvent) (documentId : Uuid)
    (pluginId operation : String) :
    (if condition then s.logCredential event documentId pluginId operation
      else s).data = s.data := by
  split <;> rfl

variable (env : SqliteEnv) (draw : Draw) (s : SqliteStorage) (pluginId collection : String)

theorem readRows_data (now : Timestamp) (pluginId : String) (s : SqliteStorage)
    (rows : List (DataRow Uuid)) :
    (readRows env now pluginId s rows).2.data = s.data := by
  induction rows generalizing s with
  | nil => rfl
  | cons row rest ih =>
    simp only [readRows]
    cases parsePayload env row.collection row.data with
    | error e => rfl
    | ok payload =>
      rw [ih, ite_logCredential_data]

/-- A query changes nothing but the audit log. -/
theorem executeQuery_data (query : StorageQuery) :
    (executeQuery env draw s query).2.data = s.data := by
  unfold executeQuery
  split
  · rfl
  · exact readRows_data env _ _ s _

theorem executeMutation_insert_keys (message : PipelineMessage) :
    (executeMutation env draw s (.insert pluginId collection message)).2.data = s.data ∨
      (executeMutation env draw s (.insert pluginId collection message)).2.data.keys =
        s.data.keys ++ [draw.uuid] := by
  simp only [executeMutation]
  cases insertData env draw pluginId collection message.payload with
  | error e => exact .inl rfl
  | ok data =>
    simp only
    cases hinsert : s.data.insert ⟨draw.uuid, pluginId, collection, data, 1, draw.now,
        draw.now⟩ with
    | none => exact .inl rfl
    | some table =>
      right
      simp only [ite_logCredential_data]
      exact Table.keys_insert hinsert

theorem executeMutation_update_keys (id : Uuid) (message : PipelineMessage) (version : Nat) :
    (executeMutation env draw s
      (.update pluginId collection id message version)).2.data.keys = s.data.keys := by
  simp only [executeMutation]
  cases updateData env draw s pluginId collection id message.payload with
  | error e => rfl
  | ok data =>
    simp only
    split
    · rfl
    · simp only [ite_logCredential_data]
      exact Table.keys_updateWhere _ _ _ _

/-! ## The backend -/

/-- The text that reaches the caller of the trait. -/
def Failure.display : Failure → String
  | .error e => e.display
  | .panic => "panicked"

def sqliteBackend (env : SqliteEnv) : StorageBackend SqliteStorage where
  execute draw s query :=
    let (result, s') := executeQuery env draw s query
    (result.mapError SqliteError.display, s')
  mutate draw s mutation :=
    let (result, s') := executeMutation env draw s mutation
    (result.mapError Failure.display, s')

end LifeEngine.Storage
