import LifeEngine.Storage.Sqlite
import LifeEngine.Support.Machine

/-!
# API keys

`create_key`, `validate_key` and `revoke_key` over a storage backend.  A key is stored as
a record in the collection `credentials`, which is canonical: the SQLite backend checks
the record against the schema of credentials, and a key has not the fields of one.
-/

namespace LifeEngine.Auth

open Support Storage

inductive AuthError where
  | configInvalid (message : String)
  | keyRevoked
  | keyInvalid
  deriving DecidableEq, Repr

structure ApiKeyRecord where
  id : Uuid
  name : String
  keyHash : String
  salt : String
  scopes : List String
  createdAt : Timestamp
  expiresAt : Option Timestamp
  revoked : Bool
  lastUsed : Option Timestamp
  deriving DecidableEq

structure AuthIdentity where
  userId : String
  provider : String
  scopes : List String
  authenticatedAt : Timestamp
  deriving DecidableEq

/-- What the key operations take from other crates. -/
structure KeyEnv where
  hmacSign : Bytes → Bytes → Bytes
  encode : Bytes → String
  decode : String → Option Bytes
  timeText : Timestamp → String
  fromJson : Json → Except String ApiKeyRecord

/-- `serde_json::to_value` of a record. -/
def KeyEnv.toJson (env : KeyEnv) (r : ApiKeyRecord) : Json :=
  let time (t : Option Timestamp) : Json := (t.map fun t => .str (env.timeText t)).getD .null
  .obj [("created_at", .str (env.timeText r.createdAt)), ("expires_at", time r.expiresAt),
    ("id", .str (uuidText r.id)), ("key_hash", .str r.keyHash),
    ("last_used", time r.lastUsed), ("name", .str r.name), ("revoked", .bool r.revoked),
    ("salt", .str r.salt), ("scopes", .arr (r.scopes.map .str))]

def authPluginId : String := "core.auth"

def keysCollection : String := "credentials"

def storageError (message : String) : AuthError :=
  .configInvalid ("storage error: " ++ message)

/-- The tag under which a variant of `CdmType` is serialised. -/
def cdmTag : CdmKind → String
  | .event => "Event"
  | .task => "Task"
  | .contact => "Contact"
  | .note => "Note"
  | .email => "Email"
  | .file => "File"
  | .credential => "Credential"
  | .eventBatch => "EventBatch"
  | .taskBatch => "TaskBatch"
  | .contactBatch => "ContactBatch"
  | .noteBatch => "NoteBatch"
  | .emailBatch => "EmailBatch"
  | .fileBatch => "FileBatch"
  | .credentialBatch => "CredentialBatch"

section Keys

variable {σ : Type} (env : KeyEnv) (backend : StorageBackend σ)

def extractKeyRecord (message : PipelineMessage) : Except AuthError ApiKeyRecord :=
  let json := match message.payload with
    | .custom value => value
    | .cdm kind value => .obj [("collection", .str (cdmTag kind)), ("value", value)]
  (env.fromJson json).mapError fun e =>
    .configInvalid ("failed to deserialize API key record: " ++ e)

def recordToPipelineMessage (now : Timestamp) (record : ApiKeyRecord) :
    PipelineMessage :=
  ⟨⟨record.id, "core.auth.keys", now, none, []⟩, .custom (env.toJson record)⟩

/-- What `create_key` and the backend draw. -/
structure KeyDraw where
  rawBytes : Bytes
  salt : Bytes
  id : Uuid
  now : Timestamp
  store : Draw

def newRecord (draw : KeyDraw) (name : String) (scopes : List String)
    (expiresAt : Option Timestamp) : ApiKeyRecord where
  id := draw.id
  name := name
  keyHash := env.encode (env.hmacSign draw.salt (textBytes (env.encode draw.rawBytes)))
  salt := env.encode draw.salt
  scopes := scopes
  createdAt := draw.now
  expiresAt := expiresAt
  revoked := false
  lastUsed := none

def createKey (draw : KeyDraw) (s : σ) (name : String) (scopes : List String)
    (expiresAt : Option Timestamp) :
    Except AuthError (String × ApiKeyRecord) × σ :=
  let record := newRecord env draw name scopes expiresAt
  let (result, s') := backend.mutate draw.store s (.insert authPluginId keysCollection
    (recordToPipelineMessage env draw.now record))
  ((result.mapError storageError).map fun _ => (env.encode draw.rawBytes, record), s')

/-- `list_key_records`: other rows are skipped. -/
def listKeyRecords (draw : Draw) (s : σ) : Except AuthError (List ApiKeyRecord) × σ :=
  let (results, s') := backend.execute draw s
    ⟨keysCollection, authPluginId, [], [], none, none⟩
  ((results.mapError storageError).map fun messages =>
    messages.filterMap fun message => (extractKeyRecord env message).toOption, s')

def findKeyById (draw : Draw) (s : σ) (keyId : Uuid) :
    Except AuthError ApiKeyRecord × σ :=
  let (results, s') := backend.execute draw s
    ⟨keysCollection, authPluginId, [⟨"id", .eq, .str (uuidText keyId)⟩], [], some 1, none⟩
  (match results with
    | .error e => .error (storageError e)
    | .ok [] => .error .keyInvalid
    | .ok (message :: _) => extractKeyRecord env message, s')

def revokeKey (find update : Draw) (s : σ) (keyId : Uuid) : Except AuthError Unit × σ :=
  match findKeyById env backend find s keyId with
  | (.error e, s') => (.error e, s')
  | (.ok record, s') =>
    -- The row is addressed by the id of the key record.
    let (result, s'') := backend.mutate update s' (.update authPluginId keysCollection
      keyId (recordToPipelineMessage env update.now { record with revoked := true }) 1)
    (result.mapError storageError, s'')

/-- The loop of `validate_key`. A failure to mark the key as used is ignored. -/
def validateRecords (update : Draw) (s : σ) (rawKey : String) :
    List ApiKeyRecord → Except AuthError AuthIdentity × σ
  | [] => (.error .keyInvalid, s)
  | record :: rest =>
    match env.decode record.salt, env.decode record.keyHash with
    | some salt, some hash =>
      if env.hmacSign salt (textBytes rawKey) = hash then
        if record.revoked then (.error .keyRevoked, s)
        else if record.expiresAt.any (fun t => update.now > t) then
          (.error .keyRevoked, s)
        else
          let used := { record with lastUsed := some update.now }
          let (_, s') := backend.mutate update s (.update authPluginId keysCollection
            record.id (recordToPipelineMessage env update.now used) 1)
          (.ok ⟨uuidText record.id, "api-key", record.scopes, update.now⟩, s')
      else validateRecords update s rawKey rest
    -- A record that does not decode ends the loop.
    | _, _ => (.error .keyInvalid, s)

def validateKey (list update : Draw) (s : σ) (rawKey : String) :
    Except AuthError AuthIdentity × σ :=
  match listKeyRecords env backend list s with
  | (.error e, s') => (.error e, s')
  | (.ok records, s') => validateRecords env backend update s' rawKey records

end Keys

/-! ## Runs -/

inductive KeyCall where
  | create (draw : KeyDraw) (name : String) (scopes : List String)
      (expiresAt : Option Timestamp)
  | validate (list update : Draw) (rawKey : String)
  | revoke (find update : Draw) (keyId : Uuid)

section Runs

variable {σ : Type} (env : KeyEnv) (backend : StorageBackend σ)

def keyStep (s : σ) : KeyCall → σ
  | .create draw name scopes expiresAt =>
    (createKey env backend draw s name scopes expiresAt).2
  | .validate list update rawKey => (validateKey env backend list update s rawKey).2
  | .revoke find update keyId => (revokeKey env backend find update s keyId).2

/-- Some `create_key` call of the run returned this key and record. -/
def Created (s : σ) (calls : List KeyCall) (rawKey : String) (record : ApiKeyRecord) :
    Prop :=
  ∃ pre draw name scopes expiresAt post,
    calls = pre ++ .create draw name scopes expiresAt :: post ∧
      (createKey env backend draw (run (keyStep env backend) s pre) name scopes
        expiresAt).1 = .ok (rawKey, record)

/-- After `revoke_key` returns `Ok`, `validate_key` never does for the key. -/
def RevokesForGood (find update : Draw) (s : σ) (rawKey : String) (keyId : Uuid) :
    Prop :=
  (revokeKey env backend find update s keyId).1 = .ok () ∧
    ∀ later list use identity,
      (validateKey env backend list use
        (run (keyStep env backend) (revokeKey env backend find update s keyId).2 later)
        rawKey).1 ≠ .ok identity

end Runs

/-- Every key that the run creates can be revoked for good. -/
def RevokesCreated {σ : Type} (env : KeyEnv) (backend : StorageBackend σ) (s : σ)
    (calls : List KeyCall) : Prop :=
  ∀ rawKey record, Created env backend s calls rawKey record → ∀ find update,
    RevokesForGood env backend find update (run (keyStep env backend) s calls) rawKey record.id

/-! ## The schema of credentials -/

/-- The fields that `credentials.schema.json` requires. -/
def credentialRequired : List String :=
  ["id", "name", "credential_type", "service", "claims", "source", "source_id", "created_at",
    "updated_at"]

/-- The validator of credentials reports a required field that is missing. -/
def ReportsMissing (env : SqliteEnv) : Prop :=
  ∀ doc, (∃ key ∈ credentialRequired, doc.get key = none) →
    env.canonicalErrors "credentials" doc ≠ []

section Sqlite

variable {sqlite : SqliteEnv}

/-- A key record names no service. -/
theorem get_service_toJson (env : KeyEnv) (record : ApiKeyRecord) :
    (env.toJson record).get "service" = none := by
  simp [KeyEnv.toJson, Json.get, JsonMap.get, List.lookup_cons]

/-- No key is created: the backend refuses its record. -/
theorem createKey_ne_ok (env : KeyEnv) (hschema : ReportsMissing sqlite) (draw : KeyDraw)
    (s : SqliteStorage) (name : String) (scopes : List String) (expiresAt : Option Timestamp)
    (created : String × ApiKeyRecord) :
    (createKey env (sqliteBackend sqlite) draw s name scopes expiresAt).1 ≠ .ok created := by
  set record := newRecord env draw name scopes expiresAt
  have hinsert : ∃ e, insertData sqlite draw.store authPluginId keysCollection
      (recordToPipelineMessage env draw.now record).payload = .error e := by
    cases hdata : insertData sqlite draw.store authPluginId keysCollection
        (recordToPipelineMessage env draw.now record).payload with
    | error e => exact ⟨e, rfl⟩
    | ok data =>
      obtain ⟨_, hvalid, -⟩ := bind_eq_ok_iff.mp hdata
      have hcanonical : isCanonical keysCollection = true := by decide
      obtain ⟨message, rest, herrors⟩ := List.exists_cons_of_ne_nil
        (hschema _ ⟨"service", by decide, get_service_toJson env record⟩)
      rw [validate, if_pos hcanonical] at hvalid
      change firstError _ (sqlite.canonicalErrors "credentials" (env.toJson record)) = _ at hvalid
      rw [herrors] at hvalid
      exact nomatch hvalid
  obtain ⟨e, he⟩ := hinsert
  have hmutate : ((sqliteBackend sqlite).mutate draw.store s (.insert authPluginId keysCollection
      (recordToPipelineMessage env draw.now record))).1 = .error e.display := by
    simp only [sqliteBackend, executeMutation, he]
    rfl
  simp only [createKey]
  rw [hmutate]
  rintro ⟨⟩

end Sqlite

/-- Bytes written as characters, and a code that shows its key. -/
def plainKeyEnv : KeyEnv where
  hmacSign key message := key ++ message
  encode := latinText
  decode text := some (latinBytes text)
  timeText t := toString t
  fromJson _ := .error "missing field `id`"

/-- Reports the required fields that a credential has not. -/
def requiringEnv : SqliteEnv where
  canonicalErrors _ doc := (credentialRequired.filter fun key => (doc.get key).isNone).map
    fun key => "\"" ++ key ++ "\" is a required property"
  privateSchema _ _ := none
  encryptClaims _ _ _ := .ok ""
  decryptClaims _ _ := .ok .null
  readCdm _ value := .ok value
  parseText _ := none
  select _ _ rows := .ok rows

theorem reportsMissing_requiringEnv : ReportsMissing requiringEnv := by
  rintro doc ⟨key, hkey, hmissing⟩ herrors
  have hfiltered := List.map_eq_nil_iff.mp herrors
  exact List.filter_eq_nil_iff.mp hfiltered key hkey (by rw [hmissing]; rfl)

/-- One key, with id 17, in a row with id 34. -/
def oneKeyDraw : KeyDraw := ⟨[107, 101, 121], [115], 17, 0, ⟨34, 0, []⟩⟩

/-- What `create_key` returns. -/
example :
    (createKey plainKeyEnv (sqliteBackend requiringEnv) oneKeyDraw ⟨Table.empty, []⟩ "cli" ["read"]
      none).1 = .error (.configInvalid ("storage error: validation failed for collection " ++
        "'credentials': \"credential_type\" is a required property")) := by
  decide +kernel

end LifeEngine.Auth
