import LifeEngine.Crypto.Credential
import LifeEngine.Records.Storage
import LifeEngine.Support.Machine
import Mathlib.Data.List.Induction

/-!
# Encrypted backups

A backup is an archive of records, as JSON, compressed, encrypted under a key derived from
a passphrase, and stored beside a manifest.  The files of a backup are named after its id,
and the id after the time of the call.  JSON, gzip, Argon2, SHA-256 and the texts of times
belong to other crates; they are the parameters of `BackupEnv`.
-/

namespace LifeEngine.Backup

open Support Crypto List

structure Argon2Params where
  memoryMb : Nat
  iterations : Nat
  parallelism : Nat
  deriving DecidableEq

inductive BackupType where
  | full
  | incremental
  deriving DecidableEq, Repr

structure BackupManifest where
  id : String
  createdAt : Timestamp
  backupType : BackupType
  collections : List String
  recordCounts : List (String × Nat)
  compressedSize : Nat
  checksum : String
  parentId : Option String
  cursor : Option String
  deriving DecidableEq

/-- `BackupRecord` has the fields of the records of the core. -/
abbrev BackupRecord := Records.Record

structure BackupArchive where
  manifest : BackupManifest
  records : List BackupRecord

structure RestoreResult where
  recordsRestored : List (String × Nat)
  totalRestored : Nat
  integrityVerified : Bool

/-- What backups take from other crates. -/
structure BackupEnv where
  cipher : CipherEnv
  /-- `serde_json::to_vec`, which does not fail for texts as keys. -/
  archiveJson : BackupArchive → Bytes
  parseArchive : Bytes → Except String BackupArchive
  manifestJson : BackupManifest → Bytes
  parseManifest : Bytes → Except String BackupManifest
  /-- `GzEncoder`, writing to memory. -/
  compress : Bytes → Bytes
  /-- `GzDecoder`. -/
  gunzip : Bytes → Except String Bytes
  /-- `argon2::Params::new`. -/
  checkParams : Argon2Params → Except String Unit
  /-- `hash_password_into`, of a passphrase and a salt. -/
  argon2 : Argon2Params → String → Bytes → Except String Bytes
  sha256Hex : Bytes → String
  /-- The format `%Y%m%d-%H%M%S-%3f`. -/
  stamp : Timestamp → String
  rfc3339 : Timestamp → String

/-! ## The backend -/

/-- A backend that keeps bytes by key and does not fail. -/
abbrev Backend := String → Option Bytes

namespace Backend

def put (b : Backend) (key : String) (data : Bytes) : Backend :=
  Function.update b key (some data)

def get (b : Backend) (key : String) : Except String Bytes :=
  okOr (b key) "No such file or directory (os error 2)"

theorem put_apply (b : Backend) (key : String) (data : Bytes) (other : String) :
    b.put key data other = if other = key then some data else b other :=
  Function.update_apply ..

end Backend

def encKey (id : String) : String := id ++ ".enc"

def manifestKey (id : String) : String := id ++ ".manifest.json"

@[simp] theorem encKey_inj {a b : String} : encKey a = encKey b ↔ a = b := by
  simp [encKey]

@[simp] theorem manifestKey_inj {a b : String} : manifestKey a = manifestKey b ↔ a = b := by
  simp [manifestKey]

@[simp] theorem encKey_ne_manifestKey (a b : String) : encKey a ≠ manifestKey b := by
  intro h
  have hlast := congrArg (fun s => s.toList.getLast?) h
  simp [encKey, manifestKey] at hlast

@[simp] theorem manifestKey_ne_encKey (a b : String) : manifestKey a ≠ encKey b :=
  (encKey_ne_manifestKey b a).symm

/-! ## Cryptography -/

def saltLength : Nat := 16

def keyLength : Nat := 32

def maxDecompressedSize : Nat := 256 * 1024 * 1024

section Operations

variable (env : BackupEnv)

def deriveKey (passphrase : String) (salt : Bytes) (params : Argon2Params) :
    Except String Bytes := do
  (env.checkParams params).mapError fun e => "invalid Argon2 parameters: " ++ e
  (env.argon2 params passphrase salt).mapError fun e => "Argon2 key derivation failed: " ++ e

/-- The decoder is read up to one byte over the limit. -/
def decompress (data : Bytes) : Except String Bytes := do
  let decompressed := (← env.gunzip data).take (maxDecompressedSize + 1)
  ensure (decompressed.length ≤ maxDecompressedSize)
    ("decompressed data exceeds maximum size (" ++ toString maxDecompressedSize ++
      " bytes); possible decompression bomb")
  return decompressed

def encryptBackup (nonce plaintext key : Bytes) : Except String Bytes := do
  ensure (key.length = keyLength) "encryption key must be 32 bytes"
  (encrypt env.cipher nonce key plaintext).mapError fun e =>
    "AES-256-GCM encryption failed: " ++ e.display

def decryptBackup (encrypted key : Bytes) : Except String Bytes := do
  ensure (key.length = keyLength) "encryption key must be 32 bytes"
  (decrypt env.cipher key encrypted).mapError fun e =>
    "backup integrity check failed: authentication failed (wrong passphrase or corrupted " ++
      "data): " ++ e.display

/-! ## Creation -/

/-- The time of a call and the random bytes that it draws. -/
structure BackupDraw where
  now : Timestamp
  salt : { salt : Bytes // salt.length = saltLength }
  nonce : { nonce : Bytes // nonce.length = nonceSize }

/-- A full backup, or an incremental one with a parent. -/
structure BackupCall where
  draw : BackupDraw
  parentId : Option String
  records : List BackupRecord
  passphrase : String
  params : Argon2Params

/-- The number of records by collection, in the order of the hash map. -/
def countByCollection (records : List BackupRecord) : List (String × Nat) :=
  (records.map (·.collection)).eraseDups.map fun c =>
    (c, records.countP (·.collection = c))

namespace BackupCall

def backupType (call : BackupCall) : BackupType :=
  if call.parentId.isNone then .full else .incremental

def backupId (call : BackupCall) : String :=
  (if call.parentId.isNone then "full-" else "incr-") ++ env.stamp call.draw.now

/-- The manifest with its last statistics. -/
def manifest (call : BackupCall) (compressedSize : Nat) (checksum : String) :
    BackupManifest where
  id := call.backupId env
  createdAt := call.draw.now
  backupType := call.backupType
  collections := (call.records.map (·.collection)).eraseDups
  recordCounts := countByCollection call.records
  compressedSize := compressedSize
  checksum := checksum
  parentId := call.parentId
  cursor := some (env.rfc3339 call.draw.now)

def archive (call : BackupCall) : BackupArchive :=
  ⟨call.manifest env 0 "", call.records⟩

/-- The manifest and the payload, before they are stored. -/
def outcome (call : BackupCall) : Except String (BackupManifest × Bytes) := do
  let compressed := env.compress (env.archiveJson (call.archive env))
  let key ← deriveKey env call.passphrase call.draw.salt call.params
  let encrypted ← encryptBackup env call.draw.nonce compressed key
  let saltedPayload := call.draw.salt ++ encrypted
  return (call.manifest env compressed.length (env.sha256Hex saltedPayload), saltedPayload)

end BackupCall

/-- What the two functions that create backups have in common. -/
def createBackup (call : BackupCall) (backend : Backend) :
    Except String BackupManifest × Backend :=
  match call.outcome env with
  | .error e => (.error e, backend)
  | .ok (manifest, saltedPayload) =>
    let backend := backend.put (encKey manifest.id) saltedPayload
    (.ok manifest, backend.put (manifestKey manifest.id) (env.manifestJson manifest))

def createFullBackup (draw : BackupDraw) (backend : Backend) (records : List BackupRecord)
    (passphrase : String) (params : Argon2Params) : Except String BackupManifest × Backend :=
  createBackup env ⟨draw, none, records, passphrase, params⟩ backend

def createIncrementalBackup (draw : BackupDraw) (backend : Backend)
    (changedRecords : List BackupRecord) (parentId passphrase : String)
    (params : Argon2Params) : Except String BackupManifest × Backend :=
  createBackup env ⟨draw, some parentId, changedRecords, passphrase, params⟩ backend

def BackupCall.create (call : BackupCall) (backend : Backend) :
    Except String BackupManifest × Backend :=
  match call.parentId with
  | none => createFullBackup env call.draw backend call.records call.passphrase call.params
  | some parentId => createIncrementalBackup env call.draw backend call.records parentId
      call.passphrase call.params

theorem BackupCall.create_eq (call : BackupCall) (backend : Backend) :
    call.create env backend = createBackup env call backend := by
  obtain ⟨draw, _ | parentId, records, passphrase, params⟩ := call <;> rfl

/-! ## Restoring -/

def restoreFull (backend : Backend) (backupId passphrase : String) (params : Argon2Params) :
    Except String (List BackupRecord × RestoreResult) := do
  let saltedPayload ← backend.get (encKey backupId)
  let actualChecksum := env.sha256Hex saltedPayload
  let manifestData ← backend.get (manifestKey backupId)
  let manifest ← env.parseManifest manifestData
  ensure (actualChecksum = manifest.checksum)
    ("backup integrity check failed: checksum mismatch (expected " ++ manifest.checksum ++
      ", got " ++ actualChecksum ++ ")")
  ensure (saltLength ≤ saltedPayload.length) "backup payload too short: missing salt"
  let key ← deriveKey env passphrase (saltedPayload.take saltLength) params
  let compressed ← decryptBackup env (saltedPayload.drop saltLength) key
  let json ← decompress env compressed
  let archive ← env.parseArchive json
  return (archive.records,
    ⟨countByCollection archive.records, archive.records.length, true⟩)

end Operations

/-! ## Histories of calls -/

/-- The primitives that undo each other. -/
structure LawfulBackup (env : BackupEnv) : Prop where
  aesDecrypt_aesEncrypt : ∀ key nonce plaintext ciphertext,
    env.cipher.aesEncrypt key nonce plaintext = .ok ciphertext →
      env.cipher.aesDecrypt key nonce ciphertext = .ok plaintext
  gunzip_compress : ∀ bytes, env.gunzip (env.compress bytes) = .ok bytes
  checksum_parseManifest : ∀ manifest,
    (env.parseManifest (env.manifestJson manifest)).map (·.checksum) = .ok manifest.checksum

section Histories

variable {env : BackupEnv}

/-- The backend after the calls. -/
def store (env : BackupEnv) (backend : Backend) (history : List BackupCall) : Backend :=
  run (fun b call => (call.create env b).2) backend history

/-- The call returns a manifest with this id. -/
def BackupCall.Returns (env : BackupEnv) (call : BackupCall) (id : String) : Prop :=
  call.backupId env = id ∧ ∃ result, call.outcome env = .ok result

instance (call : BackupCall) (id : String) : Decidable (call.Returns env id) :=
  match h : call.outcome env with
  | .ok result =>
    decidable_of_iff (call.backupId env = id) (by simp [BackupCall.Returns, h])
  | .error _ => .isFalse (by simp [BackupCall.Returns, h])

/-- The last call that returned the id. -/
def lastWriter (env : BackupEnv) (history : List BackupCall) (id : String) :
    Option BackupCall :=
  history.reverse.find? fun call => call.Returns env id

variable {id : String} {manifest : BackupManifest} {payload : Bytes} {writer : BackupCall}

theorem outcome_spec {call : BackupCall} (h : call.outcome env = .ok (manifest, payload)) :
    ∃ key encrypted, deriveKey env call.passphrase call.draw.salt call.params = .ok key ∧
      encryptBackup env call.draw.nonce
        (env.compress (env.archiveJson (call.archive env))) key = .ok encrypted ∧
      payload = call.draw.salt ++ encrypted ∧ manifest.id = call.backupId env ∧
      manifest.checksum = env.sha256Hex payload := by
  obtain ⟨key, hkey, h⟩ := bind_eq_ok_iff.mp h
  obtain ⟨encrypted, hencrypted, h⟩ := bind_eq_ok_iff.mp h
  obtain ⟨rfl, rfl⟩ := Prod.mk.inj (Except.ok.inj h)
  exact ⟨key, encrypted, hkey, hencrypted, rfl, rfl, rfl⟩

/-- What a call does to the two files of an id. -/
theorem create_files (call : BackupCall) (backend : Backend) (id : String) :
    (call.Returns env id ∧ ∃ manifest payload, call.outcome env = .ok (manifest, payload) ∧
      (call.create env backend).2 (encKey id) = some payload ∧
      (call.create env backend).2 (manifestKey id) = some (env.manifestJson manifest)) ∨
    (¬ call.Returns env id ∧
      (call.create env backend).2 (encKey id) = backend (encKey id) ∧
      (call.create env backend).2 (manifestKey id) = backend (manifestKey id)) := by
  rw [BackupCall.create_eq]
  rcases houtcome : call.outcome env with e | ⟨manifest, payload⟩
  · refine Or.inr ⟨?_, ?_, ?_⟩
    · rintro ⟨-, result, hresult⟩
      exact nomatch houtcome.symm.trans hresult
    · simp [createBackup, houtcome]
    · simp [createBackup, houtcome]
  · obtain ⟨-, -, -, -, -, hid, -⟩ := outcome_spec houtcome
    have hreturns : call.Returns env id ↔ manifest.id = id := by
      simp [BackupCall.Returns, houtcome, hid]
    by_cases hsame : manifest.id = id
    · refine Or.inl ⟨hreturns.mpr hsame, manifest, payload, rfl, ?_, ?_⟩
      · simp [createBackup, houtcome, Backend.put_apply, hsame]
      · simp [createBackup, houtcome, Backend.put_apply, hsame]
    · have hother : id ≠ manifest.id := fun heq => hsame heq.symm
      refine Or.inr ⟨fun h => hsame (hreturns.mp h), ?_, ?_⟩
      · simp [createBackup, houtcome, Backend.put_apply, hother]
      · simp [createBackup, houtcome, Backend.put_apply, hother]

theorem store_files (backend : Backend) (history : List BackupCall)
    (hlast : lastWriter env history id = some writer) :
    ∃ manifest payload, writer.outcome env = .ok (manifest, payload) ∧
      store env backend history (encKey id) = some payload ∧
      store env backend history (manifestKey id) = some (env.manifestJson manifest) := by
  induction history using reverseRecOn with
  | nil => exact nomatch hlast
  | append_singleton history call ih =>
    rw [lastWriter, reverse_concat, find?_cons] at hlast
    rw [store, run_concat]
    rcases create_files call (store env backend history) id with
      ⟨hreturns, hfiles⟩ | ⟨hreturns, henc, hmanifest⟩
    · rw [decide_eq_true hreturns] at hlast
      rw [← Option.some.inj hlast]
      exact hfiles
    · rw [decide_eq_false hreturns] at hlast
      obtain ⟨manifest, payload, houtcome, hpayload, hdata⟩ := ih hlast
      exact ⟨manifest, payload, houtcome, henc.trans hpayload, hmanifest.trans hdata⟩

theorem exists_lastWriter {history : List BackupCall} {call : BackupCall} (hcall : call ∈ history)
    (hreturns : call.Returns env id) :
    ∃ writer ∈ history, lastWriter env history id = some writer ∧ writer.Returns env id := by
  rcases hlast : lastWriter env history id with _ | writer
  · have hnone := find?_eq_none.mp hlast call (mem_reverse.mpr hcall)
    exact absurd (decide_eq_true hreturns) hnone
  · have hfind : history.reverse.find? (fun call => call.Returns env id) = some writer := hlast
    have hreturned := find?_some hfind
    exact ⟨writer, mem_reverse.mp (mem_of_find?_eq_some hlast), rfl, of_decide_eq_true hreturned⟩

/-- What a call has stored is restored as it is read back, unless it is too large. -/
theorem restoreFull_of_files (henv : LawfulBackup env) {backend : Backend}
    (houtcome : writer.outcome env = .ok (manifest, payload))
    (hpayload : backend (encKey id) = some payload)
    (hdata : backend (manifestKey id) = some (env.manifestJson manifest)) :
    restoreFull env backend id writer.passphrase writer.params = (do
      let json ← decompress env (env.compress (env.archiveJson (writer.archive env)))
      let archive ← env.parseArchive json
      return (archive.records,
        ⟨countByCollection archive.records, archive.records.length, true⟩)) := by
  obtain ⟨key, encrypted, hkey, hencrypted, rfl, -, hchecksum⟩ := outcome_spec houtcome
  obtain ⟨parsed, hparsed, hparsedChecksum⟩ :=
    map_eq_ok_iff.mp (henv.checksum_parseManifest manifest)
  obtain ⟨_, hlength, hencrypted⟩ := bind_eq_ok_iff.mp hencrypted
  have hdecrypted : decryptBackup env encrypted key =
      .ok (env.compress (env.archiveJson (writer.archive env))) := by
    refine bind_eq_ok_iff.mpr ⟨(), hlength, mapError_eq_ok_iff.mpr ?_⟩
    exact decrypt_encrypt_of_aes henv.aesDecrypt_aesEncrypt writer.draw.nonce.2
      (mapError_eq_ok_iff.mp hencrypted)
  have hsalt : (writer.draw.salt : Bytes).length = saltLength := writer.draw.salt.2
  have htake : ((writer.draw.salt : Bytes) ++ encrypted).take saltLength = writer.draw.salt :=
    take_left' hsalt
  have hdrop : ((writer.draw.salt : Bytes) ++ encrypted).drop saltLength = encrypted :=
    drop_left' hsalt
  have hintact : env.sha256Hex (writer.draw.salt ++ encrypted) = parsed.checksum := by
    rw [hparsedChecksum, hchecksum]
  have hlong : saltLength ≤ ((writer.draw.salt : Bytes) ++ encrypted).length := by
    rw [length_append]
    omega
  simp only [restoreFull, Backend.get, hpayload, hdata, okOr_some, hparsed, hintact, ensure,
    hlong, if_true, htake, hdrop, hkey, hdecrypted, bind, Except.bind]

theorem decompress_compress_eq_ok_iff (henv : LawfulBackup env) {bytes json : Bytes} :
    decompress env (env.compress bytes) = .ok json ↔
      bytes.length ≤ maxDecompressedSize ∧ json = bytes := by
  simp only [decompress, henv.gunzip_compress]
  rw [bind_eq_ok_iff]
  constructor
  · rintro ⟨_, hdecoded, h⟩
    obtain rfl := Except.ok.inj hdecoded
    obtain ⟨_, hsmall, h⟩ := bind_eq_ok_iff.mp h
    obtain rfl := Except.ok.inj h
    have hle := ensure_eq_ok_iff.mp hsmall
    rw [length_take] at hle
    have hbytes : bytes.length ≤ maxDecompressedSize := by omega
    exact ⟨hbytes, take_of_length_le (by omega)⟩
  · rintro ⟨hbytes, rfl⟩
    refine ⟨_, rfl, bind_eq_ok_iff.mpr ⟨(), ensure_eq_ok_iff.mpr ?_, ?_⟩⟩
    · rw [length_take]
      omega
    · rw [take_of_length_le (by omega)]
      rfl

/-- The archive is within the limit, and read back with these records. -/
def BackupCall.ReadsBack (env : BackupEnv) (writer : BackupCall)
    (records : List BackupRecord) : Prop :=
  (env.archiveJson (writer.archive env)).length ≤ maxDecompressedSize ∧
    (env.parseArchive (env.archiveJson (writer.archive env))).map (·.records) = .ok records

theorem restoreFull_records_iff (henv : LawfulBackup env) {backend : Backend}
    (houtcome : writer.outcome env = .ok (manifest, payload))
    (hpayload : backend (encKey id) = some payload)
    (hdata : backend (manifestKey id) = some (env.manifestJson manifest))
    (records : List BackupRecord) :
    (restoreFull env backend id writer.passphrase writer.params).map Prod.fst = .ok records ↔
      writer.ReadsBack env records := by
  rw [restoreFull_of_files henv houtcome hpayload hdata]
  constructor
  · intro h
    obtain ⟨_, hrestore, hrecords⟩ := map_eq_ok_iff.mp h
    obtain ⟨json, hjson, hparse⟩ := bind_eq_ok_iff.mp hrestore
    obtain ⟨hsmall, rfl⟩ := (decompress_compress_eq_ok_iff henv).mp hjson
    obtain ⟨archive, harchive, hresult⟩ := bind_eq_ok_iff.mp hparse
    obtain rfl := Except.ok.inj hresult
    exact ⟨hsmall, map_eq_ok_iff.mpr ⟨archive, harchive, hrecords⟩⟩
  · rintro ⟨hsmall, h⟩
    obtain ⟨archive, harchive, hrecords⟩ := map_eq_ok_iff.mp h
    refine map_eq_ok_iff.mpr ⟨_, bind_eq_ok_iff.mpr ⟨_,
      (decompress_compress_eq_ok_iff henv).mpr ⟨hsmall, rfl⟩,
      bind_eq_ok_iff.mpr ⟨archive, harchive, rfl⟩⟩, hrecords⟩

/-- Each returned manifest restores the records of its call. -/
def RestoresAll (env : BackupEnv) (backend : Backend) (history : List BackupCall) : Prop :=
  ∀ call ∈ history, ∀ id, call.Returns env id →
    (restoreFull env (store env backend history) id call.passphrase call.params).map Prod.fst =
      .ok call.records

/-- Every manifest restores its records exactly if the last call with its id archived the same
ones, in an archive that is small enough and read back. -/
theorem restoresAll_iff (henv : LawfulBackup env) (backend : Backend)
    (history : List BackupCall)
    (hsame : ∀ a ∈ history, ∀ b ∈ history, ∀ id, a.Returns env id → b.Returns env id →
      a.passphrase = b.passphrase ∧ a.params = b.params) :
    RestoresAll env backend history ↔ ∀ call ∈ history, ∀ id, call.Returns env id →
      ∃ writer ∈ lastWriter env history id, writer.ReadsBack env call.records := by
  have hcall : ∀ call ∈ history, ∀ id, call.Returns env id →
      ((restoreFull env (store env backend history) id call.passphrase call.params).map
          Prod.fst = .ok call.records ↔
        ∃ writer ∈ lastWriter env history id, writer.ReadsBack env call.records) := by
    intro call hmem id hreturns
    obtain ⟨writer, hwriter, hlast, hreturned⟩ := exists_lastWriter hmem hreturns
    obtain ⟨hpassphrase, hparams⟩ :=
      hsame call hmem writer hwriter id hreturns hreturned
    obtain ⟨manifest, payload, houtcome, hpayload, hdata⟩ := store_files backend history hlast
    rw [hpassphrase, hparams, restoreFull_records_iff henv houtcome hpayload hdata, hlast]
    simp
  constructor
  · intro hall call hmem id hreturns
    exact (hcall call hmem id hreturns).mp (hall call hmem id hreturns)
  · intro hall call hmem id hreturns
    exact (hcall call hmem id hreturns).mpr (hall call hmem id hreturns)

end Histories

/-! ## An environment for archives of one record -/

def sampleRecord : BackupRecord := ⟨"r1", "core", "tasks", .null, 1, none, none, 0, 0⟩

/-- Archives are read back as copies of one record.  A key is the padded passphrase, and stands
before what it encrypts; the stamps are those of one second. -/
def countingEnv : BackupEnv where
  cipher :=
    { hkdf := fun _ _ _ => []
      aesEncrypt := fun key _ plaintext => .ok (key ++ plaintext)
      aesDecrypt := fun key _ ciphertext => do
        ensure (ciphertext.take key.length = key) "aead::Error"
        return ciphertext.drop key.length
      base64Encode := fun _ => ""
      base64Decode := fun _ => .ok []
      jsonBytes := fun _ => .ok []
      parseBytes := fun _ => .ok .null }
  archiveJson a := List.replicate a.records.length 0
  parseArchive bytes :=
    .ok ⟨⟨"", 0, .full, [], [], 0, "", none, none⟩, bytes.map fun _ => sampleRecord⟩
  manifestJson m := m.checksum.toByteArray.data.toList
  parseManifest bytes :=
    (okOr (utf8Text bytes) "").map fun checksum =>
      ⟨"", 0, .full, [], [], 0, checksum, none, none⟩
  compress bytes := bytes
  gunzip := .ok
  checkParams _ := .ok ()
  argon2 _ passphrase _ :=
    .ok ((passphrase.toByteArray.data.toList ++ List.replicate keyLength 0).take keyLength)
  sha256Hex _ := ""
  stamp now := "20260101-000000-" ++ toString (100 + now)
  rfc3339 _ := ""

theorem lawfulBackup_countingEnv : LawfulBackup countingEnv where
  aesDecrypt_aesEncrypt key _ plaintext _ h := by
    rw [← Except.ok.inj h]
    simp [countingEnv, ensure, bind, Except.bind, pure, Except.pure]
  gunzip_compress _ := rfl
  checksum_parseManifest manifest := by
    simp only [countingEnv, utf8Text_toByteArray]
    rfl

def fullBackup (now : Timestamp) (passphrase : String) (copies : Nat) : BackupCall where
  draw := ⟨now, ⟨List.replicate saltLength 0, rfl⟩, ⟨List.replicate nonceSize 0, rfl⟩⟩
  parentId := none
  records := List.replicate copies sampleRecord
  passphrase := passphrase
  params := ⟨64, 3, 4⟩

theorem outcome_fullBackup (now : Timestamp) (passphrase : String) (copies : Nat) :
    ∃ result, (fullBackup now passphrase copies).outcome countingEnv = .ok result := by
  set key := (passphrase.toByteArray.data.toList ++ List.replicate keyLength 0).take keyLength
  have hlength : key.length = keyLength := by simp [key]
  have hencrypt : ∃ encrypted, encryptBackup countingEnv (List.replicate nonceSize 0)
      (List.replicate (List.replicate copies sampleRecord).length 0) key = .ok encrypted :=
    ⟨_, bind_eq_ok_iff.mpr ⟨(), ensure_eq_ok_iff.mpr hlength, rfl⟩⟩
  obtain ⟨encrypted, hencrypted⟩ := hencrypt
  exact ⟨_, bind_eq_ok_iff.mpr ⟨key, rfl, bind_eq_ok_iff.mpr ⟨encrypted, hencrypted, rfl⟩⟩⟩

def fullId (now : Timestamp) : String :=
  "full-" ++ ("20260101-000000-" ++ toString (100 + now))

theorem returns_fullBackup_iff (now : Timestamp) (passphrase : String) (copies : Nat)
    (id : String) :
    (fullBackup now passphrase copies).Returns countingEnv id ↔ fullId now = id :=
  and_iff_left (outcome_fullBackup now passphrase copies)

theorem readsBack_fullBackup {now : Timestamp} {passphrase : String} {copies : Nat}
    (h : copies ≤ maxDecompressedSize) (records : List BackupRecord) :
    (fullBackup now passphrase copies).ReadsBack countingEnv records ↔
      List.replicate copies sampleRecord = records := by
  have hjson : countingEnv.archiveJson ((fullBackup now passphrase copies).archive countingEnv) =
      List.replicate copies 0 := by
    simp [countingEnv, BackupCall.archive, fullBackup]
  rw [BackupCall.ReadsBack, hjson]
  simp [countingEnv, Except.map, h]

def twoTimes : List BackupCall := [fullBackup 0 "secret" 1, fullBackup 1 "hidden" 2]

/-- Two backups at different times, under different passphrases. -/
theorem restoresAll_twoTimes : RestoresAll countingEnv (fun _ => none) twoTimes := by
  have hne : fullId 0 ≠ fullId 1 := by decide
  refine (restoresAll_iff lawfulBackup_countingEnv _ _ ?_).mpr ?_
  · simp only [twoTimes, mem_cons, not_mem_nil, or_false]
    rintro a (rfl | rfl) b (rfl | rfl) id ha hb <;> rw [returns_fullBackup_iff] at ha hb
    · exact ⟨rfl, rfl⟩
    · exact absurd (ha.trans hb.symm) hne
    · exact absurd (hb.trans ha.symm) hne
    · exact ⟨rfl, rfl⟩
  · simp only [twoTimes, mem_cons, not_mem_nil, or_false]
    rintro call (rfl | rfl) id hreturns <;> rw [returns_fullBackup_iff] at hreturns <;> subst id
    · refine ⟨fullBackup 0 "secret" 1, ?_, (readsBack_fullBackup (by decide) _).mpr rfl⟩
      simp [lastWriter, returns_fullBackup_iff, hne.symm]
    · refine ⟨fullBackup 1 "hidden" 2, ?_, (readsBack_fullBackup (by decide) _).mpr rfl⟩
      simp [lastWriter, returns_fullBackup_iff]

def sameTime : List BackupCall := [fullBackup 0 "secret" 0, fullBackup 0 "secret" 1]

/-- The second backup at the same time replaces the first. -/
theorem not_restoresAll_same_time : ¬ RestoresAll countingEnv (fun _ => none) sameTime := by
  intro hall
  have hfirst := hall (fullBackup 0 "secret" 0) (by simp [sameTime]) (fullId 0)
    ((returns_fullBackup_iff ..).mpr rfl)
  have hlast : lastWriter countingEnv sameTime (fullId 0) = some (fullBackup 0 "secret" 1) := by
    simp [lastWriter, sameTime, returns_fullBackup_iff]
  obtain ⟨manifest, payload, houtcome, hpayload, hdata⟩ :=
    store_files (fun _ => none) sameTime hlast
  have hreads := (restoreFull_records_iff lawfulBackup_countingEnv houtcome hpayload hdata
    (fullBackup 0 "secret" 0).records).mp hfirst
  exact absurd ((readsBack_fullBackup (by decide) _).mp hreads) (by decide)

end LifeEngine.Backup
