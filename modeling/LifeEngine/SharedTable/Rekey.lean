import LifeEngine.SharedTable.Backend
import LifeEngine.Storage.Readable
import LifeEngine.StorageContext.Credentials

/-!
# Re-encryption of credentials

`re_encrypt_credentials` decrypts every row of the collection `credentials` with the old
key and encrypts it with the new one, as the backend does it: with a key that HMAC derives
from the master key and the id in the document, and the ciphertext in hexadecimal.  A
storage context derives its keys with HKDF and writes Base64.  All updates happen in one
transaction, which is dropped at the first failure.
-/

namespace LifeEngine.SharedTable

open Support Storage Crypto
open LifeEngine.SqliteDocument (Documents DocumentRow AdapterEnv)
open LifeEngine.StorageContext (Context)

/-! ## Keys and ciphers -/

/-- A backend and a storage context over one database. -/
structure Deployment where
  backend : SqliteEnv
  context : Context
  adapter : AdapterEnv
  hmacSign : Bytes → Bytes → Bytes
  hexEncode : Bytes → String
  hexDecode : String → Except String Bytes

namespace Deployment

variable (d : Deployment)

/-- The key of the backend for a credential. -/
def deriveCredentialKey (masterKey : Bytes) (credentialId : String) : Bytes :=
  (d.hmacSign masterKey (textBytes credentialId)).take 32

def encryptClaims (masterKey : Bytes) (credentialId : String) (nonce : Bytes)
    (claims : Json) : Except String String := do
  let bytes ← d.context.cipher.jsonBytes claims
  let ciphertext ← (encrypt d.context.cipher nonce
    (d.deriveCredentialKey masterKey credentialId) bytes).mapError CryptoError.display
  return d.hexEncode ciphertext

def decryptClaims (masterKey : Bytes) (credentialId ciphertextHex : String) :
    Except String Json := do
  let ciphertext ← (d.hexDecode ciphertextHex).mapError fun e =>
    "invalid hex in encrypted claims: " ++ e
  let plaintext ← (decrypt d.context.cipher (d.deriveCredentialKey masterKey credentialId)
    ciphertext).mapError fun e => "decryption failed: " ++ e.display
  (d.context.cipher.parseBytes plaintext).mapError fun e =>
    "failed to deserialize decrypted claims: " ++ e

def backendUnder (masterKey : Bytes) : SqliteEnv :=
  { d.backend with
    encryptClaims := d.encryptClaims masterKey
    decryptClaims := d.decryptClaims masterKey }

def contextUnder (masterKey : Bytes) : Context :=
  { d.context with credentialMasterKey := some masterKey }

end Deployment

/-- Each primitive is undone by its inverse, AES-GCM encrypts every text, and a credential has an id
and claims, and is also read without the mark of an encrypted one. -/
structure LawfulDeployment (d : Deployment) : Prop where
  cipher : LawfulCipher d.context.cipher
  hex : ∀ bytes, d.hexDecode (d.hexEncode bytes) = .ok bytes
  aesEncrypt : ∀ key nonce plaintext,
    ∃ ciphertext, d.context.cipher.aesEncrypt key nonce plaintext = .ok ciphertext
  fields : ∀ value record, d.backend.readCdm .credential value = .ok record →
    ∃ id claims bytes, (value.get "id").bind Json.asStr = some id ∧
      value.get "claims" = some claims ∧ record.get "claims" = some claims ∧
      d.context.cipher.jsonBytes claims = .ok bytes
  unmarked : ∀ fields fields' record, d.backend.readCdm .credential (.obj fields) = .ok record →
    (∀ key, key ≠ "encrypted" → JsonMap.get fields' key = JsonMap.get fields key) →
    JsonMap.get fields' "encrypted" = none →
      ∃ record', d.backend.readCdm .credential (.obj fields') = .ok record'

/-! ## Re-encryption -/

/-- `decrypt_credential` on a stored text. -/
def decryptStored (env : SqliteEnv) (data : Except String Json) : Except SqliteError Json := do
  let doc ← data.mapError SqliteError.serialization
  decryptCredential env doc

def setData (data : Json) (r : DocumentRow) : DocumentRow :=
  { r with data := .ok data }

theorem id_setData (data : Json) (r : DocumentRow) : (setData data r).id = r.id := rfl

namespace Deployment

variable (d : Deployment) (oldKey newKey : Bytes) (nonce : String → Bytes)

def reEncrypt (r : DocumentRow) : Except String Json := do
  let decrypted ← (decryptStored (d.backendUnder oldKey) r.data).mapError fun e =>
    "failed to decrypt credential " ++ r.id ++ " with old key: " ++ e.display
  (encryptCredential (d.backendUnder newKey) (nonce r.id) decrypted).mapError fun e =>
    "failed to re-encrypt credential " ++ r.id ++ " with new key: " ++ e.display

/-- The loop over the selected rows. -/
def reEncryptRows : List DocumentRow → Documents → Except String Documents
  | [], t => .ok t
  | r :: rest, t => do
      let data ← d.reEncrypt oldKey newKey nonce r
      reEncryptRows rest
        (t.updateWhere (fun row => row.id = r.id) (setData data) (id_setData data))

/-- With the nonce that it draws for each row. -/
def reEncryptCredentials (t : Documents) : Except String Unit × Documents :=
  match d.reEncryptRows oldKey newKey nonce
      (t.rows.filter fun r => r.collection = "credentials") t with
  | .ok t' => (.ok (), t')
  | .error e => (.error ("key rotation failed: " ++ e), t)

end Deployment

/-! ## One credential -/

/-- The claims of a row as the backend reads them. -/
def backendClaims (env : SqliteEnv) (r : DocumentRow) : Except SqliteError (Option Json) := do
  let data ← r.data.mapError SqliteError.serialization
  let payload ← parsePayload env r.collection data
  return (serializePayload payload).get "claims"

section

variable {d : Deployment} {oldKey newKey : Bytes} {nonce : String → Bytes}

theorem decryptClaims_encryptClaims (hd : LawfulDeployment d) {masterKey bytes : Bytes}
    (hnonce : bytes.length = nonceSize) (id : String) (claims : Json) (text : String)
    (h : d.encryptClaims masterKey id bytes claims = .ok text) :
    d.decryptClaims masterKey id text = .ok claims := by
  obtain ⟨plaintext, hjson, h⟩ := bind_eq_ok_iff.mp h
  obtain ⟨ciphertext, hencrypt, h⟩ := bind_eq_ok_iff.mp h
  obtain rfl := Except.ok.inj h
  refine bind_eq_ok_iff.mpr ⟨ciphertext, ?_, bind_eq_ok_iff.mpr ⟨plaintext, ?_, ?_⟩⟩
  · rw [hd.hex, mapError_ok]
  · rw [decrypt_encrypt hd.cipher hnonce (mapError_eq_ok_iff.mp hencrypt), mapError_ok]
  · rw [hd.cipher.parseBytes_jsonBytes claims plaintext hjson, mapError_ok]

theorem encryptClaims_ok (hd : LawfulDeployment d) {claims : Json} {plaintext : Bytes}
    (h : d.context.cipher.jsonBytes claims = .ok plaintext) (masterKey bytes : Bytes)
    (id : String) : ∃ text, d.encryptClaims masterKey id bytes claims = .ok text := by
  obtain ⟨ciphertext, haes⟩ := hd.aesEncrypt (d.deriveCredentialKey masterKey id) bytes plaintext
  have hencrypt : encrypt d.context.cipher bytes (d.deriveCredentialKey masterKey id)
      plaintext = .ok (bytes ++ ciphertext) := by
    unfold encrypt
    rw [haes]
    rfl
  refine ⟨_, bind_eq_ok_iff.mpr ⟨plaintext, h, bind_eq_ok_iff.mpr ⟨bytes ++ ciphertext, ?_, rfl⟩⟩⟩
  rw [hencrypt, mapError_ok]

theorem parsePayload_credentials (env : SqliteEnv) (data : Json) :
    parsePayload env "credentials" data = do
      let plain ← decryptCredential env data
      let value ← (env.readCdm .credential plain).mapError SqliteError.serialization
      return .cdm .credential value := rfl

theorem backendClaims_ok_iff {env : SqliteEnv} {r : DocumentRow} {claims : Option Json}
    (hr : r.collection = "credentials") :
    backendClaims env r = .ok claims ↔ ∃ plain record, decryptStored env r.data = .ok plain ∧
      env.readCdm .credential plain = .ok record ∧ record.get "claims" = claims := by
  unfold backendClaims decryptStored
  rw [hr]
  simp only [parsePayload_credentials, bind_eq_ok_iff, mapError_eq_ok_iff]
  constructor
  · rintro ⟨data, hdata, payload, ⟨plain, hplain, value, hvalue, hpayload⟩, hclaims⟩
    obtain rfl := Except.ok.inj hpayload
    exact ⟨plain, value, ⟨data, hdata, hplain⟩, hvalue, Except.ok.inj hclaims⟩
  · rintro ⟨plain, value, ⟨data, hdata, hplain⟩, hvalue, rfl⟩
    exact ⟨data, hdata, _, ⟨plain, hplain, value, hvalue, rfl⟩, rfl⟩

theorem encryptCredential_ok (hd : LawfulDeployment d) {plain record : Json}
    (h : d.backend.readCdm .credential plain = .ok record) (masterKey bytes : Bytes) :
    ∃ data, encryptCredential (d.backendUnder masterKey) bytes plain = .ok data := by
  obtain ⟨id, claims, plaintext, hid, hclaims, -, hjson⟩ := hd.fields plain record h
  obtain ⟨text, htext⟩ := encryptClaims_ok hd hjson masterKey bytes id
  have hcredentialId : credentialId plain = .ok id := by
    rw [credentialId, hid, okOr_some]
  have hsealed : (d.backendUnder masterKey).encryptClaims id bytes
      ((plain.get "claims").getD .null) = .ok text := by
    rw [hclaims]
    exact htext
  refine ⟨_, bind_eq_ok_iff.mpr ⟨id, hcredentialId, bind_eq_ok_iff.mpr ⟨text, ?_, rfl⟩⟩⟩
  rw [hsealed, mapError_ok]

theorem readCdm_of_encryptCredential (hd : LawfulDeployment d) {plain record data : Json}
    {masterKey bytes : Bytes} (hbytes : bytes.length = nonceSize)
    (hrecord : d.backend.readCdm .credential plain = .ok record)
    (h : encryptCredential (d.backendUnder masterKey) bytes plain = .ok data) :
    ∃ plain' record', decryptCredential (d.backendUnder masterKey) data = .ok plain' ∧
      d.backend.readCdm .credential plain' = .ok record' ∧
      record'.get "claims" = record.get "claims" := by
  obtain ⟨-, claims, -, -, hplain, hclaims, -⟩ := hd.fields plain record hrecord
  obtain ⟨fields, fields', rfl, hdecrypt, hsame, hsealed, hmark⟩ :=
    decryptCredential_encryptCredential (decryptClaims_encryptClaims hd hbytes) h
  have hfields : JsonMap.get fields "claims" = some claims := hplain
  rw [hfields, Option.getD_some] at hsealed
  have hkeys : ∀ key, key ≠ "encrypted" → JsonMap.get fields' key = JsonMap.get fields key := by
    intro key hkey
    by_cases hclaimsKey : key = "claims"
    · rw [hclaimsKey, hsealed, hfields]
    · exact hsame key hclaimsKey hkey
  obtain ⟨record', hrecord'⟩ := hd.unmarked fields fields' record hrecord hkeys hmark
  obtain ⟨-, claims', -, -, hplain', hclaims', -⟩ := hd.fields _ record' hrecord'
  refine ⟨.obj fields', record', hdecrypt, hrecord', ?_⟩
  rw [hclaims', hclaims, ← hplain']
  exact hsealed

/-- A credential that is read under the old key is read under the new one with the same claims. -/
theorem backendClaims_reEncrypt (hd : LawfulDeployment d) (newKey : Bytes)
    (hnonce : ∀ id, (nonce id).length = nonceSize) {r : DocumentRow} {claims : Option Json}
    (hr : r.collection = "credentials")
    (h : backendClaims (d.backendUnder oldKey) r = .ok claims) :
    ∃ data, d.reEncrypt oldKey newKey nonce r = .ok data ∧
      backendClaims (d.backendUnder newKey) (setData data r) = .ok claims := by
  obtain ⟨plain, record, hplain, hrecord, rfl⟩ := (backendClaims_ok_iff hr).mp h
  obtain ⟨data, hdata⟩ := encryptCredential_ok hd hrecord newKey (nonce r.id)
  obtain ⟨plain', record', hdecrypt, hrecord', hclaims⟩ :=
    readCdm_of_encryptCredential hd (hnonce r.id) hrecord hdata
  refine ⟨data, bind_eq_ok_iff.mpr ⟨plain, ?_, ?_⟩, ?_⟩
  · rw [hplain, mapError_ok]
  · rw [hdata, mapError_ok]
  · have hr' : (setData data r).collection = "credentials" := hr
    refine (backendClaims_ok_iff hr').mpr ⟨plain', record', ?_, hrecord', hclaims⟩
    exact bind_eq_ok_iff.mpr ⟨data, rfl, hdecrypt⟩

/-! ## The loop -/

theorem reEncryptRows_ok {rows : List DocumentRow} {t t' : Documents}
    (hrows : (rows.map DocumentRow.id).Nodup)
    (h : d.reEncryptRows oldKey newKey nonce rows t = .ok t') :
    (∀ r ∈ t.rows, r.id ∉ rows.map DocumentRow.id → r ∈ t'.rows) ∧
      ∀ r ∈ rows, r ∈ t.rows → ∃ data, d.reEncrypt oldKey newKey nonce r = .ok data ∧
        setData data r ∈ t'.rows := by
  induction rows generalizing t with
  | nil =>
    obtain rfl := Except.ok.inj h
    exact ⟨fun r hr _ => hr, nofun⟩
  | cons first rest ih =>
    obtain ⟨data, hdata, h⟩ := bind_eq_ok_iff.mp h
    rw [List.map_cons, List.nodup_cons] at hrows
    obtain ⟨hfirst, hrest⟩ := hrows
    obtain ⟨hkept, hchanged⟩ := ih hrest h
    have hother : ∀ r ∈ t.rows, r.id ≠ first.id →
        r ∈ (t.updateWhere (fun row => row.id = first.id) (setData data)
          (id_setData data)).rows := by
      intro r hr hne
      exact Table.mem_updateWhere.mpr ⟨r, hr, Or.inr ⟨decide_eq_false hne, rfl⟩⟩
    constructor
    · intro r hr hid
      rw [List.map_cons, List.mem_cons, not_or] at hid
      exact hkept r (hother r hr hid.1) hid.2
    · intro r hr hmem
      rcases List.mem_cons.mp hr with rfl | hr
      · -- The row of this round; no later round changes it.
        refine ⟨data, hdata, hkept _ ?_ hfirst⟩
        exact Table.mem_updateWhere.mpr ⟨r, hmem, Or.inl ⟨decide_eq_true rfl, rfl⟩⟩
      · have hne : r.id ≠ first.id := by
          intro heq
          exact hfirst (heq ▸ List.mem_map_of_mem hr)
        exact hchanged r hr (hother r hmem hne)

theorem reEncryptRows_of_forall (rows : List DocumentRow) (t : Documents)
    (h : ∀ r ∈ rows, ∃ data, d.reEncrypt oldKey newKey nonce r = .ok data) :
    ∃ t', d.reEncryptRows oldKey newKey nonce rows t = .ok t' := by
  induction rows generalizing t with
  | nil => exact ⟨t, rfl⟩
  | cons first rest ih =>
    obtain ⟨data, hdata⟩ := h first List.mem_cons_self
    obtain ⟨t', ht'⟩ := ih
      (t.updateWhere (fun row => row.id = first.id) (setData data) (id_setData data))
      fun r hr => h r (List.mem_cons_of_mem _ hr)
    exact ⟨t', bind_eq_ok_iff.mpr ⟨data, hdata, ht'⟩⟩

/-- Each credential is re-encrypted, and the other rows stay. -/
theorem reEncryptCredentials_ok {t : Documents}
    (h : (d.reEncryptCredentials oldKey newKey nonce t).1 = .ok ()) :
    (∀ r ∈ t.rows, r.collection ≠ "credentials" →
        r ∈ (d.reEncryptCredentials oldKey newKey nonce t).2.rows) ∧
      ∀ r ∈ t.rows, r.collection = "credentials" →
        ∃ data, d.reEncrypt oldKey newKey nonce r = .ok data ∧
          setData data r ∈ (d.reEncryptCredentials oldKey newKey nonce t).2.rows := by
  unfold Deployment.reEncryptCredentials at h ⊢
  rcases hrun : d.reEncryptRows oldKey newKey nonce
      (t.rows.filter fun r => r.collection = "credentials") t with e | t'
  · rw [hrun] at h
    cases h
  · have hnodup : ((t.rows.filter fun r => r.collection = "credentials").map
        DocumentRow.id).Nodup :=
      (List.filter_sublist.map _).nodup t.keys_nodup
    obtain ⟨hkept, hchanged⟩ := reEncryptRows_ok hnodup hrun
    constructor
    · intro r hr hcollection
      apply hkept r hr
      intro hid
      obtain ⟨other, hother, hsame⟩ := List.mem_map.mp hid
      obtain ⟨hmem, hselected⟩ := List.mem_filter.mp hother
      obtain rfl : other = r := Table.eq_of_key_eq hmem hr hsame
      exact hcollection (of_decide_eq_true hselected)
    · intro r hr hcollection
      exact hchanged r (List.mem_filter.mpr ⟨hr, decide_eq_true hcollection⟩) hr

theorem reEncryptCredentials_succeeds {t : Documents}
    (h : ∀ r ∈ t.rows, r.collection = "credentials" →
      ∃ data, d.reEncrypt oldKey newKey nonce r = .ok data) :
    (d.reEncryptCredentials oldKey newKey nonce t).1 = .ok () := by
  obtain ⟨t', ht'⟩ := reEncryptRows_of_forall
    (t.rows.filter fun r => r.collection = "credentials") t
    fun r hr => h r (List.mem_filter.mp hr).1 (of_decide_eq_true (List.mem_filter.mp hr).2)
  unfold Deployment.reEncryptCredentials
  rw [ht']

theorem reEncryptCredentials_error {t : Documents} {e : String}
    (h : (d.reEncryptCredentials oldKey newKey nonce t).1 = .error e) :
    (d.reEncryptCredentials oldKey newKey nonce t).2 = t := by
  unfold Deployment.reEncryptCredentials at h ⊢
  rcases hrun : d.reEncryptRows oldKey newKey nonce
      (t.rows.filter fun r => r.collection = "credentials") t with e' | t'
  · rfl
  · rw [hrun] at h
    cases h

end

end LifeEngine.SharedTable
