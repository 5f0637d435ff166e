import LifeEngine.Crypto.Credential
import LifeEngine.Schema.Registry
import LifeEngine.StorageContext.Context
import LifeEngine.Support.Machine

/-!
# Document writes

`doc_create` and `doc_update` check a write, fill in the system fields, encrypt the
claims of credentials, and hand the document to the router.  The router may do
anything with it, time out included.  The main result is about the claims in the
documents that the router is handed.
-/

namespace LifeEngine.StorageContext

open Support Crypto Schema JsonMap

/-- `StorageContext`, with what it takes from other crates. -/
structure Context where
  cipher : CipherEnv
  schemaEnv : SchemaEnv
  /-- `to_rfc3339`. -/
  timeText : Timestamp → String
  schemaRegistry : SchemaRegistry
  credentialMasterKey : Option Bytes

/-- The document operations of the router that writes use. -/
structure DocRouter (σ : Type) where
  docGet : σ → String → String → Except StorageError Json
  docCreate : σ → String → Json → Except StorageError Json × σ
  docUpdate : σ → String → String → Json → Except StorageError Json × σ

/-- Ids for the document and its validation, the time, and a nonce. -/
structure DocDraw where
  uuid : Uuid
  schemaUuid : Uuid
  now : Timestamp
  nonce : Bytes

/-- The state of the router, the audit events, and the documents that it was handed. -/
structure ContextState (σ : Type) where
  router : σ
  audit : List AuditEvent
  handed : List (String × Json)

/-! ## The stages of a write -/

def isCredentialsCollection (resolved : String) : Bool :=
  resolved = "credentials" || ".credentials".toList.isSuffixOf resolved.toList

def checkExtensionNamespace (caller : CallerIdentity) (doc : Json) :
    Except StorageError Unit :=
  match caller, doc.get "ext" with
  | .plugin pluginId _ _, some (.obj ext) =>
    match (ext.map Prod.fst).find? (· ≠ pluginId) with
    | some ns => .error (.permissionDenied ("plugin '" ++ pluginId ++
        "' cannot write to extension namespace 'ext." ++ ns ++ "'"))
    | none => .ok ()
  | _, _ => .ok ()

def injectSystemFieldsCreate (timeText : Timestamp → String) (draw : DocDraw) :
    Json → Json
  | .obj fields =>
    let now := Json.str (timeText draw.now)
    let fields :=
      if get fields "id" = none then
        insert "id" (.str (uuidText draw.uuid)) fields
      else fields
    .obj (insert "updated_at" now (insert "created_at" now fields))
  | doc => doc

def injectSystemFieldsUpdate (timeText : Timestamp → String) (draw : DocDraw) :
    Json → Json
  | .obj fields => .obj (insert "updated_at" (.str (timeText draw.now)) fields)
  | doc => doc

namespace Context

variable (ctx : Context)

/-- For plugins that have a schema. The validated document is not used. -/
def checkSchema (draw : DocDraw) (caller : CallerIdentity) (collection : String)
    (document : Json) (isCreate : Bool) (existing : Option Json) :
    Except StorageError Unit :=
  match caller with
  | .system => .ok ()
  | .plugin pluginId _ _ =>
    if (ctx.schemaRegistry.collections (pluginId, collection)).isSome then
      match ctx.schemaRegistry.validateWrite ctx.schemaEnv draw.schemaUuid draw.now
        collection pluginId document isCreate existing with
      | .ok _ => .ok ()
      | .error e => .error (.validationFailed e.display none)
    else .ok ()

def encryptCredentialClaims (nonce : Bytes) (doc : Json) : Except StorageError Json :=
  match ctx.credentialMasterKey, doc with
  | some masterKey, .obj fields =>
    -- The flag is taken from the document that the caller supplies.
    if (get fields "encrypted").bind Json.asBool = some true then .ok doc
    else
      match get fields "claims" with
      | none => .ok doc
      | some claims =>
        match (get fields "id").bind Json.asStr with
        | none => .error (.internal "credential document missing 'id' field")
        | some id =>
          match encryptClaims ctx.cipher nonce masterKey id claims with
          | .error e =>
            .error (.internal ("credential encryption failed: " ++ e.display))
          | .ok text => .ok (.obj (insert "encrypted" (.bool true)
              (insert "claims" (.str text) fields)))
  | _, _ => .ok doc

/-- Encryption, in collections of credentials. -/
def protect (nonce : Bytes) (resolved : String) (doc : Json) : Except StorageError Json :=
  if isCredentialsCollection resolved then ctx.encryptCredentialClaims nonce doc
  else .ok doc

variable {σ : Type} (router : DocRouter σ)

/-- The checks of `doc_create`, which resolve the collection. -/
def acceptCreate (draw : DocDraw) (caller : CallerIdentity) (collection : String)
    (document : Json) (pluginScoped : Bool) : Except StorageError String := do
  checkCapability caller .docWrite
  let resolved ← resolveCollection caller collection pluginScoped
  checkExtensionNamespace caller document
  ctx.checkSchema draw caller collection document true none
  return resolved

/-- The checks of `doc_update`, against the stored document. -/
def acceptUpdate (draw : DocDraw) (s : ContextState σ) (caller : CallerIdentity)
    (collection id : String) (document : Json) (pluginScoped : Bool) :
    Except StorageError String := do
  checkCapability caller .docWrite
  let resolved ← resolveCollection caller collection pluginScoped
  checkExtensionNamespace caller document
  ctx.checkSchema draw caller collection document false
    (router.docGet s.router resolved id).toOption
  return resolved

/-- The payload of the audit events about documents. -/
def auditPayload (resolved id : String) : Json :=
  .obj [("collection", .str resolved), ("id", .str id)]

/-- Encrypt, hand the document to the router, and report success. -/
def write (nonce : Bytes) (s : ContextState σ) (accepted : Except StorageError String)
    (document : Json) (send : String → Json → Except StorageError Json × σ)
    (event : String → AuditEvent) : Except StorageError Json × ContextState σ :=
  match accepted with
  | .error e => (.error e, s)
  | .ok resolved =>
    match ctx.protect nonce resolved document with
    | .error e => (.error e, s)
    | .ok document =>
      let handed := s.handed ++ [(resolved, document)]
      match send resolved document with
      | (.error e, r) => (.error e, ⟨r, s.audit, handed⟩)
      | (.ok result, r) => (.ok result, ⟨r, s.audit ++ [event resolved], handed⟩)

def docCreate (draw : DocDraw) (s : ContextState σ) (caller : CallerIdentity)
    (collection : String) (document : Json) (pluginScoped : Bool) :
    Except StorageError Json × ContextState σ :=
  let filled := injectSystemFieldsCreate ctx.timeText draw document
  let id := ((filled.get "id").bind Json.asStr).getD ""
  ctx.write draw.nonce s (ctx.acceptCreate draw caller collection document pluginScoped)
    filled (router.docCreate s.router) fun resolved =>
      ⟨"system.storage.created", origin caller, auditPayload resolved id⟩

def docUpdate (draw : DocDraw) (s : ContextState σ) (caller : CallerIdentity)
    (collection id : String) (document : Json) (pluginScoped : Bool) :
    Except StorageError Json × ContextState σ :=
  let filled := injectSystemFieldsUpdate ctx.timeText draw document
  ctx.write draw.nonce s
    (ctx.acceptUpdate router draw s caller collection id document pluginScoped)
    filled (fun resolved document => router.docUpdate s.router resolved id document)
    fun resolved => ⟨"system.storage.updated", origin caller, auditPayload resolved id⟩

end Context

/-! ## Runs -/

inductive DocCall where
  | create (draw : DocDraw) (caller : CallerIdentity) (collection : String)
      (document : Json) (pluginScoped : Bool)
  | update (draw : DocDraw) (caller : CallerIdentity) (collection id : String)
      (document : Json) (pluginScoped : Bool)

def DocCall.document : DocCall → Json
  | create _ _ _ document _ | update _ _ _ _ document _ => document

def DocCall.nonce : DocCall → Bytes
  | create draw _ _ _ _ | update draw _ _ _ _ _ => draw.nonce

/-- The document says of itself that it is encrypted. -/
def FlaggedEncrypted (doc : Json) : Prop :=
  (doc.get "encrypted").bind Json.asBool = some true

namespace Context

variable (ctx : Context) {σ : Type} (router : DocRouter σ)

def docStep (s : ContextState σ) : DocCall → ContextState σ
  | .create draw caller collection document pluginScoped =>
    (ctx.docCreate router draw s caller collection document pluginScoped).2
  | .update draw caller collection id document pluginScoped =>
    (ctx.docUpdate router draw s caller collection id document pluginScoped).2

def accept (s : ContextState σ) : DocCall → Except StorageError String
  | .create draw caller collection document pluginScoped =>
    ctx.acceptCreate draw caller collection document pluginScoped
  | .update draw caller collection id document pluginScoped =>
    ctx.acceptUpdate router draw s caller collection id document pluginScoped

def filled : DocCall → Json
  | .create draw _ _ document _ => injectSystemFieldsCreate ctx.timeText draw document
  | .update draw _ _ _ document _ => injectSystemFieldsUpdate ctx.timeText draw document

/-- An output of `encrypt_claims` under the master key. -/
def IsCiphertext (masterKey : Bytes) (value : Json) : Prop :=
  ∃ nonce id claims text,
    encryptClaims ctx.cipher nonce masterKey id claims = .ok text ∧ value = .str text

/-- The claims, if any, are an output of `encrypt_claims`. -/
def ClaimsEncrypted (masterKey : Bytes) (doc : Json) : Prop :=
  ∀ claims, doc.get "claims" = some claims → ctx.IsCiphertext masterKey claims

/-- No document of a credentials collection was handed on with other claims than an output of
`encrypt_claims`. -/
def NoPlainClaims (masterKey : Bytes) (s : ContextState σ) : Prop :=
  ∀ resolved doc, (resolved, doc) ∈ s.handed → isCredentialsCollection resolved = true →
    ctx.ClaimsEncrypted masterKey doc

/-- An accepted document that claims to be encrypted is. -/
def HonestFlag (masterKey : Bytes) (s : ContextState σ) (call : DocCall) : Prop :=
  ∀ resolved, ctx.accept router s call = .ok resolved →
    isCredentialsCollection resolved = true → FlaggedEncrypted call.document →
      ctx.ClaimsEncrypted masterKey call.document

end Context

/-! ## What the stages do to the claims -/

variable (timeText : Timestamp → String)

theorem get_injectSystemFieldsCreate (draw : DocDraw)
    (doc : Json) {key : String} (hkey : key ∉ ["id", "created_at", "updated_at"]) :
    (injectSystemFieldsCreate timeText draw doc).get key = doc.get key := by
  simp only [List.mem_cons, List.not_mem_nil, or_false, not_or] at hkey
  obtain ⟨hid, hcreated, hupdated⟩ := hkey
  cases doc with
  | obj fields =>
    simp only [injectSystemFieldsCreate, Json.get]
    rw [get_insert_of_ne hupdated, get_insert_of_ne hcreated]
    split
    · exact get_insert_of_ne hid _ _
    · rfl
  | _ => rfl

theorem get_injectSystemFieldsUpdate (draw : DocDraw)
    (doc : Json) {key : String} (hkey : key ≠ "updated_at") :
    (injectSystemFieldsUpdate timeText draw doc).get key = doc.get key := by
  cases doc with
  | obj fields => exact get_insert_of_ne hkey _ _
  | _ => rfl

namespace Context

variable {ctx : Context} {masterKey : Bytes}

variable {doc : Json} {nonce : Bytes}

/-- A document that says to be encrypted passes as it is. -/
theorem encryptCredentialClaims_flagged (hflag : FlaggedEncrypted doc) (nonce : Bytes) :
    ctx.encryptCredentialClaims nonce doc = .ok doc := by
  unfold encryptCredentialClaims
  split
  · next fields _ =>
    have hfields : (get fields "encrypted").bind Json.asBool = some true := hflag
    rw [if_pos hfields]
  · rfl

/-- The same document, if there is nothing to encrypt, or one with the ciphertext and the marker. -/
inductive Encrypts (ctx : Context) (nonce : Bytes) (doc doc' : Json) : Prop where
  | unchanged (hsame : doc' = doc)
      (hplain : ∀ masterKey, ctx.credentialMasterKey = some masterKey →
        ¬ FlaggedEncrypted doc → doc.get "claims" = none)
  | replaced (masterKey : Bytes) (id : String) (claims : Json) (text : String)
      (hkey : ctx.credentialMasterKey = some masterKey)
      (hid : (doc.get "id").bind Json.asStr = some id)
      (hclaims : doc.get "claims" = some claims)
      (hencrypt : encryptClaims ctx.cipher nonce masterKey id claims = .ok text)
      (htext : doc'.get "claims" = some (.str text))
      (hmarker : doc'.get "encrypted" = some (.bool true))
      (hother : ∀ key, key ∉ ["claims", "encrypted"] → doc'.get key = doc.get key)

theorem encrypts_obj {fields : JsonMap} {doc' : Json}
    (hkey : ctx.credentialMasterKey = some masterKey)
    (h : ctx.encryptCredentialClaims nonce (.obj fields) = .ok doc') :
    Encrypts ctx nonce (.obj fields) doc' := by
  unfold encryptCredentialClaims at h
  rw [hkey] at h
  by_cases hflag : (get fields "encrypted").bind Json.asBool = some true
  · simp only [if_pos hflag, Except.ok.injEq] at h
    exact .unchanged h.symm fun _ _ hnot => absurd hflag hnot
  simp only [if_neg hflag] at h
  cases hclaims : get fields "claims" with
  | none =>
    simp only [hclaims, Except.ok.injEq] at h
    exact .unchanged h.symm fun _ _ _ => hclaims
  | some claims =>
    cases hid : (get fields "id").bind Json.asStr with
    | none => simp [hclaims, hid] at h
    | some id =>
      cases hencrypt : encryptClaims ctx.cipher nonce masterKey id claims with
      | error e => simp [hclaims, hid, hencrypt] at h
      | ok text =>
        simp only [hclaims, hid, hencrypt, Except.ok.injEq] at h
        subst h
        refine .replaced masterKey id claims text hkey hid hclaims hencrypt ?_ ?_ ?_
        · rw [Json.get, get_insert_of_ne (by decide), get_insert_self]
        · rw [Json.get, get_insert_self]
        · intro key hne
          simp only [List.mem_cons, List.not_mem_nil, or_false, not_or] at hne
          rw [Json.get, get_insert_of_ne hne.2, get_insert_of_ne hne.1]
          rfl

theorem encrypts_of_ok {doc' : Json} (h : ctx.encryptCredentialClaims nonce doc = .ok doc') :
    Encrypts ctx nonce doc doc' := by
  cases hkey : ctx.credentialMasterKey with
  | none =>
    have hsame : doc' = doc := by
      unfold encryptCredentialClaims at h
      rw [hkey] at h
      exact (Except.ok.inj h).symm
    refine .unchanged hsame ?_
    rw [hkey]
    intro _ hnone
    cases hnone
  | some masterKey =>
    cases doc with
    | obj fields => exact encrypts_obj hkey h
    | _ =>
      unfold encryptCredentialClaims at h
      rw [hkey] at h
      exact .unchanged (Except.ok.inj h).symm fun _ _ _ => rfl

/-- Any other document leaves with encrypted claims, or none. -/
theorem claimsEncrypted_of_not_flagged {doc' : Json}
    (hkey : ctx.credentialMasterKey = some masterKey) (hflag : ¬ FlaggedEncrypted doc)
    (h : ctx.encryptCredentialClaims nonce doc = .ok doc') :
    ctx.ClaimsEncrypted masterKey doc' := by
  intro value hvalue
  cases encrypts_of_ok h with
  | unchanged hsame hplain =>
    rw [hsame, hplain masterKey hkey hflag] at hvalue
    cases hvalue
  | replaced key id claims text hkey' hid hclaims hencrypt htext hmarker hother =>
    obtain rfl : masterKey = key := Option.some.inj (hkey.symm.trans hkey')
    rw [htext] at hvalue
    exact ⟨nonce, id, claims, text, hencrypt, (Option.some.inj hvalue).symm⟩

variable (call : DocCall)

theorem get_filled {key : String}
    (hkey : key ∉ ["id", "created_at", "updated_at"]) :
    (ctx.filled call).get key = call.document.get key := by
  cases call with
  | create draw caller collection document pluginScoped =>
    exact get_injectSystemFieldsCreate ctx.timeText draw document hkey
  | update draw caller collection id document pluginScoped =>
    refine get_injectSystemFieldsUpdate ctx.timeText draw document ?_
    rintro rfl
    simp at hkey

theorem flaggedEncrypted_filled :
    FlaggedEncrypted (ctx.filled call) ↔ FlaggedEncrypted call.document := by
  unfold FlaggedEncrypted
  rw [get_filled call (by decide)]

theorem claimsEncrypted_filled :
    ctx.ClaimsEncrypted masterKey (ctx.filled call) ↔
      ctx.ClaimsEncrypted masterKey call.document := by
  unfold ClaimsEncrypted
  rw [get_filled call (by decide)]

variable {σ : Type} {router : DocRouter σ}

/-- A write hands on at most one document, if it is accepted and encrypted. -/
theorem mem_handed_write {s : ContextState σ} {accepted : Except StorageError String}
    {document : Json} {send : String → Json → Except StorageError Json × σ}
    {event : String → AuditEvent} {resolved : String} :
    (resolved, doc) ∈ (ctx.write nonce s accepted document send event).2.handed ↔
      (resolved, doc) ∈ s.handed ∨
        accepted = .ok resolved ∧ ctx.protect nonce resolved document = .ok doc := by
  cases accepted with
  | error e => simp [write]
  | ok name =>
    cases hprotect : ctx.protect nonce name document with
    | error e =>
      have hno : ¬ (name = resolved ∧ ctx.protect nonce resolved document = .ok doc) := by
        rintro ⟨rfl, hok⟩
        rw [hprotect] at hok
        cases hok
      simp [write, hprotect, hno]
    | ok written =>
      have hhanded : (ctx.write nonce s (.ok name) document send event).2.handed =
          s.handed ++ [(name, written)] := by
        simp only [write, hprotect]
        split <;> rfl
      rw [hhanded, List.mem_append, List.mem_singleton, Prod.mk.injEq, Except.ok.injEq]
      constructor
      · rintro (hold | ⟨rfl, rfl⟩)
        · exact .inl hold
        · exact .inr ⟨rfl, hprotect⟩
      · rintro (hold | ⟨rfl, hok⟩)
        · exact .inl hold
        · exact .inr ⟨rfl, (Except.ok.inj (hprotect.symm.trans hok)).symm⟩

theorem handed_docStep (s : ContextState σ) (call : DocCall) (resolved : String)
    (doc : Json) :
    (resolved, doc) ∈ (ctx.docStep router s call).handed ↔
      (resolved, doc) ∈ s.handed ∨ ctx.accept router s call = .ok resolved ∧
        ctx.protect call.nonce resolved (ctx.filled call) = .ok doc := by
  cases call <;> exact mem_handed_write

theorem noPlainClaims_docStep_iff (router : DocRouter σ)
    (hkey : ctx.credentialMasterKey = some masterKey) (s : ContextState σ)
    (call : DocCall) :
    ctx.NoPlainClaims masterKey (ctx.docStep router s call) ↔
      ctx.NoPlainClaims masterKey s ∧ ctx.HonestFlag router masterKey s call := by
  constructor
  · intro h
    refine ⟨fun resolved doc hmem => h resolved doc
      ((handed_docStep s call resolved doc).mpr (.inl hmem)), ?_⟩
    intro resolved haccept hcred hflag
    have hprotect : ctx.protect call.nonce resolved (ctx.filled call) = .ok (ctx.filled call) := by
      rw [protect, if_pos hcred]
      exact encryptCredentialClaims_flagged ((flaggedEncrypted_filled call).mpr hflag) _
    have hmem := (handed_docStep s call resolved _).mpr (.inr ⟨haccept, hprotect⟩)
    exact (claimsEncrypted_filled call).mp (h resolved _ hmem hcred)
  · rintro ⟨hs, hhonest⟩ resolved doc hmem hcred
    rcases (handed_docStep s call resolved doc).mp hmem with hold | ⟨haccept, hprotect⟩
    · exact hs resolved doc hold hcred
    rw [protect, if_pos hcred] at hprotect
    by_cases hflag : FlaggedEncrypted (ctx.filled call)
    · rw [encryptCredentialClaims_flagged hflag] at hprotect
      obtain rfl := Except.ok.inj hprotect
      exact (claimsEncrypted_filled call).mpr
        (hhonest resolved haccept hcred ((flaggedEncrypted_filled call).mp hflag))
    · exact claimsEncrypted_of_not_flagged hkey hflag hprotect

end Context

/-- No plain claims are handed on exactly when the flags of all writes are honest. -/
theorem noPlainClaims_run_iff {σ : Type} (ctx : Context) (router : DocRouter σ)
    (masterKey : Bytes) (hkey : ctx.credentialMasterKey = some masterKey) (r : σ)
    (audit : List AuditEvent) (calls : List DocCall) :
    ctx.NoPlainClaims masterKey (run (ctx.docStep router) ⟨r, audit, []⟩ calls) ↔
      EveryStep (ctx.docStep router) (ctx.HonestFlag router masterKey) ⟨r, audit, []⟩ calls := by
  have hstart : ctx.NoPlainClaims masterKey (⟨r, audit, []⟩ : ContextState σ) := by
    intro resolved doc hmem
    simp at hmem
  have hrun := run_iff_everyStep
    (Context.noPlainClaims_docStep_iff router hkey) ⟨r, audit, []⟩ calls
  rw [hrun]
  exact and_iff_right hstart

/-! ## A credential stored in plain -/

/-- A master key, no schemas, and primitives that mark what they did. -/
def markedContext : Context where
  cipher :=
    { hkdf := fun salt key info => salt ++ key ++ info
      aesEncrypt := fun key _ plaintext => .ok (key ++ plaintext)
      aesDecrypt := fun key _ ciphertext => .ok (ciphertext.drop key.length)
      base64Encode := latinText
      base64Decode := fun text => .ok (latinBytes text)
      jsonBytes := fun json => .ok (textBytes ((json.asStr).getD "object"))
      parseBytes := fun _ => .error "not read" }
  schemaEnv := ⟨fun _ => .error "no schema", fun _ => .error "no schema", fun _ => "now"⟩
  timeText := fun _ => "now"
  schemaRegistry := .new
  credentialMasterKey := some [7]

def listRouter : DocRouter (List (String × Json)) where
  docGet docs collection id :=
    match docs.find? (fun d => d.1 = collection ∧ d.2.get "id" = some (.str id)) with
    | some d => .ok d.2
    | none => .error (.notFound collection id)
  docCreate docs collection doc := (.ok doc, docs ++ [(collection, doc)])
  docUpdate docs collection id doc :=
    (.ok doc, docs.map fun d =>
      if d.1 = collection ∧ d.2.get "id" = some (.str id) then (collection, doc) else d)

def passwordClaims : Json := .obj [("password", .str "hunter2")]

/-- A plugin creates the document in its own credentials. -/
def mailCreate (document : Json) : DocCall :=
  .create ⟨1, 2, 0, [9]⟩ (.plugin "mail" [.docWrite] []) "credentials" document true

theorem noPlainClaims_unflagged :
    markedContext.credentialMasterKey = some [7] ∧
      markedContext.NoPlainClaims [7] (run (markedContext.docStep listRouter) ⟨[], [], []⟩
        [mailCreate (.obj [("claims", passwordClaims), ("id", .str "c1")])]) := by
  refine ⟨rfl, (noPlainClaims_run_iff markedContext listRouter [7] rfl [] []
    [mailCreate (.obj [("claims", passwordClaims), ("id", .str "c1")])]).mpr ?_⟩
  rw [everyStep_cons]
  refine ⟨?_, everyStep_nil _ _⟩
  intro resolved _ _ hflag
  simp [FlaggedEncrypted, mailCreate, DocCall.document, Json.get, get_cons] at hflag

/-- A document that claims to be encrypted is handed on with its claims as they are. -/
theorem not_noPlainClaims_flagged :
    ("mail.credentials", Json.obj [("claims", passwordClaims), ("created_at", .str "now"),
        ("encrypted", .bool true), ("id", .str "c1"), ("updated_at", .str "now")]) ∈
      (run (markedContext.docStep listRouter) ⟨[], [], []⟩ [mailCreate (.obj
        [("claims", passwordClaims), ("encrypted", .bool true), ("id", .str "c1")])]).handed ∧
    ¬ markedContext.NoPlainClaims [7] (run (markedContext.docStep listRouter) ⟨[], [], []⟩
      [mailCreate (.obj
        [("claims", passwordClaims), ("encrypted", .bool true), ("id", .str "c1")])]) := by
  refine (fun hmem => ⟨hmem, fun h => ?_⟩) (by decide +kernel)
  obtain ⟨nonce, id, claims, text, -, htext⟩ :=
    h _ _ hmem (by decide +kernel) passwordClaims (by decide +kernel)
  cases htext

end LifeEngine.StorageContext
