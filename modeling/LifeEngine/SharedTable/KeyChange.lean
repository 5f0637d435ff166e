import LifeEngine.SharedTable.Rekey

/-!
# Credentials across a change of the key

The backend and storage contexts write credentials to one table, each in its own form.
Re-encryption knows the form of the backend, in the collection `credentials`, only.  A
document that a context stores there has lost its id and stops the re-encryption; one that
it stores in the credentials of a plugin is left under the old key.  The main result is
about the runs without either.
-/

namespace LifeEngine.SharedTable

open Support Storage Crypto SqliteDocument StorageContext

/-! ## Runs -/

/-- Who has written a row last. -/
inductive Writer where
  | backend
  | context
  deriving DecidableEq, Repr

/-- The table and the context over it, with the last writer of each row. -/
structure Vault where
  state : ContextState AdapterState
  writer : String → Writer

namespace Vault

def table (v : Vault) : Documents := v.state.router.table

def start (draws : Nat → SqliteDocument.Draw) : Vault where
  state := ⟨⟨.empty, draws, 0⟩, [], []⟩
  writer _ := .backend

def withTable (v : Vault) (t : Documents) : Vault :=
  { v with state := { v.state with router := { v.state.router with table := t } } }

end Vault

/-- The rows that were not there before count as written. -/
def credit (who : Writer) (before after : Documents) (writer : String → Writer) :
    String → Writer :=
  fun id => if after.rows.any fun r => r.id = id ∧ r ∉ before.rows then who else writer id

inductive VaultCall where
  | mutate (draw : Storage.Draw) (mutation : StorageMutation)
  | store (call : StoreCall)

def storeStep (ctx : Context) (env : AdapterEnv) (s : ContextState AdapterState) :
    StoreCall → ContextState AdapterState
  | .write call => ctx.docStep (adapterStore env).toDocRouter s call
  | .delete caller collection id pluginScoped =>
    (Context.docDelete (adapterStore env) s caller collection id pluginScoped).2

/-- A write through the backend or a storage context. -/
def vaultStep (d : Deployment) (masterKey : Bytes) (v : Vault) : VaultCall → Vault
  | .mutate draw mutation =>
    let t := (executeMutation (d.backendUnder masterKey) d.context.timeText draw v.table
      mutation).2
    { v.withTable t with writer := credit .backend v.table t v.writer }
  | .store call =>
    let s := storeStep (d.contextUnder masterKey) d.adapter v.state call
    ⟨s, credit .context v.table s.router.table v.writer⟩

/-! ## The property -/

/-- The claims of a row as a context reads them. -/
def contextClaims (ctx : Context) (env : AdapterEnv) (s : ContextState AdapterState)
    (r : DocumentRow) : Except StorageError (Option Json) := do
  let doc ← ctx.docGet (adapterStore env) s .system r.collection r.id false
  return doc.get "claims"

/-- A credential is read by the side that has written it. -/
def Reads (d : Deployment) (masterKey : Bytes) (v : Vault) (r : DocumentRow)
    (claims : Option Json) : Prop :=
  match v.writer r.id with
  | .backend => backendClaims (d.backendUnder masterKey) r = .ok claims
  | .context => contextClaims (d.contextUnder masterKey) d.adapter v.state r = .ok claims

/-- The rows of a credentials collection. -/
def IsCredential (r : DocumentRow) : Prop :=
  isCredentialsCollection r.collection = true

/-- Re-encryption fails without a change, or keeps every readable credential; and it succeeds if all
are readable. -/
structure SurvivesRekey (d : Deployment) (oldKey newKey : Bytes) (nonce : String → Bytes)
    (v : Vault) : Prop where
  failed : ∀ e, (d.reEncryptCredentials oldKey newKey nonce v.table).1 = .error e →
    (d.reEncryptCredentials oldKey newKey nonce v.table).2 = v.table
  readable : (d.reEncryptCredentials oldKey newKey nonce v.table).1 = .ok () →
    ∀ r ∈ v.table.rows, IsCredential r → ∀ claims, Reads d oldKey v r claims →
      ∃ r' ∈ (d.reEncryptCredentials oldKey newKey nonce v.table).2.rows,
        r'.id = r.id ∧ r'.collection = r.collection ∧
          Reads d newKey
            (v.withTable (d.reEncryptCredentials oldKey newKey nonce v.table).2) r' claims
  succeeds : (∀ r ∈ v.table.rows, IsCredential r → ∃ claims, Reads d oldKey v r claims) →
    (d.reEncryptCredentials oldKey newKey nonce v.table).1 = .ok ()

/-- A context stores nothing in `credentials`, and elsewhere neither claims nor their mark. -/
def LeavesNoClaims (d : Deployment) (masterKey : Bytes) (v : Vault) : VaultCall → Prop
  | .mutate .. => True
  | .store (.write call) => ∀ resolved,
      (d.contextUnder masterKey).accept (adapterStore d.adapter).toDocRouter v.state call =
        .ok resolved →
      isCredentialsCollection resolved = true →
        resolved ≠ "credentials" ∧ call.document.get "claims" = none ∧
          ¬ FlaggedEncrypted call.document
  | .store (.delete ..) => True

/-! ## The invariant -/

/-- The row does not depend on the master key of a context. -/
def Keyless (r : DocumentRow) : Prop :=
  r.collection ≠ "credentials" ∧ ∃ data, r.data = .ok data ∧ ¬ FlaggedEncrypted data

/-- What a context has written does not depend on its key. -/
def ContextKeyless (v : Vault) : Prop :=
  ∀ r ∈ v.table.rows, IsCredential r → v.writer r.id = .context → Keyless r

section

variable {d : Deployment} {masterKey oldKey newKey : Bytes} {nonce : String → Bytes}
  {v : Vault}

variable {r : DocumentRow} {claims : Option Json}

theorem credit_of_mem {who : Writer} {before after : Documents} {writer : String → Writer}
    (hr : r ∈ after.rows) :
    credit who before after writer r.id = if r ∈ before.rows then writer r.id else who := by
  unfold credit
  by_cases hold : r ∈ before.rows
  · rw [if_pos hold, if_neg]
    rw [List.any_eq_true]
    rintro ⟨other, hother, hmeets⟩
    obtain ⟨hid, hnew⟩ := of_decide_eq_true hmeets
    obtain rfl : other = r := Table.eq_of_key_eq hother hr hid
    exact hnew hold
  · rw [if_neg hold, if_pos]
    rw [List.any_eq_true]
    exact ⟨r, hr, decide_eq_true ⟨rfl, hold⟩⟩

theorem ContextKeyless.of_added (h : ContextKeyless v) {v' : Vault} (who : Writer)
    (hwriter : v'.writer = credit who v.table v'.table v.writer)
    (hadded : ∀ r ∈ v'.table.rows, r ∉ v.table.rows → IsCredential r → who = .context → Keyless r) :
    ContextKeyless v' := by
  intro r hr hcredential hcontext
  rw [hwriter, credit_of_mem hr] at hcontext
  by_cases hold : r ∈ v.table.rows
  · rw [if_pos hold] at hcontext
    exact h r hold hcredential hcontext
  · rw [if_neg hold] at hcontext
    exact hadded r hr hold hcredential hcontext

theorem not_flagged_of_protect {ctx : Context} {bytes : Bytes} {resolved : String}
    {doc doc' : Json} (h : ctx.protect bytes resolved doc = .ok doc')
    (hclaims : doc.get "claims" = none) (hflag : ¬ FlaggedEncrypted doc) :
    ¬ FlaggedEncrypted (stripSystemFields doc') := by
  have hsame : doc' = doc := by
    unfold Context.protect at h
    by_cases hcredential : isCredentialsCollection resolved = true
    · rw [if_pos hcredential] at h
      rcases Context.encrypts_of_ok h with ⟨hsame, -⟩ | ⟨_, _, claims, _, _, _, hsome, _, _, _, _⟩
      · exact hsame
      · rw [hclaims] at hsome
        cases hsome
    · rw [if_neg hcredential] at h
      exact (Except.ok.inj h).symm
  rw [flaggedEncrypted_congr (get_stripSystemFields doc' (by decide)), hsame]
  exact hflag

section Added

variable {ctx : Context} {env : AdapterEnv} {s : ContextState AdapterState} {r : DocumentRow}
  {draw : DocDraw} {caller : CallerIdentity} {collection id : String}
  {document : Json} {pluginScoped : Bool}

/-- A write of a context adds rows to the collection that it resolves to. -/
theorem added_of_write {call : DocCall}
    (hr : r ∈ (ctx.docStep (adapterStore env).toDocRouter s call).router.table.rows)
    (hnew : r ∉ s.router.table.rows) :
    ∃ resolved doc, ctx.accept (adapterStore env).toDocRouter s call = .ok resolved ∧
      ctx.protect call.nonce resolved (ctx.filled call) = .ok doc ∧
      r.collection = resolved ∧ r.data = .ok (stripSystemFields doc) := by
  rcases call with ⟨draw, caller, collection, document, pluginScoped⟩ |
    ⟨draw, caller, collection, id, document, pluginScoped⟩
  · rcases houtcome : ctx.docCreate (adapterStore env).toDocRouter draw s caller collection
      document pluginScoped with ⟨e | result, s'⟩
    · rw [Context.docStep, houtcome, docCreate_error houtcome] at hr
      exact absurd hr hnew
    · obtain ⟨resolved, doc, haccepted, hprotect, hcreate⟩ := docCreate_ok houtcome
      obtain ⟨-, hrows, -, -⟩ := create_ok hcreate
      rw [Context.docStep, houtcome, hrows, List.mem_append, List.mem_singleton] at hr
      rcases hr with hold | rfl
      · exact absurd hold hnew
      · exact ⟨resolved, doc, haccepted, hprotect, rfl, rfl⟩
  · rcases houtcome : ctx.docUpdate (adapterStore env).toDocRouter draw s caller collection id
      document pluginScoped with ⟨e | result, s'⟩
    · rw [Context.docStep, houtcome, docUpdate_error houtcome] at hr
      exact absurd hr hnew
    · obtain ⟨resolved, doc, haccepted, hprotect, hupdate⟩ := docUpdate_ok houtcome
      obtain ⟨htable, -⟩ := update_ok hupdate
      rw [Context.docStep, houtcome, htable] at hr
      obtain ⟨old, hold, ⟨hcollection, -, rfl⟩ | ⟨-, rfl⟩⟩ := mem_overwrite.mp hr
      · exact ⟨resolved, doc, haccepted, hprotect, hcollection, rfl⟩
      · exact absurd hold hnew

theorem mem_of_mem_docDelete
    (hr : r ∈ (Context.docDelete (adapterStore env) s caller collection id
      pluginScoped).2.router.table.rows) :
    r ∈ s.router.table.rows := by
  rcases houtcome : Context.docDelete (adapterStore env) s caller collection id
    pluginScoped with ⟨result, s'⟩
  rw [houtcome] at hr
  rcases docDelete_cases houtcome with ⟨htable, -⟩ | ⟨resolved, -, -, hdelete, -⟩
  · rwa [htable] at hr
  · rw [(delete_ok hdelete).1] at hr
    exact (Table.mem_deleteWhere.mp hr).1

end Added

theorem ContextKeyless.step (call : VaultCall) (h : ContextKeyless v)
    (hcall : LeavesNoClaims d masterKey v call) :
    ContextKeyless (vaultStep d masterKey v call) := by
  rcases call with ⟨draw, mutation⟩ | call
  · exact h.of_added .backend rfl nofun
  · apply h.of_added .context rfl
    intro r hr hnew hcredential _
    rcases call with call | ⟨caller, collection, id, pluginScoped⟩
    · obtain ⟨resolved, doc, haccepted, hprotect, rfl, hdata⟩ := added_of_write hr hnew
      obtain ⟨hplace, hclaims, hflag⟩ := hcall r.collection haccepted hcredential
      refine ⟨hplace, _, hdata, not_flagged_of_protect hprotect ?_ ?_⟩
      · rw [Context.get_filled call (by decide), hclaims]
      · rwa [flaggedEncrypted_congr (Context.get_filled call (by decide))]
    · exact absurd (mem_of_mem_docDelete hr) hnew

/-! ## Re-encryption -/

theorem collectionKind_of_isCredential (hcredential : IsCredential r)
    (hr : r.collection ≠ "credentials") : collectionKind r.collection = none := by
  have hne : ∀ name, isCredentialsCollection name = false → r.collection ≠ name := by
    intro name hplain hname
    rw [IsCredential, hname, hplain] at hcredential
    cases hcredential
  rw [collectionKind, if_neg (hne "events" (by decide)), if_neg (hne "tasks" (by decide)),
    if_neg (hne "contacts" (by decide)), if_neg (hne "notes" (by decide)),
    if_neg (hne "emails" (by decide)), if_neg (hne "files" (by decide)), if_neg hr]

theorem backendClaims_of_ne (hcredential : IsCredential r) (hr : r.collection ≠ "credentials")
    (key key' : Bytes) :
    backendClaims (d.backendUnder key) r = backendClaims (d.backendUnder key') r := by
  simp only [backendClaims, parsePayload, collectionKind_of_isCredential hcredential hr]

theorem find?_isAt_of_mem {t : Documents} (hr : r ∈ t.rows) :
    t.rows.find? (isAt r.collection r.id) = some r :=
  Table.find?_eq_some hr (isAt_iff.mpr ⟨rfl, rfl⟩) fun _ h => (isAt_iff.mp h).2

theorem docGet_system (ctx : Context) (env : AdapterEnv) (s : ContextState AdapterState)
    (collection id : String) :
    ctx.docGet (adapterStore env) s .system collection id false =
      SqliteDocument.get s.router.table collection id >>= ctx.reveal collection := rfl

theorem reveal_of_not_flagged (ctx : Context) (collection : String) {doc : Json}
    (h : ¬ FlaggedEncrypted doc) : ctx.reveal collection doc = .ok doc := by
  unfold Context.reveal
  by_cases hcredential : isCredentialsCollection collection = true
  · rw [if_pos hcredential, decryptCredentialClaims_unmarked h]
  · rw [if_neg hcredential]

/-- What does not depend on the key is read under every key. -/
theorem contextClaims_of_keyless {t : Documents} (hkeyless : Keyless r) (hr : r ∈ v.table.rows)
    (hr' : r ∈ t.rows)
    (h : contextClaims (d.contextUnder oldKey) d.adapter v.state r = .ok claims) :
    contextClaims (d.contextUnder newKey) d.adapter (v.withTable t).state r = .ok claims := by
  obtain ⟨doc, hdoc, hclaims⟩ := bind_eq_ok_iff.mp h
  rw [docGet_system] at hdoc
  obtain ⟨stored, hstored, hreveal⟩ := bind_eq_ok_iff.mp hdoc
  obtain ⟨-, data, hdata, hflag⟩ := hkeyless
  have hplain : ¬ FlaggedEncrypted stored := by
    obtain ⟨_, -, hget⟩ := bind_eq_ok_iff.mp hstored
    rw [find?_isAt_of_mem (show r ∈ v.state.router.table.rows from hr)] at hget
    dsimp only at hget
    rw [hdata] at hget
    rwa [flaggedEncrypted_congr (get_rowToDocument hget (by decide))]
  rw [reveal_of_not_flagged _ _ hplain] at hreveal
  refine bind_eq_ok_iff.mpr ⟨doc, ?_, hclaims⟩
  rw [docGet_system]
  refine bind_eq_ok_iff.mpr ⟨stored, ?_, ?_⟩
  · rw [← hstored]
    unfold SqliteDocument.get
    rw [find?_isAt_of_mem (show r ∈ (v.withTable t).state.router.table.rows from hr'),
      find?_isAt_of_mem (show r ∈ v.state.router.table.rows from hr)]
  · rw [reveal_of_not_flagged _ _ hplain, hreveal]

theorem reads_backend_iff (h : v.writer r.id = .backend) :
    Reads d masterKey v r claims ↔ backendClaims (d.backendUnder masterKey) r = .ok claims := by
  unfold Reads
  rw [h]

theorem reads_context_iff (h : v.writer r.id = .context) :
    Reads d masterKey v r claims ↔
      contextClaims (d.contextUnder masterKey) d.adapter v.state r = .ok claims := by
  unfold Reads
  rw [h]

theorem survivesRekey_of_contextKeyless (hd : LawfulDeployment d)
    (hnonce : ∀ id, (nonce id).length = nonceSize) (h : ContextKeyless v) :
    SurvivesRekey d oldKey newKey nonce v where
  failed _ herror := reEncryptCredentials_error herror
  readable hok r hr hcredential claims hreads := by
    obtain ⟨hkept, hchanged⟩ := reEncryptCredentials_ok hok
    have hsame : ∀ t (r' : DocumentRow), r'.id = r.id →
        (v.withTable t).writer r'.id = v.writer r.id := fun _ _ hid => congrArg v.writer hid
    rcases hwriter : v.writer r.id with _ | _
    · rw [reads_backend_iff hwriter] at hreads
      by_cases hcollection : r.collection = "credentials"
      · obtain ⟨data, hdata, hmem⟩ := hchanged r hr hcollection
        obtain ⟨data', hdata', hclaims⟩ :=
          backendClaims_reEncrypt hd newKey hnonce hcollection hreads
        obtain rfl : data = data' := Except.ok.inj (hdata.symm.trans hdata')
        exact ⟨setData data r, hmem, rfl, rfl,
          (reads_backend_iff ((hsame _ (setData data r) rfl).trans hwriter)).mpr hclaims⟩
      · refine ⟨r, hkept r hr hcollection, rfl, rfl, ?_⟩
        rw [reads_backend_iff ((hsame _ r rfl).trans hwriter),
          backendClaims_of_ne hcredential hcollection newKey oldKey]
        exact hreads
    · rw [reads_context_iff hwriter] at hreads
      have hkeyless := h r hr hcredential hwriter
      have hmem := hkept r hr hkeyless.1
      refine ⟨r, hmem, rfl, rfl, ?_⟩
      rw [reads_context_iff ((hsame _ r rfl).trans hwriter)]
      exact contextClaims_of_keyless hkeyless hr hmem hreads
  succeeds hall := by
    apply reEncryptCredentials_succeeds
    intro r hr hcollection
    have hcredential : IsCredential r := by
      unfold IsCredential
      rw [hcollection]
      decide
    obtain ⟨claims, hreads⟩ := hall r hr hcredential
    rcases hwriter : v.writer r.id with _ | _
    · rw [reads_backend_iff hwriter] at hreads
      obtain ⟨data, hdata, -⟩ := backendClaims_reEncrypt hd newKey hnonce hcollection hreads
      exact ⟨data, hdata⟩
    · exact absurd hcollection (h r hr hcredential hwriter).1

/-- Credentials survive a change of the key if contexts have stored nothing in `credentials`, and no
claims elsewhere. -/
theorem survivesRekey_run (d : Deployment) (hd : LawfulDeployment d)
    (oldKey newKey : Bytes) (nonce : String → Bytes)
    (hnonce : ∀ id, (nonce id).length = nonceSize)
    (draws : Nat → SqliteDocument.Draw) (calls : List VaultCall)
    (hcalls : EveryStep (vaultStep d oldKey) (LeavesNoClaims d oldKey) (.start draws) calls) :
    SurvivesRekey d oldKey newKey nonce (run (vaultStep d oldKey) (.start draws) calls) := by
  apply survivesRekey_of_contextKeyless hd hnonce
  apply run_invariant_of_everyStep _ _ hcalls
  · intro v call hv hcall
    exact hv.step call hcall
  · intro r hr
    cases hr

end

/-! ## One vault -/

/-- The fields of a `Credential`, apart from the optional ones, with the claims that the cipher can
serialise. -/
def passwordFields : JsonMap :=
  [("claims", passwordClaims), ("created_at", .str "2026-01-01T00:00:00Z"),
    ("credential_type", .str "api_key"), ("id", .str (uuidText 5)), ("name", .str "Mail"),
    ("service", .str "imap"), ("source", .str "mail"), ("source_id", .str "1"),
    ("updated_at", .str "2026-01-01T00:00:00Z")]

/-- The credential, marked as encrypted or not. -/
def isPassword (value : Json) : Bool :=
  passwordFields.all (fun field => value.get field.1 = some field.2) &&
    value.get "encrypted" ∈ [none, some (.bool false), some (.bool true)] &&
    value.get "expires_at" = none

def stampDeployment : Deployment where
  backend :=
    { canonicalErrors := fun _ _ => []
      privateSchema := fun _ _ => none
      encryptClaims := fun _ _ _ => .error "no key"
      decryptClaims := fun _ _ => .error "no key"
      readCdm := fun kind value =>
        if kind = .credential ∧ isPassword value then .ok value else .error "missing field"
      parseText := fun _ => none
      select := fun _ _ rows => .ok rows }
  context := stampContext
  adapter := plainAdapter
  hmacSign key message := key ++ message
  hexEncode := latinText
  hexDecode text := .ok (latinBytes text)

theorem stampDeployment_readCdm_iff {value record : Json} :
    stampDeployment.backend.readCdm .credential value = .ok record ↔
      isPassword value = true ∧ record = value := by
  by_cases h : isPassword value = true
  · have hread : stampDeployment.backend.readCdm .credential value = .ok value := if_pos ⟨rfl, h⟩
    rw [hread, Except.ok.injEq]
    exact ⟨fun hsame => ⟨h, hsame.symm⟩, fun hsame => hsame.2.symm⟩
  · have hread : stampDeployment.backend.readCdm .credential value = .error "missing field" :=
      if_neg fun hboth => h hboth.2
    rw [hread]
    exact iff_of_false nofun fun hsame => h hsame.1

theorem isPassword_iff {value : Json} :
    isPassword value = true ↔ (∀ field ∈ passwordFields, value.get field.1 = some field.2) ∧
      value.get "encrypted" ∈ [none, some (.bool false), some (.bool true)] ∧
      value.get "expires_at" = none := by
  simp only [isPassword, Bool.and_eq_true, List.all_eq_true, decide_eq_true_eq, and_assoc]

theorem stampDeployment_lawful : LawfulDeployment stampDeployment where
  cipher := stampCipher_lawful
  hex bytes := congrArg Except.ok (latinBytes_latinText bytes)
  aesEncrypt key nonce plaintext := ⟨key ++ plaintext, rfl⟩
  fields value record h := by
    obtain ⟨hpassword, rfl⟩ := stampDeployment_readCdm_iff.mp h
    have hfields := (isPassword_iff.mp hpassword).1
    have hid := hfields ("id", .str (uuidText 5)) (by decide)
    have hclaims := hfields ("claims", passwordClaims) (by decide)
    exact ⟨uuidText 5, passwordClaims, [1], by rw [hid]; rfl, hclaims, hclaims, rfl⟩
  unmarked fields fields' record h hsame hnone := by
    obtain ⟨hpassword, -⟩ := stampDeployment_readCdm_iff.mp h
    refine ⟨.obj fields', stampDeployment_readCdm_iff.mpr ⟨?_, rfl⟩⟩
    have hkeys : ∀ field ∈ passwordFields, field.1 ≠ "encrypted" := by decide
    obtain ⟨hfields, -, hexpires⟩ := isPassword_iff.mp hpassword
    refine isPassword_iff.mpr ⟨fun field hfield => ?_, by simp [Json.get, hnone], ?_⟩
    · exact (hsame _ (hkeys field hfield)).trans (hfields field hfield)
    · exact (hsame _ (by decide)).trans hexpires

def vaultNonce : Bytes := List.replicate 12 9

def newVault : Vault := .start fun _ => ⟨1, "now"⟩

/-- The backend inserts a credential. -/
def insertCredential : VaultCall :=
  .mutate ⟨3, 0, vaultNonce⟩ (.insert "mail" "credentials"
    ⟨⟨0, "", 0, none, []⟩, .cdm .credential (.obj passwordFields)⟩)

/-- A document without claims. -/
def storeName : VaultCall :=
  .store (.write (.create ⟨1, 2, 0, vaultNonce⟩ mailCaller "credentials"
    (.obj [("id", .str "n1"), ("name", .str "mail")]) true))

theorem survivesRekey_nameStored :
    SurvivesRekey stampDeployment [7] [8] (fun _ => vaultNonce)
      (run (vaultStep stampDeployment [7]) newVault [insertCredential, storeName]) := by
  apply survivesRekey_run stampDeployment stampDeployment_lawful [7] [8] (fun _ => vaultNonce)
    (fun _ => rfl)
  refine everyStep_cons.mpr ⟨trivial, everyStep_cons.mpr ⟨?_, everyStep_nil _ _⟩⟩
  intro resolved haccepted _
  have hresolved : "mail" ++ "." ++ "credentials" = resolved :=
    Except.ok.inj (resolve_of_acceptCreate haccepted)
  refine ⟨?_, ?_, ?_⟩
  · rw [← hresolved]
    decide
  · decide +kernel
  · unfold FlaggedEncrypted
    decide +kernel

/-- The core stores a credential through a context. -/
def storeCredential : VaultCall :=
  .store (.write (.create ⟨1, 2, 0, vaultNonce⟩ .system "credentials"
    (.obj [("claims", passwordClaims), ("id", .str "c1")]) false))

/-- The credential `c1` under the key 7. -/
def sealedRow (collection : String) : DocumentRow :=
  ⟨"c1", "core", collection, .ok (.obj [("claims",
    .str (latinText (vaultNonce ++ [99, 49, 7, 1]))), ("encrypted", .bool true)]), 1, "now", "now"⟩

/-- A credential of a context in `credentials` fails the re-encryption; the one that it has stored
for a plugin is not read afterwards. -/
theorem not_survivesRekey_stored :
    LawfulDeployment stampDeployment ∧
      ¬ SurvivesRekey stampDeployment [7] [8] (fun _ => vaultNonce)
        (run (vaultStep stampDeployment [7]) newVault [storeCredential]) ∧
      ¬ SurvivesRekey stampDeployment [7] [8] (fun _ => vaultNonce)
        (run (vaultStep stampDeployment [7]) newVault [.store storeC1]) := by
  refine ⟨stampDeployment_lawful, ?_, ?_⟩
  · intro h
    have hrows : (run (vaultStep stampDeployment [7]) newVault [storeCredential]).table.rows =
        [sealedRow "credentials"] := by
      decide +kernel
    have hok := h.succeeds ?_
    · revert hok
      decide +kernel
    · intro r hr _
      rw [hrows, List.mem_singleton] at hr
      rw [hr]
      refine ⟨some passwordClaims, (reads_context_iff ?_).mpr ?_⟩ <;> decide +kernel
  · intro h
    have hmem : sealedRow "mail.credentials" ∈
        (run (vaultStep stampDeployment [7]) newVault [.store storeC1]).table.rows := by
      decide +kernel
    have hreads : Reads stampDeployment [7]
        (run (vaultStep stampDeployment [7]) newVault [.store storeC1])
        (sealedRow "mail.credentials") (some passwordClaims) := by
      apply (reads_context_iff ?_).mpr
      · decide +kernel
      · decide +kernel
    have hcredential : isCredentialsCollection "mail.credentials" = true := by
      decide +kernel
    have hok : (stampDeployment.reEncryptCredentials [7] [8] (fun _ => vaultNonce)
        (run (vaultStep stampDeployment [7]) newVault [.store storeC1]).table).1 = .ok () := by
      decide +kernel
    obtain ⟨r, hr, -, -, hreads'⟩ := h.readable hok _ hmem hcredential _ hreads
    -- The row is as it was, so that the new key does not open it.
    have hrows : (stampDeployment.reEncryptCredentials [7] [8] (fun _ => vaultNonce)
        (run (vaultStep stampDeployment [7]) newVault [.store storeC1]).table).2.rows =
          [sealedRow "mail.credentials"] := by
      decide +kernel
    rw [hrows, List.mem_singleton] at hr
    rw [hr] at hreads'
    have hclaims := (reads_context_iff (by decide +kernel)).mp hreads'
    revert hclaims
    decide +kernel

end LifeEngine.SharedTable
