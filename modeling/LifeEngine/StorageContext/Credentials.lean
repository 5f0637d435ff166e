import LifeEngine.StorageContext.AdapterWrites

/-!
# Claims from write to read

A storage context with a master key, over the SQLite adapter.  Its purpose with
respect to claims is a simple one: a map from collection and identifier to the
claims last written there (`latest` below), which every read returns.  The claims
are stored encrypted under a key that depends on the identifier; the identifier in
the document decides at the write, the one of the row at the read, and a marker in
the document tells the read to decrypt.

The main result gives conditions on the writes and on the projection of a query
under which every run of the context refines that map.
-/

namespace LifeEngine.StorageContext

open Support Crypto SqliteDocument JsonMap

/-! ## Observed runs -/

inductive StoreCall where
  | write (call : DocCall)
  | delete (caller : CallerIdentity) (collection id : String) (pluginScoped : Bool)

/-- The context over the adapter, with the claims last written to each place. -/
structure Observed where
  state : ContextState AdapterState
  latest : String → String → Option Json

namespace Observed

/-- An empty store. -/
def start (draws : Nat → Draw) : Observed where
  state := ⟨⟨.empty, draws, 0⟩, [], []⟩
  latest _ _ := none

def rows (o : Observed) : List DocumentRow :=
  o.state.router.table.rows

def remember (latest : String → String → Option Json) (collection id : String)
    (claims : Option Json) : String → String → Option Json :=
  fun c i => if c = collection ∧ i = id then claims else latest c i

/-- A success is remembered at the place that it has written. -/
def after {α : Type} (latest : String → String → Option Json)
    (outcome : Except StorageError α × ContextState AdapterState)
    (place : α → Option (String × String)) (claims : Option Json) : Observed where
  state := outcome.2
  latest :=
    match outcome.1 with
    | .error _ => latest
    | .ok value =>
      match place value with
      | some (collection, id) => remember latest collection id claims
      | none => latest

end Observed

open Observed

namespace Context

variable (ctx : Context) (env : AdapterEnv)

/-- The identifier is the one that the store returns. -/
def createdPlace (caller : CallerIdentity) (collection : String) (pluginScoped : Bool)
    (stored : Json) : Option (String × String) :=
  match resolveCollection caller collection pluginScoped,
    (stored.get "id").bind Json.asStr with
  | .ok resolved, some id => some (resolved, id)
  | _, _ => none

/-- An update or a deletion names its identifier. -/
def namedPlace (caller : CallerIdentity) (collection id : String) (pluginScoped : Bool) :
    Option (String × String) :=
  match resolveCollection caller collection pluginScoped with
  | .ok resolved => some (resolved, id)
  | .error _ => none

def observe (o : Observed) : StoreCall → Observed
  | .write (.create draw caller collection document pluginScoped) =>
    after o.latest
      (ctx.docCreate (adapterStore env).toDocRouter draw o.state caller collection document
        pluginScoped)
      (createdPlace caller collection pluginScoped) (document.get "claims")
  | .write (.update draw caller collection id document pluginScoped) =>
    after o.latest
      (ctx.docUpdate (adapterStore env).toDocRouter draw o.state caller collection id
        document pluginScoped)
      (fun _ => namedPlace caller collection id pluginScoped) (document.get "claims")
  | .delete caller collection id pluginScoped =>
    after o.latest
      (Context.docDelete (adapterStore env) o.state caller collection id pluginScoped)
      (fun _ => namedPlace caller collection id pluginScoped) none

/-- A write of credentials does not claim to be encrypted, and an update with claims names the
identifier of its row. -/
def SoundCall (o : Observed) : StoreCall → Prop
  | .write call => ∀ resolved,
      ctx.accept (adapterStore env).toDocRouter o.state call = .ok resolved →
      isCredentialsCollection resolved = true →
      ¬ FlaggedEncrypted call.document ∧
        match call with
        | .create .. => True
        | .update _ _ _ id document _ => ∀ claims, document.get "claims" = some claims →
            ∀ other, (document.get "id").bind Json.asStr = some other → other = id
  | .delete .. => True

/-- The projection keeps all that decryption needs, or neither the claims nor the marker. -/
def ReadableProjection (resolved : String) (fields : Option (List String)) : Prop :=
  isCredentialsCollection resolved = true →
    (kept fields "claims" = true ∧ kept fields "encrypted" = true ∧
      kept fields "id" = true) ∨
    (kept fields "claims" = false ∧ kept fields "encrypted" = false)

/-- Whoever may read the document gets the claims last written. -/
def GetReadsBack (o : Observed) : Prop :=
  ∀ caller collection pluginScoped resolved id claims,
    checkCapability caller .docRead = .ok () →
    resolveCollection caller collection pluginScoped = .ok resolved →
    o.latest resolved id = some claims →
    ∃ doc, ctx.docGet (adapterStore env) o.state caller collection id pluginScoped = .ok doc ∧
      doc.get "claims" = some claims

/-- A query succeeds when its rows can be fetched, and returns the claims last written, if the
projection keeps them. -/
def QueryReadsBack (o : Observed) (caller : CallerIdentity) (descriptor : QueryDescriptor)
    (pluginScoped : Bool) : Prop :=
  ∀ resolved page, checkCapability caller .docRead = .ok () →
    resolveCollection caller descriptor.collection pluginScoped = .ok resolved →
    fetchPage env o.state.router.table { descriptor with collection := resolved } =
      .ok page →
    ∃ list, ctx.docQuery (adapterStore env) o.state caller descriptor pluginScoped =
        .ok list ∧
      List.Forall₂ (fun r doc => ∀ claims, o.latest resolved r.id = some claims →
        kept descriptor.fields "claims" = true → doc.get "claims" = some claims)
        page.rows list.documents

/-! ## The stored form -/

/-- The value stores the claims, for the row. -/
def Stores (masterKey : Bytes) (collection id : String) (data : Json)
    (claims : Option Json) : Prop :=
  if isCredentialsCollection collection then
    match claims with
    | none => ¬ FlaggedEncrypted data
    | some value => FlaggedEncrypted data ∧ ∃ text, data.get "claims" = some (.str text) ∧
        decryptClaims ctx.cipher masterKey id text = .ok value
  else data.get "claims" = claims

end Context

open Context

section Stored

variable {ctx : Context} {masterKey : Bytes}

variable {id collection : String} {data doc : Json} {claims : Option Json}

theorem Context.Stores.congr {data' : Json} (h : ctx.Stores masterKey collection id data claims)
    (hclaims : data'.get "claims" = data.get "claims")
    (hflag : data'.get "encrypted" = data.get "encrypted") :
    ctx.Stores masterKey collection id data' claims := by
  unfold Context.Stores FlaggedEncrypted at h ⊢
  rwa [hclaims, hflag]

theorem flaggedEncrypted_congr {data' : Json} (h : data'.get "encrypted" = data.get "encrypted") :
    FlaggedEncrypted data' ↔ FlaggedEncrypted data := by
  unfold FlaggedEncrypted
  rw [h]

theorem decryptCredentialClaims_unmarked (h : ¬ FlaggedEncrypted doc) :
    ctx.decryptCredentialClaims doc = .ok doc := by
  unfold decryptCredentialClaims
  cases ctx.credentialMasterKey with
  | none => rfl
  | some masterKey =>
    cases doc with
    | obj entries =>
      have hunmarked : (get entries "encrypted").bind Json.asBool ≠ some true := h
      simp only [if_pos hunmarked]
    | _ => rfl

variable (hkey : ctx.credentialMasterKey = some masterKey)
include hkey

/-- What leaves encryption stores the claims that came in. -/
theorem stores_of_protect (hcipher : LawfulCipher ctx.cipher) {nonce : Bytes}
    (hnonce : nonce.length = nonceSize) {doc' : Json}
    (h : ctx.protect nonce collection doc = .ok doc')
    (hsound : isCredentialsCollection collection = true → ¬ FlaggedEncrypted doc ∧
      ∀ claims, doc.get "claims" = some claims →
        ∀ other, (doc.get "id").bind Json.asStr = some other → other = id) :
    ctx.Stores masterKey collection id doc' (doc.get "claims") := by
  unfold protect at h
  unfold Context.Stores
  by_cases hcred : isCredentialsCollection collection = true
  · rw [if_pos hcred] at h ⊢
    obtain ⟨hflag, hid⟩ := hsound hcred
    cases encrypts_of_ok h with
    | unchanged hsame hplain =>
      rw [hsame, hplain masterKey hkey hflag]
      exact hflag
    | replaced key own claims text hkey' hown hclaims hencrypt htext hmarker hother =>
      obtain rfl : masterKey = key := Option.some.inj (hkey.symm.trans hkey')
      obtain rfl : own = id := hid claims hclaims own hown
      rw [hclaims]
      refine ⟨?_, text, htext, decryptClaims_encryptClaims hcipher hnonce hencrypt⟩
      unfold FlaggedEncrypted
      rw [hmarker]
      rfl
  · rw [if_neg hcred] at h ⊢
    cases h
    rfl

theorem decryptCredentialClaims_marked {value : Json} {text : String} (hflag : FlaggedEncrypted doc)
    (htext : doc.get "claims" = some (.str text)) (hid : doc.get "id" = some (.str id))
    (hdecrypt : decryptClaims ctx.cipher masterKey id text = .ok value) :
    ∃ out, ctx.decryptCredentialClaims doc = .ok out ∧ out.get "claims" = some value := by
  unfold decryptCredentialClaims
  rw [hkey]
  cases doc with
  | obj entries =>
    have hmarked : (get entries "encrypted").bind Json.asBool = some true := hflag
    have hciphertext : (get entries "claims").bind Json.asStr = some text :=
      congrArg (·.bind Json.asStr) htext
    have hown : (get entries "id").bind Json.asStr = some id := congrArg (·.bind Json.asStr) hid
    simp only [hmarked, hciphertext, hown, hdecrypt]
    refine ⟨_, rfl, ?_⟩
    simp only [Json.get]
    rw [get_remove_of_ne (by decide), get_insert_self]
  | _ => cases htext

/-- A document that shows the mark, the claims and the identifier is decrypted. -/
theorem decryptCredentialClaims_of_stores {shown : Json}
    (hcred : isCredentialsCollection collection = true)
    (h : ctx.Stores masterKey collection id data claims)
    (hmark : shown.get "encrypted" = data.get "encrypted")
    (hclaims : shown.get "claims" = data.get "claims")
    (hid : ∀ text, data.get "claims" = some (.str text) → shown.get "id" = some (.str id)) :
    ∃ out, ctx.decryptCredentialClaims shown = .ok out ∧
      ∀ value, claims = some value → out.get "claims" = some value := by
  have hflags := flaggedEncrypted_congr hmark
  unfold Context.Stores at h
  rw [if_pos hcred] at h
  cases claims with
  | none =>
    have hflag : ¬ FlaggedEncrypted shown := fun hflag => h (hflags.mp hflag)
    exact ⟨_, decryptCredentialClaims_unmarked hflag, nofun⟩
  | some value =>
    obtain ⟨hflag, text, htext, hdecrypt⟩ := h
    obtain ⟨out, hout, hvalue⟩ := decryptCredentialClaims_marked hkey (hflags.mpr hflag)
      (hclaims.trans htext) (hid text htext) hdecrypt
    refine ⟨out, hout, ?_⟩
    intro other hother
    rwa [← Option.some.inj hother]

/-- Claims of credentials are decrypted, if the projection lets it; others are in the clear. -/
theorem reveal_of_stores {createdAt updatedAt : String}
    (h : ctx.Stores masterKey collection id data claims)
    (hdoc : rowToDocument id (.ok data) createdAt updatedAt = .ok doc)
    {fields : Option (List String)} (hfields : Context.ReadableProjection collection fields) :
    ∃ out, ctx.reveal collection (project fields doc) = .ok out ∧
      (∀ value, claims = some value → kept fields "claims" = true →
        out.get "claims" = some value) := by
  have hget : ∀ key, key ∉ systemFields → kept fields key = true →
      (project fields doc).get key = data.get key := by
    intro key hkey hkept
    rw [get_project, if_pos hkept, get_rowToDocument hdoc hkey]
  unfold reveal
  by_cases hcred : isCredentialsCollection collection = true
  · rw [if_pos hcred]
    rcases hfields hcred with ⟨hkept, hmarker, hid⟩ | ⟨hno, hnoMarker⟩
    · -- nothing that decryption needs is left out
      have hown : ∀ text, data.get "claims" = some (.str text) →
          (project fields doc).get "id" = some (.str id) := by
        intro text htext
        rw [← get_rowToDocument hdoc (by decide)] at htext
        rw [get_project, if_pos hid]
        exact get_id_rowToDocument hdoc htext
      obtain ⟨out, hout, hvalue⟩ := decryptCredentialClaims_of_stores hkey hcred h
        (hget "encrypted" (by decide) hmarker) (hget "claims" (by decide) hkept) hown
      exact ⟨out, hout, fun value hclaims _ => hvalue value hclaims⟩
    · -- neither the claims nor the marker are shown
      have hflag : ¬ FlaggedEncrypted (project fields doc) := by
        have hnone : (project fields doc).get "encrypted" = none := by
          rw [get_project, hnoMarker]
          rfl
        simp [FlaggedEncrypted, hnone]
      refine ⟨_, decryptCredentialClaims_unmarked hflag, ?_⟩
      intro value _ hkept
      rw [hkept] at hno
      cases hno
  · unfold Context.Stores at h
    rw [if_neg hcred] at h ⊢
    refine ⟨_, rfl, ?_⟩
    rintro value rfl hkept
    rw [hget "claims" (by decide) hkept, h]

end Stored

/-! ## The invariant -/

/-- To remember what is known changes nothing. -/
theorem Observed.remember_of_eq {latest : String → String → Option Json}
    {collection id : String} {claims : Option Json} (h : latest collection id = claims) :
    remember latest collection id claims = latest := by
  funext c i
  unfold remember
  split
  · next hsame => rw [hsame.1, hsame.2, h]
  · rfl

/-- Every row stores the claims last written to it, and nothing is missing. -/
structure Sealed (ctx : Context) (masterKey : Bytes) (rows : List DocumentRow)
    (latest : String → String → Option Json) : Prop where
  valid : ∀ r ∈ rows, validateIdentifier r.collection = .ok ()
  stored : ∀ r ∈ rows, ∃ data, r.data = .ok data ∧
    ctx.Stores masterKey r.collection r.id data (latest r.collection r.id)
  present : ∀ collection id claims, latest collection id = some claims →
    ∃ r ∈ rows, r.collection = collection ∧ r.id = id

namespace Sealed

open Observed

variable {ctx : Context} {masterKey : Bytes} {rows : List DocumentRow}
  {latest : String → String → Option Json}

/-- Nothing is remembered under an identifier that no row has. -/
theorem latest_eq_none (h : Sealed ctx masterKey rows latest) {id : String}
    (hid : ∀ r ∈ rows, r.id ≠ id) (collection : String) : latest collection id = none := by
  cases hlatest : latest collection id with
  | none => rfl
  | some claims =>
    obtain ⟨r, hr, -, hsame⟩ := h.present collection id claims hlatest
    exact absurd hsame (hid r hr)

/-- At one place the row stores the new claims, and elsewhere the rows are the same. -/
theorem write (h : Sealed ctx masterKey rows latest) {rows' : List DocumentRow}
    {collection id : String} {claims : Option Json}
    (hrows : ∀ r ∈ rows', (r ∈ rows ∧ ¬ (r.collection = collection ∧ r.id = id)) ∨
      (r.collection = collection ∧ r.id = id ∧ validateIdentifier collection = .ok () ∧
        ∃ data, r.data = .ok data ∧ ctx.Stores masterKey collection id data claims))
    (hkept : ∀ r ∈ rows, ¬ (r.collection = collection ∧ r.id = id) → r ∈ rows')
    (hnew : claims ≠ none → ∃ r ∈ rows', r.collection = collection ∧ r.id = id) :
    Sealed ctx masterKey rows' (remember latest collection id claims) where
  valid r hr := by
    rcases hrows r hr with ⟨hold, -⟩ | ⟨rfl, -, hvalid, -⟩
    · exact h.valid r hold
    · exact hvalid
  stored r hr := by
    rcases hrows r hr with ⟨hold, hother⟩ | ⟨rfl, rfl, -, hstored⟩
    · simpa only [remember, if_neg hother] using h.stored r hold
    · simpa only [remember, and_self, if_true] using hstored
  present c i v hv := by
    unfold remember at hv
    split at hv
    · next hsame =>
      rw [hsame.1, hsame.2]
      exact hnew (by simp [hv])
    · next hother =>
      obtain ⟨r, hr, rfl, rfl⟩ := h.present c i v hv
      exact ⟨r, hkept r hr hother, rfl, rfl⟩

theorem insert (h : Sealed ctx masterKey rows latest) {row : DocumentRow} {data : Json}
    {claims : Option Json} (hfresh : ∀ r ∈ rows, r.id ≠ row.id)
    (hvalid : validateIdentifier row.collection = .ok ()) (hdata : row.data = .ok data)
    (hstores : ctx.Stores masterKey row.collection row.id data claims) :
    Sealed ctx masterKey (rows ++ [row]) (remember latest row.collection row.id claims) := by
  refine h.write (fun r hr => ?_) (fun r hr _ => List.mem_append_left _ hr)
    fun _ => ⟨row, by simp, rfl, rfl⟩
  rcases List.mem_append.mp hr with hold | hnew
  · exact .inl ⟨hold, fun hsame => hfresh r hold hsame.2⟩
  · obtain rfl := List.mem_singleton.mp hnew
    exact .inr ⟨rfl, rfl, hvalid, data, hdata, hstores⟩

theorem overwrite {t : Documents} (h : Sealed ctx masterKey t.rows latest)
    {now collection id : String} {data : Json} {claims : Option Json}
    (hstores : ctx.Stores masterKey collection id data claims)
    (hrow : ∃ r ∈ t.rows, r.collection = collection ∧ r.id = id) :
    Sealed ctx masterKey (overwrite now data collection id t).rows
      (remember latest collection id claims) := by
  refine h.write (fun r' hr' => ?_) (fun r hr hother => ?_) fun _ => ?_
  · obtain ⟨r, hr, ⟨rfl, hid, rfl⟩ | ⟨hother, rfl⟩⟩ := mem_overwrite.mp hr'
    · exact .inr ⟨rfl, hid, h.valid r hr, data, rfl, hstores⟩
    · exact .inl ⟨hr, hother⟩
  · exact mem_overwrite.mpr ⟨r, hr, .inr ⟨hother, rfl⟩⟩
  · obtain ⟨r, hr, hc, hi⟩ := hrow
    exact ⟨_, mem_overwrite.mpr ⟨r, hr, .inl ⟨hc, hi, rfl⟩⟩, hc, hi⟩

theorem delete {t : Documents} (h : Sealed ctx masterKey t.rows latest)
    (collection id : String) :
    Sealed ctx masterKey (t.deleteWhere (isAt collection id)).rows
      (remember latest collection id none) := by
  have hmem : ∀ r, r ∈ (t.deleteWhere (isAt collection id)).rows ↔
      r ∈ t.rows ∧ ¬ (r.collection = collection ∧ r.id = id) := by
    intro r
    rw [← isAt_iff]
    simp [Table.deleteWhere]
  exact h.write (fun r hr => .inl ((hmem r).mp hr)) (fun r hr hother => (hmem r).mpr ⟨hr, hother⟩)
    (absurd rfl)

end Sealed

/-! ## Steps and runs -/

/-- The nonce of the call has the size that the cipher asks for. -/
def StoreCall.DrawsNonce : StoreCall → Prop
  | .write call => call.nonce.length = nonceSize
  | .delete .. => True

section Steps

variable {ctx : Context} {env : AdapterEnv} {masterKey : Bytes}

/-- The store returns the identifier of the row, unless the document is no object and has no claims.
-/
theorem id_of_created {draw : Draw} {doc stored : Json}
    (h : rowToDocument (documentId draw.uuid doc) (.ok (stripSystemFields doc)) draw.now
      draw.now = .ok stored) :
    (stored.get "id").bind Json.asStr = some (documentId draw.uuid doc) ∨
      (stored.get "id").bind Json.asStr = none ∧ ∀ key, doc.get key = none := by
  cases doc with
  | obj fields =>
    left
    cases h
    simp only [Json.get]
    rw [get_insert_of_ne (by decide), get_insert_of_ne (by decide), get_insert_self]
    rfl
  | _ =>
    right
    cases h
    exact ⟨rfl, fun _ => rfl⟩

theorem claims_eq_none_of_filled {timeText : Timestamp → String} {draw : DocDraw}
    {document : Json}
    (h : (injectSystemFieldsCreate timeText draw document).get "created_at" = none) :
    document.get "claims" = none := by
  cases document with
  | obj fields =>
    simp only [injectSystemFieldsCreate, Json.get] at h
    rw [get_insert_of_ne (by decide), get_insert_self] at h
    cases h
  | _ => rfl

/-- Over the rows and the map, the invariant of an observed run. -/
def Observed.Sealed (ctx : Context) (masterKey : Bytes) (o : Observed) : Prop :=
  StorageContext.Sealed ctx masterKey o.rows o.latest

variable {o : Observed} {draw : DocDraw} {caller : CallerIdentity} {collection id : String}
  {document : Json} {pluginScoped : Bool}

/-- A call that leaves the table as it was. -/
theorem sealed_of_table_eq (h : o.Sealed ctx masterKey) {state : ContextState AdapterState}
    (htable : state.router.table = o.state.router.table) :
    Observed.Sealed ctx masterKey ⟨state, o.latest⟩ := by
  unfold Observed.Sealed rows
  rw [htable]
  exact h

theorem sealed_delete (h : o.Sealed ctx masterKey) :
    (ctx.observe env o (.delete caller collection id pluginScoped)).Sealed ctx masterKey := by
  simp only [observe]
  rcases houtcome : docDelete (adapterStore env) o.state caller collection id
    pluginScoped with ⟨result, state⟩
  rcases docDelete_cases houtcome with
    ⟨htable, -, e, rfl⟩ | ⟨resolved, hresolve, rfl, hdelete, -⟩
  · exact sealed_of_table_eq h htable
  · simp only [after, namedPlace, hresolve]
    unfold Observed.Sealed rows
    rw [(delete_ok hdelete).1]
    exact Sealed.delete h resolved id

variable (hkey : ctx.credentialMasterKey = some masterKey) (hcipher : LawfulCipher ctx.cipher)
include hkey hcipher

/-- The row of a written document stores its claims. -/
theorem stores_filled (call : DocCall) (hnonce : call.nonce.length = nonceSize) {doc : Json}
    {resolved id : String}
    (hprotect : ctx.protect call.nonce resolved (ctx.filled call) = .ok doc)
    (hsound : isCredentialsCollection resolved = true → ¬ FlaggedEncrypted call.document ∧
      ∀ claims, call.document.get "claims" = some claims →
        ∀ other, ((ctx.filled call).get "id").bind Json.asStr = some other → other = id) :
    ctx.Stores masterKey resolved id (stripSystemFields doc) (call.document.get "claims") := by
  have hclaims : (ctx.filled call).get "claims" = call.document.get "claims" :=
    get_filled call (by decide)
  rw [← hclaims]
  refine Context.Stores.congr (stores_of_protect hkey hcipher hnonce hprotect ?_)
    (get_stripSystemFields doc (by decide)) (get_stripSystemFields doc (by decide))
  intro hcred
  obtain ⟨hflag, hid⟩ := hsound hcred
  rw [flaggedEncrypted_filled, hclaims]
  exact ⟨hflag, hid⟩

theorem sealed_create (hnonce : draw.nonce.length = nonceSize)
    (hsound : ctx.SoundCall env o (.write (.create draw caller collection document pluginScoped)))
    (h : o.Sealed ctx masterKey) :
    (ctx.observe env o
      (.write (.create draw caller collection document pluginScoped))).Sealed ctx masterKey := by
  simp only [observe]
  rcases houtcome : ctx.docCreate (adapterStore env).toDocRouter draw o.state caller collection
    document pluginScoped with ⟨e | stored, state⟩
  · exact sealed_of_table_eq h (docCreate_error houtcome)
  obtain ⟨resolved, doc, haccepted, hprotect, hcreate⟩ := docCreate_ok houtcome
  obtain ⟨hvalid, hrows, hfresh, hread⟩ := create_ok hcreate
  have hown : ∀ other, ((injectSystemFieldsCreate ctx.timeText draw document).get "id").bind
      Json.asStr = some other → other = documentId o.state.router.draw.uuid doc := by
    intro other hother
    rw [← get_protect hprotect (by decide)] at hother
    simp [documentId, hother]
  have hstores := stores_filled hkey hcipher
    (.create draw caller collection document pluginScoped) hnonce hprotect fun hcred =>
      ⟨(hsound resolved haccepted hcred).1, fun _ _ => hown⟩
  have hnew : ∀ r ∈ o.rows, r.id ≠ (newRow env o.state.router.draw resolved doc).id := by
    intro r hr heq
    exact hfresh (List.mem_map.mpr ⟨r, hr, heq⟩)
  have hinsert : StorageContext.Sealed ctx masterKey state.router.table.rows
      (remember o.latest resolved (documentId o.state.router.draw.uuid doc)
        (document.get "claims")) := by
    rw [hrows]
    exact h.insert hnew hvalid rfl hstores
  have hplace : createdPlace caller collection pluginScoped stored =
      ((stored.get "id").bind Json.asStr).map fun id => (resolved, id) := by
    rw [createdPlace, resolve_of_acceptCreate haccepted]
    cases (stored.get "id").bind Json.asStr <;> rfl
  rcases id_of_created hread with hid | ⟨hid, hnone⟩
  · rw [hid] at hplace
    simp only [after, hplace]
    exact hinsert
  · rw [hid] at hplace
    simp only [after, hplace]
    -- there was nothing at the new place, and there are no claims to remember
    have hdocument : document.get "claims" = none := by
      apply claims_eq_none_of_filled
      rw [← get_protect hprotect (by decide)]
      exact hnone "created_at"
    have hlatest : o.latest resolved (documentId o.state.router.draw.uuid doc) = none :=
      h.latest_eq_none hnew resolved
    rw [hdocument, remember_of_eq hlatest] at hinsert
    exact hinsert

theorem sealed_update (hnonce : draw.nonce.length = nonceSize)
    (hsound : ctx.SoundCall env o
      (.write (.update draw caller collection id document pluginScoped)))
    (h : o.Sealed ctx masterKey) :
    (ctx.observe env o
      (.write (.update draw caller collection id document pluginScoped))).Sealed ctx masterKey := by
  simp only [observe]
  rcases houtcome : ctx.docUpdate (adapterStore env).toDocRouter draw o.state caller collection
    id document pluginScoped with ⟨e | stored, state⟩
  · exact sealed_of_table_eq h (docUpdate_error houtcome)
  obtain ⟨resolved, doc, haccepted, hprotect, hupdate⟩ := docUpdate_ok houtcome
  obtain ⟨htable, hrow⟩ := update_ok hupdate
  have hget : (injectSystemFieldsUpdate ctx.timeText draw document).get "id" =
      document.get "id" := get_injectSystemFieldsUpdate ctx.timeText draw document (by decide)
  have hstores : ctx.Stores masterKey resolved id (stripSystemFields doc)
      (document.get "claims") := by
    refine stores_filled hkey hcipher (.update draw caller collection id document pluginScoped)
      hnonce hprotect ?_
    simp only [Context.filled, hget]
    exact hsound resolved haccepted
  simp only [after, namedPlace, resolve_of_acceptUpdate haccepted]
  unfold Observed.Sealed rows
  rw [htable]
  exact Sealed.overwrite h hstores hrow

theorem sealed_observe {call : StoreCall} (hnonce : call.DrawsNonce)
    (hsound : ctx.SoundCall env o call)
    (h : o.Sealed ctx masterKey) : (ctx.observe env o call).Sealed ctx masterKey := by
  cases call with
  | write call =>
    cases call with
    | create draw caller collection document pluginScoped =>
      exact sealed_create hkey hcipher hnonce hsound h
    | update draw caller collection id document pluginScoped =>
      exact sealed_update hkey hcipher hnonce hsound h
  | delete caller collection id pluginScoped => exact sealed_delete h

theorem sealed_run {calls : List StoreCall} (hnonce : ∀ call ∈ calls, call.DrawsNonce)
    (hsound : EveryStep (ctx.observe env) (ctx.SoundCall env) o calls)
    (h : o.Sealed ctx masterKey) :
    (run (ctx.observe env) o calls).Sealed ctx masterKey := by
  induction calls generalizing o with
  | nil => exact h
  | cons call rest ih =>
    obtain ⟨hfirst, hrest⟩ := everyStep_cons.mp hsound
    refine ih (fun other hother => hnonce other (List.mem_cons_of_mem call hother)) hrest ?_
    exact sealed_observe hkey hcipher (hnonce call List.mem_cons_self) hfirst h

end Steps

/-! ## Reads -/

section Reads

variable {ctx : Context} {env : AdapterEnv} {masterKey : Bytes}

/-- The statement returns rows of the collection bound to the first placeholder. -/
def LawfulRows (env : AdapterEnv) : Prop :=
  ∀ collection filter sort limit offset rows result,
    env.queryRows (querySql env.toJsonEnv filter sort limit offset)
      (bindValues env.toJsonEnv collection filter) rows = .ok result →
    ∀ r ∈ result, r ∈ rows ∧ r.collection = collection

variable (hkey : ctx.credentialMasterKey = some masterKey) {o : Observed}
  (h : o.Sealed ctx masterKey)
include hkey h

theorem getReadsBack_of_sealed : ctx.GetReadsBack env o := by
  intro caller collection pluginScoped resolved id claims hcapability hresolve hlatest
  obtain ⟨r, hr, rfl, rfl⟩ := h.present resolved id claims hlatest
  obtain ⟨data, hdata, hstores⟩ := h.stored r hr
  obtain ⟨doc, hdoc⟩ := rowToDocument_ok r.id data r.createdAt r.updatedAt
  have hget : (adapterStore env).docGet o.state.router r.collection r.id = .ok doc := by
    have hrow := get_of_mem hr (h.valid r hr)
    rw [hdata, hdoc] at hrow
    exact hrow
  have hall : Context.ReadableProjection r.collection none := fun _ => .inl ⟨rfl, rfl, rfl⟩
  obtain ⟨out, hout, hclaims⟩ := reveal_of_stores hkey hstores hdoc hall
  refine ⟨out, ?_, hclaims claims hlatest rfl⟩
  simp only [docGet, hcapability, hresolve, bind, Except.bind, hget]
  exact hout

/-- Reading and decrypting the fetched rows, one by one. -/
theorem revealAll_of_sealed {resolved : String} {fields : Option (List String)}
    (hfields : Context.ReadableProjection resolved fields) {rows : List DocumentRow}
    (hrows : ∀ r ∈ rows, r ∈ o.rows ∧ r.collection = resolved) :
    ∃ documents list, readRows fields rows = .ok documents ∧
      ctx.revealAll resolved documents = .ok list ∧
      List.Forall₂ (fun r doc => ∀ claims, o.latest resolved r.id = some claims →
        kept fields "claims" = true → doc.get "claims" = some claims) rows list := by
  induction rows with
  | nil => exact ⟨[], [], rfl, rfl, .nil⟩
  | cons r rest ih =>
    obtain ⟨hr, hcollection⟩ := hrows r List.mem_cons_self
    obtain ⟨data, hdata, hstores⟩ := h.stored r hr
    obtain ⟨doc, hdoc⟩ := rowToDocument_ok r.id data r.createdAt r.updatedAt
    rw [hcollection] at hstores
    obtain ⟨out, hout, hclaims⟩ := reveal_of_stores hkey hstores hdoc hfields
    obtain ⟨documents, list, hdocuments, hlist, hall⟩ :=
      ih fun other hother => hrows other (List.mem_cons_of_mem r hother)
    refine ⟨project fields doc :: documents, out :: list, ?_, ?_, .cons hclaims hall⟩
    · simp only [readRows, hdata, hdoc, hdocuments, bind, Except.bind, pure, Except.pure]
    · simp only [revealAll, hout, hlist, bind, Except.bind, pure, Except.pure]

theorem queryReadsBack_of_sealed (hrows : LawfulRows env)
    {caller : CallerIdentity} {descriptor : QueryDescriptor} {pluginScoped : Bool}
    (hfields : ∀ resolved,
      resolveCollection caller descriptor.collection pluginScoped = .ok resolved →
      Context.ReadableProjection resolved descriptor.fields) :
    ctx.QueryReadsBack env o caller descriptor pluginScoped := by
  intro resolved page hcapability hresolve hpage
  have hin : ∀ r ∈ page.rows, r ∈ o.rows ∧ r.collection = resolved := by
    simp only [fetchPage, bind_eq_ok_iff, mapError_eq_ok_iff] at hpage
    obtain ⟨_, -, total, -, offset, -, rows, hquery, hpage⟩ := hpage
    cases hpage
    exact hrows _ _ _ _ _ _ _ hquery
  obtain ⟨documents, list, hdocuments, hlist, hall⟩ :=
    revealAll_of_sealed hkey h (hfields resolved hresolve) hin
  have hquery : (adapterStore env).docQuery o.state.router
      { descriptor with collection := resolved } =
        .ok ⟨documents, page.totalCount, nextCursor env page⟩ := by
    simp only [adapterStore, query, hpage, hdocuments, bind, Except.bind, pure, Except.pure]
  refine ⟨⟨list, page.totalCount, nextCursor env page⟩, ?_, hall⟩
  simp [docQuery, hcapability, hresolve, bind, Except.bind, hquery, hlist, pure, Except.pure]

end Reads

/-- From an empty store, if no write of credentials claims to be encrypted or carries another
identifier than its row, reads return the claims last written, and so do queries whose projection
leaves decryption what it needs. -/
theorem claims_read_back (ctx : Context) (env : AdapterEnv) (masterKey : Bytes)
    (hkey : ctx.credentialMasterKey = some masterKey) (hcipher : LawfulCipher ctx.cipher)
    (hrows : LawfulRows env) (draws : Nat → Draw) (calls : List StoreCall)
    (hnonce : ∀ call ∈ calls, call.DrawsNonce)
    (hsound : EveryStep (ctx.observe env) (ctx.SoundCall env) (start draws) calls) :
    ctx.GetReadsBack env (run (ctx.observe env) (start draws) calls) ∧
      ∀ caller descriptor pluginScoped,
        (∀ resolved,
          resolveCollection caller descriptor.collection pluginScoped = .ok resolved →
          Context.ReadableProjection resolved descriptor.fields) →
        ctx.QueryReadsBack env (run (ctx.observe env) (start draws) calls) caller
          descriptor pluginScoped := by
  have hsealed := sealed_run hkey hcipher hnonce hsound
    ⟨fun _ h => (by cases h), fun _ h => (by cases h), fun _ _ _ h => (by cases h)⟩
  refine ⟨getReadsBack_of_sealed hkey hsealed, ?_⟩
  intro caller descriptor pluginScoped hfields
  exact queryReadsBack_of_sealed hkey hsealed hrows hfields

/-! ## One credential -/

/-- Puts the key before the plaintext, and serialises one value only. -/
def stampCipher : CipherEnv where
  hkdf salt key _ := salt ++ key
  aesEncrypt key _ plaintext := .ok (key ++ plaintext)
  aesDecrypt key _ ciphertext :=
    if key.isPrefixOf ciphertext then .ok (ciphertext.drop key.length)
    else .error "aead::Error"
  base64Encode := latinText
  base64Decode text := .ok (latinBytes text)
  jsonBytes json := if json = passwordClaims then .ok [1] else .error "unsupported"
  parseBytes bytes := if bytes = [1] then .ok passwordClaims else .error "unsupported"

theorem stampCipher_lawful : LawfulCipher stampCipher where
  aesDecrypt_aesEncrypt key nonce plaintext ciphertext h := by
    cases h
    simp [stampCipher]
  base64Decode_base64Encode bytes := by
    simp [stampCipher, latinBytes_latinText]
  parseBytes_jsonBytes json bytes h := by
    simp only [stampCipher] at h ⊢
    split at h
    · next hjson =>
      cases h
      rw [hjson]
      rfl
    · cases h

theorem plainAdapter_lawfulRows : LawfulRows plainAdapter := by
  intro collection filter sort limit offset rows result h r hr
  cases h
  obtain ⟨hmem, hcollection⟩ := List.mem_filter.mp hr
  refine ⟨hmem, ?_⟩
  cases filter <;> simpa [bindValues, eq_comm] using hcollection

def stampContext : Context :=
  { markedContext with cipher := stampCipher }

def mailCaller : CallerIdentity :=
  .plugin "mail" [.docRead, .docWrite] []

/-- The plugin creates a credential with the identifier `c1`. -/
def storeC1 : StoreCall :=
  .write (.create ⟨1, 2, 0, List.replicate 12 9⟩ mailCaller "credentials"
    (.obj [("claims", passwordClaims), ("id", .str "c1")]) true)

/-- The update names the identifier `c2`. -/
def renameC1 : StoreCall :=
  .write (.update ⟨1, 2, 0, List.replicate 12 9⟩ mailCaller "credentials" "c1"
    (.obj [("claims", passwordClaims), ("id", .str "c2")]) true)

def credentialQuery (fields : Option (List String)) : QueryDescriptor where
  collection := "credentials"
  filter := none
  sort := []
  pagination := ⟨100, none⟩
  fields := fields
  textSearch := none

def emptyVault : Observed :=
  start fun _ => ⟨1, "now"⟩

theorem storeC1_sound :
    EveryStep (stampContext.observe plainAdapter) (stampContext.SoundCall plainAdapter)
      emptyVault [storeC1] := by
  rw [everyStep_cons]
  refine ⟨?_, everyStep_nil _ _⟩
  intro resolved _ _
  simp [FlaggedEncrypted, DocCall.document, Json.get, get_cons]

theorem claims_read_back_c1 :
    LawfulCipher stampContext.cipher ∧ LawfulRows plainAdapter ∧
      stampContext.GetReadsBack plainAdapter
        (run (stampContext.observe plainAdapter) emptyVault [storeC1]) :=
  ⟨stampCipher_lawful, plainAdapter_lawfulRows,
    (claims_read_back stampContext plainAdapter [7] rfl stampCipher_lawful
      plainAdapter_lawfulRows (fun _ => ⟨1, "now"⟩) [storeC1]
      (by
        intro call hcall
        rw [List.mem_singleton.mp hcall]
        rfl) storeC1_sound).1⟩

/-- A projection to the claims returns the ciphertext, and after an update that names another
identifier the credential cannot be read. -/
theorem not_claims_read_back :
    LawfulCipher stampContext.cipher ∧ LawfulRows plainAdapter ∧
      ¬ stampContext.QueryReadsBack plainAdapter
        (run (stampContext.observe plainAdapter) emptyVault [storeC1]) mailCaller
        (credentialQuery (some ["claims"])) true ∧
      ¬ stampContext.GetReadsBack plainAdapter
        (run (stampContext.observe plainAdapter) emptyVault [storeC1, renameC1]) := by
  refine ⟨stampCipher_lawful, plainAdapter_lawfulRows, ?_, ?_⟩
  · intro h
    obtain ⟨list, hlist, hall⟩ := h "mail.credentials"
      ⟨1, 100, 0, (run (stampContext.observe plainAdapter) emptyVault [storeC1]).rows⟩
      (by decide) (by decide +kernel) (by decide +kernel)
    -- the one document shows the nonce, the key and the plaintext of the cipher
    have hshown : (stampContext.docQuery (adapterStore plainAdapter)
        (run (stampContext.observe plainAdapter) emptyVault [storeC1]).state mailCaller
        (credentialQuery (some ["claims"])) true).map DocumentList.documents =
          .ok [.obj [("claims", .str (latinText (List.replicate 12 9 ++ [99, 49, 7, 1])))]] := by
      decide +kernel
    rw [hlist] at hshown
    have hdocuments : list.documents =
        [.obj [("claims", .str (latinText (List.replicate 12 9 ++ [99, 49, 7, 1])))]] :=
      Except.ok.inj hshown
    rw [hdocuments] at hall
    obtain ⟨r, rest, hclaims, -, hrows⟩ := List.forall₂_cons_right_iff.mp hall
    have hids : (run (stampContext.observe plainAdapter) emptyVault [storeC1]).rows.map
        DocumentRow.id = ["c1"] := by
      decide +kernel
    have hid : r.id = "c1" := by
      simp only at hrows
      rw [hrows] at hids
      exact (List.cons.inj hids).1
    have hsame := hclaims passwordClaims (by rw [hid]; decide +kernel) (by decide)
    simp [Json.get, get_cons, passwordClaims] at hsame
  · intro h
    obtain ⟨doc, hdoc, -⟩ := h mailCaller "credentials" true "mail.credentials" "c1"
      passwordClaims (by decide) (by decide +kernel) (by decide +kernel)
    have hfailed : stampContext.docGet (adapterStore plainAdapter)
        (run (stampContext.observe plainAdapter) emptyVault [storeC1, renameC1]).state mailCaller
        "credentials" "c1" true = .error
          (.internal "credential decryption failed: decryption failed: aead::Error") := by
      decide +kernel
    rw [hfailed] at hdoc
    cases hdoc

end LifeEngine.StorageContext
