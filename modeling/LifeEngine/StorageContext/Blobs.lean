import LifeEngine.StorageContext.Context
import LifeEngine.Support.Fallible
import LifeEngine.Support.Text

/-!
# Blob operations

The blob operations of `StorageContext` check a capability and hand the key or
prefix on to the blob adapter.  The adapter keeps one blob per key.  The main
result says for which operations a plugin stays within the blobs whose key starts
with its own id.
-/

namespace LifeEngine.StorageContext

open Support

/-! ## Keys -/

/-- The checks of `BlobKey::new`, in order. -/
def checkBlobKey (key : String) : Except StorageError Unit :=
  if key.toList.head? = some '/' then
    .error (.validationFailed "blob key must not start with '/'" (some "key"))
  else if ['.', '.'] <:+: key.toList then
    .error (.validationFailed "blob key must not contain '..'" (some "key"))
  else if (key.toList.splitOn '/').length < 3 then
    .error (.validationFailed
      "blob key must have at least 3 segments (plugin_id/context/filename)" (some "key"))
  else if (key.toList.splitOn '/').any (fun segment => segment.isEmpty) then
    .error (.validationFailed "blob key must not contain empty segments" (some "key"))
  else .ok ()

/-- `plugin_id/context/filename`, as `BlobKey::new` checks it. -/
structure BlobKey where
  asStr : String
  valid : checkBlobKey asStr = .ok ()
  deriving DecidableEq

/-- The text before the first `/`. -/
def firstSegment (text : String) : String :=
  String.ofList (firstField '/' text.toList)

theorem checkBlobKey_ok_iff (key : String) :
    checkBlobKey key = .ok () ↔
      key.toList.head? ≠ some '/' ∧ ¬ ['.', '.'] <:+: key.toList ∧
        3 ≤ (key.toList.splitOn '/').length ∧
        ∀ segment ∈ key.toList.splitOn '/', segment ≠ [] := by
  unfold checkBlobKey
  by_cases hslash : key.toList.head? = some '/'
  · simp [hslash]
  by_cases hdots : ['.', '.'] <:+: key.toList
  · simp [hslash, hdots]
  by_cases hlen : (key.toList.splitOn '/').length < 3
  · simp [hslash, hdots, hlen]
  by_cases hempty : [] ∈ key.toList.splitOn '/'
  · simp [hslash, hdots, hlen, hempty]
  · have hall : ∀ segment ∈ key.toList.splitOn '/', segment ≠ [] :=
      fun segment hmem he => hempty (he ▸ hmem)
    simpa [hslash, hdots, hempty, Nat.le_of_not_lt hlen] using hall

/-! ## The adapter -/

structure BlobInput where
  data : Bytes
  contentType : Option String
  metadata : List (String × String)

structure BlobMeta where
  key : String
  sizeBytes : Nat
  contentType : String
  checksum : String
  createdAt : Timestamp
  metadata : List (String × String)

/-- The digest of the data, and a content type for blobs without one. -/
structure BlobEnv where
  checksum : Bytes → String
  detectContentType : BlobKey → Bytes → String

/-- What `store` writes about a blob. -/
def storedMeta (env : BlobEnv) (key : BlobKey) (input : BlobInput) (createdAt : Timestamp) :
    BlobMeta where
  key := key.asStr
  sizeBytes := input.data.length
  contentType := input.contentType.getD (env.detectContentType key input.data)
  checksum := env.checksum input.data
  createdAt := createdAt
  metadata := input.metadata

/-- The check of `retrieve` for the stored digest. -/
def checkBlob (env : BlobEnv) (key : BlobKey) (data : Bytes) (info : BlobMeta) :
    Except StorageError (Bytes × BlobMeta) :=
  if env.checksum data ≠ info.checksum then
    .error (.internal ("checksum mismatch for " ++ key.asStr ++ ": expected " ++
      info.checksum ++ ", got " ++ env.checksum data))
  else .ok (data, info)

abbrev BlobStore := List (BlobKey × Bytes × BlobMeta)

namespace BlobStore

def lookup (blobs : BlobStore) (key : BlobKey) : Option (Bytes × BlobMeta) :=
  (blobs.find? (fun blob => blob.1 = key)).map Prod.snd

def blobNotFound (key : BlobKey) : StorageError :=
  .notFound "blob" key.asStr

/-- `store`: a blob stored again keeps its creation time. -/
def store (env : BlobEnv) (now : Timestamp) (blobs : BlobStore) (key : BlobKey)
    (input : BlobInput) : BlobMeta × BlobStore :=
  let info := storedMeta env key input
    (((blobs.lookup key).map (fun blob => blob.2.createdAt)).getD now)
  (info, (key, input.data, info) :: blobs.filter (fun blob => blob.1 ≠ key))

def retrieve (env : BlobEnv) (blobs : BlobStore) (key : BlobKey) :
    Except StorageError (Bytes × BlobMeta) :=
  match blobs.lookup key with
  | none => .error (blobNotFound key)
  | some (data, info) => checkBlob env key data info

def delete (blobs : BlobStore) (key : BlobKey) : Except StorageError BlobStore :=
  match blobs.lookup key with
  | none => .error (blobNotFound key)
  | some _ => .ok (blobs.filter (fun blob => blob.1 ≠ key))

def exist (blobs : BlobStore) (key : BlobKey) : Bool :=
  (blobs.lookup key).isSome

/-- `list`: the blobs whose keys start with the given text. -/
def list (blobs : BlobStore) (start : String) : BlobStore :=
  blobs.filter (fun blob => start.toList.isPrefixOf blob.1.asStr.toList)

def metadata (blobs : BlobStore) (key : BlobKey) : Except StorageError BlobMeta :=
  match blobs.lookup key with
  | none => .error (blobNotFound key)
  | some (_, info) => .ok info

end BlobStore

/-! ## The operations of the context -/

section Operations

variable (env : BlobEnv) (caller : CallerIdentity)

def blobRetrieve (key : BlobKey) (blobs : BlobStore) :
    Except StorageError (Bytes × BlobMeta) := do
  checkCapability caller .blobRead
  blobs.retrieve env key

def blobExists (key : BlobKey) (blobs : BlobStore) : Except StorageError Bool := do
  checkCapability caller .blobRead
  return blobs.exist key

def blobList (start : String) (blobs : BlobStore) :
    Except StorageError (List BlobMeta) := do
  checkCapability caller .blobRead
  return (blobs.list start).map (fun blob => blob.2.2)

def blobMetadata (key : BlobKey) (blobs : BlobStore) :
    Except StorageError BlobMeta := do
  checkCapability caller .blobRead
  blobs.metadata key

/-- The metadata, the new state and the audit event. -/
def blobStore (now : Timestamp) (key : BlobKey) (input : BlobInput)
    (blobs : BlobStore) : Except StorageError (BlobMeta × BlobStore × AuditEvent) := do
  checkCapability caller .blobWrite
  let (info, blobs') := blobs.store env now key input
  return (info, blobs',
    ⟨"system.blob.stored", origin caller, .obj [("key", .str key.asStr)]⟩)

def blobDelete (key : BlobKey) (blobs : BlobStore) :
    Except StorageError (BlobStore × AuditEvent) := do
  checkCapability caller .blobDelete
  let blobs' ← blobs.delete key
  return (blobs',
    ⟨"system.blob.deleted", origin caller, .obj [("key", .str key.asStr)]⟩)

end Operations

/-! ## Isolation between plugins -/

inductive BlobOp where
  | retrieve (key : BlobKey)
  | exist (key : BlobKey)
  | list (start : String)
  | metadata (key : BlobKey)
  | store (now : Timestamp) (key : BlobKey) (input : BlobInput)
  | delete (key : BlobKey)

inductive BlobReply where
  | blob (data : Bytes) (info : BlobMeta)
  | found (answer : Bool)
  | infos (infos : List BlobMeta)
  | info (info : BlobMeta)
  | deleted

namespace BlobOp

/-- The capability that the operation asks for. -/
def capability : BlobOp → StorageCapability
  | retrieve _ | exist _ | list _ | metadata _ => .blobRead
  | store _ _ _ => .blobWrite
  | delete _ => .blobDelete

/-- Perform the call: the reply and the blobs afterwards. -/
def perform (env : BlobEnv) (caller : CallerIdentity) (blobs : BlobStore) :
    BlobOp → Except StorageError (BlobReply × BlobStore)
  | retrieve key => (blobRetrieve env caller key blobs).map
      fun blob => (.blob blob.1 blob.2, blobs)
  | exist key => (blobExists caller key blobs).map
      fun answer => (.found answer, blobs)
  | list start => (blobList caller start blobs).map
      fun infos => (.infos infos, blobs)
  | metadata key => (blobMetadata caller key blobs).map
      fun info => (.info info, blobs)
  | store now key input => (blobStore env caller now key input blobs).map
      fun result => (.info result.1, result.2.1)
  | delete key => (blobDelete caller key blobs).map
      fun result => (.deleted, result.1)

/-- The keys that the call reads, lists, writes or removes. -/
def touched (blobs : BlobStore) : BlobOp → List BlobKey
  | list start => (blobs.list start).map Prod.fst
  | retrieve key | exist key | metadata key | store _ key _ | delete key => [key]

end BlobOp

open BlobOp

/-- The blobs whose first key segment is `pluginId`. -/
def BlobStore.own (pluginId : String) (blobs : BlobStore) : BlobStore :=
  blobs.filter (fun blob => firstSegment blob.1.asStr = pluginId)

def BlobStore.foreign (pluginId : String) (blobs : BlobStore) : BlobStore :=
  blobs.filter (fun blob => firstSegment blob.1.asStr ≠ pluginId)

/-- A call that succeeds touches only blobs of the plugin, leaves the others, and replies the same
whatever they are. -/
def BlobIsolated (env : BlobEnv) (caller : CallerIdentity) (pluginId : String)
    (op : BlobOp) (blobs : BlobStore) : Prop :=
  ∀ reply blobs', op.perform env caller blobs = .ok (reply, blobs') →
    (∀ key ∈ op.touched blobs, firstSegment key.asStr = pluginId) ∧
    blobs'.foreign pluginId = blobs.foreign pluginId ∧
    ∀ blobs₂ : BlobStore, blobs₂.own pluginId = blobs.own pluginId →
      ∃ blobs₂', op.perform env caller blobs₂ = .ok (reply, blobs₂')

/-- No key can start with this text. -/
def NoKeyStart (start : String) : Prop :=
  start.toList.head? = some '/' ∨ ['.', '.'] <:+: start.toList ∨
    ['/', '/'] <:+: start.toList

/-- The key has the plugin id as its first segment. A text to list by fixes that segment, or no key
starts with it. -/
def BlobOp.Within (pluginId : String) : BlobOp → Prop
  | .list start =>
    ('/' ∈ start.toList ∧ firstSegment start = pluginId) ∨ NoKeyStart start
  | .retrieve key | .exist key | .metadata key | .store _ key _ | .delete key =>
    firstSegment key.asStr = pluginId

/-! ### Keys that start with a given text -/

theorem firstSegment_eq_iff (text name : String) :
    firstSegment text = name ↔ firstField '/' text.toList = name.toList := by
  rw [← String.toList_inj]
  simp [firstSegment]

variable {start pluginId : String} {op : BlobOp}

theorem not_prefix_of_noKeyStart (h : NoKeyStart start) (key : BlobKey) :
    ¬ start.toList <+: key.asStr.toList := by
  intro hstart
  obtain ⟨hslash, hdots, -, hsegments⟩ := (checkBlobKey_ok_iff key.asStr).mp key.valid
  obtain ⟨-, -, -, hchain⟩ := (fields_nonempty_iff _ _).mp hsegments
  rcases h with h | h | h
  · apply hslash
    obtain ⟨rest, hrest⟩ := hstart
    rw [← hrest]
    cases hchars : start.toList with
    | nil => simp [hchars] at h
    | cons c cs => simpa [hchars] using h
  · exact hdots (h.trans hstart.isInfix)
  · exact (not_pair_infix_iff_isChain _ _ _).mpr hchain (h.trans hstart.isInfix)

/-- Any other text extends to a key, by a tail with segments of its own. -/
theorem checkBlobKey_append {tail : String} (h : ¬ NoKeyStart start)
    (hhead : ∃ c, tail.toList.head? = some c ∧ c ≠ '/' ∧ c ≠ '.')
    (htail : checkBlobKey tail = .ok ()) :
    checkBlobKey (start ++ tail) = .ok () := by
  simp only [NoKeyStart, not_or] at h
  obtain ⟨hslash, hdots, hpair⟩ := h
  obtain ⟨c, hc, hcslash, hcdot⟩ := hhead
  obtain ⟨-, htdots, htlen, htsegments⟩ := (checkBlobKey_ok_iff tail).mp htail
  obtain ⟨htne, -, htlast, htchain⟩ := (fields_nonempty_iff _ _).mp htsegments
  rw [not_pair_infix_iff_isChain] at hdots hpair htdots
  have hnotslash : (start ++ tail).toList.head? ≠ some '/' := by
    rw [String.toList_append]
    cases hchars : start.toList with
    | nil => simpa [hc] using hcslash
    | cons x xs => simpa [hchars] using hslash
  rw [checkBlobKey_ok_iff, fields_nonempty_iff, not_pair_infix_iff_isChain]
  rw [String.toList_append] at *
  refine ⟨hnotslash, ?_, ?_, by simp [htne], hnotslash, ?_, ?_⟩
  · refine List.isChain_append.mpr ⟨hdots, htdots, ?_⟩
    intro x _ y hy
    have hyc : c = y := by simpa [hc] using hy
    exact fun hxy => hcdot (hyc.trans hxy.2)
  · rw [length_splitOn] at htlen ⊢
    rw [List.count_append]
    omega
  · rw [List.getLast?_append_of_ne_nil _ htne]
    exact htlast
  · refine List.isChain_append.mpr ⟨hpair, htchain, ?_⟩
    intro x _ y hy
    have hyc : c = y := by simpa [hc] using hy
    exact fun hxy => hcslash (hyc.trans hxy.2)

/-- A text that does not fix the first segment starts the key of another plugin. -/
theorem exists_foreign_key (h : ¬ (list start).Within pluginId) :
    ∃ key : BlobKey, start.toList <+: key.asStr.toList ∧ firstSegment key.asStr ≠ pluginId := by
  simp only [BlobOp.Within, not_or] at h
  obtain ⟨hfirst, hkey⟩ := h
  have hvalid : ∀ tail : String,
      (∃ c, tail.toList.head? = some c ∧ c ≠ '/' ∧ c ≠ '.') →
      checkBlobKey tail = .ok () → checkBlobKey (start ++ tail) = .ok () :=
    fun tail => checkBlobKey_append hkey
  -- Two tails: one of them may complete the first segment to just the plugin id.
  have hkey₁ := hvalid "x/y/z" ⟨'x', by decide⟩ (by decide)
  have hkey₂ := hvalid "xx/y/z" ⟨'x', by decide⟩ (by decide)
  by_cases hslash : '/' ∈ start.toList
  · refine ⟨⟨_, hkey₁⟩, by simp, ?_⟩
    have hne : firstSegment start ≠ pluginId := fun he => hfirst ⟨hslash, he⟩
    rw [Ne, firstSegment_eq_iff] at hne ⊢
    rwa [String.toList_append, firstField_append_of_mem hslash]
  · by_cases hid : start.toList ++ ['x'] = pluginId.toList
    · refine ⟨⟨_, hkey₂⟩, by simp, ?_⟩
      rw [Ne, firstSegment_eq_iff, String.toList_append, firstField_append_of_not_mem hslash, ← hid]
      simp [firstField]
    · refine ⟨⟨_, hkey₁⟩, by simp, ?_⟩
      rw [Ne, firstSegment_eq_iff, String.toList_append, firstField_append_of_not_mem hslash]
      simpa [firstField] using hid

/-! ### The calls on the adapter -/

/-- The call behind the capability check. -/
def BlobOp.onAdapter (env : BlobEnv) (blobs : BlobStore) :
    BlobOp → Except StorageError (BlobReply × BlobStore)
  | .retrieve key => (blobs.retrieve env key).map
      fun blob => (.blob blob.1 blob.2, blobs)
  | .exist key => .ok (.found (blobs.exist key), blobs)
  | .list start => .ok (.infos ((blobs.list start).map (fun blob => blob.2.2)), blobs)
  | .metadata key => (blobs.metadata key).map fun info => (.info info, blobs)
  | .store now key input =>
    .ok (.info (blobs.store env now key input).1, (blobs.store env now key input).2)
  | .delete key => (blobs.delete key).map fun blobs' => (.deleted, blobs')

variable (env : BlobEnv)

theorem perform_eq_onAdapter {caller : CallerIdentity}
    (hcap : caller.Holds op.capability) (blobs : BlobStore) :
    op.perform env caller blobs = op.onAdapter env blobs := by
  have hcheck : checkCapability caller op.capability = .ok () := hcap
  cases op with
  | retrieve key | exist key | list start | metadata key =>
    simp only [capability] at hcheck
    simp [perform, onAdapter, blobRetrieve, blobExists, blobList,
      blobMetadata, hcheck, bind, Except.bind, pure, Except.pure, Except.map]
  | store now key input =>
    simp only [capability] at hcheck
    simp [perform, onAdapter, blobStore, hcheck, bind, Except.bind, pure, Except.pure, Except.map]
  | delete key =>
    simp only [capability] at hcheck
    simp only [perform, onAdapter, blobDelete, hcheck]
    cases blobs.delete key <;> rfl

theorem perform_denied {caller : CallerIdentity}
    (hcap : ¬ caller.Holds op.capability) (blobs : BlobStore) (result : BlobReply × BlobStore) :
    op.perform env caller blobs ≠ .ok result := by
  cases hcheck : checkCapability caller op.capability with
  | ok u => exact absurd hcheck hcap
  | error e =>
    cases op <;> simp only [capability] at hcheck <;>
      simp [perform, blobRetrieve, blobExists, blobList, blobMetadata,
        blobStore, blobDelete, hcheck, bind, Except.bind, Except.map]

/-! ### Own and foreign blobs -/

theorem lookup_eq_of_own_eq {blobs blobs₂ : BlobStore}
    (hown : blobs₂.own pluginId = blobs.own pluginId) {key : BlobKey}
    (hkey : firstSegment key.asStr = pluginId) :
    blobs₂.lookup key = blobs.lookup key := by
  have hlookup : ∀ b : BlobStore, b.lookup key = (b.own pluginId).lookup key := by
    intro b
    simp only [BlobStore.lookup, BlobStore.own, List.find?_filter]
    congr 2
    funext blob
    by_cases hblob : blob.1 = key
    · simp [hblob, hkey]
    · simp [hblob]
  rw [hlookup blobs₂, hown, ← hlookup]

theorem list_eq_list_own
    (hstart : ∀ key : BlobKey, start.toList <+: key.asStr.toList →
      firstSegment key.asStr = pluginId)
    (blobs : BlobStore) :
    blobs.list start = (blobs.own pluginId).list start := by
  simp only [BlobStore.list, BlobStore.own, List.filter_filter]
  apply List.filter_congr
  intro blob _
  by_cases hblob : start.toList <+: blob.1.asStr.toList
  · simp [hstart blob.1 hblob]
  · have hfalse : start.toList.isPrefixOf blob.1.asStr.toList = false :=
      Bool.eq_false_iff.mpr fun h => hblob (List.isPrefixOf_iff_prefix.mp h)
    simp [hfalse]

theorem foreign_filter_ne {key : BlobKey} (hkey : firstSegment key.asStr = pluginId)
    (blobs : BlobStore) :
    BlobStore.foreign pluginId (blobs.filter (fun blob => blob.1 ≠ key)) =
      blobs.foreign pluginId := by
  simp only [BlobStore.foreign, List.filter_filter]
  apply List.filter_congr
  intro blob _
  by_cases hblob : blob.1 = key
  · simp [hblob, hkey]
  · simp [hblob]

theorem touched_own_of_within (h : op.Within pluginId) (blobs : BlobStore) :
    ∀ key ∈ op.touched blobs, firstSegment key.asStr = pluginId := by
  intro key hkey
  cases op with
  | list start =>
    obtain ⟨blob, hblob, rfl⟩ := List.mem_map.mp hkey
    have hstart : start.toList <+: blob.1.asStr.toList := by
      simpa using (List.mem_filter.mp hblob).2
    rcases h with ⟨hslash, hfirst⟩ | hnone
    · obtain ⟨rest, hrest⟩ := hstart
      rw [firstSegment_eq_iff] at hfirst ⊢
      rw [← hrest, firstField_append_of_mem hslash, hfirst]
    · exact absurd hstart (not_prefix_of_noKeyStart hnone blob.1)
  | retrieve own | exist own | metadata own | store now own input | delete own =>
    obtain rfl : key = own := by simpa [touched] using hkey
    exact h

theorem foreign_of_within {env : BlobEnv} (h : op.Within pluginId) {blobs blobs' : BlobStore}
    {reply : BlobReply} (hrun : op.onAdapter env blobs = .ok (reply, blobs')) :
    blobs'.foreign pluginId = blobs.foreign pluginId := by
  cases op with
  | retrieve key | metadata key =>
    obtain ⟨_, -, hpair⟩ := map_eq_ok_iff.mp hrun
    rw [(Prod.mk.inj hpair).2]
  | exist key | list start =>
    rw [(Prod.mk.inj (Except.ok.inj hrun)).2]
  | store now key input =>
    have hkey : firstSegment key.asStr = pluginId := h
    rw [← (Prod.mk.inj (Except.ok.inj hrun)).2, ← foreign_filter_ne hkey blobs]
    simp [BlobStore.store, BlobStore.foreign, hkey]
  | delete key =>
    obtain ⟨kept, hdelete, hpair⟩ := map_eq_ok_iff.mp hrun
    rw [← (Prod.mk.inj hpair).2]
    unfold BlobStore.delete at hdelete
    split at hdelete
    · cases hdelete
    · rw [← Except.ok.inj hdelete, foreign_filter_ne h]

/-- The reply depends on the plugin's own blobs only. -/
theorem reply_of_within (h : op.Within pluginId) {blobs blobs₂ : BlobStore}
    (hown : blobs₂.own pluginId = blobs.own pluginId) :
    (op.onAdapter env blobs₂).map Prod.fst = (op.onAdapter env blobs).map Prod.fst := by
  cases op with
  | retrieve key =>
    have hsame : blobs₂.retrieve env key = blobs.retrieve env key := by
      rw [BlobStore.retrieve, BlobStore.retrieve, lookup_eq_of_own_eq hown h]
    rw [onAdapter, onAdapter, hsame]
    cases blobs.retrieve env key <;> rfl
  | exist key =>
    have hlookup := lookup_eq_of_own_eq hown h
    simp [onAdapter, BlobStore.exist, hlookup, Except.map]
  | list start =>
    have hstart : ∀ key : BlobKey, start.toList <+: key.asStr.toList →
        firstSegment key.asStr = pluginId := by
      intro key hstart
      refine touched_own_of_within h [(key, [], ⟨"", 0, "", "", 0, []⟩)] key ?_
      simpa [touched, BlobStore.list] using hstart
    simp only [onAdapter, Except.map]
    rw [list_eq_list_own hstart blobs₂, hown, ← list_eq_list_own hstart]
  | metadata key =>
    have hlookup := lookup_eq_of_own_eq hown h
    simp only [onAdapter, BlobStore.metadata, hlookup]
    cases blobs.lookup key <;> rfl
  | store now key input =>
    have hlookup := lookup_eq_of_own_eq hown h
    simp [onAdapter, BlobStore.store, hlookup, Except.map]
  | delete key =>
    have hlookup := lookup_eq_of_own_eq hown h
    simp only [onAdapter, BlobStore.delete, hlookup]
    cases blobs.lookup key <;> rfl

/-- Every other call succeeds on some store and touches a foreign blob there. -/
theorem exists_touches_foreign (h : ¬ op.Within pluginId) :
    ∃ blobs result, op.onAdapter env blobs = .ok result ∧
      ∃ key ∈ op.touched blobs, firstSegment key.asStr ≠ pluginId := by
  have hlookup : ∀ (key : BlobKey) (blob : Bytes × BlobMeta),
      BlobStore.lookup [(key, blob)] key = some blob := by
    simp [BlobStore.lookup]
  set info : BlobMeta := ⟨"", 0, "", env.checksum [], 0, []⟩ with hinfo
  cases op with
  | retrieve key =>
    have hrun : (retrieve key).onAdapter env [(key, [], info)] =
        .ok (.blob [] info, [(key, [], info)]) := by
      simp [onAdapter, BlobStore.retrieve, checkBlob, hlookup, hinfo, Except.map]
    exact ⟨_, _, hrun, key, by simp [touched], h⟩
  | exist key => exact ⟨[], _, rfl, key, by simp [touched], h⟩
  | list start =>
    obtain ⟨key, hstart, hforeign⟩ := exists_foreign_key h
    refine ⟨[(key, [], info)], _, rfl, key, ?_, hforeign⟩
    simpa [touched, BlobStore.list] using hstart
  | metadata key =>
    have hrun : (metadata key).onAdapter env [(key, [], info)] =
        .ok (.info info, [(key, [], info)]) := by
      simp [onAdapter, BlobStore.metadata, hlookup, Except.map]
    exact ⟨_, _, hrun, key, by simp [touched], h⟩
  | store now key input => exact ⟨[], _, rfl, key, by simp [touched], h⟩
  | delete key =>
    have hrun : (delete key).onAdapter env [(key, [], info)] = .ok (.deleted, []) := by
      simp [onAdapter, BlobStore.delete, hlookup, Except.map]
    exact ⟨_, _, hrun, key, by simp [touched], h⟩

/-- A call keeps to the plugin's own blobs on every store exactly when the plugin lacks the
capability or the key or prefix starts with its id. -/
theorem blobIsolated_iff (env : BlobEnv) (pluginId : String)
    (capabilities : List StorageCapability) (shared : List CollectionAccess)
    (op : BlobOp) :
    (∀ blobs, BlobIsolated env (.plugin pluginId capabilities shared) pluginId op
        blobs) ↔
      op.capability ∉ capabilities ∨ op.Within pluginId := by
  constructor
  · intro hisolated
    by_contra hnot
    obtain ⟨hcap, hwithin⟩ := not_or.mp hnot
    obtain ⟨blobs, ⟨reply, blobs'⟩, hrun, key, hkey, hforeign⟩ := exists_touches_foreign env hwithin
    have hholds : (CallerIdentity.plugin pluginId capabilities shared).Holds
        op.capability := holds_plugin_iff.mpr (not_not.mp hcap)
    rw [← perform_eq_onAdapter env hholds] at hrun
    exact hforeign ((hisolated blobs reply blobs' hrun).1 key hkey)
  · intro hcond blobs reply blobs' hrun
    by_cases hcap : op.capability ∈ capabilities
    · have hholds : (CallerIdentity.plugin pluginId capabilities shared).Holds
          op.capability := holds_plugin_iff.mpr hcap
      have hwithin : op.Within pluginId := hcond.resolve_left (not_not.mpr hcap)
      rw [perform_eq_onAdapter env hholds] at hrun
      refine ⟨touched_own_of_within hwithin blobs, foreign_of_within hwithin hrun, ?_⟩
      intro blobs₂ hown
      have hreply := reply_of_within env hwithin hown
      rw [perform_eq_onAdapter env hholds]
      cases hrun₂ : op.onAdapter env blobs₂ with
      | error e => simp [hrun₂, hrun, Except.map] at hreply
      | ok result =>
        obtain ⟨reply₂, blobs₂'⟩ := result
        simp only [hrun₂, hrun, Except.map, Except.ok.injEq] at hreply
        exact ⟨blobs₂', by rw [hreply]⟩
    · exact absurd hrun (perform_denied env
        (fun hholds => hcap (holds_plugin_iff.mp hholds)) blobs _)

/-- With `storage:blob:read`, plugin `b` reads the blob of plugin `a`. -/
theorem not_blobIsolated_retrieve :
    ¬ BlobIsolated ⟨fun _ => "", fun _ _ => ""⟩ (.plugin "b" [.blobRead] []) "b"
      (.retrieve ⟨"a/photos/1.png", by decide⟩)
      [(⟨"a/photos/1.png", by decide⟩, [7], ⟨"a/photos/1.png", 1, "image/png", "", 0, []⟩)] := by
  intro hisolated
  have hfirst := (hisolated (.blob [7] ⟨"a/photos/1.png", 1, "image/png", "", 0, []⟩)
    _ rfl).1 ⟨"a/photos/1.png", by decide⟩ (by simp [touched])
  exact absurd hfirst (by decide)

end LifeEngine.StorageContext
