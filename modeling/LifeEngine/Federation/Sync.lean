import LifeEngine.Support.Machine
import LifeEngine.Sync.Primitives

/-!
# Pulling from a peer

`sync_with_peer` asks a peer for the changes of one collection after the other, applies
what it gets to the local storage and remembers the cursor of each answer.  The peer
may answer anything at any time, and the storage may be any storage.  A sync is a run
of pulls, one for each collection, and what is proved about syncs is proved about
single pulls.
-/

namespace LifeEngine.Federation

open Support Storage Sync

structure FederationPeer where
  id : String
  endpoint : String
  collections : List String

/-- What comes of a request for changes. -/
inductive PullAnswer where
  | unreachable (error : String)
  | errorStatus (status : Nat)
  | unparsable (error : String)
  | pulled (response : PullResponse)

structure SyncResult where
  peerId : String
  collectionsSynced : List String
  recordsPulled : Nat
  recordsPushed : Nat
  conflicts : Nat
  success : Bool
  error : Option String
  completedAt : Timestamp

/-- The client for the peer, the answers to requests, and the time at the end. -/
structure Network where
  client : Except String Unit
  answer : Nat → String → PullAnswer
  completedAt : Timestamp

/-- The cursors of the federation store, and the local storage. -/
structure SyncState (σ : Type) where
  cursors : SyncCursors
  storage : σ

/-- The collections of the peer that pass the filter. -/
def syncCollections (peer : FederationPeer) (filter : Option (List String)) : List String :=
  match filter with
  | some filter => peer.collections.filter fun c => filter.any fun f => f = c
  | none => peer.collections

def federationNamespace (peerId : String) : String :=
  "federation:" ++ peerId

variable {σ : Type} (storage : StorageAdapter σ) (encode : String → String)

def applyFederationChange (peerId : String) (change : ChangeRecord) : Action σ String Unit :=
  applyChange storage (federationNamespace peerId) change

/-- The changes of one answer, with the conflicts so far. -/
def applyChanges (peerId : String) : List ChangeRecord → Nat × σ → Nat × σ
  | [], acc => acc
  | change :: rest, (conflicts, s) =>
    match Action.exec (applyFederationChange storage peerId change) s with
    | (.ok (), s) => applyChanges peerId rest (conflicts, s)
    | (.error _, s) => applyChanges peerId rest (conflicts + 1, s)

/-- The changes since a cursor; `encode` is `urlencoding::encode`. -/
def changesUrl (peer : FederationPeer) (collection cursor : String) : String :=
  peer.endpoint ++ "/api/federation/changes/" ++ encode collection ++ "?since=" ++
    encode cursor

/-- The cursor that is sent, empty if there is none. -/
def SyncState.since (s : SyncState σ) (peerId collection : String) : String :=
  (s.cursors.get peerId collection).getD ""

def moveCursor (cursors : SyncCursors) (peerId collection cursor : String) : SyncCursors :=
  if cursor = "" then cursors else cursors.set peerId collection cursor

/-- What the loop over the collections counts. -/
structure Totals where
  pulled : Nat
  conflicts : Nat
  synced : List String

/-- The loop over the collections, at its `n`-th request. -/
def pullLoop (net : Network) (peer : FederationPeer) :
    Nat → List String → Totals → SyncState σ → Totals × SyncState σ
  | _, [], totals, s => (totals, s)
  | n, collection :: rest, totals, s =>
    match net.answer n (changesUrl encode peer collection (s.since peer.id collection)) with
    | .pulled response =>
      let (conflicts, stored) :=
        applyChanges storage peer.id response.changes (totals.conflicts, s.storage)
      pullLoop net peer (n + 1) rest
        ⟨totals.pulled + response.changes.length, conflicts, totals.synced ++ [collection]⟩
        ⟨moveCursor s.cursors peer.id collection response.cursor, stored⟩
    | .unreachable _ | .errorStatus _ | .unparsable _ =>
      pullLoop net peer (n + 1) rest totals s

def syncWithPeer (net : Network) (peer : FederationPeer) (filter : Option (List String))
    (s : SyncState σ) : SyncResult × SyncState σ :=
  let collections := syncCollections peer filter
  if collections = [] then
    (⟨peer.id, [], 0, 0, 0, true, none, net.completedAt⟩, s)
  else
    match net.client with
    | .error e =>
      (⟨peer.id, [], 0, 0, 0, false, some ("mTLS client build failed: " ++ e),
        net.completedAt⟩, s)
    | .ok () =>
      let (totals, s) := pullLoop storage encode net peer 0 collections ⟨0, 0, []⟩ s
      (⟨peer.id, totals.synced, totals.pulled, 0, totals.conflicts, true, none,
        net.completedAt⟩, s)

/-- A call of `sync_with_peer`. -/
structure SyncCall where
  peer : FederationPeer
  filter : Option (List String)
  net : Network

def syncStep (s : SyncState σ) (call : SyncCall) : SyncState σ :=
  (syncWithPeer storage encode call.net call.peer call.filter s).2

/-! ## Syncs as runs of pulls -/

/-- A request for a collection, and its answer. -/
structure Pull where
  peer : FederationPeer
  collection : String
  answer : String → PullAnswer

/-- The changes and the cursor of the answer, if it has any. -/
def Pull.response (s : SyncState σ) (pull : Pull) : Option PullResponse :=
  match pull.answer (changesUrl encode pull.peer pull.collection
      (s.since pull.peer.id pull.collection)) with
  | .pulled response => some response
  | .unreachable _ | .errorStatus _ | .unparsable _ => none

/-- The storage after a change of the peer. -/
abbrev federationStep (peerId : String) : σ → ChangeRecord → σ :=
  applyStep storage (federationNamespace peerId)

def pullStep (s : SyncState σ) (pull : Pull) : SyncState σ :=
  match pull.response encode s with
  | some response =>
    ⟨moveCursor s.cursors pull.peer.id pull.collection response.cursor,
      run (federationStep storage pull.peer.id) s.storage response.changes⟩
  | none => s

/-- The pulls for the collections, from the `n`-th request on. -/
def pullsFrom (net : Network) (peer : FederationPeer) : Nat → List String → List Pull
  | _, [] => []
  | n, collection :: rest => ⟨peer, collection, net.answer n⟩ :: pullsFrom net peer (n + 1) rest

def SyncCall.pulls (call : SyncCall) : List Pull :=
  match call.net.client with
  | .error _ => []
  | .ok () => pullsFrom call.net call.peer 0 (syncCollections call.peer call.filter)

theorem snd_applyChanges (peerId : String) (changes : List ChangeRecord) (conflicts : Nat)
    (s : σ) :
    (applyChanges storage peerId changes (conflicts, s)).2 =
      run (federationStep storage peerId) s changes := by
  induction changes generalizing conflicts s with
  | nil => rfl
  | cons change rest ih =>
    rw [run_cons, federationStep, applyStep]
    simp only [applyChanges, applyFederationChange]
    rcases Action.exec (applyChange storage (federationNamespace peerId) change) s with
      ⟨_ | _, s'⟩
    · exact ih (conflicts + 1) s'
    · exact ih conflicts s'

theorem snd_pullLoop (net : Network) (peer : FederationPeer) (n : Nat)
    (collections : List String) (totals : Totals) (s : SyncState σ) :
    (pullLoop storage encode net peer n collections totals s).2 =
      run (pullStep storage encode) s (pullsFrom net peer n collections) := by
  induction collections generalizing n totals s with
  | nil => rfl
  | cons collection rest ih =>
    rw [pullsFrom, run_cons, pullLoop, pullStep, Pull.response]
    dsimp only
    rcases net.answer n (changesUrl encode peer collection (s.since peer.id collection)) with
      e | status | e | response
    · exact ih (n + 1) totals s
    · exact ih (n + 1) totals s
    · exact ih (n + 1) totals s
    · rw [ih, snd_applyChanges]

/-- A sync is the run of its pulls. -/
theorem syncStep_eq_run (s : SyncState σ) (call : SyncCall) :
    syncStep storage encode s call = run (pullStep storage encode) s call.pulls := by
  obtain ⟨peer, filter, net⟩ := call
  simp only [syncStep, syncWithPeer, SyncCall.pulls]
  by_cases hempty : syncCollections peer filter = []
  · rw [hempty]
    rcases net.client with e | _ <;> rfl
  · rw [if_neg hempty]
    rcases net.client with e | _
    · rfl
    · exact snd_pullLoop storage encode net peer 0 _ _ s

theorem run_syncStep (s : SyncState σ) (calls : List SyncCall) :
    run (syncStep storage encode) s calls =
      run (pullStep storage encode) s (calls.flatMap SyncCall.pulls) := by
  induction calls generalizing s with
  | nil => rfl
  | cons call calls ih =>
    rw [run_cons, List.flatMap_cons, run_append, ih, syncStep_eq_run]

end LifeEngine.Federation
