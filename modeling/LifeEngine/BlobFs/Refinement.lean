import LifeEngine.BlobFs.Clashes
import Mathlib.Logic.Pairwise
import Mathlib.Data.Set.Pairwise.Basic

/-!
# The adapter keeps a map of blobs

`StorageContext` sees the adapter as a map from keys to blobs.  Here the adapter on a
disk is shown to be one for keys that do not clash: from an empty root directory, the
calls on such keys get the replies of `BlobStore`.  Listing is left out, as it walks
directories and not keys.
-/

namespace LifeEngine.BlobFs

open Support StorageContext Action AbsPath

/-! ## The two machines -/

/-- What is read back of metadata is what was written. -/
def FsEnv.RoundTrips (env : FsEnv) : Prop :=
  ∀ info, ∃ bytes, env.toVecPretty info = .ok bytes ∧ env.fromSlice bytes = .ok info

/-- The operation on the map; one that fails leaves it. -/
def mapStep (env : BlobEnv) (blobs : BlobStore) (op : BlobOp) :
    Except StorageError BlobReply × BlobStore :=
  let result := op.onAdapter env blobs
  (result.map Prod.fst, (result.toOption.map Prod.snd).getD blobs)

/-- An operation on a key of the set. -/
def OpOn (K : Set BlobKey) : BlobOp → Prop
  | .list _ => False
  | .retrieve key | .exist key | .metadata key | .store _ key _ | .delete key => key ∈ K

namespace FsBlobAdapter

variable (env : FsEnv) (a : FsBlobAdapter)

/-- The operation on the disk. -/
def diskStep (d : Disk) : BlobOp → Except StorageError BlobReply × Disk
  | .retrieve key => (exec (a.retrieve env key) d).map (·.map fun blob => .blob blob.1 blob.2) id
  | .exist key => (exec (a.exist key) d).map (·.map .found) id
  | .list start => (exec (a.list env start) d).map (·.map .infos) id
  | .metadata key => (exec (a.metadata env key) d).map (·.map .info) id
  | .store now key input => (exec (a.store env now key input) d).map (·.map .info) id
  | .delete key => (exec (a.delete key) d).map (·.map fun _ => .deleted) id

/-- What the map answers about a key. -/
def observeMap (blobs : BlobStore) (key : BlobKey) :
    Except StorageError (Bytes × BlobMeta) × Except StorageError Bool ×
      Except StorageError BlobMeta :=
  (blobs.retrieve env.toBlobEnv key, .ok (blobs.exist key), blobs.metadata key)

/-- The disk holds the blobs of the map. -/
structure Holds (K : Set BlobKey) (d : Disk) (blobs : BlobStore) : Prop where
  root : d.tree.node a.root = some .dir
  clear : ∀ key ∈ K, Unobstructed a key d
  seen : ∀ key ∈ K, a.observe env key d = observeMap env blobs key

/-- No key of the set is made of dots or clashes with another. -/
structure Apart (K : Set BlobKey) : Prop where
  named : ∀ key ∈ K, keyPlace key ≠ []
  pairwise : K.Pairwise fun key key' => ¬ a.Clash key key'

variable {env a} {key : BlobKey} {d d' : Disk} {blobs blobs' : BlobStore} {K : Set BlobKey}

/-! ## What is seen of a blob -/

theorem observe_missing (hd : Unobstructed a key d) (hkey : keyPlace key ≠ [])
    (hnone : ∀ p ∈ a.owned key, d.tree.node p = none) (hlookup : blobs.lookup key = none) :
    a.observe env key d = observeMap env blobs key := by
  have hread : ∀ p ∈ a.owned key, d.tree.read p = .error .notFound := by
    intro p hp
    refine FileTree.read_eq_notFound_iff.mpr ⟨hnone p hp, fun x hx => hd.above x ?_⟩
    exact (above_touched_iff hkey (a.owned_subset_touched hp).1).mp hx
  rw [observe_eq, hread _ (a.blobAt_mem_owned key), hread _ (a.metaAt_mem_owned key),
    (metaResult_eq_notFound_iff env).mpr rfl, FileTree.occupied, hnone _ (a.blobAt_mem_owned key)]
  simp only [observeMap, BlobStore.retrieve, BlobStore.exist, BlobStore.metadata, hlookup]
  rfl

theorem observe_found {data metaBytes : Bytes} {info : BlobMeta}
    (hblob : d.tree.node (a.blobAt key) = some (.file data))
    (hmeta : d.tree.node (a.metaAt key) = some (.file metaBytes))
    (hparse : env.fromSlice metaBytes = .ok info) (hlookup : blobs.lookup key = some (data, info)) :
    a.observe env key d = observeMap env blobs key := by
  have hinfo : a.metaResult env key (.ok metaBytes) = .ok info := by
    simp [metaResult, parseMeta, hparse, bind, Except.bind]
  rw [observe_eq, FileTree.read_eq_ok_iff.mpr hblob, FileTree.read_eq_ok_iff.mpr hmeta, hinfo,
    FileTree.occupied, hblob]
  simp only [blobResult, hinfo, observeMap, BlobStore.retrieve, BlobStore.exist,
    BlobStore.metadata, hlookup]
  rfl

theorem observeMap_congr (hlookup : blobs'.lookup key = blobs.lookup key) :
    observeMap env blobs' key = observeMap env blobs key := by
  simp only [observeMap, BlobStore.retrieve, BlobStore.exist, BlobStore.metadata, hlookup]

theorem lookup_filter_ne (blobs : BlobStore) (key key' : BlobKey) :
    BlobStore.lookup (blobs.filter fun blob => blob.1 ≠ key) key' =
      if key' = key then none else blobs.lookup key' := by
  simp only [BlobStore.lookup, List.find?_filter]
  by_cases heq : key' = key
  · subst heq
    simp
  · rw [if_neg heq]
    congr 2
    funext blob
    by_cases hblob : blob.1 = key'
    · simp [hblob, heq]
    · simp [hblob]

/-! ## One operation -/

theorem Apart.not_above (hK : a.Apart K) {key' : BlobKey} (hkey : key ∈ K) (hkey' : key' ∈ K)
    {w : Place} (hw : w ∈ a.touched key) : ¬ Above w (a.blobAt key') := by
  by_cases heq : key = key'
  · subst heq
    exact touched_not_above (hK.named key hkey) hw
  · intro habove
    have hblob := a.blobAt_mem_owned key'
    have hroot := root_above_touched (hK.named key' hkey') (a.owned_subset_touched hblob).1
    exact hK.pairwise hkey hkey' heq
      ⟨hK.named key hkey, _, hblob, hroot.2.symm, Or.inr (Or.inr ⟨w, hw, habove⟩)⟩

theorem Holds.files (h : Holds env a K d blobs) (hkey : key ∈ K) :
    d.tree.occupied (a.blobAt key) = (blobs.lookup key).isSome ∧
      a.metaResult env key (d.tree.read (a.metaAt key)) = blobs.metadata key := by
  have hseen := h.seen key hkey
  rw [observe_eq, observeMap, Prod.mk.injEq, Prod.mk.injEq] at hseen
  exact ⟨Except.ok.inj hseen.2.1, hseen.2.2⟩

/-- An action that leaves the tree leaves everything. -/
theorem Holds.look (h : Holds env a K d blobs) {α : Type} {x : BlobAction α}
    (hx : Respects (TreeChanges ∅ ∅) x) : Holds env a K (exec x d).2 blobs where
  root := (hx d).keepsDirs _ h.root
  clear key hkey := (h.clear key hkey).of_changes (hx d) (fun p _ => Set.notMem_empty p)
    fun p _ => Set.notMem_empty p
  seen key hkey := by
    rw [← h.seen key hkey]
    exact observe_of_changes env (hx d) fun q _ =>
      Or.inr ⟨Set.notMem_empty q, Set.notMem_empty q, fun w _ => Set.notMem_empty w⟩

/-- For a call that alters a key, only the answers about that key are left to show. -/
theorem Holds.alter (hK : a.Apart K) (h : Holds env a K d blobs) (hkey : key ∈ K) {call : Call}
    (hcall : call.Alters key)
    (hseen : Unobstructed a key (a.step env d call) →
      a.observe env key (a.step env d call) = observeMap env blobs' key)
    (hothers : ∀ key' ≠ key, blobs'.lookup key' = blobs.lookup key') :
    Holds env a K (a.step env d call) blobs' := by
  have hclear : ∀ key' ∈ K, Unobstructed a key' (a.step env d call) := by
    intro key' hkey'
    exact (h.clear key' hkey').of_changes (step_changes env a (hK.named key hkey) d hcall)
      (fun x hx hmem => hK.not_above hkey hkey' hmem hx)
      fun p hp hmem => hK.not_above hkey' hkey hp hmem
  refine ⟨a.step_keepsDirs env d call h.root, hclear, fun key' hkey' => ?_⟩
  by_cases heq : key' = key
  · rw [heq]
    exact hseen (hclear key hkey)
  · rw [observe_step_of_not_clash env (hK.pairwise hkey hkey' (Ne.symm heq)) h.root hcall,
      h.seen key' hkey', observeMap_congr (hothers key' heq)]

theorem createdAt_metadata (now : Timestamp) :
    createdAt now (blobs.metadata key) =
      ((blobs.lookup key).map fun blob => blob.2.createdAt).getD now := by
  rw [createdAt, BlobStore.metadata]
  cases blobs.lookup key <;> rfl

theorem Holds.store (henv : env.RoundTrips) (hK : a.Apart K) (h : Holds env a K d blobs)
    (hkey : key ∈ K) (now : Timestamp) (input : BlobInput) :
    (exec (a.store env now key input) d).1 =
        .ok (blobs.store env.toBlobEnv now key input).1 ∧
      Holds env a K (a.step env d (.store now key input))
        (blobs.store env.toBlobEnv now key input).2 := by
  have hinfo : (blobs.store env.toBlobEnv now key input).1 =
      storedMeta env.toBlobEnv key input
        (createdAt now (a.metaResult env key (d.tree.read (a.metaAt key)))) := by
    rw [(h.files hkey).2, createdAt_metadata]
    rfl
  obtain ⟨bytes, hbytes, hparse⟩ := henv (blobs.store env.toBlobEnv now key input).1
  obtain ⟨d', hexec, hwritten⟩ := exec_store_ok (hK.named key hkey) (h.clear key hkey) hinfo hbytes
  have hstep : a.step env d (.store now key input) = d' := congrArg Prod.snd hexec
  refine ⟨congrArg Prod.fst hexec, h.alter hK hkey rfl (fun _ => ?_) ?_⟩
  · rw [hstep]
    exact observe_found hwritten.blob hwritten.sidecar hparse (by
      simp [BlobStore.store, BlobStore.lookup])
  · intro key' hne
    have hrest := lookup_filter_ne blobs key key'
    rw [if_neg hne] at hrest
    rw [← hrest]
    simp [BlobStore.store, BlobStore.lookup, hne.symm]

theorem removeFile_clears {p : Place} (hp : d.tree.node p ≠ some .dir) (x : Place) :
    (exec (Fs.removeFile (ofNames p)) d).2.tree.node x =
      if x = p then none else d.tree.node x := by
  rcases hexec : exec (Fs.removeFile (ofNames p)) d with ⟨r, d'⟩
  rcases Fs.of_exec_change hexec with ⟨-, hok⟩ | ⟨e, -, herror, htree⟩
  · rw [resolve_ofNames] at hok
    obtain ⟨-, _, htree⟩ := FileTree.removeFile_eq_ok_iff.mp hok
    rw [htree, FileTree.node_eraseFile]
  · rw [htree]
    by_cases hx : x = p
    · have hnone : d.tree.node p = none := by
        by_contra hsome
        rw [resolve_ofNames, FileTree.removeFile_eq_ok_iff.mpr ⟨hsome, hp, rfl⟩] at herror
        cases herror
      rw [if_pos hx, hx, hnone]
    · rw [if_neg hx]

/-- A blob that is there is deleted with its sidecar. -/
theorem exec_delete_ok (hd : Unobstructed a key d)
    (hfound : d.tree.occupied (a.blobAt key) = true) :
    ∃ d', exec (a.delete key) d = (.ok (), d') ∧ ∀ p ∈ a.owned key, d'.tree.node p = none := by
  have hplaces : ∀ p ∈ a.owned key, d.tree.node p ≠ some .dir :=
    fun p hp => hd.places p (a.owned_subset_touched hp).1
  have hblob := hplaces _ (a.blobAt_mem_owned key)
  have hremove : d.tree.removeFile (a.blobPath key).resolve =
      .ok (d.tree.eraseFile (a.blobAt key) hblob) := by
    rw [blobPath_eq, resolve_ofNames]
    exact FileTree.removeFile_eq_ok_iff.mpr ⟨Option.isSome_iff_ne_none.mp hfound, hblob, rfl⟩
  rw [delete, exec_bind_ok (a.exec_occupied key d), if_pos hfound, Fs.removeFile,
    exec_bind_ok (exec_mapErr_ok (Fs.exec_change_ok hremove) _),
    exec_bind_ok (exec_attempt _ _)]
  refine ⟨_, rfl, fun p hp => ?_⟩
  rw [metaPath_eq, removeFile_clears ?_ p]
  · rcases List.mem_pair.mp hp with rfl | rfl <;> simp
  · by_cases heq : a.metaAt key = a.blobAt key
    · simp [heq]
    · simpa [heq] using hplaces _ (a.metaAt_mem_owned key)

theorem Holds.delete (hK : a.Apart K) (h : Holds env a K d blobs) (hkey : key ∈ K) :
    (exec (a.delete key) d).1 = (blobs.delete key).map (fun _ => ()) ∧
      Holds env a K (a.step env d (.delete key)) ((blobs.delete key).toOption.getD blobs) := by
  have hocc := (h.files hkey).1
  cases hlookup : blobs.lookup key with
  | none =>
    rw [hlookup, Option.isSome_none] at hocc
    have hdelete : blobs.delete key = .error (notFound key) := by
      rw [BlobStore.delete, hlookup]
      rfl
    have hlook := h.look (x := Fs.occupied (a.blobPath key))
      ((TreeChanges.fileRules ∅ ∅).occupied (Set.mem_univ _))
    rw [a.exec_occupied key d] at hlook
    rw [hdelete, FsBlobAdapter.step, FsBlobAdapter.delete, exec_bind_ok (a.exec_occupied key d),
      hocc]
    exact ⟨rfl, hlook⟩
  | some blob =>
    rw [hlookup, Option.isSome_some] at hocc
    have hdelete : blobs.delete key = .ok (blobs.filter fun blob => blob.1 ≠ key) := by
      rw [BlobStore.delete, hlookup]
    obtain ⟨d', hexec, hnone⟩ := exec_delete_ok (h.clear key hkey) hocc
    have hstep : a.step env d (.delete key) = d' := congrArg Prod.snd hexec
    rw [hdelete]
    refine ⟨congrArg Prod.fst hexec, h.alter hK hkey rfl (fun hclear => ?_) ?_⟩
    · rw [hstep] at hclear ⊢
      exact observe_missing hclear (hK.named key hkey) hnone
        ((lookup_filter_ne blobs key key).trans (if_pos rfl))
    · intro key' hne
      exact (lookup_filter_ne blobs key key').trans (if_neg hne)

/-- The disk replies as the map does, and goes on holding its blobs. -/
theorem Holds.step (henv : env.RoundTrips) (hK : a.Apart K) (h : Holds env a K d blobs)
    {op : BlobOp} (hop : OpOn K op) :
    (a.diskStep env d op).1 = (mapStep env.toBlobEnv blobs op).1 ∧
      Holds env a K (a.diskStep env d op).2 (mapStep env.toBlobEnv blobs op).2 := by
  have hrules := TreeChanges.fileRules ∅ ∅
  cases op with
  | list start => exact hop.elim
  | retrieve key =>
    have hreply : (exec (a.retrieve env key) d).1 = blobs.retrieve env.toBlobEnv key :=
      congrArg (fun answers => answers.1) (h.seen key hop)
    have hlook := h.look (x := a.retrieve env key) (hrules.retrieve env fun p _ => Set.mem_univ p)
    simp only [diskStep, mapStep, BlobOp.onAdapter, Prod.map, hreply]
    cases blobs.retrieve env.toBlobEnv key <;> exact ⟨rfl, hlook⟩
  | exist key =>
    have hreply : (exec (a.exist key) d).1 = .ok (blobs.exist key) :=
      congrArg (fun answers => answers.2.1) (h.seen key hop)
    have hlook := h.look (x := a.exist key) (hrules.occupied (Set.mem_univ _))
    simp only [diskStep, mapStep, BlobOp.onAdapter, Prod.map, hreply]
    exact ⟨rfl, hlook⟩
  | metadata key =>
    have hreply : (exec (a.metadata env key) d).1 = blobs.metadata key :=
      congrArg (fun answers => answers.2.2) (h.seen key hop)
    have hlook := h.look (x := a.metadata env key) (hrules.readMeta env (Set.mem_univ _))
    simp only [diskStep, mapStep, BlobOp.onAdapter, Prod.map, hreply]
    cases blobs.metadata key <;> exact ⟨rfl, hlook⟩
  | store now key input =>
    obtain ⟨hreply, hnext⟩ := h.store henv hK hop now input
    simp only [diskStep, mapStep, BlobOp.onAdapter, Prod.map, hreply]
    exact ⟨rfl, hnext⟩
  | delete key =>
    obtain ⟨hreply, hnext⟩ := h.delete hK hop
    simp only [diskStep, mapStep, BlobOp.onAdapter, Prod.map, hreply]
    cases hdelete : blobs.delete key <;> rw [hdelete] at hnext <;> exact ⟨rfl, hnext⟩

/-! ## Every run -/

theorem EmptyRoot.holds (hK : a.Apart K) (h : EmptyRoot a d.tree) : Holds env a K d [] := by
  refine ⟨h.root, fun key hkey => h.unobstructed (hK.named key hkey), fun key hkey => ?_⟩
  refine observe_missing (h.unobstructed (hK.named key hkey)) (hK.named key hkey) ?_ rfl
  intro p hp
  exact h.below p (root_above_touched (hK.named key hkey) (a.owned_subset_touched hp).1)

/-- From an empty root directory the adapter answers as a map from keys to blobs. -/
theorem replies_diskStep (henv : env.RoundTrips) (hK : a.Apart K) (hd : EmptyRoot a d.tree)
    {ops : List BlobOp} (hops : ∀ op ∈ ops, OpOn K op) :
    replies (a.diskStep env) d ops = replies (mapStep env.toBlobEnv) [] ops := by
  refine replies_eq (R := Holds env a K) ?_ (EmptyRoot.holds hK hd)
  intro op hmem d blobs h
  exact h.step henv hK (hops op hmem)

end FsBlobAdapter

end LifeEngine.BlobFs
