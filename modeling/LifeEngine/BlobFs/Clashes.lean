import LifeEngine.BlobFs.Frame
import Mathlib.Data.List.Nodup

/-!
# Keys that clash

Where the files of one key meet those of another, some call on the first key
changes what is seen of the second.  Together with the frame this settles which
pairs of keys are independent of one another.
-/

namespace LifeEngine.BlobFs

open Support StorageContext Action List AbsPath FileTree

namespace FsBlobAdapter

/-! ## A successful write -/

variable {t : FileTree Name Bytes} {d : Disk}

/-- The operations of an atomic write on a tree. -/
theorem write_and_rename {dir : Place} {name tmp : Name} (hne : name ≠ tmp)
    (hfree : ∀ x, x <+: dir → t.isFile x = false) (hplace : t.node (dir ++ [name]) ≠ some .dir)
    (htmp : t.node (dir ++ [tmp]) ≠ some .dir) (data : Bytes) :
    ∃ t₁ t₂ t₃, t.createDirAll dir = .ok t₁ ∧ t₁.write (dir ++ [tmp]) data = .ok t₂ ∧
      t₂.renameFile (dir ++ [tmp]) (dir ++ [name]) = .ok t₃ ∧
      ∀ x, t₃.node x =
        if x = dir ++ [name] then some (.file data) else if x = dir ++ [tmp] then none
        else if x <+: dir then some .dir else t.node x := by
  have hbelow : ∀ n : Name, ¬ dir ++ [n] <+: dir := by
    intro n hpre
    have hlen := hpre.length_le
    rw [length_append, length_singleton] at hlen
    omega
  have hput : (t.putDirs dir).node (dir ++ [tmp]) ≠ some .dir ∧
      (t.putDirs dir).node (dir ++ [tmp]).dropLast = some .dir := by
    rw [dropLast_concat, node_putDirs, if_neg (hbelow tmp)]
    exact ⟨htmp, if_pos (prefix_refl dir)⟩
  have hnode₂ : ∀ x, ((t.putDirs dir).putFile (dir ++ [tmp]) data hput).node x =
      if x = dir ++ [tmp] then some (.file data)
      else if x <+: dir then some .dir else t.node x := by
    intro x
    rw [node_putFile, node_putDirs]
  have hmoved : ((t.putDirs dir).putFile (dir ++ [tmp]) data hput).node (dir ++ [name]) ≠
      some .dir := by
    have hnames : dir ++ [name] ≠ dir ++ [tmp] := by simpa using hne
    rw [hnode₂, if_neg hnames, if_neg (hbelow name)]
    exact hplace
  have hparent : ((t.putDirs dir).putFile (dir ++ [tmp]) data hput).node
      (dir ++ [name]).dropLast = some .dir := by
    rw [dropLast_concat, hnode₂, if_neg (by simp), if_pos (prefix_refl dir)]
  obtain ⟨t₃, hrename, hnode₃⟩ := renameFile_ok (b := data)
    (by rw [hnode₂, if_pos rfl]) hmoved hparent
  refine ⟨t.putDirs dir, _, t₃, createDirAll_eq_ok_iff.mpr ⟨hfree, rfl⟩,
    write_eq_ok_iff.mpr ⟨hput, rfl⟩, hrename, ?_⟩
  intro x
  rw [hnode₃, hnode₂]
  by_cases htmp : x = dir ++ [tmp] <;> simp [htmp]

theorem exec_atomicWrite_ok {dir : Place} {name : Name} {data : Bytes}
    {t₁ t₂ t₃ : FileTree Name Bytes} (hmkdir : d.tree.createDirAll dir = .ok t₁)
    (hwrite : t₁.write (dir ++ [name ++ tmpSuffix]) data = .ok t₂)
    (hrename : t₂.renameFile (dir ++ [name ++ tmpSuffix]) (dir ++ [name]) = .ok t₃) :
    ∃ d', exec (atomicWrite (ofNames (dir ++ [name])) data) d = (.ok (), d') ∧ d'.tree = t₃ := by
  have hparent : (ofNames (dir ++ [name])).parent = some (ofNames dir) := by
    rw [parent_ofNames (by simp), dropLast_concat]
  have hdir : exec (Fs.createDirAll (ofNames dir)) d = (.ok (), ⟨t₁, _⟩) :=
    Fs.exec_change_ok (by rw [resolve_ofNames, hmkdir])
  have hfile : ∀ log, exec (Fs.write (ofNames (dir ++ [name ++ tmpSuffix])) data)
      ⟨t₁, log⟩ = (.ok (), ⟨t₂, _⟩) :=
    fun log => Fs.exec_change_ok (by rw [resolve_ofNames, hwrite])
  have hmove : ∀ log, exec (Fs.rename (ofNames (dir ++ [name ++ tmpSuffix]))
      (ofNames (dir ++ [name]))) ⟨t₂, log⟩ = (.ok (), ⟨t₃, _⟩) :=
    fun log => Fs.exec_change_ok (by
      rw [resolve_ofNames, resolve_ofNames, hrename])
  unfold atomicWrite
  rw [hparent, okOr_some, exec_bind_ok (exec_ofResult _ d), withSuffix_ofNames, sibling_concat,
    exec_bind_ok (exec_mapErr_ok hdir _), exec_bind_ok (exec_mapErr_ok (hfile _) _),
    exec_attempt_bind (hmove _)]
  exact ⟨_, exec_pure _ _, rfl⟩

/-- A file was written through its temporary file. -/
structure Written (place : Place) (data : Bytes) (d d' : Disk) : Prop where
  file : d'.tree.node place = some (.file data)
  tmp : d'.tree.node (tmpOf place) = none
  dirs : ∀ x, Above x place → d'.tree.node x = some .dir
  others : ∀ x, x ≠ place → x ≠ tmpOf place → ¬ Above x place →
    d'.tree.node x = d.tree.node x

/-- A write succeeds if no file is above and no directory in its place. -/
theorem atomicWrite_ok {place : Place} (hne : place ≠ [])
    (hfree : ∀ x, Above x place → d.tree.isFile x = false)
    (hplace : d.tree.node place ≠ some .dir) (htmp : d.tree.node (tmpOf place) ≠ some .dir)
    (data : Bytes) :
    ∃ d', exec (atomicWrite (ofNames place) data) d = (.ok (), d') ∧ Written place data d d' := by
  obtain ⟨dir, name, rfl⟩ := (eq_nil_or_concat' place).resolve_left hne
  simp only [above_concat_iff] at hfree
  rw [tmpOf, sibling_concat] at htmp
  have hname : name ≠ name ++ tmpSuffix := by simp [tmpSuffix]
  obtain ⟨t₁, t₂, t₃, hmkdir, hwrite, hrename, hnode⟩ :=
    write_and_rename hname hfree hplace htmp data
  obtain ⟨d', hexec, rfl⟩ := exec_atomicWrite_ok hmkdir hwrite hrename
  have hnames : dir ++ [name ++ tmpSuffix] ≠ dir ++ [name] := by simp [tmpSuffix]
  refine ⟨d', hexec, ?_, ?_, ?_, ?_⟩
  · rw [hnode, if_pos rfl]
  · rw [tmpOf, sibling_concat, hnode, if_neg hnames, if_pos rfl]
  · intro x hx
    rw [above_concat_iff] at hx
    have hlen := hx.length_le
    have hbelow : ∀ n : Name, x ≠ dir ++ [n] := by
      rintro n rfl
      rw [length_append, length_singleton] at hlen
      omega
    rw [hnode, if_neg (hbelow _), if_neg (hbelow _), if_pos hx]
  · intro x hx hxtmp habove
    rw [tmpOf, sibling_concat] at hxtmp
    rw [above_concat_iff] at habove
    rw [hnode, if_neg hx, if_neg hxtmp, if_neg habove]

/-! ## A successful store -/

variable (env : FsEnv) {a : FsBlobAdapter} {key : BlobKey}

/-- Nothing is in the way of the files of a blob. -/
structure Unobstructed (a : FsBlobAdapter) (key : BlobKey) (d : Disk) : Prop where
  above : ∀ x, Above x (a.blobAt key) → d.tree.isFile x = false
  places : ∀ p ∈ a.touched key, d.tree.node p ≠ some .dir

/-- Nothing comes in the way unless a file is put above or a directory in place of one. -/
theorem Unobstructed.of_changes {T A : Set Place} {d' : Disk} (h : Unobstructed a key d)
    (hchanges : TreeChanges T A d d') (hT : ∀ x, Above x (a.blobAt key) → x ∉ T)
    (hA : ∀ p ∈ a.touched key, p ∉ A) : Unobstructed a key d' := by
  constructor
  · intro x hx
    rw [hchanges.isFile_eq (hT x hx)]
    exact h.above x hx
  · intro p hp hdir
    exact h.places p hp (hchanges.newDirs p (hA p hp) hdir)

/-- The files of a blob were written. -/
structure BlobWritten (a : FsBlobAdapter) (key : BlobKey) (data metaBytes : Bytes) (d d' : Disk) :
    Prop where
  blob : d'.tree.node (a.blobAt key) = some (.file data)
  sidecar : d'.tree.node (a.metaAt key) = some (.file metaBytes)
  tmps : ∀ p ∈ a.owned key, d'.tree.node (tmpOf p) = none
  dirs : ∀ x, Above x (a.blobAt key) → d'.tree.node x = some .dir
  others : ∀ x, x ∉ a.touched key → ¬ Above x (a.blobAt key) →
    d'.tree.node x = d.tree.node x

theorem BlobWritten.files {data metaBytes : Bytes} {d' : Disk}
    (h : BlobWritten a key data metaBytes d d') : ∀ p ∈ a.owned key, d'.tree.isFile p = true := by
  simp only [owned, mem_cons, not_mem_nil, or_false, forall_eq_or_imp, forall_eq]
  exact ⟨isFile_iff.mpr ⟨data, h.blob⟩, isFile_iff.mpr ⟨metaBytes, h.sidecar⟩⟩

theorem above_touched_iff (hkey : keyPlace key ≠ []) {p x : Place} (hp : p ∈ a.touched key) :
    Above x p ↔ Above x (a.blobAt key) := by
  have hne : a.blobAt key ≠ [] := by simp [blobAt, hkey]
  rw [above_iff_prefix_dropLast, above_iff_prefix_dropLast]
  simp only [touched, metaAt, tmpOf, mem_cons, not_mem_nil, or_false] at hp
  rcases hp with rfl | rfl | rfl | rfl
  · rfl
  · simp [hne]
  · simp [hne]
  · simp [hne]

theorem touched_not_above (hkey : keyPlace key ≠ []) {p : Place} (hp : p ∈ a.touched key) :
    ¬ Above p (a.blobAt key) :=
  fun habove => ((above_touched_iff hkey hp).mpr habove).2 rfl

/-- The four places of a store have names of different lengths. -/
theorem touched_nodup (a : FsBlobAdapter) (hkey : keyPlace key ≠ []) : (a.touched key).Nodup := by
  have hne : a.blobAt key ≠ [] := by simp [blobAt, hkey]
  obtain ⟨dir, name, hblob⟩ := (eq_nil_or_concat' (a.blobAt key)).resolve_left hne
  have hmeta : metaSuffix.length = 10 := rfl
  have htmp : tmpSuffix.length = 4 := rfl
  refine List.Nodup.of_map (fun p : Place => (p.getLast?.getD []).length) ?_
  simp only [touched, metaAt, tmpOf, hblob, sibling_concat, map_cons, map_nil,
    getLast?_concat, Option.getD_some, length_append, hmeta, htmp]
  simp only [nodup_cons, mem_cons, not_mem_nil, or_false, not_or,
    not_false_eq_true, nodup_nil, and_true]
  omega

theorem writeBoth_ok (hkey : keyPlace key ≠ []) (hd : Unobstructed a key d)
    (data metaBytes : Bytes) :
    ∃ d', exec (a.writeBoth key data metaBytes) d = (.ok (), d') ∧
      BlobWritten a key data metaBytes d d' := by
  have hne : a.blobAt key ≠ [] := by simp [blobAt, hkey]
  have hnodup := touched_nodup a hkey
  have hplaces := hd.places
  have hbeside := fun p => touched_not_above (a := a) (p := p) hkey
  have hmetaAbove : ∀ x, Above x (a.metaAt key) ↔ Above x (a.blobAt key) :=
    fun x => above_touched_iff hkey (a.owned_subset_touched (a.metaAt_mem_owned key)).1
  simp only [touched, nodup_cons, mem_cons, not_mem_nil, or_false, not_or, forall_eq_or_imp,
    forall_eq]
    at hnodup hplaces hbeside
  obtain ⟨⟨hblobTmp, hblobMeta, hblobMetaTmp⟩, ⟨htmpMeta, htmpMetaTmp⟩, hmetaTmp⟩ := hnodup
  obtain ⟨hdirBlob, hdirTmp, hdirMeta, hdirMetaTmp⟩ := hplaces
  obtain ⟨haboveBlob, haboveTmp, haboveMeta, haboveMetaTmp⟩ := hbeside
  obtain ⟨d₁, hexec₁, hwritten₁⟩ := atomicWrite_ok hne hd.above hdirBlob hdirTmp data
  have hfree₁ : ∀ x, Above x (a.metaAt key) → d₁.tree.isFile x = false := by
    intro x hx
    rw [FileTree.isFile, hwritten₁.dirs x ((hmetaAbove x).mp hx)]
  have hmeta₁ := hwritten₁.others _ (Ne.symm hblobMeta) (Ne.symm htmpMeta) haboveMeta
  have hmetaTmp₁ := hwritten₁.others _ (Ne.symm hblobMetaTmp) (Ne.symm htmpMetaTmp) haboveMetaTmp
  have hmetaNe : a.metaAt key ≠ [] := sibling_ne_nil _ _
  obtain ⟨d₂, hexec₂, hwritten₂⟩ := atomicWrite_ok hmetaNe hfree₁
    (by rwa [hmeta₁]) (by rwa [hmetaTmp₁]) metaBytes
  have hblob₂ := hwritten₂.others _ hblobMeta hblobMetaTmp fun h => haboveBlob ((hmetaAbove _).mp h)
  have htmp₂ := hwritten₂.others _ htmpMeta htmpMetaTmp fun h => haboveTmp ((hmetaAbove _).mp h)
  refine ⟨d₂, ?_, hblob₂.trans hwritten₁.file, hwritten₂.file, ?_, ?_, ?_⟩
  · rw [writeBoth, blobPath_eq, metaPath_eq, exec_bind_ok hexec₁, exec_attempt_bind hexec₂]
    rfl
  · simp only [owned, mem_cons, not_mem_nil, or_false, forall_eq_or_imp, forall_eq]
    exact ⟨htmp₂.trans hwritten₁.tmp, hwritten₂.tmp⟩
  · intro x hx
    exact hwritten₂.dirs x ((hmetaAbove x).mpr hx)
  · intro x hx habove
    simp only [touched, mem_cons, not_mem_nil, or_false, not_or] at hx
    rw [hwritten₂.others x hx.2.2.1 hx.2.2.2 fun h => habove ((hmetaAbove _).mp h),
      hwritten₁.others x hx.1 hx.2.1 habove]

/-- A store where nothing is in the way, once the metadata are JSON. -/
theorem exec_store_ok {env} (hkey : keyPlace key ≠ []) (hd : Unobstructed a key d)
    {now : Timestamp} {input : BlobInput} {info : BlobMeta} {bytes : Bytes}
    (hinfo : info = storedMeta env.toBlobEnv key input
      (createdAt now (a.metaResult env key (d.tree.read (a.metaAt key)))))
    (hbytes : env.toVecPretty info = .ok bytes) :
    ∃ d', exec (a.store env now key input) d = (.ok info, d') ∧
      BlobWritten a key input.data bytes d d' := by
  have hserial : serialiseMeta env info = .ok bytes := by
    rw [serialiseMeta, hbytes, mapError_ok]
  -- reading the old sidecar leaves the tree
  obtain ⟨d', hexec, hwritten⟩ := writeBoth_ok (d := { d with log := a.metaAt key :: d.log })
    hkey ⟨hd.above, hd.places⟩ input.data bytes
  refine ⟨d', ?_, hwritten.blob, hwritten.sidecar, hwritten.tmps, hwritten.dirs, hwritten.others⟩
  rw [store, exec_attempt_bind (exec_readMeta env a key d)]
  dsimp only
  rw [← hinfo, hserial, exec_bind_ok (exec_ofResult _ _), exec_bind_ok hexec]
  rfl

/-- Metadata can always be put into JSON. -/
def Serialises (env : FsEnv) : Prop :=
  ∀ info, ∃ bytes, env.toVecPretty info = .ok bytes

theorem store_ok (henv : Serialises env) (hkey : keyPlace key ≠ []) (hd : Unobstructed a key d)
    (now : Timestamp) (input : BlobInput) :
    ∃ bytes, BlobWritten a key input.data bytes d (a.step env d (.store now key input)) := by
  obtain ⟨bytes, hbytes⟩ := henv _
  obtain ⟨d', hexec, hwritten⟩ := exec_store_ok hkey hd rfl hbytes
  exact ⟨bytes, by rwa [step, hexec]⟩

/-! ## The empty root directory -/

/-- The root directory exists and holds nothing. -/
structure EmptyRoot (a : FsBlobAdapter) (t : FileTree Name Bytes) : Prop where
  root : t.node a.root = some .dir
  below : ∀ p, Above a.root p → t.node p = none

/-- A file system that holds nothing but the root directory. -/
def freshTree (a : FsBlobAdapter) : FileTree Name Bytes :=
  bare.putDirs a.root

theorem freshTree_emptyRoot (a : FsBlobAdapter) : EmptyRoot a a.freshTree := by
  constructor
  · rw [freshTree, node_putDirs, if_pos (prefix_refl _)]
  · intro p hp
    have hlt := hp.length_lt
    have hnot : ¬ p <+: a.root := fun hpre => absurd hpre.length_le (Nat.not_le_of_lt hlt)
    have hne : p ≠ [] := by
      rintro rfl
      simp at hlt
    rw [freshTree, node_putDirs, if_neg hnot]
    simp [bare, hne]

theorem EmptyRoot.isFile (h : EmptyRoot a t) {x q : Place} (hx : x <+: q) (hq : a.root <+: q) :
    t.isFile x = false := by
  rcases prefix_or_prefix_of_prefix hx hq with hxroot | hrootx
  · have hdir : t.node x = some .dir := by
      by_cases heq : x = a.root
      · rw [heq, h.root]
      · exact t.node_of_above (by simp [h.root]) ⟨hxroot, heq⟩
    rw [FileTree.isFile, hdir]
  · by_cases heq : a.root = x
    · rw [FileTree.isFile, ← heq, h.root]
    · rw [FileTree.isFile, h.below x ⟨hrootx, heq⟩]

theorem EmptyRoot.read (h : EmptyRoot a t) {q : Place} (hq : Above a.root q) :
    t.read q = .error .notFound :=
  read_eq_notFound_iff.mpr ⟨h.below q hq, fun _ hx => h.isFile hx.1 hq.1⟩

/-- What belongs to a key is below the root. -/
theorem root_above_touched (hkey : keyPlace key ≠ []) {p : Place} (hp : p ∈ a.touched key) :
    Above a.root p := by
  rw [above_touched_iff hkey hp]
  exact ⟨prefix_append _ _, by simpa [blobAt] using hkey⟩

theorem EmptyRoot.unobstructed (h : EmptyRoot a d.tree) (hkey : keyPlace key ≠ []) :
    Unobstructed a key d := by
  constructor
  · intro x hx
    exact h.isFile hx.1 (prefix_append _ _)
  · intro p hp
    rw [h.below p (root_above_touched hkey hp)]
    simp

/-! ## Seeing the difference -/

theorem metaResult_eq_notFound_iff {read : Except IoError Bytes} :
    a.metaResult env key read = .error (notFound key) ↔ read = .error .notFound := by
  rw [metaResult]
  cases read with
  | error e =>
    by_cases he : e = .notFound
    · simp [he, readError, bind, Except.bind]
    · simp [he, readError, notFound, internalError, bind, Except.bind]
  | ok bytes =>
    cases hparse : env.fromSlice bytes with
    | error e => simp [parseMeta, hparse, notFound, bind, Except.bind]
    | ok info => simp [parseMeta, hparse, bind, Except.bind]

/-- A blob is seen to change when something appears in the place of a file that was not found. -/
theorem observe_ne {q : Place} (hq : q ∈ a.owned key) {d' : Disk}
    (hread : d.tree.read q = .error .notFound) (hread' : d'.tree.read q ≠ .error .notFound) :
    a.observe env key d ≠ a.observe env key d' := by
  intro heq
  rw [observe_eq, observe_eq, Prod.mk.injEq, Prod.mk.injEq] at heq
  obtain ⟨hblob, hocc, hmeta⟩ := heq
  simp only [owned, mem_cons, not_mem_nil, or_false] at hq
  rcases hq with rfl | rfl
  · -- nothing is there before, so nothing is there after: only the error differs
    have hnone : d'.tree.node (a.blobAt key) = none := by
      have hbefore := (read_eq_notFound_iff.mp hread).1
      simpa [occupied, hbefore] using hocc
    have hblocked : d'.tree.read (a.blobAt key) = .error .notADirectory := by
      rw [FileTree.read, hnone] at hread' ⊢
      simp only [missing] at hread' ⊢
      split at hread'
      · next h => simp [h]
      · simp at hread'
    rw [hread, hblocked] at hblob
    simp [blobResult, readError, notFound, internalError, bind, Except.bind] at hblob
  · rw [hread, eq_comm, (metaResult_eq_notFound_iff env).mpr rfl,
      metaResult_eq_notFound_iff] at hmeta
    exact hread' hmeta

/-! ## Keys for given places -/

theorem segment_props {segment : Name} (h : segment ∈ keyPlace key) :
    segment ≠ ['.'] ∧ segment ≠ [] ∧ '/' ∉ segment ∧ ¬ ['.', '.'] <:+: segment := by
  obtain ⟨-, hdots, -, hempty⟩ := (checkBlobKey_ok_iff key.asStr).mp key.valid
  obtain ⟨hmem, hdot⟩ := mem_filter.mp h
  refine ⟨by simpa using hdot, hempty segment hmem, sep_not_mem_of_mem_splitOn hmem, ?_⟩
  intro hstands
  exact hdots (hstands.trans (infix_of_mem_splitOn hmem))

/-- The names on the way to a key are those of a key. -/
theorem exists_key {names : Place} (hne : names ≠ []) (hpre : names <+: keyPlace key) :
    ∃ other : BlobKey, keyPlace other = names := by
  have hnames : ∀ segment ∈ names, segment ≠ ['.'] ∧ segment ≠ [] ∧ '/' ∉ segment ∧
      ¬ ['.', '.'] <:+: segment := fun segment hmem => segment_props (hpre.subset hmem)
  -- dots in front make up for missing segments
  have hpieces : ∀ piece ∈ ['.'] :: ['.'] :: names,
      piece ≠ [] ∧ '/' ∉ piece ∧ ¬ ['.', '.'] <:+: piece := by
    intro piece hmem
    rcases mem_cons.mp hmem with rfl | hmem
    · decide
    rcases mem_cons.mp hmem with rfl | hmem
    · decide
    exact (hnames piece hmem).2
  have hsplit : (['/'].intercalate (['.'] :: ['.'] :: names)).splitOn '/' =
      ['.'] :: ['.'] :: names :=
    splitOn_intercalate '/' (fun piece hmem => (hpieces piece hmem).2.1) (by simp)
  have hvalid : checkBlobKey (String.ofList (['/'].intercalate (['.'] :: ['.'] :: names))) =
      .ok () := by
    rw [checkBlobKey_ok_iff, String.toList_ofList, hsplit]
    refine ⟨?_, ?_, ?_, fun piece hmem => (hpieces piece hmem).1⟩
    · simp
    · exact not_pair_infix_intercalate (by decide) (by decide)
        fun piece hmem => (hpieces piece hmem).2.2
    · have hlen := length_pos_of_ne_nil hne
      simp only [length_cons]
      omega
  refine ⟨⟨_, hvalid⟩, ?_⟩
  rw [keyPlace, String.toList_ofList, hsplit]
  simp only [ne_eq, decide_not, filter_cons, decide_true, Bool.not_true,
    Bool.false_eq_true, if_false]
  rw [filter_eq_self]
  intro segment hmem
  simpa using (hnames segment hmem).1

/-- Every place from the root to a blob is that of a blob. -/
theorem exists_key_at {place : Place} (hroot : Above a.root place)
    (hpre : place <+: a.blobAt key) : ∃ other : BlobKey, a.blobAt other = place := by
  obtain ⟨⟨names, rfl⟩, hne⟩ := hroot
  have hnames : names ≠ [] := by
    rintro rfl
    simp at hne
  obtain ⟨other, hother⟩ := exists_key hnames ((prefix_append_right_inj a.root).mp hpre)
  exact ⟨other, by rw [blobAt, hother]⟩

/-! ## Two ways to interfere -/

section Interference

variable {env} {key' : BlobKey} {q : Place} {t : FileTree Name Bytes}

/-- Storing the first blob can make the second exist, or block the way to it. -/
theorem store_interferes (henv : Serialises env) (ht : EmptyRoot a t)
    (hkey : keyPlace key ≠ []) (hq : q ∈ a.owned key') (hroot : Above a.root q)
    (hmeet : q ∈ a.owned key ∨ Above q (a.blobAt key) ∨ ∃ w ∈ a.owned key, Above w q)
    (now : Timestamp) (input : BlobInput) :
    a.observe env key' (a.step env ⟨t, []⟩ (.store now key input)) ≠
      a.observe env key' ⟨t, []⟩ := by
  obtain ⟨_, hwritten⟩ :=
    store_ok env henv hkey (EmptyRoot.unobstructed (d := ⟨t, []⟩) ht hkey) now input
  refine (observe_ne env hq (ht.read hroot) ?_).symm
  intro hread
  obtain ⟨hnone, hfree⟩ := read_eq_notFound_iff.mp hread
  rcases hmeet with hown | habove | ⟨w, hw, habove⟩
  · simpa [FileTree.isFile, hnone] using hwritten.files q hown
  · simpa [hnone] using hwritten.dirs q habove
  · simpa [hfree w habove] using hwritten.files w hw

/-- Storing the first blob removes a file of the second at or below its temporary file. -/
theorem store_removes (henv : Serialises env) (ht : EmptyRoot a t)
    (hkey : keyPlace key ≠ []) (hq : q ∈ a.owned key') {p : Place} (hp : p ∈ a.owned key)
    (hpre : tmpOf p <+: q) {other : BlobKey} (hother : a.blobAt other = tmpOf p)
    (now : Timestamp) (input : BlobInput) :
    a.observe env key' (a.step env (a.step env ⟨t, []⟩ (.store now other input))
        (.store now key input)) ≠
      a.observe env key' (a.step env ⟨t, []⟩ (.store now other input)) := by
  obtain ⟨hpTouched, htmpTouched⟩ := a.owned_subset_touched hp
  have habove : ∀ x, Above x (a.blobAt other) ↔ Above x (a.blobAt key) := by
    intro x
    rw [hother, above_touched_iff hkey htmpTouched]
  have hotherKey : keyPlace other ≠ [] := by
    intro hnil
    have hroot := root_above_touched hkey htmpTouched
    rw [← hother, blobAt_of_dots hnil] at hroot
    exact hroot.2 rfl
  obtain ⟨_, hwritten₁⟩ := store_ok env henv hotherKey
    (EmptyRoot.unobstructed (d := ⟨t, []⟩) ht hotherKey) now input
  have hcall : (Call.store now other input).Alters other := rfl
  have hfree := (EmptyRoot.unobstructed (d := ⟨t, []⟩) ht hkey).of_changes
    (step_changes env a hotherKey ⟨t, []⟩ hcall)
    (fun x hx hmem => touched_not_above hotherKey hmem ((habove x).mpr hx))
    (fun p hp hmem => touched_not_above hkey hp ((habove p).mp hmem))
  generalize a.step env ⟨t, []⟩ (.store now other input) = d₁ at hwritten₁ hfree ⊢
  obtain ⟨_, hwritten₂⟩ := store_ok env henv hkey hfree now input
  apply observe_ne env hq
  · refine read_below_missing (hwritten₂.tmps p hp) ?_ hpre
    intro x hx
    rw [FileTree.isFile, hwritten₂.dirs x ((above_touched_iff hkey htmpTouched).mp hx)]
  · have hfile : d₁.tree.isFile (tmpOf p) = true := by
      rw [← hother]
      exact hwritten₁.files _ (a.blobAt_mem_owned other)
    intro hread
    obtain ⟨hnone, hfree⟩ := read_eq_notFound_iff.mp hread
    by_cases heq : tmpOf p = q
    · simp [FileTree.isFile, heq, hnone] at hfile
    · simp [hfree _ ⟨hpre, heq⟩] at hfile

end Interference

/-! ## Independent keys -/

/-- From an empty root directory, calls on the first key never change what is found for the second.
-/
def Independent (env : FsEnv) (a : FsBlobAdapter) (key key' : BlobKey) : Prop :=
  ∀ t, EmptyRoot a t → ∀ (calls : List Call) (call : Call), call.Alters key →
    a.observe env key' (a.step env (run (a.step env) ⟨t, []⟩ calls) call) =
      a.observe env key' (run (a.step env) ⟨t, []⟩ calls)

theorem root_length_le_owned {q : Place} (hq : q ∈ a.owned key) : a.root.length ≤ q.length := by
  have hblob : a.root.length ≤ (a.blobAt key).length := by simp [blobAt]
  simp only [owned, mem_cons, not_mem_nil, or_false] at hq
  rcases hq with rfl | rfl
  · exact hblob
  · by_cases hne : a.blobAt key = []
    · rw [hne, length_nil] at hblob
      omega
    · rwa [metaAt, length_sibling hne]

variable {env}

theorem not_independent_of_clash (henv : Serialises env) {key' : BlobKey}
    (hclash : a.Clash key key') : ¬ Independent env a key key' := by
  obtain ⟨hkey, q, hq, hqroot, hmeet⟩ := hclash
  intro hindependent
  have ht := a.freshTree_emptyRoot
  have hfirst := hindependent _ ht [] (.store 0 key ⟨[], none, []⟩) rfl
  have htmps : ∀ p ∈ a.owned key, tmpOf p <+: q → False := by
    intro p hp hpre
    obtain ⟨other, hother⟩ :=
      exists_key_at (root_above_touched hkey (a.owned_subset_touched hp).2)
        (tmpOf_prefix_blobAt hq hpre)
    exact store_removes henv ht hkey hq hp hpre hother 0 ⟨[], none, []⟩
      (hindependent _ ht [.store 0 other ⟨[], none, []⟩] (.store 0 key ⟨[], none, []⟩) rfl)
  rcases hmeet with hmem | habove | ⟨w, hmem, habove⟩
  · obtain ⟨p, hp, rfl | rfl⟩ := a.mem_touched_iff.mp hmem
    · exact store_interferes henv ht hkey hq (root_above_touched hkey hmem) (Or.inl hp) _ _ hfirst
    · exact htmps p hp (prefix_refl _)
  · have hroot : a.root <+: q :=
      prefix_of_prefix_length_le (prefix_append _ _) habove.1 (root_length_le_owned hq)
    exact store_interferes henv ht hkey hq ⟨hroot, Ne.symm hqroot⟩ (Or.inr (Or.inl habove))
      _ _ hfirst
  · obtain ⟨p, hp, rfl | rfl⟩ := a.mem_touched_iff.mp hmem
    · exact store_interferes henv ht hkey hq
        ((root_above_touched hkey hmem).extend habove.1)
        (Or.inr (Or.inr ⟨w, hp, habove⟩)) _ _ hfirst
    · exact htmps p hp habove.1

theorem independent_iff_not_clash (henv : Serialises env) (key key' : BlobKey) :
    Independent env a key key' ↔ ¬ a.Clash key key' := by
  constructor
  · intro hindependent hclash
    exact not_independent_of_clash henv hclash hindependent
  · intro hclash t ht calls call hcall
    refine observe_step_of_not_clash env hclash ?_ hcall
    exact run_invariant (fun d call hd => a.step_keepsDirs env d call hd) ht.root calls

/-- Libraries that write the key alone into the sidecar. -/
def sampleEnv : FsEnv where
  sha256Hex data := toString data.length
  inferGet _ := none
  mimeGuess _ := none
  toVecPretty info := .ok info.key.toUTF8.toList
  fromSlice _ := .error "missing field"

def sampleAdapter : FsBlobAdapter := ⟨["data".toList, "blobs".toList]⟩

theorem sampleEnv_serialises : Serialises sampleEnv := by
  intro info
  exact ⟨_, rfl⟩

def letterKey : BlobKey := ⟨"notes/letters/a", by decide⟩

def photoKey : BlobKey := ⟨"notes/photos/a", by decide⟩

/-- A key that spells the sidecar of another. -/
def letterMetaKey : BlobKey := ⟨"notes/letters/a.meta.json", by decide⟩

theorem independent_letter_photo :
    Serialises sampleEnv ∧ Independent sampleEnv sampleAdapter letterKey photoKey :=
  ⟨sampleEnv_serialises, (independent_iff_not_clash sampleEnv_serialises _ _).mpr
    (by decide +kernel)⟩

theorem not_independent_letter_sidecar :
    letterKey ≠ letterMetaKey ∧ ¬ Independent sampleEnv sampleAdapter letterKey letterMetaKey :=
  ⟨by decide, not_independent_of_clash sampleEnv_serialises (by decide +kernel)⟩

end FsBlobAdapter

end LifeEngine.BlobFs
