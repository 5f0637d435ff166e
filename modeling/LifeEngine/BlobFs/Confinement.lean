import LifeEngine.BlobFs.Clashes

/-!
# Confinement to the root directory

Which calls of the adapter stay inside its root directory.  Keys do so unless they
consist of dots alone, and then the sidecar and the temporary file stand beside the
root directory.  A listing does so exactly when the text it is given leads to a place
inside the root; an absolute text or one with `..` in it can lead anywhere.
-/

namespace LifeEngine.BlobFs

open Support StorageContext Action List

namespace FsBlobAdapter

variable (env : FsEnv) (a : FsBlobAdapter)

/-! ## Walks of the tree -/

/-- The disk was looked at only. -/
structure Looked (d d' : Disk) : Prop where
  tree : d'.tree = d.tree
  log : d.log ⊆ d'.log

instance : IsPreorder Disk Looked where
  refl d := ⟨rfl, List.Subset.refl d.log⟩
  trans _ _ _ h h' := ⟨h'.tree.trans h.tree, List.Subset.trans h.log h'.log⟩

theorem looked_rules : FileRules Looked Set.univ ∅ ∅ where
  look d place _ := ⟨rfl, subset_cons_self place d.log⟩
  write _ _ h := h.elim
  removeFile _ h := h.elim
  rename _ _ h := h.elim
  createDirAll _ h := h.elim

variable (wanted : Path → Bool)

theorem looked_collectEntry (fuel : Nat) (path : Path) :
    Respects Looked (collectEntry env wanted (collectMetas env wanted fuel) path) :=
  looked_rules.collectEntry env wanted (Set.mem_univ _)
    (looked_rules.collectMetas env (fun _ _ _ => Set.mem_univ _) wanted fuel (Set.mem_univ _))

theorem collectEntry_congr
    {descend descend' : Path → BlobAction (List BlobMeta)} {path : Path} {d : Disk}
    (h : d.tree.node path.resolve = some .dir → ∀ d' : Disk, d'.tree = d.tree →
      exec (descend path) d' = exec (descend' path) d') :
    exec (collectEntry env wanted descend path) d =
      exec (collectEntry env wanted descend' path) d := by
  have hlook : exec (Fs.isDir path : BlobAction Bool) d =
      (.ok (d.tree.isDir path.resolve), { d with log := path.resolve :: d.log }) := rfl
  rw [collectEntry, collectEntry, exec_bind_ok hlook, exec_bind_ok hlook]
  cases hdir : d.tree.isDir path.resolve with
  | true => exact h (FileTree.isDir_iff.mp hdir) _ rfl
  | false => rfl

/-- The fuel does not matter if it is enough for the depth of the tree. -/
theorem collectMetas_fuel {fuel : Nat} {dir : Path} {d : Disk}
    (hdir : d.tree.node dir.resolve = some .dir)
    (hfuel : d.tree.depth < dir.resolve.length + fuel) :
    exec (collectMetas env wanted fuel dir) d =
      exec (collectMetas env wanted (fuel + 1) dir) d := by
  induction fuel generalizing dir d with
  | zero =>
    have hlen := d.tree.length_le_depth (p := dir.resolve) (by simp [hdir])
    omega
  | succ fuel ih =>
    have hloop : ∀ (names : List Name) (d' : Disk), d'.tree = d.tree →
        exec (names.mapM fun n => collectEntry env wanted
          (collectMetas env wanted fuel) (dir ++ [.name n])) d' =
        exec (names.mapM fun n => collectEntry env wanted
          (collectMetas env wanted (fuel + 1)) (dir ++ [.name n])) d' := by
      intro names d' hd'
      refine exec_mapM_congr (I := fun d' => d'.tree = d.tree) ?_ ?_ hd'
      · intro n _ d₁ hd₁
        exact (looked_collectEntry env wanted fuel _ d₁).tree.trans hd₁
      · intro n _ d₁ hd₁
        refine collectEntry_congr env wanted fun hentry d₂ hd₂ => ih ?_ ?_
        · rwa [hd₂]
        · rw [hd₂, hd₁, AbsPath.resolve_concat, Component.follow, length_append, length_singleton]
          omega
    rw [collectMetas, collectMetas, exec_bind, exec_bind, exec_mapErr, Fs.readDir, Fs.exec_look]
    cases d.tree.readDir dir.resolve with
    | error e => rfl
    | ok names =>
      simp only [mapError_ok, exec_bind]
      rw [hloop names { d with log := dir.resolve :: d.log } rfl]

/-! ## Where listed metadata comes from -/

/-- The metadata was read from a file at one of the places. -/
def ReadFrom (places : Set Place) (t : FileTree Name Bytes) (info : BlobMeta) : Prop :=
  ∃ p ∈ places, ∃ bytes, t.read p = .ok bytes ∧ env.fromSlice bytes = .ok info

variable {env a} {places : Set Place} {start : String} {wanted : Path → Bool}

variable {infos : List BlobMeta} {key : BlobKey}

theorem collectEntry_readFrom {descend : Path → BlobAction (List BlobMeta)} {path : Path}
    (hpath : path.resolve ∈ places) {d d' : Disk}
    (hdescend : ∀ d₁ d₂ : Disk, d₁.tree = d.tree → ∀ found,
      exec (descend path) d₁ = (.ok found, d₂) → ∀ info ∈ found, ReadFrom env places d.tree info)
    (hexec : exec (collectEntry env wanted descend path) d = (.ok infos, d')) :
    ∀ info ∈ infos, ReadFrom env places d.tree info := by
  have hlook : exec (Fs.isDir path : BlobAction Bool) d =
      (.ok (d.tree.isDir path.resolve), { d with log := path.resolve :: d.log }) := rfl
  rw [collectEntry, exec_bind_ok hlook] at hexec
  cases hdir : d.tree.isDir path.resolve with
  | true =>
    rw [hdir] at hexec
    exact hdescend { d with log := path.resolve :: d.log } d' rfl infos hexec
  | false =>
    rw [hdir, if_neg Bool.false_ne_true] at hexec
    split at hexec
    · obtain ⟨bytes, d₁, hread, hexec⟩ := of_exec_bind_ok hexec
      have hread := of_exec_mapErr_ok hread
      rw [Prod.mk.injEq] at hread
      rw [exec_pure, Prod.mk.injEq, Except.ok.injEq] at hexec
      intro info hinfo
      rw [← hexec.1] at hinfo
      refine ⟨path.resolve, hpath, bytes, hread.1, ?_⟩
      cases hparse : env.fromSlice bytes with
      | error e => simp [hparse, Except.toOption] at hinfo
      | ok found =>
        simp only [hparse, Except.toOption, Option.toList_some, mem_singleton] at hinfo
        rw [hinfo]
    · rw [exec_pure, Prod.mk.injEq, Except.ok.injEq] at hexec
      simp [← hexec.1]

theorem collectMetas_readFrom (hdown : ∀ p n, p ∈ places → p ++ [n] ∈ places) {fuel : Nat}
    {dir : Path} (hdir : dir.resolve ∈ places) {d d' : Disk}
    (hexec : exec (collectMetas env wanted fuel dir) d = (.ok infos, d')) :
    ∀ info ∈ infos, ReadFrom env places d.tree info := by
  induction fuel generalizing dir d d' infos with
  | zero =>
    rw [collectMetas, exec_pure, Prod.mk.injEq, Except.ok.injEq] at hexec
    simp [← hexec.1]
  | succ fuel ih =>
    obtain ⟨names, d₁, hnames, hexec⟩ := of_exec_bind_ok hexec
    obtain ⟨found, d₂, hfound, hexec⟩ := of_exec_bind_ok hexec
    rw [exec_pure, Prod.mk.injEq, Except.ok.injEq] at hexec
    have hd₁ : d₁.tree = d.tree := by
      have hread := of_exec_mapErr_ok hnames
      rw [Fs.readDir, Fs.exec_look, Prod.mk.injEq] at hread
      rw [← hread.2]
    have hall : ∀ entry ∈ found, ∀ info ∈ entry, ReadFrom env places d.tree info := by
      refine of_exec_mapM_ok (I := fun d' => d'.tree = d.tree) ?_ ?_ hd₁ hfound
      · intro n _ d₃ hd₃
        exact (looked_collectEntry env wanted fuel _ d₃).tree.trans hd₃
      · intro n _ d₃ hd₃ entry d₄ hentry
        have hplace : AbsPath.resolve (dir ++ [.name n]) ∈ places := by
          rw [AbsPath.resolve_concat]
          exact hdown _ n hdir
        rw [← hd₃]
        refine collectEntry_readFrom hplace ?_ hentry
        intro d₅ d₆ hd₅ below hbelow
        rw [← hd₅]
        exact ih hplace hbelow
    intro info hinfo
    rw [← hexec.1, mem_flatten] at hinfo
    obtain ⟨entry, hentry, hinfo⟩ := hinfo
    exact hall entry hentry info hinfo

/-! ## Staying inside -/

/-- The places at and below the root directory. -/
def inside (a : FsBlobAdapter) : Set Place :=
  {p | a.root <+: p}

theorem inside_down (a : FsBlobAdapter) (p : Place) (n : Name) (hp : p ∈ a.inside) :
    p ++ [n] ∈ a.inside :=
  List.IsPrefix.trans hp (prefix_append p [n])

/-- The root directory still exists, and all places looked at or changed are inside. -/
def Stays (a : FsBlobAdapter) (d d' : Disk) : Prop :=
  d.tree.node a.root = some .dir →
    d'.tree.node a.root = some .dir ∧ ∀ p ∈ d'.log, p ∈ d.log ∨ p ∈ a.inside

instance (a : FsBlobAdapter) : IsPreorder Disk a.Stays where
  refl d hroot := ⟨hroot, fun _ hp => Or.inl hp⟩
  trans d d₁ d₂ h h' hroot := by
    obtain ⟨hroot₁, hlog₁⟩ := h hroot
    obtain ⟨hroot₂, hlog₂⟩ := h' hroot₁
    refine ⟨hroot₂, ?_⟩
    intro p hp
    rcases hlog₂ p hp with hmem | hin
    · exact hlog₁ p hmem
    · exact Or.inr hin

theorem Stays.change {places : FileTree Name Bytes → List Place}
    {f : FileTree Name Bytes → Except IoError (FileTree Name Bytes)} {T A : Set Place}
    (hplaces : ∀ t, t.node a.root = some .dir → ∀ p ∈ places t, p ∈ a.inside)
    (hf : ∀ t t', f t = .ok t' → FileTree.Changes T A t t') :
    Respects a.Stays (Fs.change places f) := by
  intro d hroot
  have hlog : ∀ p ∈ places d.tree ++ d.log, p ∈ d.log ∨ p ∈ a.inside := by
    intro p hp
    rcases mem_append.mp hp with hnew | hold
    · exact Or.inr (hplaces d.tree hroot p hnew)
    · exact Or.inl hold
  cases hresult : f d.tree with
  | ok t =>
    rw [Fs.exec_change_ok hresult]
    exact ⟨(hf d.tree t hresult).keepsDirs _ hroot, hlog⟩
  | error e =>
    rw [Fs.exec_change_error hresult]
    exact ⟨hroot, hlog⟩

theorem stays_rules (a : FsBlobAdapter) : FileRules a.Stays a.inside a.inside a.inside where
  look d place hplace hroot := by
    refine ⟨hroot, ?_⟩
    intro p hp
    rcases mem_cons.mp hp with rfl | hold
    · exact Or.inr hplace
    · exact Or.inl hold
  write path data hpath :=
    Stays.change (by simpa using fun _ _ => hpath) fun _ _ => FileTree.Changes.of_write
  removeFile path hpath :=
    Stays.change (by simpa using fun _ _ => hpath) fun _ _ => FileTree.Changes.of_removeFile
  rename path path' hpath hpath' :=
    Stays.change (by simpa using fun _ _ => ⟨hpath, hpath'⟩)
      fun _ _ => FileTree.Changes.of_renameFile
  createDirAll path hpath := by
    refine Stays.change ?_ fun _ _ => FileTree.Changes.of_createDirAll
    intro t hroot p hp
    rcases mem_cons.mp hp with rfl | hmade
    · exact hpath
    · obtain ⟨hinit, hfree⟩ := mem_filter.mp hmade
      rcases prefix_or_prefix_of_prefix ((mem_inits p _).mp hinit) hpath with hpre | hin
      · -- what is above the root directory exists already
        have hdir : t.node p = some .dir := by
          by_cases heq : p = a.root
          · rw [heq, hroot]
          · exact t.node_of_above (by simp [hroot]) ⟨hpre, heq⟩
        simp [FileTree.occupied, hdir] at hfree
      · exact hin

/-! ## Keys and listings that stay inside -/

/-- The key leads below the root, or the root is that of the file system. -/
def KeyInside (a : FsBlobAdapter) (key : BlobKey) : Prop :=
  keyPlace key ≠ [] ∨ a.root = []

/-- The text given to `list` leads inside the root directory. -/
def StartInside (a : FsBlobAdapter) (start : String) : Prop :=
  (join a.rootPath start).resolve ∈ a.inside

instance (a : FsBlobAdapter) (start : String) : Decidable (StartInside a start) :=
  inferInstanceAs (Decidable (a.root <+: _))

theorem KeyInside.touched (h : KeyInside a key) : ∀ p ∈ a.touched key, p ∈ a.inside := by
  intro p hp
  rcases h with hkey | hroot
  · exact (root_above_touched hkey hp).1
  · rw [inside, hroot]
    exact nil_prefix

theorem KeyInside.owned (h : KeyInside a key) :
    ∀ p ∈ a.owned key, p ∈ a.inside :=
  fun p hp => h.touched p (a.owned_subset_touched hp).1

theorem KeyInside.dirs (h : KeyInside a key) :
    ∀ p ∈ a.owned key, p ≠ [] → p.dropLast ∈ a.inside := by
  intro p hp _
  rcases h with hkey | hroot
  · have habove := root_above_touched hkey (a.owned_subset_touched hp).1
    exact (above_iff_prefix_dropLast.mp habove).2
  · rw [inside, hroot]
    exact nil_prefix

theorem walkDir_inside {t : FileTree Name Bytes} (hroot : t.node a.root = some .dir)
    {searchDir : Path} (hsearch : searchDir.resolve ∈ a.inside) :
    (a.walkDir searchDir (t.isDir searchDir.resolve)).resolve ∈ a.inside := by
  have hrootPath : a.rootPath.resolve ∈ a.inside := by
    rw [rootPath, AbsPath.resolve_ofNames]
    exact prefix_refl _
  cases hdir : t.isDir searchDir.resolve with
  | true => exact hsearch
  | false =>
    have habove : Above a.root searchDir.resolve := by
      refine ⟨hsearch, ?_⟩
      intro heq
      rw [← heq, FileTree.isDir_iff.mpr hroot] at hdir
      simp at hdir
    rcases eq_nil_or_concat' searchDir with rfl | ⟨path, c, rfl⟩
    · exact hrootPath
    · have hparent : AbsPath.parent (path ++ [c]) = some path := by
        simp [AbsPath.parent]
      rw [walkDir, hparent]
      rw [AbsPath.resolve_concat] at habove
      cases c with
      | name n => exact above_concat_iff.mp habove
      | up => exact habove.1.trans ( dropLast_prefix _)

/-! ## Confined calls -/

/-- The keys that a call is given. -/
def Call.keys : Call → List BlobKey
  | .store _ key _ | .retrieve key | .delete key | .exist key | .metadata key => [key]
  | .copy _ source dest => [source, dest]
  | .list _ | .health => []

/-- The texts that a call is given to list by. -/
def Call.starts : Call → List String
  | .list start => [start]
  | _ => []

/-- All that the call looks at, changes or lists is inside the root directory. -/
structure Confined (env : FsEnv) (a : FsBlobAdapter) (call : Call) : Prop where
  accesses : ∀ t : FileTree Name Bytes, t.node a.root = some .dir →
    ∀ p ∈ (a.step env ⟨t, []⟩ call).log, p ∈ a.inside
  listed : ∀ t : FileTree Name Bytes, t.node a.root = some .dir → ∀ start infos d,
    call = .list start → exec (a.list env start) ⟨t, []⟩ = (.ok infos, d) →
    ∀ info ∈ infos, ReadFrom env a.inside t info

theorem probePath_resolve (a : FsBlobAdapter) :
    a.probePath.resolve = a.root ++ [".health_probe".toList] := by
  have hparts : components ".health_probe" = AbsPath.ofNames [".health_probe".toList] := by
    decide
  have hhead : ".health_probe".toList.head? ≠ some '/' := by decide
  rw [probePath, join, if_neg hhead, hparts, AbsPath.resolve_append_ofNames, rootPath,
    AbsPath.resolve_ofNames]

theorem step_stays {call : Call} (hkeys : ∀ key ∈ call.keys, KeyInside a key)
    (hstarts : ∀ start ∈ call.starts, StartInside a start) (d : Disk) :
    a.Stays d (a.step env d call) := by
  have h := stays_rules a
  cases call with
  | store now key input =>
    have hkey := hkeys key (by simp [Call.keys])
    exact h.store env hkey.touched hkey.dirs (hkey.owned _ (a.metaAt_mem_owned key)) now input d
  | retrieve key =>
    have hkey := hkeys key (by simp [Call.keys])
    exact h.retrieve env hkey.owned d
  | delete key =>
    have hkey := hkeys key (by simp [Call.keys])
    exact h.delete hkey.touched (hkey.owned _ (a.blobAt_mem_owned key)) d
  | exist key =>
    have hkey := hkeys key (by simp [Call.keys])
    exact h.occupied (hkey.owned _ (a.blobAt_mem_owned key)) d
  | copy now source dest =>
    have hsource := hkeys source (by simp [Call.keys])
    have hdest := hkeys dest (by simp [Call.keys])
    exact h.copy env hdest.touched hdest.dirs hsource.owned now d
  | list start =>
    have hstart := hstarts start (by simp [Call.starts])
    intro hroot
    have hlook := h.look d _ hstart
    exact trans_of a.Stays hlook
      (h.walk env a.inside_down _ (walkDir_inside hroot hstart) _) hroot
  | metadata key =>
    have hkey := hkeys key (by simp [Call.keys])
    exact h.readMeta env (hkey.owned _ (a.metaAt_mem_owned key)) d
  | health =>
    refine h.health a (prefix_refl _) ?_ d
    rw [probePath_resolve]
    exact prefix_append _ _

theorem walk_readFrom (hdown : ∀ p n, p ∈ places → p ++ [n] ∈ places) {dir : Path}
    (hdir : dir.resolve ∈ places) {d d' : Disk}
    (hexec : exec (walk env wanted dir) d = (.ok infos, d')) :
    ∀ info ∈ infos, ReadFrom env places d.tree info := by
  obtain ⟨found, d₁, hfound, hexec⟩ := of_exec_bind_ok hexec
  rw [Fs.occupied, Fs.exec_look, Prod.mk.injEq] at hfound
  cases found with
  | false =>
    rw [if_neg Bool.false_ne_true, exec_pure, Prod.mk.injEq, Except.ok.injEq] at hexec
    simp [← hexec.1]
  | true =>
    obtain ⟨fuel, d₂, hfuel, hexec⟩ := of_exec_bind_ok hexec
    rw [exec_ofStep, Prod.mk.injEq] at hfuel
    have htree : d₂.tree = d.tree := by rw [← hfuel.2, ← hfound.2]
    rw [← htree]
    exact collectMetas_readFrom hdown hdir hexec

theorem confined_of_inside {call : Call} (hkeys : ∀ key ∈ call.keys, KeyInside a key)
    (hstarts : ∀ start ∈ call.starts, StartInside a start) : Confined env a call := by
  constructor
  · intro t hroot p hp
    rcases (step_stays hkeys hstarts ⟨t, []⟩ hroot).2 p hp with hold | hin
    · simp at hold
    · exact hin
  · rintro t hroot start infos d rfl hexec
    have hstart := hstarts start (by simp [Call.starts])
    exact walk_readFrom a.inside_down (walkDir_inside hroot hstart) hexec

/-! ## Calls that leave the root directory -/

/-- The sidecar of a key of dots is beside the root directory. -/
theorem not_confined_metadata (hkey : ¬ KeyInside a key) : ¬ Confined env a (.metadata key) := by
  rw [KeyInside, not_or, not_not] at hkey
  intro hconfined
  have hlog : a.metaAt key ∈ (a.step env ⟨a.freshTree, []⟩ (.metadata key)).log := by
    rw [step, metadata, exec_readMeta]
    exact mem_cons_self
  have hin : a.root <+: a.metaAt key := hconfined.accesses _ a.freshTree_emptyRoot.root _ hlog
  rw [metaAt, blobAt_of_dots hkey.1] at hin
  exact sibling_ne hkey.2 (by decide) (hin.eq_of_length (length_sibling hkey.2 _).symm).symm

theorem not_confined_list (hstart : ¬ StartInside a start) : ¬ Confined env a (.list start) := by
  intro hconfined
  apply hstart
  apply hconfined.accesses a.freshTree a.freshTree_emptyRoot.root
  have hdir : exec (Fs.isDir (join a.rootPath start) : BlobAction Bool) ⟨a.freshTree, []⟩ =
      (.ok _, ⟨a.freshTree, [(join a.rootPath start).resolve]⟩) := rfl
  rw [step, list, exec_bind_ok hdir]
  have hwalk : ∀ wanted dir, Respects Looked (walk env wanted dir) := fun wanted dir =>
    looked_rules.walk env (fun _ _ _ => Set.mem_univ _) wanted (Set.mem_univ _)
  exact (hwalk _ _ _).log mem_cons_self

/-- All calls are confined to the root directory exactly when the keys and the texts to list by lead
inside. -/
theorem callsConfined_iff (env : FsEnv) (a : FsBlobAdapter) (keys : Set BlobKey)
    (starts : Set String) :
    (∀ call : Call, (∀ key ∈ call.keys, key ∈ keys) → (∀ start ∈ call.starts, start ∈ starts) →
      Confined env a call) ↔
      (∀ key ∈ keys, keyPlace key ≠ [] ∨ a.root = []) ∧
        ∀ start ∈ starts, a.root <+: (join a.rootPath start).resolve := by
  constructor
  · intro h
    constructor
    · intro key hkey
      by_contra hout
      exact not_confined_metadata hout
        (h (.metadata key) (by simpa [Call.keys] using hkey) (by simp [Call.starts]))
    · intro start hstart
      by_contra hout
      exact not_confined_list hout
        (h (.list start) (by simp [Call.keys]) (by simpa [Call.starts] using hstart))
  · rintro ⟨hkeys, hstarts⟩ call hcall hcallStarts
    exact confined_of_inside (fun key hkey => hkeys key (hcall key hkey))
      fun start hstart => hstarts start (hcallStarts start hstart)

/-- A key that leads to the root directory itself. -/
def dotsKey : BlobKey := ⟨"././.", by decide⟩

/-- A listing by `..` walks a directory beside the root, where the sidecar of a key of dots is read.
-/
theorem not_confined_parent_and_dots :
    ¬ Confined sampleEnv sampleAdapter (.list "../secrets") ∧
      ¬ Confined sampleEnv sampleAdapter (.metadata dotsKey) := by
  constructor
  · exact not_confined_list (by decide +kernel)
  · apply not_confined_metadata
    rw [KeyInside]
    decide +kernel

end FsBlobAdapter

end LifeEngine.BlobFs
