import LifeEngine.BlobFs.Places

/-!
# What the adapter's calls preserve

A relation between disks that the single file operations respect, each at the
places allowed for it, is respected by the adapter's calls on keys whose files are
among these places.  The results about frames and about confinement are instances.
-/

namespace LifeEngine.BlobFs

open Support StorageContext Action Respects

variable {ε α : Type}

namespace FsBlobAdapter

section Sequences

variable {P : Disk → Disk → Prop} [IsPreorder Disk P] (env : FsEnv) {a : FsBlobAdapter}
  {key : BlobKey}

theorem store_respects (hread : Respects P (a.readMeta env key))
    (hwrite : ∀ data metaBytes, Respects P (a.writeBoth key data metaBytes))
    (now : Timestamp) (input : BlobInput) : Respects P (a.store env now key input) := by
  refine bind hread.attempt fun _ => ?_
  refine bind (ofResult _) fun _ => ?_
  exact bind (hwrite _ _) fun _ => pure _

theorem copy_respects {source : BlobKey}
    (hfound : Respects P (Fs.occupied (a.blobPath source) : BlobAction Bool))
    (hblob : Respects P (Fs.read (a.blobPath source)))
    (hread : Respects P (a.readMeta env source))
    (hwrite : ∀ data metaBytes, Respects P (a.writeBoth key data metaBytes))
    (now : Timestamp) : Respects P (a.copy env now source key) := by
  unfold copy
  refine bind hfound ?_
  intro found
  cases found with
  | false => exact throw _
  | true =>
    refine bind (hblob.mapErr _) fun _ => ?_
    refine bind hread fun _ => ?_
    refine bind (ofResult _) fun _ => ?_
    exact bind (hwrite _ _) fun _ => pure _

end Sequences

end FsBlobAdapter

/-- What looks at places in `L`, changes files in `F` and makes directories in `D` respects the
relation. -/
structure FileRules (P : Disk → Disk → Prop) (L F D : Set Place) : Prop where
  look : ∀ (d : Disk) place, place ∈ L → P d { d with log := place :: d.log }
  write : ∀ path data, path.resolve ∈ F → Respects P (Fs.write path data)
  removeFile : ∀ path, path.resolve ∈ F → Respects P (Fs.removeFile path)
  rename : ∀ path path', path.resolve ∈ F → path'.resolve ∈ F →
    Respects P (Fs.rename path path')
  createDirAll : ∀ path, path.resolve ∈ D → Respects P (Fs.createDirAll path)

namespace FileRules

variable {P : Disk → Disk → Prop} [IsPreorder Disk P] {L F D : Set Place}
  (h : FileRules P L F D)

include h

omit [IsPreorder Disk P] in
theorem lookAt {place : Place} (hplace : place ∈ L)
    (f : FileTree Name Bytes → Except ε α) : Respects P (Fs.look place f) :=
  fun d => h.look d place hplace

theorem atomicWrite {dest : Path} (data : Bytes) (hdest : dest.resolve ∈ F)
    (htmp : (withSuffix dest tmpSuffix).resolve ∈ F)
    (hparent : ∀ parent, dest.parent = some parent → parent.resolve ∈ D) :
    Respects P (atomicWrite dest data) := by
  unfold BlobFs.atomicWrite
  refine ofResult_bind ?_
  intro parent hok
  have hmem : parent.resolve ∈ D := by
    cases hsome : dest.parent with
    | none => simp [hsome, okOr] at hok
    | some dir =>
      rw [hsome] at hok
      exact hparent parent (by rw [hsome, Except.ok.inj hok])
  refine bind ((h.createDirAll parent hmem).mapErr _) fun _ => ?_
  refine bind ((h.write _ data htmp).mapErr _) fun _ => ?_
  refine bind (h.rename _ dest htmp hdest).attempt ?_
  rintro (e | _)
  · exact bind (h.removeFile _ htmp).attempt fun _ => throw _
  · exact pure ()

/-! ## Calls on keys -/

section Keys

variable (env : FsEnv) {a : FsBlobAdapter} {key : BlobKey}

theorem readMeta (hmeta : a.metaAt key ∈ L) : Respects P (a.readMeta env key) := by
  unfold FsBlobAdapter.readMeta Fs.read
  rw [FsBlobAdapter.metaPath_eq, AbsPath.resolve_ofNames]
  exact bind ((h.lookAt hmeta _).mapErr _) fun _ => ofResult _

omit [IsPreorder Disk P] in
theorem readBlob (hblob : a.blobAt key ∈ L) : Respects P (Fs.read (a.blobPath key)) := by
  rw [Fs.read, FsBlobAdapter.blobPath_eq, AbsPath.resolve_ofNames]
  exact h.lookAt hblob _

omit [IsPreorder Disk P] in
theorem occupied (hblob : a.blobAt key ∈ L) :
    Respects P (Fs.occupied (a.blobPath key) : Action Disk ε Bool) := by
  rw [Fs.occupied, FsBlobAdapter.blobPath_eq, AbsPath.resolve_ofNames]
  exact h.lookAt hblob _

theorem retrieve (howned : ∀ p ∈ a.owned key, p ∈ L) : Respects P (a.retrieve env key) := by
  refine bind ((h.readBlob (howned _ (a.blobAt_mem_owned key))).mapErr _) fun _ => ?_
  exact bind (h.readMeta env (howned _ (a.metaAt_mem_owned key))) fun _ => ofResult _

variable (htouched : ∀ p ∈ a.touched key, p ∈ F)

include htouched

omit [IsPreorder Disk P] in
theorem removeBlob : Respects P (Fs.removeFile (a.blobPath key)) := by
  apply h.removeFile
  rw [FsBlobAdapter.blobPath_eq, AbsPath.resolve_ofNames]
  exact htouched _ (a.owned_subset_touched (a.blobAt_mem_owned key)).1

omit [IsPreorder Disk P] in
theorem removeMeta : Respects P (Fs.removeFile (a.metaPath key)) := by
  apply h.removeFile
  rw [FsBlobAdapter.metaPath_eq, AbsPath.resolve_ofNames]
  exact htouched _ (a.owned_subset_touched (a.metaAt_mem_owned key)).1

theorem delete (hblob : a.blobAt key ∈ L) : Respects P (a.delete key) := by
  refine bind (h.occupied hblob) ?_
  intro found
  cases found with
  | false => exact throw _
  | true =>
    refine bind ((h.removeBlob htouched).mapErr _) fun _ => ?_
    exact bind (h.removeMeta htouched).attempt fun _ => pure ()

variable (hdirs : ∀ p ∈ a.owned key, p ≠ [] → p.dropLast ∈ D)

include hdirs

theorem atomicWriteOwned {place : Place} (hplace : place ∈ a.owned key) (data : Bytes) :
    Respects P (BlobFs.atomicWrite (AbsPath.ofNames place) data) := by
  have hmem := a.owned_subset_touched hplace
  apply h.atomicWrite data
  · rw [AbsPath.resolve_ofNames]
    exact htouched _ hmem.1
  · rw [withSuffix_ofNames, AbsPath.resolve_ofNames]
    exact htouched _ hmem.2
  · intro parent hparent
    have hne : place ≠ [] := by
      rintro rfl
      simp [AbsPath.parent] at hparent
    rw [AbsPath.parent_ofNames hne] at hparent
    rw [← Option.some.inj hparent, AbsPath.resolve_ofNames]
    exact hdirs place hplace hne

theorem writeBoth (data metaBytes : Bytes) : Respects P (a.writeBoth key data metaBytes) := by
  unfold FsBlobAdapter.writeBoth
  rw [FsBlobAdapter.blobPath_eq, FsBlobAdapter.metaPath_eq]
  refine bind (h.atomicWriteOwned htouched hdirs (a.blobAt_mem_owned key) data) fun _ => ?_
  refine bind (h.atomicWriteOwned htouched hdirs (a.metaAt_mem_owned key) metaBytes).attempt ?_
  rintro (e | _)
  · rw [← FsBlobAdapter.blobPath_eq]
    exact bind (h.removeBlob htouched).attempt fun _ => throw _
  · exact pure ()

theorem store (hmeta : a.metaAt key ∈ L) (now : Timestamp) (input : BlobInput) :
    Respects P (a.store env now key input) :=
  FsBlobAdapter.store_respects env (h.readMeta env hmeta) (h.writeBoth htouched hdirs) now input

theorem copy {source : BlobKey} (hsource : ∀ p ∈ a.owned source, p ∈ L) (now : Timestamp) :
    Respects P (a.copy env now source key) := by
  have hblob := hsource _ (a.blobAt_mem_owned source)
  have hmeta := hsource _ (a.metaAt_mem_owned source)
  exact FsBlobAdapter.copy_respects env (h.occupied hblob) (h.readBlob hblob)
    (h.readMeta env hmeta) (h.writeBoth htouched hdirs) now

end Keys

/-! ## Walks and the health check -/

section Walks

variable (env : FsEnv) (a : FsBlobAdapter)

theorem collectEntry (wanted : Path → Bool) {descend : Path → BlobAction (List BlobMeta)}
    {path : Path} (hpath : path.resolve ∈ L) (hdescend : Respects P (descend path)) :
    Respects P (FsBlobAdapter.collectEntry env wanted descend path) := by
  unfold FsBlobAdapter.collectEntry
  refine bind (h.lookAt hpath _) ?_
  intro directory
  cases directory with
  | true => exact hdescend
  | false =>
    rw [if_neg Bool.false_ne_true]
    split
    · exact bind ((h.lookAt hpath _).mapErr _) fun _ => pure _
    · exact pure []

/-- A walk stays below the walked directory. -/
theorem collectMetas (hdown : ∀ p n, p ∈ L → p ++ [n] ∈ L) (wanted : Path → Bool) (fuel : Nat)
    {dir : Path} (hdir : dir.resolve ∈ L) :
    Respects P (FsBlobAdapter.collectMetas env wanted fuel dir) := by
  induction fuel generalizing dir with
  | zero => exact pure []
  | succ fuel ih =>
    unfold FsBlobAdapter.collectMetas
    refine bind ((h.lookAt hdir _).mapErr _) fun names => ?_
    refine bind (mapM ?_) fun _ => pure _
    intro n _
    have hentry : AbsPath.resolve (dir ++ [.name n]) ∈ L := by
      rw [AbsPath.resolve_concat]
      exact hdown _ n hdir
    exact h.collectEntry env wanted hentry (ih hentry)

/-- What `list` does once it knows the directory to walk. -/
theorem walk (hdown : ∀ p n, p ∈ L → p ++ [n] ∈ L) (wanted : Path → Bool) {dir : Path}
    (hdir : dir.resolve ∈ L) : Respects P (FsBlobAdapter.walk env wanted dir) := by
  unfold FsBlobAdapter.walk
  refine bind (h.lookAt hdir _) ?_
  intro found
  cases found with
  | false => exact pure []
  | true =>
    refine bind (fun d => refl_of P d) fun fuel => ?_
    exact h.collectMetas env hdown wanted fuel hdir

theorem health (hroot : a.root ∈ L) (hprobe : a.probePath.resolve ∈ F) : Respects P a.health := by
  unfold FsBlobAdapter.health Fs.isDir
  rw [FsBlobAdapter.rootPath, AbsPath.resolve_ofNames]
  refine bind (h.lookAt hroot _) ?_
  intro dirExists
  cases dirExists with
  | false => exact pure _
  | true =>
    have hwrites : Respects P a.probe := by
      refine bind (h.write _ _ hprobe).attempt fun _ => ?_
      exact bind (h.removeFile _ hprobe).attempt fun _ => pure _
    exact bind hwrites fun _ => pure _

end Walks

end FileRules

end LifeEngine.BlobFs
