import LifeEngine.BlobFs.Rules
import LifeEngine.Support.Machine

/-!
# What one blob's calls do to another blob

Storing, copying to and deleting a key change the files of its blob, the sidecar
and the temporary files beside them, and make the directories above.  The files of
another key may be among these, or above or below them: the two keys clash.  If they
do not, the calls on the one key leave the answers about the other alone.
-/

namespace LifeEngine.BlobFs

open Support StorageContext Action FileTree.Changes AbsPath

/-! ## Changes of a disk -/

/-- The trees of two disks differ at most as `Changes` allows. -/
def TreeChanges (T A : Set Place) (d d' : Disk) : Prop :=
  FileTree.Changes T A d.tree d'.tree

instance (T A : Set Place) : IsPreorder Disk (TreeChanges T A) where
  refl d := refl T A d.tree
  trans _ _ _ h h' := h.trans h'

namespace TreeChanges

variable {T A : Set Place}

theorem change {places : FileTree Name Bytes → List Place}
    {f : FileTree Name Bytes → Except IoError (FileTree Name Bytes)}
    (h : ∀ t t', f t = .ok t' → FileTree.Changes T A t t') :
    Respects (TreeChanges T A) (Fs.change places f) := by
  intro d
  rcases hexec : exec (Fs.change places f) d with ⟨r, d'⟩
  rcases Fs.of_exec_change hexec with ⟨-, hok⟩ | ⟨e, -, -, htree⟩
  · exact h d.tree d'.tree hok
  · rw [TreeChanges, htree]
    exact refl T A d.tree

theorem fileRules (T A : Set Place) :
    FileRules (TreeChanges T A) Set.univ T {p | ∀ x, x <+: p → x ∈ A} where
  look d _ _ := refl T A d.tree
  write path data hpath := by
    refine change fun t t' hwrite => ?_
    exact (of_write hwrite).mono (by simpa using hpath) (Set.empty_subset A)
  removeFile path hpath := by
    refine change fun t t' hremove => ?_
    exact (of_removeFile hremove).mono (by simpa using hpath) (Set.empty_subset A)
  rename path path' hpath hpath' := by
    refine change fun t t' hrename => ?_
    refine (of_renameFile hrename).mono ?_ (Set.empty_subset A)
    rintro x (rfl | rfl)
    · exact hpath
    · exact hpath'
  createDirAll path hpath := by
    refine change fun t t' hcreate => ?_
    exact (of_createDirAll hcreate).mono (Set.empty_subset T) hpath

end TreeChanges

namespace FsBlobAdapter

variable (env : FsEnv) (a : FsBlobAdapter)

/-! ## Changes made by a call -/

/-- The calls that store, copy to or delete the key. -/
def Call.Alters (key : BlobKey) : Call → Prop
  | .store _ stored _ => stored = key
  | .copy _ _ dest => dest = key
  | .delete deleted => deleted = key
  | _ => False

theorem step_keepsDirs (d : Disk) (call : Call) {p : Place}
    (hp : d.tree.node p = some .dir) : (a.step env d call).tree.node p = some .dir := by
  have h := TreeChanges.fileRules Set.univ Set.univ
  have hdirs : ∀ key, ∀ p ∈ a.owned key, p ≠ [] → p.dropLast ∈
      {p : Place | ∀ x, x <+: p → x ∈ (Set.univ : Set Place)} :=
    fun _ _ _ _ _ _ => Set.mem_univ _
  have hall : ∀ places : List Place, ∀ p ∈ places, p ∈ (Set.univ : Set Place) :=
    fun _ p _ => Set.mem_univ p
  have hchanges : TreeChanges Set.univ Set.univ d (a.step env d call) := by
    cases call with
    | store now key input =>
      exact h.store env (hall _) (hdirs key) (Set.mem_univ _) now input d
    | retrieve key => exact h.retrieve env (hall _) d
    | delete key => exact h.delete (hall _) (Set.mem_univ _) d
    | exist key => exact h.occupied (Set.mem_univ _) d
    | copy now source dest => exact h.copy env (hall _) (hdirs dest) (hall _) now d
    | list start =>
      refine Respects.bind (h.lookAt (Set.mem_univ _) _) (fun directory => ?_) d
      exact h.walk env (fun _ _ _ => Set.mem_univ _) _ (Set.mem_univ _)
    | metadata key => exact h.readMeta env (Set.mem_univ _) d
    | health => exact h.health a (Set.mem_univ _) (Set.mem_univ _) d
  exact hchanges.keepsDirs p hp

variable {key : BlobKey} {d : Disk}

/-- A call changes the files of the blob, those beside them and the directories above. -/
theorem step_changes (hkey : keyPlace key ≠ []) (d : Disk) {call : Call} (hcall : call.Alters key) :
    TreeChanges {p | p ∈ a.touched key} {p | Above p (a.blobAt key)} d (a.step env d call) := by
  have h := TreeChanges.fileRules {p | p ∈ a.touched key} {p | Above p (a.blobAt key)}
  have hblob : a.blobAt key ≠ [] := by simp [blobAt, hkey]
  have hdirs : ∀ p ∈ a.owned key, p ≠ [] → p.dropLast ∈
      {p : Place | ∀ x, x <+: p → x ∈ {q : Place | Above q (a.blobAt key)}} := by
    intro p hp _ x hx
    refine above_iff_prefix_dropLast.mpr ⟨hblob, ?_⟩
    simp only [owned, List.mem_cons, List.not_mem_nil, or_false] at hp
    rcases hp with rfl | rfl
    · exact hx
    · rwa [metaAt, dropLast_sibling] at hx
  cases call with
  | store now stored input =>
    obtain rfl : stored = key := hcall
    exact h.store env (fun _ hp => hp) hdirs (Set.mem_univ _) now input d
  | copy now source dest =>
    obtain rfl : dest = key := hcall
    exact h.copy env (fun _ hp => hp) hdirs (fun _ _ => Set.mem_univ _) now d
  | delete deleted =>
    obtain rfl : deleted = key := hcall
    exact h.delete (fun _ hp => hp) (Set.mem_univ _) d
  | retrieve _ | exist _ | list _ | metadata _ | health => exact hcall.elim

/-! ## Keys of dots alone -/

/-- The temporary file for a place that has a name. -/
def tmpPlaces (place : Place) : Set Place :=
  {p | place ≠ [] ∧ p = tmpOf place}

theorem not_dir_of_atomicWrite_ok {place : Place} {data : Bytes} {d' : Disk} {u : Unit}
    (hexec : exec (atomicWrite (ofNames place) data) d = (.ok u, d')) :
    d.tree.node place ≠ some .dir := by
  have hrules := TreeChanges.fileRules Set.univ Set.univ
  intro hdir
  obtain ⟨parent, d₀, hparent, hexec⟩ := of_exec_bind_ok hexec
  obtain ⟨_, d₁, hmkdir, hexec⟩ := of_exec_bind_ok hexec
  obtain ⟨_, d₂, hwrite, hexec⟩ := of_exec_bind_ok hexec
  obtain ⟨renamed, d₃, hrename, hexec⟩ := of_exec_bind_ok hexec
  -- the directory is still there when the file is to be moved over it
  have hdir₀ : d₀.tree.node place = some .dir := by
    rw [exec_ofResult, Prod.mk.injEq] at hparent
    rw [← hparent.2, hdir]
  have hdir₁ := ((hrules.createDirAll parent fun _ _ => Set.mem_univ _).of_exec
    (of_exec_mapErr_ok hmkdir)).keepsDirs place hdir₀
  have hdir₂ := ((hrules.write _ data (Set.mem_univ _)).of_exec
    (of_exec_mapErr_ok hwrite)).keepsDirs place hdir₁
  cases renamed with
  | error e =>
    obtain ⟨_, _, _, hthrow⟩ := of_exec_bind_ok hexec
    cases hthrow
  | ok _ =>
    rw [exec_attempt, Prod.mk.injEq, Except.ok.injEq] at hrename
    rcases Fs.of_exec_change (Prod.ext hrename.1 hrename.2) with ⟨-, hok⟩ | ⟨e, hfail, -⟩
    · rw [resolve_ofNames] at hok
      obtain ⟨b, -, hnotdir, -⟩ := FileTree.of_renameFile_eq_ok hok
      exact hnotdir hdir₂
    · simp at hfail

/-- Over a directory no file can be written. -/
theorem atomicWrite_over_dir {place : Place} (hdir : d.tree.node place = some .dir) (data : Bytes) :
    ∃ e d', exec (atomicWrite (ofNames place) data) d = (.error e, d') ∧
      TreeChanges (tmpPlaces place) ∅ d d' := by
  by_cases hne : place = []
  · subst hne
    exact ⟨_, d, exec_bind_error rfl, refl_of _ d⟩
  have hrespects : Respects (TreeChanges {place, tmpOf place} {x | Above x place})
      (atomicWrite (ofNames place) data) := by
    apply (TreeChanges.fileRules _ _).atomicWrite data
    · simp
    · simp [withSuffix_ofNames, tmpOf]
    · intro parent hparent x hx
      rw [parent_ofNames hne] at hparent
      rw [← Option.some.inj hparent, resolve_ofNames] at hx
      exact above_iff_prefix_dropLast.mpr ⟨hne, hx⟩
  rcases hexec : exec (atomicWrite (ofNames place) data) d with ⟨r, d'⟩
  have hchanges := hrespects.of_exec hexec
  cases r with
  | ok u => exact absurd hdir (not_dir_of_atomicWrite_ok hexec)
  | error e =>
    refine ⟨e, d', rfl, hchanges.keepsDirs, ?_, ?_⟩
    · intro p _ hp
      by_cases habove : Above p place
      · exact d.tree.node_of_above (by simp [hdir]) habove
      · exact hchanges.newDirs p habove hp
    intro p hp
    by_cases hplace : p = place
    · exact Or.inl (by rw [hplace, hdir, hchanges.keepsDirs place hdir])
    · have hapart : p ∉ ({place, tmpOf place} : Set Place) := by
        rintro (rfl | rfl)
        · exact hplace rfl
        · exact hp ⟨hne, rfl⟩
      rcases hchanges.outside p hapart with heq | ⟨habove, hnone, -⟩
      · exact Or.inl heq
      · rw [d.tree.node_of_above (by simp [hdir]) habove] at hnone
        simp at hnone

theorem exec_occupied (key : BlobKey) (d : Disk) :
    exec (Fs.occupied (a.blobPath key) : BlobAction Bool) d =
      (.ok (d.tree.occupied (a.blobAt key)), { d with log := a.blobAt key :: d.log }) := by
  rw [Fs.occupied, Fs.exec_look, blobPath_eq, resolve_ofNames]

variable {a} in
/-- A directory is not deleted, and nor is its sidecar. -/
theorem delete_over_dir (hdir : d.tree.node (a.blobAt key) = some .dir) :
    (exec (a.delete key) d).2.tree = d.tree := by
  have hfound : d.tree.occupied (a.blobAt key) = true := by
    rw [FileTree.occupied, hdir, Option.isSome_some]
  rw [delete, exec_bind_ok (a.exec_occupied key d), if_pos hfound]
  rcases hremove : exec (Fs.removeFile (a.blobPath key))
    { d with log := a.blobAt key :: d.log } with ⟨r, d'⟩
  rcases Fs.of_exec_change hremove with ⟨-, hok⟩ | ⟨e, rfl, -, htree⟩
  · rw [blobPath_eq, resolve_ofNames] at hok
    exact absurd hdir (FileTree.removeFile_eq_ok_iff.mp hok).2.1
  · rw [exec_bind, exec_mapErr, hremove]
    exact htree

/-- Only the temporary file beside the root directory changes. -/
def DotChanges (d d' : Disk) : Prop :=
  d.tree.node a.root = some .dir → TreeChanges (tmpPlaces a.root) ∅ d d'

instance : IsPreorder Disk a.DotChanges where
  refl d _ := refl_of _ d
  trans _ _ _ h h' hroot := (h hroot).trans (h' ((h hroot).keepsDirs _ hroot))

variable {a} in
theorem blobAt_of_dots (hkey : keyPlace key = []) : a.blobAt key = a.root := by
  rw [blobAt, hkey, List.append_nil]

variable {a} in
theorem step_dotChanges (hkey : keyPlace key = []) (d : Disk) {call : Call}
    (hcall : call.Alters key) : a.DotChanges d (a.step env d call) := by
  have hlook : ∀ (d : Disk) place, a.DotChanges d { d with log := place :: d.log } :=
    fun d _ _ => refl _ _ d.tree
  have hpath : a.blobPath key = ofNames a.root := by
    rw [blobPath_eq, blobAt_of_dots hkey]
  have hread : ∀ key, Respects a.DotChanges (a.readMeta env key) := by
    intro key
    unfold readMeta
    exact Respects.bind (Respects.mapErr (fun d => hlook d _) _) fun _ => Respects.ofResult _
  have hwrite : ∀ data metaBytes, Respects a.DotChanges (a.writeBoth key data metaBytes) := by
    intro data metaBytes d hroot
    obtain ⟨e, d', hexec, hchanges⟩ := atomicWrite_over_dir hroot data
    rw [writeBoth, hpath, exec_bind_error hexec]
    exact hchanges
  cases call with
  | store now stored input =>
    obtain rfl : stored = key := hcall
    exact store_respects env (hread stored) hwrite now input d
  | copy now source dest =>
    obtain rfl : dest = key := hcall
    exact copy_respects env (fun d => hlook d _) (fun d => hlook d _) (hread source) hwrite now d
  | delete deleted =>
    obtain rfl : deleted = key := hcall
    intro hroot
    have htree : (a.step env d (.delete deleted)).tree = d.tree :=
      delete_over_dir (by rwa [blobAt_of_dots hkey])
    rw [TreeChanges, htree]
    exact refl _ _ d.tree
  | retrieve _ | exist _ | list _ | metadata _ | health => exact hcall.elim

/-! ## What is seen of a blob -/

/-- The results of `retrieve`, `exists` and `metadata`. -/
def observe (key : BlobKey) (d : Disk) :
    Except StorageError (Bytes × BlobMeta) × Except StorageError Bool ×
      Except StorageError BlobMeta :=
  ((exec (a.retrieve env key) d).1, (exec (a.exist key) d).1, (exec (a.metadata env key) d).1)

/-- The result of `metadata`, given what is read of the sidecar. -/
def metaResult (key : BlobKey) (read : Except IoError Bytes) : Except StorageError BlobMeta :=
  read.mapError (readError "read meta" key (a.metaPath key)) >>= a.parseMeta env key

/-- The result of `retrieve`, from the two files. -/
def blobResult (key : BlobKey) (read readMeta : Except IoError Bytes) :
    Except StorageError (Bytes × BlobMeta) := do
  let data ← read.mapError (readError "read blob" key (a.blobPath key))
  let info ← a.metaResult env key readMeta
  checkBlob env.toBlobEnv key data info

theorem exec_readMeta (key : BlobKey) (d : Disk) :
    exec (a.readMeta env key) d =
      (a.metaResult env key (d.tree.read (a.metaAt key)),
        { d with log := a.metaAt key :: d.log }) := by
  rw [readMeta, metaResult, exec_bind, exec_mapErr, Fs.read, Fs.exec_look, metaPath_eq,
    resolve_ofNames]
  cases d.tree.read (a.metaAt key) <;> rfl

theorem observe_eq (key : BlobKey) (d : Disk) :
    a.observe env key d =
      (a.blobResult env key (d.tree.read (a.blobAt key)) (d.tree.read (a.metaAt key)),
        .ok (d.tree.occupied (a.blobAt key)),
        a.metaResult env key (d.tree.read (a.metaAt key))) := by
  have hretrieve : (exec (a.retrieve env key) d).1 =
      a.blobResult env key (d.tree.read (a.blobAt key)) (d.tree.read (a.metaAt key)) := by
    have hread : exec (Fs.read (a.blobPath key)) d =
        (d.tree.read (a.blobAt key), { d with log := a.blobAt key :: d.log }) := by
      rw [Fs.read, Fs.exec_look, blobPath_eq, resolve_ofNames]
    rw [retrieve, blobResult, exec_bind, exec_mapErr, hread]
    cases d.tree.read (a.blobAt key) with
    | error e => rfl
    | ok data =>
      simp only [mapError_ok, exec_bind, exec_readMeta]
      cases a.metaResult env key (d.tree.read (a.metaAt key)) <;> rfl
  rw [observe, hretrieve, exist, exec_occupied, metadata, exec_readMeta]

/-! ## Keys whose calls leave another blob alone -/

/-- Calls on the first key touch files of the second, or above or below them. -/
def Clash (key key' : BlobKey) : Prop :=
  keyPlace key ≠ [] ∧ ∃ q ∈ a.owned key', q ≠ a.root ∧
    (q ∈ a.touched key ∨ Above q (a.blobAt key) ∨ ∃ w ∈ a.touched key, Above w q)

instance (key key' : BlobKey) : Decidable (a.Clash key key') :=
  inferInstanceAs (Decidable (_ ∧ ∃ q ∈ a.owned key', _ ∧
    (_ ∨ _ ∨ ∃ w ∈ a.touched key, Above w q)))

variable {a}

theorem observe_of_changes {T A : Set Place} {d' : Disk} (hchanges : TreeChanges T A d d')
    (hapart : ∀ q ∈ a.owned key, d.tree.node q = some .dir ∨
      q ∉ T ∧ q ∉ A ∧ ∀ w, Above w q → w ∉ T) :
    a.observe env key d' = a.observe env key d := by
  have hnode : ∀ q ∈ a.owned key, d'.tree.node q = d.tree.node q := by
    intro q hq
    rcases hapart q hq with hdir | ⟨hT, hA, -⟩
    · rw [hdir, hchanges.keepsDirs q hdir]
    · exact node_eq hchanges hT hA
  have hread : ∀ q ∈ a.owned key, d'.tree.read q = d.tree.read q := by
    intro q hq
    rcases hapart q hq with hdir | ⟨hT, hA, habove⟩
    · rw [FileTree.read_dir hdir, FileTree.read_dir (hchanges.keepsDirs q hdir)]
    · exact FileTree.read_congr (hchanges.node_eq hT hA) fun q hq =>
        hchanges.isFile_eq (habove q hq)
  rw [observe_eq, observe_eq, hread _ (a.blobAt_mem_owned key), hread _ (a.metaAt_mem_owned key),
    FileTree.occupied, FileTree.occupied, hnode _ (a.blobAt_mem_owned key)]

/-- A temporary file at or above a file of a blob is at or above the blob. -/
theorem tmpOf_prefix_blobAt {p q : Place} (hq : q ∈ a.owned key) (hpre : tmpOf p <+: q) :
    tmpOf p <+: a.blobAt key := by
  simp only [owned, List.mem_cons, List.not_mem_nil, or_false] at hq
  rcases hq with rfl | rfl
  · exact hpre
  · have habove : Above (tmpOf p) (a.metaAt key) := ⟨hpre, tmpOf_ne_metaAt a p key⟩
    have hdir := (above_iff_prefix_dropLast.mp habove).2
    rw [metaAt, dropLast_sibling] at hdir
    exact hdir.trans (List.dropLast_prefix _)

theorem tmpOf_root_not_prefix (hroot : a.root ≠ []) (key : BlobKey) {q : Place}
    (hq : q ∈ a.owned key) : ¬ tmpOf a.root <+: q := by
  intro hpre
  have hroot' : a.root <+: a.blobAt key := List.prefix_append _ _
  have hlen : (tmpOf a.root).length = a.root.length := length_sibling hroot tmpSuffix
  have heq : tmpOf a.root = a.root := (List.prefix_of_prefix_length_le
    (tmpOf_prefix_blobAt hq hpre) hroot' (Nat.le_of_eq hlen)).eq_of_length hlen
  exact sibling_ne hroot (by decide) heq

theorem observe_step_of_not_clash {key' : BlobKey} (hclash : ¬ a.Clash key key')
    (hroot : d.tree.node a.root = some .dir) {call : Call} (hcall : call.Alters key) :
    a.observe env key' (a.step env d call) = a.observe env key' d := by
  by_cases hkey : keyPlace key = []
  · apply observe_of_changes env (step_dotChanges env hkey d hcall hroot)
    intro q hq
    refine Or.inr ⟨?_, Set.notMem_empty q, ?_⟩
    · rintro ⟨hne, rfl⟩
      exact tmpOf_root_not_prefix hne key' hq (List.prefix_refl _)
    · rintro w hw ⟨hne, rfl⟩
      exact tmpOf_root_not_prefix hne key' hq hw.1
  · apply observe_of_changes env (step_changes env a hkey d hcall)
    intro q hq
    by_cases hqroot : q = a.root
    · exact Or.inl (by rw [hqroot, hroot])
    · refine Or.inr ⟨?_, ?_, ?_⟩
      · intro hmem
        exact hclash ⟨hkey, q, hq, hqroot, Or.inl hmem⟩
      · intro habove
        exact hclash ⟨hkey, q, hq, hqroot, Or.inr (Or.inl habove)⟩
      · intro w hw hmem
        exact hclash ⟨hkey, q, hq, hqroot, Or.inr (Or.inr ⟨w, hmem, hw⟩)⟩

end FsBlobAdapter

end LifeEngine.BlobFs
