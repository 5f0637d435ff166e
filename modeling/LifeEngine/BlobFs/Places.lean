import LifeEngine.BlobFs.Adapter

/-!
# The places of a key

A valid key leads to a place below the root directory, the names of its segments
other than `.`.  The sidecar and the temporary files of the blob stand beside it.
Keys made of dots alone lead to the root directory itself.
-/

namespace LifeEngine.BlobFs

open Support StorageContext

/-! ## Names beside a place -/

/-- The place beside, with the text behind the name. -/
def sibling (place : Place) (suffix : List Char) : Place :=
  place.dropLast ++ [place.getLast?.getD [] ++ suffix]

theorem withSuffix_ofNames (place : Place) (suffix : List Char) :
    withSuffix (AbsPath.ofNames place) suffix = AbsPath.ofNames (sibling place suffix) := by
  rw [withSuffix, AbsPath.fileName_ofNames, AbsPath.setFileName_ofNames, sibling]

@[simp] theorem dropLast_sibling (place : Place) (suffix : List Char) :
    (sibling place suffix).dropLast = place.dropLast := by
  simp [sibling]

@[simp] theorem sibling_ne_nil (place : Place) (suffix : List Char) :
    sibling place suffix ≠ [] := by
  simp [sibling]

@[simp] theorem sibling_concat (dir : Place) (name : Name) (suffix : List Char) :
    sibling (dir ++ [name]) suffix = dir ++ [name ++ suffix] := by
  simp [sibling]

theorem length_sibling {place : Place} (h : place ≠ []) (suffix : List Char) :
    (sibling place suffix).length = place.length := by
  obtain ⟨dir, name, rfl⟩ := (List.eq_nil_or_concat' place).resolve_left h
  simp

theorem sibling_ne {place : Place} (h : place ≠ []) {suffix : List Char}
    (hsuffix : suffix ≠ []) : sibling place suffix ≠ place := by
  obtain ⟨dir, name, rfl⟩ := (List.eq_nil_or_concat' place).resolve_left h
  simpa using hsuffix

/-! ## Where a key leads -/

/-- The segments of the key other than `.`. -/
def keyPlace (key : BlobKey) : Place :=
  (key.asStr.toList.splitOn '/').filter fun segment => segment ≠ ['.']

theorem segment_ne_up {key : BlobKey} {segment : List Char}
    (h : segment ∈ key.asStr.toList.splitOn '/') : segment ≠ ['.', '.'] := by
  rintro rfl
  exact ((checkBlobKey_ok_iff key.asStr).mp key.valid).2.1 (infix_of_mem_splitOn h)

theorem components_key (key : BlobKey) : components key.asStr = AbsPath.ofNames (keyPlace key) := by
  have hvalid := (checkBlobKey_ok_iff key.asStr).mp key.valid
  have hup : ∀ segment ∈ key.asStr.toList.splitOn '/', segment ≠ ['.', '.'] :=
    fun segment => segment_ne_up
  have hempty := hvalid.2.2.2
  unfold components keyPlace
  generalize key.asStr.toList.splitOn '/' = segments at hup hempty
  induction segments with
  | nil => rfl
  | cons segment segments ih =>
    have hrest := ih (fun s hs => hup s (List.mem_cons_of_mem _ hs))
      (fun s hs => hempty s (List.mem_cons_of_mem _ hs))
    have hsegment := hup segment List.mem_cons_self
    have hne := hempty segment List.mem_cons_self
    by_cases hdot : segment = ['.']
    · simpa [component, hdot] using hrest
    · simpa [component, hdot, hne, hsegment, AbsPath.ofNames] using hrest

namespace FsBlobAdapter

variable (a : FsBlobAdapter)

def blobAt (key : BlobKey) : Place :=
  a.root ++ keyPlace key

def metaAt (key : BlobKey) : Place :=
  sibling (a.blobAt key) metaSuffix

/-- The place of the temporary file for a file to be written. -/
def tmpOf (place : Place) : Place :=
  sibling place tmpSuffix

theorem blobPath_eq (key : BlobKey) : a.blobPath key = AbsPath.ofNames (a.blobAt key) := by
  have hhead := ((checkBlobKey_ok_iff key.asStr).mp key.valid).1
  rw [blobPath, join, if_neg hhead, components_key, rootPath, blobAt, AbsPath.ofNames_append]

theorem metaPath_eq (key : BlobKey) : a.metaPath key = AbsPath.ofNames (a.metaAt key) := by
  rw [metaPath, blobPath_eq, withSuffix_ofNames, metaAt]

theorem tmpOf_ne_metaAt (place : Place) (key : BlobKey) : tmpOf place ≠ a.metaAt key := by
  intro heq
  -- the suffixes end in different characters
  have hname := congrArg (fun p : Place => p.getLast?.bind List.getLast?) heq
  simp only [tmpOf, metaAt, sibling, List.getLast?_concat, Option.bind_some] at hname
  rw [List.getLast?_append_of_ne_nil _ (by decide),
    List.getLast?_append_of_ne_nil _ (by decide)] at hname
  exact absurd hname (by decide)

/-- The files that belong to a blob. -/
def owned (key : BlobKey) : List Place :=
  [a.blobAt key, a.metaAt key]

@[simp] theorem blobAt_mem_owned (key : BlobKey) : a.blobAt key ∈ a.owned key := by
  simp [owned]

@[simp] theorem metaAt_mem_owned (key : BlobKey) : a.metaAt key ∈ a.owned key := by
  simp [owned]

/-- The files that storing a blob writes, moves or removes. -/
def touched (key : BlobKey) : List Place :=
  [a.blobAt key, tmpOf (a.blobAt key), a.metaAt key, tmpOf (a.metaAt key)]

theorem owned_subset_touched {key : BlobKey} {place : Place} (h : place ∈ a.owned key) :
    place ∈ a.touched key ∧ tmpOf place ∈ a.touched key := by
  simp only [owned, List.mem_cons, List.not_mem_nil, or_false] at h
  rcases h with rfl | rfl <;> simp [touched]

theorem mem_touched_iff {key : BlobKey} {place : Place} :
    place ∈ a.touched key ↔ ∃ p ∈ a.owned key, place = p ∨ place = tmpOf p := by
  simp [touched, owned, or_assoc]

end FsBlobAdapter

end LifeEngine.BlobFs
