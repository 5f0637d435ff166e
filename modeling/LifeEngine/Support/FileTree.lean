import LifeEngine.Support.Paths
import Mathlib.Data.Set.Insert

/-!
# File trees

A file tree maps the places of a file system to files and directories.  Whatever
exists stands in a directory, and the root is one.  The operations are those of a
file system without links and permissions.  `Changes` says where two trees may
differ; every operation comes with its `Changes` lemma, and the reads are shown to
depend only on the place read and the places above it.
-/

namespace LifeEngine.Support

open List Function

/-- With the texts of the operating system. -/
inductive IoError where
  | notFound
  | notADirectory
  | isADirectory
  | alreadyExists
  deriving DecidableEq

def IoError.display : IoError → String
  | notFound => "No such file or directory (os error 2)"
  | notADirectory => "Not a directory (os error 20)"
  | isADirectory => "Is a directory (os error 21)"
  | alreadyExists => "File exists (os error 17)"

inductive Node (β : Type*) where
  | file (contents : β)
  | dir
  deriving DecidableEq

structure FileTree (ν β : Type*) where
  node : List ν → Option (Node β)
  /-- A list that contains every place where something exists. -/
  paths : List (List ν)
  listed : ∀ p, node p ≠ none → p ∈ paths
  rooted : node [] = some .dir
  closed : ∀ p n, node (p ++ [n]) ≠ none → node p = some .dir

namespace FileTree

variable {ν β : Type*}

def isDir (t : FileTree ν β) (p : List ν) : Bool :=
  match t.node p with
  | some .dir => true
  | _ => false

def isFile (t : FileTree ν β) (p : List ν) : Bool :=
  match t.node p with
  | some (.file _) => true
  | _ => false

/-- Whether anything exists at the place. -/
def occupied (t : FileTree ν β) (p : List ν) : Bool :=
  (t.node p).isSome

variable {p : List ν}

theorem isDir_iff {t : FileTree ν β} : t.isDir p = true ↔ t.node p = some .dir := by
  unfold isDir
  split
  · next h => simp [h]
  · next h => simpa using h

instance (t : FileTree ν β) (p : List ν) : Decidable (t.node p = some .dir) :=
  decidable_of_iff (t.isDir p = true) isDir_iff

theorem isFile_iff {t : FileTree ν β} : t.isFile p = true ↔ ∃ b, t.node p = some (.file b) := by
  unfold isFile
  split
  · next b h => simp [h]
  · next h => simpa using h

/-- A bound on the length of the places that exist. -/
def depth (t : FileTree ν β) : Nat :=
  (t.paths.map List.length).foldr max 0

variable (t : FileTree ν β)

theorem length_le_depth (h : t.node p ≠ none) : p.length ≤ t.depth := by
  have hmem := t.listed p h
  unfold depth
  generalize t.paths = paths at hmem ⊢
  induction paths with
  | nil => simp at hmem
  | cons q qs ih =>
    rcases mem_cons.mp hmem with rfl | hrest
    · exact Nat.le_max_left _ _
    · exact Nat.le_trans (ih hrest) (Nat.le_max_right _ _)

/-- The tree of a file system with nothing in it. -/
def bare : FileTree ν β where
  node p := if p.isEmpty then some .dir else none
  paths := [[]]
  listed := by
    intro p hp
    cases p with
    | nil => simp
    | cons n p => simp at hp
  rooted := rfl
  closed := by
    intro p n hp
    simp at hp

/-- What stands above something that exists is a directory. -/
theorem node_of_above {q : List ν} (hq : t.node q ≠ none) (h : Above p q) :
    t.node p = some .dir := by
  induction q using reverseRecOn with
  | nil => exact absurd h.length_lt (by simp)
  | append_singleton q n ih =>
    have hdir := t.closed q n hq
    by_cases hpq : p = q
    · rw [hpq, hdir]
    · exact ih (by simp [hdir]) ⟨above_concat_iff.mp h, hpq⟩

/-! ## Reading -/

section Reading

variable [DecidableEq ν]

/-- A file stands above the place. -/
def blocked (t : FileTree ν β) (p : List ν) : Bool :=
  p.inits.any fun q => decide (q ≠ p) && t.isFile q

variable {t : FileTree ν β} {p : List ν}

theorem blocked_iff : t.blocked p = true ↔ ∃ q, Above q p ∧ t.isFile q = true := by
  simp only [blocked, any_eq_true, mem_inits, Bool.and_eq_true, decide_eq_true_eq]
  constructor
  · rintro ⟨q, hpre, hne, hfile⟩
    exact ⟨q, ⟨hpre, hne⟩, hfile⟩
  · rintro ⟨q, ⟨hpre, hne⟩, hfile⟩
    exact ⟨q, hpre, hne, hfile⟩

/-- The error of an operation where nothing exists. -/
def missing (t : FileTree ν β) (p : List ν) : IoError :=
  if t.blocked p then .notADirectory else .notFound

def read (t : FileTree ν β) (p : List ν) : Except IoError β :=
  match t.node p with
  | some (.file b) => .ok b
  | some .dir => .error .isADirectory
  | none => .error (t.missing p)

/-- The names in a directory. -/
def readDir (t : FileTree ν β) (p : List ν) : Except IoError (List ν) :=
  match t.node p with
  | some .dir => .ok ((t.paths.filterMap fun q =>
    if q.dropLast = p ∧ t.occupied q then q.getLast? else none).dedup)
  | some (.file _) => .error .notADirectory
  | none => .error (t.missing p)

theorem blocked_eq_false_iff : t.blocked p = false ↔ ∀ q, Above q p → t.isFile q = false := by
  rw [← Bool.not_eq_true, blocked_iff]
  simp

theorem read_eq_notFound_iff :
    t.read p = .error .notFound ↔ t.node p = none ∧ ∀ q, Above q p → t.isFile q = false := by
  rw [← blocked_eq_false_iff, read]
  cases t.node p with
  | none => cases hb : t.blocked p <;> simp [missing, hb]
  | some node =>
    cases node <;> simp

theorem read_below_missing {q : List ν} (hp : t.node p = none)
    (habove : ∀ x, Above x p → t.isFile x = false) (hpq : p <+: q) :
    t.read q = .error .notFound := by
  have hbelow : ∀ x, p <+: x → t.node x = none := by
    intro x hx
    by_contra hnode
    by_cases hxp : p = x
    · exact hnode (hxp ▸ hp)
    · rw [t.node_of_above hnode ⟨hx, hxp⟩] at hp
      simp at hp
  rw [read_eq_notFound_iff]
  refine ⟨hbelow q hpq, ?_⟩
  intro x hx
  rcases prefix_or_prefix_of_prefix hx.1 hpq with hxp | hpx
  · by_cases heq : x = p
    · rw [isFile, heq, hp]
    · exact habove x ⟨hxp, heq⟩
  · rw [isFile, hbelow x hpx]

theorem read_dir (h : t.node p = some .dir) : t.read p = .error .isADirectory := by
  rw [read, h]

/-- A read sees the place and the files above it. -/
theorem read_congr {t' : FileTree ν β} (hnode : t'.node p = t.node p)
    (habove : ∀ q, Above q p → t'.isFile q = t.isFile q) : t'.read p = t.read p := by
  have hblocked : t'.blocked p = t.blocked p := by
    rw [Bool.eq_iff_iff, blocked_iff, blocked_iff]
    constructor
    · rintro ⟨q, hq, hfile⟩
      exact ⟨q, hq, habove q hq ▸ hfile⟩
    · rintro ⟨q, hq, hfile⟩
      exact ⟨q, hq, (habove q hq).symm ▸ hfile⟩
  simp only [read, missing, hnode, hblocked]

end Reading

/-! ## Writing -/

section Writing

variable [DecidableEq ν]

/-- A tree in which a place holds a file. -/
def putFile (t : FileTree ν β) (p : List ν) (b : β)
    (h : t.node p ≠ some .dir ∧ t.node p.dropLast = some .dir) : FileTree ν β where
  node := update t.node p (some (.file b))
  paths := p :: t.paths
  listed := by
    intro q hq
    by_cases hqp : q = p
    · simp [hqp]
    · rw [update_of_ne hqp] at hq
      exact mem_cons_of_mem p (t.listed q hq)
  rooted := by
    have hne : [] ≠ p := by
      rintro rfl
      exact h.1 t.rooted
    rw [update_of_ne hne, t.rooted]
  closed := by
    intro q n hq
    have hdir : t.node q = some .dir := by
      by_cases hqp : q ++ [n] = p
      · have hparent := h.2
        rwa [← hqp, dropLast_concat] at hparent
      · rw [update_of_ne hqp] at hq
        exact t.closed q n hq
    have hne : q ≠ p := fun he => h.1 (he ▸ hdir)
    rw [update_of_ne hne, hdir]

/-- A tree without the file that was at a place. -/
def eraseFile (t : FileTree ν β) (p : List ν) (h : t.node p ≠ some .dir) : FileTree ν β where
  node := update t.node p none
  paths := t.paths
  listed := by
    intro q hq
    by_cases hqp : q = p
    · simp [hqp] at hq
    · rw [update_of_ne hqp] at hq
      exact t.listed q hq
  rooted := by
    have hne : [] ≠ p := by
      rintro rfl
      exact h t.rooted
    rw [update_of_ne hne, t.rooted]
  closed := by
    intro q n hq
    have hqn : q ++ [n] ≠ p := by
      rintro rfl
      simp at hq
    rw [update_of_ne hqn] at hq
    have hdir := t.closed q n hq
    have hne : q ≠ p := fun he => h (he ▸ hdir)
    rw [update_of_ne hne, hdir]

/-- A place and all places above it become directories. -/
def putDirs (t : FileTree ν β) (p : List ν) : FileTree ν β where
  node q := if q <+: p then some .dir else t.node q
  paths := p.inits ++ t.paths
  listed := by
    intro q hq
    by_cases hqp : q <+: p
    · exact mem_append_left _ ((mem_inits q p).mpr hqp)
    · rw [if_neg hqp] at hq
      exact mem_append_right _ (t.listed q hq)
  rooted := if_pos nil_prefix
  closed := by
    intro q n hq
    by_cases hqp : q <+: p
    · exact if_pos hqp
    · have hqn : ¬ q ++ [n] <+: p := fun h => hqp ((prefix_append q [n]).trans h)
      rw [if_neg hqn] at hq
      rw [if_neg hqp]
      exact t.closed q n hq

def write (t : FileTree ν β) (p : List ν) (b : β) : Except IoError (FileTree ν β) :=
  if h : t.node p ≠ some .dir ∧ t.node p.dropLast = some .dir then .ok (t.putFile p b h)
  else if t.node p = some .dir then .error .isADirectory
  else .error (t.missing p)

def removeFile (t : FileTree ν β) (p : List ν) : Except IoError (FileTree ν β) :=
  if h : t.node p = some .dir then .error .isADirectory
  else if t.occupied p then .ok (t.eraseFile p h)
  else .error (t.missing p)

/-- Moves a file, over a file at its new place. -/
def renameFile (t : FileTree ν β) (p q : List ν) : Except IoError (FileTree ν β) :=
  match t.read p with
  | .error e => .error e
  | .ok b =>
    if t.node q = some .dir then .error .isADirectory
    else if t.node q.dropLast = some .dir then
      t.removeFile p >>= fun t' => t'.write q b
    else .error (t.missing q)

/-- Makes a directory and all directories above it. -/
def createDirAll (t : FileTree ν β) (p : List ν) : Except IoError (FileTree ν β) :=
  if t.isFile p then .error .alreadyExists
  else if t.blocked p then .error .notADirectory
  else .ok (t.putDirs p)

@[simp] theorem node_putDirs (p q : List ν) :
    (t.putDirs p).node q = if q <+: p then some .dir else t.node q := rfl

@[simp] theorem node_eraseFile (p q : List ν)
    (h : t.node p ≠ some .dir) :
    (t.eraseFile p h).node q = if q = p then none else t.node q := by
  simp [eraseFile, update_apply]

@[simp] theorem node_putFile (p q : List ν) (b : β)
    (h : t.node p ≠ some .dir ∧ t.node p.dropLast = some .dir) :
    (t.putFile p b h).node q = if q = p then some (.file b) else t.node q := by
  simp [putFile, update_apply]

variable {t t' : FileTree ν β} {p : List ν}

theorem write_eq_ok_iff {b : β} : t.write p b = .ok t' ↔ ∃ h, t' = t.putFile p b h := by
  unfold write
  by_cases h : t.node p ≠ some .dir ∧ t.node p.dropLast = some .dir
  · simp [h, eq_comm]
  · by_cases hdir : t.node p = some .dir
    · simp [hdir]
    · simp only [not_and] at h
      simp [hdir, h hdir]

theorem removeFile_eq_ok_iff :
    t.removeFile p = .ok t' ↔ t.node p ≠ none ∧ ∃ h, t' = t.eraseFile p h := by
  unfold removeFile
  by_cases h : t.node p = some .dir
  · simp [h]
  · by_cases hocc : t.node p = none
    · simp [hocc, occupied]
    · have hsome : t.occupied p = true := Option.isSome_iff_ne_none.mpr hocc
      simp [h, hocc, hsome, eq_comm]

theorem createDirAll_eq_ok_iff :
    t.createDirAll p = .ok t' ↔ (∀ q, q <+: p → t.isFile q = false) ∧ t' = t.putDirs p := by
  have hfree : (∀ q, q <+: p → t.isFile q = false) ↔ t.isFile p = false ∧ t.blocked p = false := by
    rw [blocked_eq_false_iff]
    constructor
    · intro h
      exact ⟨h p (prefix_refl p), fun q habove => h q habove.1⟩
    · rintro ⟨hp, habove⟩ q hq
      by_cases hqp : q = p
      · rw [hqp, hp]
      · exact habove q ⟨hq, hqp⟩
  rw [hfree, createDirAll]
  cases t.isFile p <;> cases t.blocked p <;> simp [eq_comm]

theorem read_eq_ok_iff {b : β} : t.read p = .ok b ↔ t.node p = some (.file b) := by
  rw [read]
  cases t.node p with
  | none => simp
  | some node =>
    cases node <;> simp

/-- A rename succeeds from a file to where one can be. -/
theorem renameFile_ok {q : List ν} {b : β} (hp : t.node p = some (.file b))
    (hq : t.node q ≠ some .dir) (hparent : t.node q.dropLast = some .dir) :
    ∃ t', t.renameFile p q = .ok t' ∧
      ∀ x, t'.node x = if x = q then some (.file b) else if x = p then none else t.node x := by
  have hpdir : t.node p ≠ some .dir := by simp [hp]
  have hqput : (t.eraseFile p hpdir).node q ≠ some .dir ∧
      (t.eraseFile p hpdir).node q.dropLast = some .dir := by
    have hne : q.dropLast ≠ p := fun he => hpdir (he ▸ hparent)
    rw [node_eraseFile, node_eraseFile, if_neg hne]
    refine ⟨?_, hparent⟩
    by_cases hqp : q = p
    · simp [hqp]
    · simpa [hqp] using hq
  have hremove : t.removeFile p = .ok (t.eraseFile p hpdir) :=
    removeFile_eq_ok_iff.mpr ⟨by simp [hp], hpdir, rfl⟩
  refine ⟨(t.eraseFile p hpdir).putFile q b hqput, ?_, ?_⟩
  · rw [renameFile, read_eq_ok_iff.mpr hp]
    simp only [hq, hparent, hremove]
    exact write_eq_ok_iff.mpr ⟨hqput, rfl⟩
  · intro x
    rw [node_putFile, node_eraseFile]

theorem of_renameFile_eq_ok {q : List ν} (h : t.renameFile p q = .ok t') :
    ∃ b, t.node p = some (.file b) ∧ t.node q ≠ some .dir ∧
      ∀ x, t'.node x = if x = q then some (.file b) else if x = p then none else t.node x := by
  cases hread : t.read p with
  | error e => simp [renameFile, hread] at h
  | ok b =>
    have hp := read_eq_ok_iff.mp hread
    by_cases hq : t.node q = some .dir
    · simp [renameFile, hread, hq] at h
    by_cases hparent : t.node q.dropLast = some .dir
    · obtain ⟨t₁, hrename, hnode⟩ := renameFile_ok hp hq hparent
      obtain rfl : t₁ = t' := Except.ok.inj (hrename.symm.trans h)
      exact ⟨b, hp, hq, hnode⟩
    · simp [renameFile, hread, hq, hparent] at h

end Writing

/-! ## What an operation may change -/

/-- Outside `T` only places in `A` where nothing existed may have become directories. No directory
is lost, and none is new outside `A`. -/
structure Changes (T A : Set (List ν)) (t t' : FileTree ν β) : Prop where
  keepsDirs : ∀ p, t.node p = some .dir → t'.node p = some .dir
  newDirs : ∀ p, p ∉ A → t'.node p = some .dir → t.node p = some .dir
  outside : ∀ p, p ∉ T →
    t'.node p = t.node p ∨ p ∈ A ∧ t.node p = none ∧ t'.node p = some .dir

namespace Changes

variable {T T' A A' : Set (List ν)} {t t' t'' : FileTree ν β}

theorem refl (T A : Set (List ν)) (t : FileTree ν β) : Changes T A t t :=
  ⟨fun _ h => h, fun _ _ h => h, fun _ _ => Or.inl rfl⟩

theorem trans (h : Changes T A t t') (h' : Changes T A t' t'') : Changes T A t t'' := by
  refine ⟨fun p hp => h'.keepsDirs p (h.keepsDirs p hp),
    fun p hA hp => h.newDirs p hA (h'.newDirs p hA hp), ?_⟩
  intro p hp
  rcases h.outside p hp with heq | ⟨hA, hnone, hdir⟩
  · rw [← heq]
    exact h'.outside p hp
  · exact Or.inr ⟨hA, hnone, h'.keepsDirs p hdir⟩

theorem mono (h : Changes T A t t') (hT : T ⊆ T') (hA : A ⊆ A') : Changes T' A' t t' := by
  refine ⟨h.keepsDirs, fun p hp => h.newDirs p fun hmem => hp (hA hmem), ?_⟩
  intro p hp
  rcases h.outside p (fun hmem => hp (hT hmem)) with heq | ⟨hmem, hrest⟩
  · exact Or.inl heq
  · exact Or.inr ⟨hA hmem, hrest⟩

theorem isFile_eq (h : Changes T A t t') {p : List ν} (hp : p ∉ T) : t'.isFile p = t.isFile p := by
  rcases h.outside p hp with heq | ⟨-, hnone, hdir⟩
  · simp only [isFile, heq]
  · simp only [isFile, hnone, hdir]

theorem node_eq (h : Changes T A t t') {p : List ν} (hp : p ∉ T) (hA : p ∉ A) :
    t'.node p = t.node p := by
  rcases h.outside p hp with heq | ⟨hmem, -⟩
  · exact heq
  · exact absurd hmem hA

/-- Only files changed, and only in `T`. -/
theorem of_forall (hT : ∀ x ∈ T, t.node x ≠ some .dir ∧ t'.node x ≠ some .dir)
    (h : ∀ x ∉ T, t'.node x = t.node x) : Changes T ∅ t t' where
  keepsDirs x hx := by rw [h x fun hmem => (hT x hmem).1 hx, hx]
  newDirs x _ hx := by rw [← h x fun hmem => (hT x hmem).2 hx, hx]
  outside x hx := Or.inl (h x hx)

section Operations

variable [DecidableEq ν] {p q : List ν} {b : β}

theorem of_write (h : t.write p b = .ok t') : Changes {p} ∅ t t' := by
  obtain ⟨hput, rfl⟩ := write_eq_ok_iff.mp h
  refine of_forall (by simpa using hput.1) ?_
  intro x hx
  rw [node_putFile]
  exact if_neg hx

theorem of_removeFile (h : t.removeFile p = .ok t') : Changes {p} ∅ t t' := by
  obtain ⟨-, herase, rfl⟩ := removeFile_eq_ok_iff.mp h
  refine of_forall (by simpa using herase) ?_
  intro x hx
  rw [node_eraseFile]
  exact if_neg hx

theorem of_renameFile (h : t.renameFile p q = .ok t') : Changes {p, q} ∅ t t' := by
  obtain ⟨b, hp, hq, hnode⟩ := of_renameFile_eq_ok h
  refine of_forall (by by_cases hpq : p = q <;> simp [hp, hq, hnode, hpq]) ?_
  intro x hx
  simp only [Set.mem_insert_iff, Set.mem_singleton_iff, not_or] at hx
  rw [hnode, if_neg hx.2, if_neg hx.1]

theorem of_createDirAll (h : t.createDirAll p = .ok t') : Changes ∅ {x | x <+: p} t t' := by
  obtain ⟨hfree, rfl⟩ := createDirAll_eq_ok_iff.mp h
  constructor
  · intro x hx
    rw [node_putDirs, hx, ite_self]
  · intro x (hxp : ¬ x <+: p) hx
    rwa [node_putDirs, if_neg hxp] at hx
  · intro x _
    by_cases hxp : x <+: p
    · rw [node_putDirs, if_pos hxp]
      cases hnode : t.node x with
      | none => exact Or.inr ⟨hxp, rfl, rfl⟩
      | some node =>
        cases node with
        | dir => exact Or.inl rfl
        | file c =>
          have hfile : t.isFile x = true := isFile_iff.mpr ⟨c, hnode⟩
          simp [hfree x hxp] at hfile
    · exact Or.inl (by rw [node_putDirs, if_neg hxp])

end Operations

end Changes

end FileTree

end LifeEngine.Support
