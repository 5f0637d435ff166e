import LifeEngine.Backup.Engine
import Mathlib.Data.List.Sort

/-!
# Retention of backups

`enforce_retention` deletes the backups that are too many or too old, each judged by
itself.  An incremental backup needs the backups that it was made on top of, down to a
full one.  A time of `chrono` has a least value; where the age limit reaches behind it, the
subtraction panics before anything is deleted.
-/

namespace LifeEngine.Backup

open Support

structure RetentionPolicy where
  maxCount : Nat
  retentionDays : Option UInt32

def millisPerDay : Int := 86400000

/-- `DateTime::MIN_UTC`, the start of the year -262143. -/
def minUtc : Timestamp := -8334601228800000

/-- `Utc::now() - Duration::days(days)`, with the message of its panic. -/
def daysBefore (now : Timestamp) (days : UInt32) : Except String Timestamp := do
  let cutoff := now - days.toNat * millisPerDay
  ensure (minUtc ≤ cutoff) "`DateTime - TimeDelta` overflowed"
  return cutoff

def RetentionPolicy.ageCutoff (policy : RetentionPolicy) (now : Timestamp) :
    Except String (Option Timestamp) :=
  match policy.retentionDays with
  | none => .ok none
  | some days => (daysBefore now days).map some

/-- The stable sort of the code. -/
def newestFirst (manifests : List BackupManifest) : List BackupManifest :=
  manifests.insertionSort fun a b => b.createdAt ≤ a.createdAt

/-- The backup at this place of the list is deleted. -/
def Exceeds (maxCount : Nat) (ageCutoff : Option Timestamp) (i : Nat)
    (manifest : BackupManifest) : Prop :=
  maxCount ≤ i ∨ ∃ cutoff ∈ ageCutoff, manifest.createdAt < cutoff

instance (maxCount : Nat) (ageCutoff : Option Timestamp) (i : Nat) (manifest : BackupManifest) :
    Decidable (Exceeds maxCount ageCutoff i manifest) :=
  inferInstanceAs (Decidable (_ ∨ ∃ cutoff ∈ ageCutoff, _ < cutoff))

def Backend.delete (b : Backend) (key : String) : Bool × Backend :=
  ((b key).isSome, Function.update b key none)

/-- One round of the loop, with the number deleted so far. -/
def retainStep (maxCount : Nat) (ageCutoff : Option Timestamp) (state : Nat × Backend)
    (entry : BackupManifest × Nat) : Nat × Backend :=
  if Exceeds maxCount ageCutoff entry.2 entry.1 then
    let (_, backend) := state.2.delete (encKey entry.1.id)
    let (_, backend) := backend.delete (manifestKey entry.1.id)
    (state.1 + 1, backend)
  else state

/-- The number of deleted backups, or the panic. -/
def enforceRetention (now : Timestamp) (backend : Backend) (manifests : List BackupManifest)
    (policy : RetentionPolicy) : Except String Nat × Backend :=
  match policy.ageCutoff now with
  | .error panic => (.error panic, backend)
  | .ok ageCutoff =>
    let (deleted, backend) :=
      (newestFirst manifests).zipIdx.foldl (retainStep policy.maxCount ageCutoff) (0, backend)
    (.ok deleted, backend)

/-! ## What is left -/

/-- Both files of the backup are there. -/
def Backend.Holds (b : Backend) (id : String) : Prop :=
  (b (encKey id)).isSome ∧ (b (manifestKey id)).isSome

/-- The backups on a backend, with different ids and all files. -/
structure BackupSet where
  backend : Backend
  manifests : List BackupManifest
  id_inj : ∀ a ∈ manifests, ∀ b ∈ manifests, a.id = b.id → a = b
  holds : ∀ m ∈ manifests, backend.Holds m.id

/-- The backup is among the newest ones and not too old, or the cutoff has no value. -/
def Kept (policy : RetentionPolicy) (now : Timestamp) (manifests : List BackupManifest)
    (manifest : BackupManifest) : Prop :=
  ∀ ageCutoff, policy.ageCutoff now = .ok ageCutoff →
    ∀ i, (newestFirst manifests)[i]? = some manifest →
      ¬ Exceeds policy.maxCount ageCutoff i manifest

/-- The backups of the set whose files are left. -/
def BackupSet.Remains (set : BackupSet) (policy : RetentionPolicy) (now : Timestamp)
    (manifest : BackupManifest) : Prop :=
  manifest ∈ set.manifests ∧
    (enforceRetention now set.backend set.manifests policy).2.Holds manifest.id

section Loop

variable {maxCount : Nat} {ageCutoff : Option Timestamp} {state : Nat × Backend} {id : String}

theorem holds_retainStep {entry : BackupManifest × Nat} :
    (retainStep maxCount ageCutoff state entry).2.Holds id ↔
      state.2.Holds id ∧ ¬ (entry.1.id = id ∧ Exceeds maxCount ageCutoff entry.2 entry.1) := by
  rw [retainStep]
  by_cases hexceeds : Exceeds maxCount ageCutoff entry.2 entry.1
  · by_cases hid : entry.1.id = id
    · simp [hexceeds, hid, Backend.Holds, Backend.delete]
    · have hne : id ≠ entry.1.id := fun h => hid h.symm
      simp [hexceeds, hid, hne, Backend.Holds, Backend.delete]
  · simp [hexceeds]

theorem holds_foldl_retainStep {entries : List (BackupManifest × Nat)} :
    (entries.foldl (retainStep maxCount ageCutoff) state).2.Holds id ↔
      state.2.Holds id ∧
        ∀ entry ∈ entries, ¬ (entry.1.id = id ∧ Exceeds maxCount ageCutoff entry.2 entry.1) := by
  induction entries generalizing state with
  | nil => simp
  | cons entry entries ih =>
    rw [List.foldl_cons, ih, holds_retainStep, List.forall_mem_cons, and_assoc]

end Loop

/-- Exactly the backups that are kept remain. -/
theorem remains_iff (set : BackupSet) (policy : RetentionPolicy) (now : Timestamp)
    (manifest : BackupManifest) :
    set.Remains policy now manifest ↔
      manifest ∈ set.manifests ∧ Kept policy now set.manifests manifest := by
  refine and_congr_right fun hmem => ?_
  have hfiles := set.holds manifest hmem
  cases hcutoff : policy.ageCutoff now with
  | error panic =>
    -- Nothing is deleted.
    simp [enforceRetention, Kept, hcutoff, hfiles]
  | ok ageCutoff =>
    simp only [enforceRetention, hcutoff, holds_foldl_retainStep, Kept, Except.ok.injEq,
      forall_eq']
    constructor
    · rintro ⟨-, hall⟩ i hi hexceeds
      exact hall (manifest, i) (List.mem_zipIdx_iff_getElem?.mpr hi) ⟨rfl, hexceeds⟩
    · intro hkept
      refine ⟨hfiles, ?_⟩
      rintro ⟨other, i⟩ hother ⟨hid, hexceeds⟩
      have hi := List.mem_zipIdx_iff_getElem?.mp hother
      have hothermem := (List.mem_insertionSort _).mp (List.mem_of_getElem? hi)
      obtain rfl := set.id_inj other hothermem manifest hmem hid
      exact hkept i hi hexceeds

/-! ## Chains of backups -/

/-- The backup is stored, and so is all below it, down to a full one. -/
inductive Restorable (stored : BackupManifest → Prop) : BackupManifest → Prop where
  | full {m : BackupManifest} (hm : stored m) (htype : m.backupType = .full) :
      Restorable stored m
  | incremental {m parent : BackupManifest} (hm : stored m)
      (htype : m.backupType = .incremental) (hparent : m.parentId = some parent.id)
      (hchain : Restorable stored parent) : Restorable stored m

theorem Restorable.stored {stored : BackupManifest → Prop} {m : BackupManifest}
    (h : Restorable stored m) : stored m := by
  rcases h with ⟨hm, -⟩ | ⟨hm, -, -, -⟩ <;> exact hm

/-- What remains and had its chain before still has it. -/
def KeepsChains (set : BackupSet) (policy : RetentionPolicy) (now : Timestamp) : Prop :=
  ∀ m, set.Remains policy now m → Restorable (· ∈ set.manifests) m →
    Restorable (set.Remains policy now) m

/-- All chains are kept exactly if the parent of every kept backup is. -/
theorem keepsChains_iff (set : BackupSet) (policy : RetentionPolicy) (now : Timestamp) :
    KeepsChains set policy now ↔
      ∀ m, Kept policy now set.manifests m → m.backupType = .incremental →
        Restorable (· ∈ set.manifests) m → ∀ parent ∈ set.manifests,
          m.parentId = some parent.id → Kept policy now set.manifests parent := by
  constructor
  · intro hkeeps m hkept htype hbefore parent hparent hid
    have hremains := (remains_iff set policy now m).mpr ⟨hbefore.stored, hkept⟩
    rcases hkeeps m hremains hbefore with ⟨-, hfull⟩ | @⟨_, parent', -, -, hid', hchain⟩
    · exact absurd (htype.symm.trans hfull) (by decide)
    · obtain ⟨hmem', hkept'⟩ := (remains_iff set policy now parent').mp hchain.stored
      have hsame : parent.id = parent'.id := Option.some.inj (hid.symm.trans hid')
      rw [set.id_inj parent hparent parent' hmem' hsame]
      exact hkept'
  · intro hclosed m hremains hbefore
    -- Down the chain, every parent remains.
    induction hbefore with
    | full hm htype => exact .full hremains htype
    | @incremental m parent hm htype hparent hchain ih =>
      have hkept := ((remains_iff set policy now m).mp hremains).2
      have hparentKept := hclosed m hkept htype (.incremental hm htype hparent hchain)
        parent hchain.stored hparent
      exact .incremental hremains htype hparent
        (ih ((remains_iff set policy now parent).mpr ⟨hchain.stored, hparentKept⟩))

def sundayFull : BackupManifest :=
  ⟨"full-20260104-020000-000", 0, .full, [], [], 0, "", none, none⟩

def mondayIncremental : BackupManifest :=
  ⟨"incr-20260105-020000-000", millisPerDay, .incremental, [], [], 0, "",
    some "full-20260104-020000-000", none⟩

def twoBackups : BackupSet where
  backend _ := some []
  manifests := [sundayFull, mondayIncremental]
  id_inj := by decide
  holds _ _ := ⟨rfl, rfl⟩

/-- The newest backup loses the full one it depends on. -/
theorem not_keepsChains_twoBackups : ¬ KeepsChains twoBackups ⟨1, none⟩ millisPerDay := by
  have hsorted : newestFirst twoBackups.manifests = [mondayIncremental, sundayFull] := by decide
  intro hkeeps
  have hremains : twoBackups.Remains ⟨1, none⟩ millisPerDay mondayIncremental := by
    refine (remains_iff ..).mpr ⟨by decide, ?_⟩
    rintro _ ⟨⟩ i hi hexceeds
    rcases i with _ | _ | i
    · exact absurd hexceeds (by decide)
    · exact absurd hi (by decide)
    · exact nomatch hi
  have hbefore : Restorable (· ∈ twoBackups.manifests) mondayIncremental :=
    .incremental (by decide) rfl rfl (.full (m := sundayFull) (by decide) rfl)
  rcases hkeeps _ hremains hbefore with ⟨-, hfull⟩ | @⟨_, parent, -, -, hid, hchain⟩
  · exact absurd hfull (by decide)
  · obtain ⟨hmem, hkept⟩ := (remains_iff ..).mp hchain.stored
    have hsame : sundayFull.id = parent.id := Option.some.inj hid
    obtain rfl := twoBackups.id_inj sundayFull (by decide) parent hmem hsame
    exact hkept none rfl 1 (by rw [hsorted]; rfl) (Or.inl (Nat.le_refl 1))

/-- With an age limit of a hundred million days the call panics. -/
example (backend : Backend) (manifests : List BackupManifest) :
    enforceRetention millisPerDay backend manifests ⟨1, some 100000000⟩ =
      (.error "`DateTime - TimeDelta` overflowed", backend) := by
  have hbehind : ¬ minUtc ≤ millisPerDay - (100000000 : UInt32).toNat * millisPerDay := by decide
  simp only [enforceRetention, RetentionPolicy.ageCutoff, daysBefore, ensure, if_neg hbehind]
  rfl

end LifeEngine.Backup
