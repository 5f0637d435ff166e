import LifeEngine.Federation.Sync

/-!
# Delivery of pulled changes

A cursor stands for the changes that a peer need not send again, so it should only move
past changes that are settled: applied, or skipped because the local record is newer.
`sync_with_peer` moves it whatever became of the changes.  The main result says exactly
which syncs deliver nevertheless.
-/

namespace LifeEngine.Federation

open Support Storage Records Sync Action

/-- What became of a change whose application did not fail. -/
inductive Verdict where
  | applied
  | skipped
  | dropped
  deriving DecidableEq, Repr

variable {σ : Type} (storage : StorageAdapter σ) (encode : String → String)

/-- `apply_change`, saying whether it dropped or skipped the change. -/
def applyTraced (ns : String) (change : ChangeRecord) : Action σ String Verdict :=
  match change.operation with
  | .create =>
    match change.data with
    | some data => do
        let _ ← storage.createWithId ns change.collection change.id data
        pure .applied
    | none => pure .dropped
  | .update =>
    match change.data with
    | some data => do
        match ← storage.get ns change.collection change.id with
        | some existing =>
          if change.version > existing.version then
            let _ ← mapErr StorageError.display
              (storage.update ns change.collection change.id data existing.version)
            pure .applied
          else pure .skipped
        | none =>
          let _ ← storage.createWithId ns change.collection change.id data
          pure .applied
    | none => pure .dropped
  | .delete => do
      let existing ← storage.get ns change.collection change.id
      if existing.any fun r => change.version ≤ r.version then pure .skipped
      else
        let _ ← storage.delete ns change.collection change.id
        pure .applied

/-- The change was applied, or skipped by last-write-wins. -/
def Settled (ns : String) (s : σ) (change : ChangeRecord) : Prop :=
  (exec (applyTraced storage ns change) s).1 = .ok .applied ∨
    (exec (applyTraced storage ns change) s).1 = .ok .skipped

/-- The application of the change did not fail. -/
def Succeeds (ns : String) (s : σ) (change : ChangeRecord) : Prop :=
  (exec (applyChange storage ns change) s).1 = .ok ()

/-! ## The property -/

/-- If the cursor moves, all changes of the answer are settled. -/
def MovesPastSettled (s : SyncState σ) (pull : Pull) : Prop :=
  ∀ response, pull.response encode s = some response →
    (pullStep storage encode s pull).cursors.get pull.peer.id pull.collection ≠
      s.cursors.get pull.peer.id pull.collection →
    EveryStep (federationStep storage pull.peer.id)
      (Settled storage (federationNamespace pull.peer.id)) s.storage response.changes

/-- Some change of the answer could not be applied. -/
def FailsIn (s : SyncState σ) (pull : Pull) : Prop :=
  ∃ response, pull.response encode s = some response ∧
    ¬ EveryStep (federationStep storage pull.peer.id)
      (Succeeds storage (federationNamespace pull.peer.id)) s.storage response.changes

def Pull.SameCursor (pull other : Pull) : Prop :=
  other.peer.id = pull.peer.id ∧ other.collection = pull.collection

/-- After a failure the next pull asks since the same cursor. -/
def OffersAgain (s : SyncState σ) (pulls : List Pull) : Prop :=
  ∀ pre pull mid next post, pulls = pre ++ pull :: (mid ++ next :: post) →
    FailsIn storage encode (run (pullStep storage encode) s pre) pull →
    (∀ other ∈ mid, ¬ pull.SameCursor other) → pull.SameCursor next →
      (run (pullStep storage encode) s (pre ++ pull :: mid)).since next.peer.id
          next.collection =
        (run (pullStep storage encode) s pre).since pull.peer.id pull.collection

/-- Cursors move past settled changes only, and what failed is asked for again. -/
structure Delivers (s : SyncState σ) (calls : List SyncCall) : Prop where
  moves : EveryStep (pullStep storage encode) (MovesPastSettled storage encode) s
    (calls.flatMap SyncCall.pulls)
  again : OffersAgain storage encode s (calls.flatMap SyncCall.pulls)

/-- With a new cursor no change fails or lacks its data. -/
def SucceedsBeforeMoving (s : SyncState σ) (pull : Pull) : Prop :=
  ∀ response, pull.response encode s = some response → response.cursor ≠ "" →
    s.cursors.get pull.peer.id pull.collection ≠ some response.cursor →
    EveryStep (federationStep storage pull.peer.id)
      (fun st change => Succeeds storage (federationNamespace pull.peer.id) st change ∧
        (change.operation ≠ .delete → change.data.isSome)) s.storage response.changes

/-! ## Settled changes -/

variable {storage encode}

theorem exec_then_pure {α β : Type} (x : Action σ String α) (b : β) (s : σ) :
    exec (do let _ ← x; pure b) s = ((exec x s).1.map fun _ => b, (exec x s).2) := by
  rw [exec_bind]
  rcases exec x s with ⟨_ | a, s'⟩ <;> rfl

theorem traced_call {α : Type} (x : Action σ String α) (s : σ) :
    ((exec (do let _ ← x; pure Verdict.applied) s).1.map fun _ => ()) =
        (exec (do let _ ← x; pure ()) s).1 ∧
      (exec (do let _ ← x; pure Verdict.applied) s).1 ≠ .ok .dropped := by
  rw [exec_then_pure, exec_then_pure]
  rcases exec x s with ⟨_ | a, s'⟩ <;> exact ⟨rfl, nofun⟩

/-- The traced application fails where the application does, and drops changes without data. -/
theorem applyTraced_spec (storage : StorageAdapter σ) (ns : String) (s : σ)
    (change : ChangeRecord) :
    ((exec (applyTraced storage ns change) s).1.map fun _ => ()) =
        (exec (applyChange storage ns change) s).1 ∧
      ((exec (applyTraced storage ns change) s).1 = .ok .dropped ↔
        change.operation ≠ .delete ∧ change.data = none) := by
  obtain ⟨id, collection, operation, data, version, timestamp⟩ := change
  rcases operation with _ | _ | _
  · rcases data with _ | data
    · exact ⟨rfl, iff_of_true rfl ⟨nofun, rfl⟩⟩
    · obtain ⟨hresult, hkept⟩ := traced_call (storage.createWithId ns collection id data) s
      exact ⟨hresult, iff_of_false hkept nofun⟩
  · rcases data with _ | data
    · exact ⟨rfl, iff_of_true rfl ⟨nofun, rfl⟩⟩
    · simp only [applyTraced, applyChange]
      rcases hget : exec (storage.get ns collection id) s with ⟨_ | existing, s'⟩
      · rw [exec_bind_error hget, exec_bind_error hget]
        exact ⟨rfl, iff_of_false nofun nofun⟩
      · rw [exec_bind_ok hget, exec_bind_ok hget]
        rcases existing with _ | existing
        · obtain ⟨hresult, hkept⟩ := traced_call (storage.createWithId ns collection id data) s'
          exact ⟨hresult, iff_of_false hkept nofun⟩
        · by_cases hnewer : version > existing.version
          · simp only [if_pos hnewer]
            obtain ⟨hresult, hkept⟩ := traced_call (mapErr StorageError.display
              (storage.update ns collection id data existing.version)) s'
            exact ⟨hresult, iff_of_false hkept nofun⟩
          · simp only [if_neg hnewer]
            exact ⟨rfl, iff_of_false nofun nofun⟩
  · simp only [applyTraced, applyChange]
    have hdelete : ¬ (ChangeOperation.delete ≠ .delete ∧ data = none) := fun h => h.1 rfl
    rcases hget : exec (storage.get ns collection id) s with ⟨_ | existing, s'⟩
    · rw [exec_bind_error hget, exec_bind_error hget]
      exact ⟨rfl, iff_of_false nofun hdelete⟩
    · rw [exec_bind_ok hget, exec_bind_ok hget]
      by_cases hold : existing.any fun r => version ≤ r.version
      · simp only [if_pos hold]
        exact ⟨rfl, iff_of_false nofun hdelete⟩
      · simp only [if_neg hold]
        obtain ⟨hresult, hkept⟩ := traced_call (storage.delete ns collection id) s'
        exact ⟨hresult, iff_of_false hkept hdelete⟩

theorem settled_iff {ns : String} {s : σ} {change : ChangeRecord} :
    Settled storage ns s change ↔
      Succeeds storage ns s change ∧ (change.operation ≠ .delete → change.data.isSome) := by
  obtain ⟨hresult, hdropped⟩ := applyTraced_spec storage ns s change
  have hdata : (change.operation ≠ .delete → change.data.isSome) ↔
      (exec (applyTraced storage ns change) s).1 ≠ .ok .dropped := by
    rw [← Option.ne_none_iff_isSome, ← not_and]
    exact not_congr hdropped.symm
  rw [hdata, Settled, Succeeds, ← hresult]
  rcases (exec (applyTraced storage ns change) s).1 with e | _ | _ | _
  · exact iff_of_false (by rintro (h | h) <;> cases h) (fun h => by cases h.1)
  · exact iff_of_true (Or.inl rfl) ⟨rfl, nofun⟩
  · exact iff_of_true (Or.inr rfl) ⟨rfl, nofun⟩
  · exact iff_of_false (by rintro (h | h) <;> cases h) (fun h => h.2 rfl)

/-! ## Cursors -/

variable {s : SyncState σ} {pull : Pull}

/-- The cursor moves exactly if the answer has a new one. -/
theorem moved_iff {response : PullResponse} (hresponse : pull.response encode s = some response) :
    (pullStep storage encode s pull).cursors.get pull.peer.id pull.collection ≠
        s.cursors.get pull.peer.id pull.collection ↔
      response.cursor ≠ "" ∧ s.cursors.get pull.peer.id pull.collection ≠ some response.cursor := by
  rw [pullStep, hresponse]
  by_cases hempty : response.cursor = ""
  · simp [moveCursor, hempty]
  · simp only [moveCursor, if_neg hempty, SyncCursors.get_set, and_self, if_true]
    exact ⟨fun h => ⟨hempty, fun heq => h heq.symm⟩, fun h heq => h.2 heq.symm⟩

/-- Pulls of other peers or collections leave the cursor. -/
theorem get_pullStep_of_other {peerId collection : String}
    (h : ¬ (pull.peer.id = peerId ∧ pull.collection = collection)) :
    (pullStep storage encode s pull).cursors.get peerId collection =
      s.cursors.get peerId collection := by
  rw [pullStep]
  rcases pull.response encode s with _ | response
  · rfl
  · dsimp only
    unfold moveCursor
    split
    · rfl
    · rw [SyncCursors.get_set, if_neg]
      exact fun hsame => h ⟨hsame.1.symm, hsame.2.symm⟩

theorem get_run_of_others {pulls : List Pull} {peerId collection : String}
    (h : ∀ pull ∈ pulls, ¬ (pull.peer.id = peerId ∧ pull.collection = collection)) :
    (run (pullStep storage encode) s pulls).cursors.get peerId collection =
      s.cursors.get peerId collection := by
  induction pulls generalizing s with
  | nil => rfl
  | cons pull pulls ih =>
    rw [run_cons, ih fun other hother => h other (List.mem_cons_of_mem pull hother),
      get_pullStep_of_other (h pull List.mem_cons_self)]

/-! ## Delivery -/

theorem movesPastSettled_iff :
    MovesPastSettled storage encode s pull ↔ SucceedsBeforeMoving storage encode s pull := by
  constructor
  · intro h response hresponse hcursor hnew
    rw [← everyStep_congr fun st change => settled_iff]
    exact h response hresponse ((moved_iff hresponse).mpr ⟨hcursor, hnew⟩)
  · intro h response hresponse hmoved
    obtain ⟨hcursor, hnew⟩ := (moved_iff hresponse).mp hmoved
    rw [everyStep_congr fun st change => settled_iff]
    exact h response hresponse hcursor hnew

/-- The cursor stays where a change failed. -/
theorem get_pullStep_of_failsIn (h : SucceedsBeforeMoving storage encode s pull)
    (hfails : FailsIn storage encode s pull) :
    (pullStep storage encode s pull).cursors.get pull.peer.id pull.collection =
      s.cursors.get pull.peer.id pull.collection := by
  obtain ⟨response, hresponse, hfailed⟩ := hfails
  by_contra hmoved
  obtain ⟨hcursor, hnew⟩ := (moved_iff hresponse).mp hmoved
  apply hfailed
  intro pre change post hsplit
  exact (h response hresponse hcursor hnew pre change post hsplit).1

theorem offersAgain_of_succeeds {pulls : List Pull}
    (h : EveryStep (pullStep storage encode) (SucceedsBeforeMoving storage encode) s pulls) :
    OffersAgain storage encode s pulls := by
  rintro pre pull mid next post hsplit hfails hothers ⟨hpeer, hcollection⟩
  have hpull := h pre pull (mid ++ next :: post) hsplit
  rw [SyncState.since, SyncState.since, hpeer, hcollection, run_append, run_cons,
    get_run_of_others hothers, get_pullStep_of_failsIn hpull hfails]

/-- The calls deliver exactly if in every answer with a new cursor all changes succeed and have
their data. -/
theorem delivers_iff (storage : StorageAdapter σ) (encode : String → String)
    (s : SyncState σ) (calls : List SyncCall) :
    Delivers storage encode s calls ↔
      EveryStep (pullStep storage encode) (SucceedsBeforeMoving storage encode) s
        (calls.flatMap SyncCall.pulls) := by
  constructor
  · intro h
    exact (everyStep_congr (fun _ _ => movesPastSettled_iff) s _).mp h.moves
  · intro h
    exact ⟨(everyStep_congr (fun _ _ => movesPastSettled_iff) s _).mpr h, offersAgain_of_succeeds h⟩

/-- A storage that cannot be reached. -/
def lockedStorage : StorageAdapter Unit where
  get _ _ _ := ofResult (.error "database is locked")
  createWithId _ _ _ _ := ofResult (.error "database is locked")
  update _ _ _ _ _ := ofResult (.error (.other "database is locked"))
  delete _ _ _ := ofResult (.error "database is locked")

/-- One sync, in which the peer sends one task. -/
def oneTask : List SyncCall :=
  [⟨⟨"home", "https://home:3750", ["tasks"]⟩, none,
    ⟨.ok (), fun _ _ => .pulled ⟨[⟨"t1", "tasks", .create, some (.str "buy milk"), 1, 0⟩],
      "2026-01-01T00:00:00Z"⟩, 0⟩⟩]

theorem not_delivers_oneTask : ¬ Delivers lockedStorage id ⟨.new, ()⟩ oneTask := by
  intro h
  have hmoves := h.moves [] _ [] rfl
  have hsettled := hmoves _ rfl (by decide) [] _ [] rfl
  rcases hsettled with happlied | hskipped
  · cases happlied
  · cases hskipped

end LifeEngine.Federation
