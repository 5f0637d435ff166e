import LifeEngine.Storage.Integrity

/-!
# Updates of several clients

An update runs two statements: it reads the stored extensions, and later it writes
the record if the record still has the expected version.  Between the two the
statements of other clients run.  This file interleaves the statements of any
number of clients over one database and compares what they leave behind with the
updates run one after the other.
-/

namespace LifeEngine.Storage

open Support Function

/-! ## The clients -/

structure UpdateRequest where
  pluginId : String
  collection : String
  id : Uuid
  message : PipelineMessage
  expectedVersion : Nat

namespace UpdateRequest

def mutation (u : UpdateRequest) : StorageMutation :=
  .update u.pluginId u.collection u.id u.message u.expectedVersion

/-- What the first part of the update computes. -/
def data (env : SqliteEnv) (draw : Draw) (s : SqliteStorage) (u : UpdateRequest) :
    Except Failure Json :=
  updateData env draw s u.pluginId u.collection u.id u.message.payload

/-- The condition of the guarded statement. -/
def hits (u : UpdateRequest) (r : DataRow Uuid) : Bool :=
  updateHits u.pluginId u.id u.expectedVersion r

theorem id_rewritten (data : Json) (draw : Draw) (r : DataRow Uuid) :
    (rewriteRow data draw.now r).id = r.id := rfl

/-- The guarded statement, and the audit entry. -/
def write (u : UpdateRequest) (draw : Draw) (data : Json) (s : SqliteStorage) : SqliteStorage :=
  ⟨s.data.updateWhere u.hits (rewriteRow data draw.now) (id_rewritten data draw),
    s.audit ++ modifyEntries u.collection u.id u.pluginId "update"⟩

/-- The update takes over the stored extensions. -/
def merges (u : UpdateRequest) : Prop :=
  isCanonical u.collection = true ∧ u.collection ≠ "credentials" ∧
    ((serializePayload u.message.payload).get "extensions").getD .null = .null

end UpdateRequest

/-- An update between its two statements. -/
structure Pending where
  request : UpdateRequest
  draw : Draw
  data : Json

/-- A successful update, with the database before and after. -/
structure Commit extends Pending where
  before : SqliteStorage
  after : SqliteStorage

/-- The database, the updates in progress and the successful ones. -/
structure Shared (Client : Type) where
  storage : SqliteStorage
  pending : Client → Option Pending
  commits : List Commit

inductive Event (Client : Type) where
  | query (draw : Draw) (query : StorageQuery)
  | start (client : Client) (draw : Draw) (request : UpdateRequest)
  | finish (client : Client)

namespace Shared

variable {Client : Type} [DecidableEq Client]

def initial (storage : SqliteStorage) : Shared Client where
  storage := storage
  pending := fun _ => none
  commits := []

def step (env : SqliteEnv) (s : Shared Client) : Event Client → Shared Client
  | .query draw query => { s with storage := (executeQuery env draw s.storage query).2 }
  | .start client draw request =>
    match s.pending client, request.data env draw s.storage with
    | none, .ok data =>
      { s with pending := update s.pending client (some ⟨request, draw, data⟩) }
    -- A client runs one update at a time; a payload that is refused ends it.
    | _, _ => s
  | .finish client =>
    match s.pending client with
    | none => s
    | some p =>
      let pending := update s.pending client none
      if s.storage.data.countWhere p.request.hits = 0 then { s with pending }
      else
        let after := p.request.write p.draw p.data s.storage
        { storage := after
          pending
          commits := s.commits ++ [{ p with before := s.storage, after }] }

end Shared

open Shared

variable {env : SqliteEnv} {Client : Type} [DecidableEq Client]

theorem executeMutation_request (env : SqliteEnv) (draw : Draw) (s : SqliteStorage)
    (u : UpdateRequest) :
    (executeMutation env draw s u.mutation).2 =
      match u.data env draw s with
      | .error _ => s
      | .ok data => if s.data.countWhere u.hits = 0 then s else u.write draw data s := by
  cases hdata : updateData env draw s u.pluginId u.collection u.id u.message.payload with
  | error e => simp only [UpdateRequest.mutation, executeMutation, UpdateRequest.data, hdata]
  | ok data =>
    simp only [UpdateRequest.mutation, executeMutation, UpdateRequest.data, hdata,
      ite_logCredential]
    by_cases hzero : s.data.countWhere u.hits = 0
    · rw [if_pos hzero]
      exact congrArg Prod.snd (if_pos hzero)
    · rw [if_neg hzero]
      exact congrArg Prod.snd (if_neg hzero)

/-- One client alone runs `execute_mutation`. -/
theorem start_finish (s : Shared Client) (client : Client) (draw : Draw)
    (request : UpdateRequest) (hidle : s.pending client = none) :
    ((s.step env (.start client draw request)).step env (.finish client)).storage =
      (executeMutation env draw s.storage request.mutation).2 := by
  rw [executeMutation_request]
  cases hdata : request.data env draw s.storage with
  | error e => simp only [step, hidle, hdata]
  | ok data =>
    simp only [step, hidle, hdata, update_self]
    split <;> rfl

/-! ## What a step does -/

/-- A step changes nothing, or begins an update, or commits one. -/
theorem step_cases (s : Shared Client) (event : Event Client) :
    ((s.step env event).storage.data = s.storage.data ∧
      (s.step env event).commits = s.commits ∧
      ∀ client p, (s.step env event).pending client = some p → s.pending client = some p) ∨
    (∃ client draw request data, event = .start client draw request ∧
      request.data env draw s.storage = .ok data ∧
      s.step env event =
        { s with pending := update s.pending client (some ⟨request, draw, data⟩) }) ∨
    ∃ client p, event = .finish client ∧ s.pending client = some p ∧
      (∃ r ∈ s.storage.data.rows, p.request.hits r = true) ∧
      s.step env event =
        { storage := p.request.write p.draw p.data s.storage
          pending := update s.pending client none
          commits := s.commits ++ [{ p with
            before := s.storage, after := p.request.write p.draw p.data s.storage }] } := by
  cases event with
  | query draw query =>
    exact Or.inl ⟨executeQuery_data env draw s.storage query, rfl, fun _ _ h => h⟩
  | start client draw request =>
    cases hpending : s.pending client with
    | some p =>
      left
      simp only [step, hpending]
      exact ⟨trivial, trivial, fun _ _ h => h⟩
    | none =>
      cases hdata : request.data env draw s.storage with
      | error e =>
        left
        simp only [step, hpending, hdata]
        exact ⟨trivial, trivial, fun _ _ h => h⟩
      | ok data =>
        right; left
        exact ⟨client, draw, request, data, rfl, hdata, by
          simp only [step, hpending, hdata]⟩
  | finish client =>
    cases hpending : s.pending client with
    | none =>
      left
      simp only [step, hpending]
      exact ⟨trivial, trivial, fun _ _ h => h⟩
    | some p =>
      by_cases hzero : s.storage.data.countWhere p.request.hits = 0
      · left
        simp only [step, hpending, hzero, if_true]
        refine ⟨trivial, trivial, ?_⟩
        intro other q hq
        by_cases hother : other = client
        · rw [hother, update_self] at hq
          cases hq
        · rwa [update_of_ne hother] at hq
      · right; right
        refine ⟨client, p, rfl, hpending, exists_of_countWhere_ne_zero hzero, ?_⟩
        simp only [step, hpending, if_neg hzero]

/-! ## What an update has read -/

section Read

variable {u : UpdateRequest} {draw : Draw} {s s' : SqliteStorage}

theorem data_congr
    (h : mergedPayload env s u.collection u.id u.message.payload =
      mergedPayload env s' u.collection u.id u.message.payload) :
    u.data env draw s = u.data env draw s' := by
  rw [UpdateRequest.data, UpdateRequest.data, updateData_eq, updateData_eq, h]

variable {r : DataRow Uuid}

theorem find?_id (hr : r ∈ s.data.rows) (hid : r.id = u.id) :
    s.data.rows.find? (fun x => x.id = u.id) = some r :=
  Table.find?_eq_some hr (decide_eq_true hid) fun _ hx => (of_decide_eq_true hx).trans hid.symm

/-- An update reads at most the row with its identifier. -/
theorem data_eq_of_mem (hr : r ∈ s.data.rows) (hr' : r ∈ s'.data.rows) (hid : r.id = u.id) :
    u.data env draw s = u.data env draw s' := by
  apply data_congr
  simp only [mergedPayload, mergeExistingExtensions, find?_id hr hid, find?_id hr' hid]

/-- An update that does not take over extensions reads nothing. -/
theorem data_eq_of_not_merges (h : ¬ u.merges) : u.data env draw s = u.data env draw s' := by
  apply data_congr
  unfold mergedPayload
  by_cases hcollection : isCanonical u.collection = true ∧ u.collection ≠ "credentials"
  · have hown : ¬ ((serializePayload u.message.payload).get "extensions").getD .null = .null :=
      fun hnull => h ⟨hcollection.1, hcollection.2, hnull⟩
    simp only [mergeExistingExtensions, if_neg hown]
  · rw [if_neg hcollection, if_neg hcollection]

theorem data_eq_of_data_eq (h : s.data = s'.data) : u.data env draw s = u.data env draw s' := by
  apply data_congr
  unfold mergedPayload
  rw [h]

end Read

variable {u : UpdateRequest} {draw : Draw} {data : Json} {s : SqliteStorage}

variable {r r' : DataRow Uuid}

theorem hits_iff :
    u.hits r = true ↔ r.id = u.id ∧ r.pluginId = u.pluginId ∧ r.version = asI64 u.expectedVersion :=
  updateHits_iff

/-- The rows after a write: versions only grow. -/
theorem mem_write (h : r' ∈ (u.write draw data s).data.rows) :
    ∃ r ∈ s.data.rows, r.id = r'.id ∧
      ((u.hits r = true ∧ r'.version = r.version + 1) ∨ (u.hits r = false ∧ r' = r)) := by
  obtain ⟨r, hr, ⟨hhit, rfl⟩ | ⟨hhit, rfl⟩⟩ := mem_rewritten.mp h
  · exact ⟨r, hr, rfl, Or.inl ⟨hhit, rfl⟩⟩
  · exact ⟨r', hr, rfl, Or.inr ⟨hhit, rfl⟩⟩

/-- Run alone on the same records, the update writes the same. -/
theorem data_mutationStep {env : SqliteEnv} {s' : SqliteStorage} (hsame : s.data = s'.data)
    (hdata : u.data env draw s = .ok data) (hr : r ∈ s.data.rows) (hhit : u.hits r = true) :
    (mutationStep env s' (draw, u.mutation)).data = (u.write draw data s).data := by
  have hdata' : u.data env draw s' = .ok data := by
    rw [← data_eq_of_data_eq hsame, hdata]
  have hsome : ¬ s'.data.countWhere u.hits = 0 := by
    rw [← hsame, Table.countWhere_eq_zero_iff]
    intro hnone
    rw [hnone r hr] at hhit
    cases hhit
  have hstep := executeMutation_request env draw s' u
  simp only [hdata', if_neg hsome] at hstep
  simp only [mutationStep, hstep, UpdateRequest.write, hsame]

theorem version_write (hr : r ∈ s.data.rows) (hhit : u.hits r = true)
    (hr' : r' ∈ (u.write draw data s).data.rows) (hid : r'.id = u.id) :
    r'.version = r.version + 1 := by
  obtain ⟨r₀, hr₀, hid₀, hcases⟩ := mem_write hr'
  obtain rfl := Table.eq_of_key_eq hr₀ hr ((hid₀.trans hid).trans (hits_iff.mp hhit).1.symm)
  rcases hcases with ⟨-, hnext⟩ | ⟨hmiss, -⟩
  · exact hnext
  · rw [hmiss] at hhit
    cases hhit

/-! ## The version guard -/

/-- What an update has computed is right as long as its guard can succeed. -/
structure UpToDate (env : SqliteEnv) (s : SqliteStorage) (p : Pending) : Prop where
  own : ¬ p.request.merges → p.request.data env p.draw s = .ok p.data
  reached : p.request.merges → ∀ r ∈ s.data.rows, r.id = p.request.id →
    asI64 p.request.expectedVersion ≤ r.version
  read : p.request.merges → ∀ r ∈ s.data.rows, p.request.hits r = true →
    p.request.data env p.draw s = .ok p.data

namespace UpToDate

variable {s s' : SqliteStorage} {p : Pending}

/-- When the guard succeeds, the data is up to date. -/
theorem current (h : UpToDate env s p) {r : DataRow Uuid} (hr : r ∈ s.data.rows)
    (hhit : p.request.hits r = true) : p.request.data env p.draw s = .ok p.data := by
  by_cases hmerges : p.request.merges
  · exact h.read hmerges r hr hhit
  · exact h.own hmerges

theorem of_data_eq (hdata : s'.data = s.data) (h : UpToDate env s p) : UpToDate env s' p := by
  have hsame : p.request.data env p.draw s' = p.request.data env p.draw s :=
    data_eq_of_data_eq hdata
  refine ⟨?_, ?_, ?_⟩
  · rw [hsame]
    exact h.own
  · rw [hdata]
    exact h.reached
  · rw [hsame, hdata]
    exact h.read

theorem write (h : UpToDate env s p) (u : UpdateRequest) (draw : Draw) (data : Json) :
    UpToDate env (u.write draw data s) p := by
  refine ⟨?_, ?_, ?_⟩
  · intro hmerges
    rw [data_eq_of_not_merges hmerges]
    exact h.own hmerges
  · intro hmerges r' hr' hid
    obtain ⟨r, hr, hsame, hcases⟩ := mem_write hr'
    have hversion := h.reached hmerges r hr (hsame.trans hid)
    rcases hcases with ⟨-, hnext⟩ | ⟨-, rfl⟩
    · omega
    · exact hversion
  · intro hmerges r' hr' hhit
    obtain ⟨r, hr, hsame, hcases⟩ := mem_write hr'
    obtain ⟨hid, -, hexpected⟩ := hits_iff.mp hhit
    rcases hcases with ⟨-, hnext⟩ | ⟨-, rfl⟩
    · have hversion := h.reached hmerges r hr (hsame.trans hid)
      omega
    · rw [data_eq_of_mem hr' hr hid]
      exact h.read hmerges r' hr hhit

end UpToDate

/-! ## Runs -/

/-- Of the updates that expect one version at most one succeeds; each raises the version by one and
is made from what it replaces; and the records are those that the successful updates leave in a row.
-/
structure NoLostUpdate (env : SqliteEnv) (origin : SqliteStorage) (s : Shared Client) :
    Prop where
  once : s.commits.Pairwise fun c d =>
    ¬ (c.request.id = d.request.id ∧ c.request.expectedVersion = d.request.expectedVersion)
  raises : ∀ c ∈ s.commits, ∃ r ∈ c.before.data.rows, ∃ r' ∈ c.after.data.rows,
    r.id = c.request.id ∧ r'.id = c.request.id ∧ r.version = asI64 c.request.expectedVersion ∧
      r'.version = r.version + 1
  current : ∀ c ∈ s.commits, c.request.data env c.draw c.before = .ok c.data
  serial : s.storage.data = (run (mutationStep env) origin
    (s.commits.map fun c => (c.draw, c.request.mutation))).data

/-- The record has reached the version that the update expects. -/
def StartsReached (s : Shared Client) : Event Client → Prop
  | .start _ _ request => request.merges → ∀ r ∈ s.storage.data.rows, r.id = request.id →
      asI64 request.expectedVersion ≤ r.version
  | .query _ _ => True
  | .finish _ => True

/-- What holds between the statements. -/
structure Interleaved (env : SqliteEnv) (origin : SqliteStorage) (s : Shared Client) : Prop where
  safe : NoLostUpdate env origin s
  passed : ∀ c ∈ s.commits, ∀ r ∈ s.storage.data.rows, r.id = c.request.id →
    asI64 c.request.expectedVersion < r.version
  upToDate : ∀ client p, s.pending client = some p → UpToDate env s.storage p

omit [DecidableEq Client] in
theorem interleaved_initial (env : SqliteEnv) (origin : SqliteStorage) :
    Interleaved env origin (initial origin : Shared Client) where
  safe := ⟨List.Pairwise.nil, by simp [initial], by simp [initial], rfl⟩
  passed := by simp [initial]
  upToDate := by simp [initial]

section Steps

variable {origin : SqliteStorage} {s s' : Shared Client}

omit [DecidableEq Client] in
theorem Interleaved.of_same (h : Interleaved env origin s)
    (hdata : s'.storage.data = s.storage.data) (hcommits : s'.commits = s.commits)
    (hpending : ∀ client p, s'.pending client = some p → s.pending client = some p) :
    Interleaved env origin s' where
  safe := by
    refine ⟨?_, ?_, ?_, ?_⟩
    · rw [hcommits]
      exact h.safe.once
    · rw [hcommits]
      exact h.safe.raises
    · rw [hcommits]
      exact h.safe.current
    · rw [hcommits, hdata]
      exact h.safe.serial
  passed := by
    rw [hcommits, hdata]
    exact h.passed
  upToDate := by
    intro client p hp
    exact (h.upToDate client p (hpending client p hp)).of_data_eq hdata

theorem Interleaved.start (h : Interleaved env origin s) {client : Client} {p : Pending}
    (hp : UpToDate env s.storage p) :
    Interleaved env origin { s with pending := update s.pending client (some p) } where
  safe := ⟨h.safe.once, h.safe.raises, h.safe.current, h.safe.serial⟩
  passed := h.passed
  upToDate := by
    intro other q hq
    by_cases hother : other = client
    · simp only [hother, update_self] at hq
      cases hq
      exact hp
    · simp only [update_of_ne hother] at hq
      exact h.upToDate other q hq

theorem Interleaved.commit (h : Interleaved env origin s) {client : Client} {p : Pending}
    (hp : s.pending client = some p) {r : DataRow Uuid} (hr : r ∈ s.storage.data.rows)
    (hhit : p.request.hits r = true) :
    Interleaved env origin
      { storage := p.request.write p.draw p.data s.storage
        pending := update s.pending client none
        commits := s.commits ++ [{ p with
          before := s.storage, after := p.request.write p.draw p.data s.storage }] } := by
  obtain ⟨hid, -, hversion⟩ := hits_iff.mp hhit
  have hcurrent := (h.upToDate client p hp).current hr hhit
  refine ⟨⟨?_, ?_, ?_, ?_⟩, ?_, ?_⟩
  · rw [List.pairwise_append]
    refine ⟨h.safe.once, List.pairwise_singleton _ _, ?_⟩
    intro c hc d hd
    obtain rfl := List.mem_singleton.mp hd
    rintro ⟨hsame, hexpected⟩
    have hpassed := h.passed c hc r hr (hid.trans hsame.symm)
    rw [hexpected, ← hversion] at hpassed
    omega
  · intro c hc
    rcases List.mem_append.mp hc with hc | hc
    · exact h.safe.raises c hc
    · obtain rfl := List.mem_singleton.mp hc
      exact ⟨r, hr, rewriteRow p.data p.draw.now r,
        mem_rewritten.mpr ⟨r, hr, Or.inl ⟨hhit, rfl⟩⟩, hid, hid, hversion, rfl⟩
  · intro c hc
    rcases List.mem_append.mp hc with hc | hc
    · exact h.safe.current c hc
    · obtain rfl := List.mem_singleton.mp hc
      exact hcurrent
  · rw [List.map_append, run_append]
    exact (data_mutationStep h.safe.serial hcurrent hr hhit).symm
  · intro c hc r' hr' hsame
    rcases List.mem_append.mp hc with hc | hc
    · obtain ⟨r₀, hr₀, hid₀, ⟨-, hnext⟩ | ⟨-, rfl⟩⟩ := mem_write hr'
      · exact Int.lt_of_lt_of_le (h.passed c hc r₀ hr₀ (hid₀.trans hsame)) (by omega)
      · exact h.passed c hc r' hr₀ hsame
    · obtain rfl := List.mem_singleton.mp hc
      have hnext := version_write hr hhit hr' hsame
      simp only
      omega
  · intro other q hq
    by_cases hother : other = client
    · simp only [hother, update_self] at hq
      cases hq
    · simp only [update_of_ne hother] at hq
      exact (h.upToDate other q hq).write p.request p.draw p.data

end Steps

theorem interleaved_step {origin : SqliteStorage} {s : Shared Client} {event : Event Client}
    (h : Interleaved env origin s) (hevent : StartsReached s event) :
    Interleaved env origin (s.step env event) := by
  rcases step_cases s event with ⟨hdata, hcommits, hpending⟩ |
    ⟨client, draw, request, data, rfl, hdata, hstep⟩ | ⟨client, p, rfl, hp, ⟨r, hr, hhit⟩, hstep⟩
  · exact h.of_same hdata hcommits hpending
  · rw [hstep]
    exact h.start ⟨fun _ => hdata, hevent, fun _ _ _ _ => hdata⟩
  · rw [hstep]
    exact h.commit hp hr hhit

/-- No update is lost in an interleaving in which updates that take over extensions start on records
that have reached the version they expect. -/
theorem noLostUpdate_run (env : SqliteEnv) (origin : SqliteStorage)
    (events : List (Event Client))
    (hevents : EveryStep (step env) StartsReached (initial origin) events) :
    NoLostUpdate env origin (run (step env) (initial origin) events) := by
  have hinterleaved : Interleaved env origin (run (step env) (initial origin) events) := by
    apply run_invariant_of_everyStep _ (interleaved_initial env origin) hevents
    intro s event hs hevent
    exact interleaved_step hs hevent
  exact hinterleaved.safe

/-- The version column is an `i64`: it does not overflow while there is room for one step of each
event. -/
theorem version_lt_run (env : SqliteEnv) {s : Shared Client} {events : List (Event Client)}
    (hroom : ∀ r ∈ s.storage.data.rows, r.version + events.length < 2 ^ 63) :
    ∀ r ∈ (run (step env) s events).storage.data.rows, r.version < 2 ^ 63 := by
  induction events generalizing s with
  | nil => simpa using hroom
  | cons event events ih =>
    apply ih
    intro r hr
    have hleft : ∀ r ∈ s.storage.data.rows, r.version + (events.length + 1) < 2 ^ 63 := hroom
    rcases step_cases s event with ⟨hdata, -, -⟩ | ⟨_, _, _, _, -, -, hstep⟩ |
      ⟨_, _, -, -, -, hstep⟩
    · rw [hdata] at hr
      have hroom := hleft r hr
      omega
    · rw [hstep] at hr
      have hroom := hleft r hr
      omega
    · rw [hstep] at hr
      obtain ⟨r₀, hr₀, -, ⟨-, hnext⟩ | ⟨-, rfl⟩⟩ := mem_write hr
      · have hroom := hleft r₀ hr₀
        omega
      · have hroom := hleft r hr₀
        omega

/-! ## A read that is overtaken -/

/-- A note with extensions, at version 1. -/
def extendedNote : SqliteStorage where
  data := ⟨[⟨1, "notes", "notes", .obj [("extensions", .obj [("notes", .str "old")])], 1, 0, 0⟩],
    by simp⟩
  audit := []

/-- An update that keeps the stored extensions. -/
def keepExtensions (expectedVersion : Nat) : UpdateRequest :=
  ⟨"notes", "notes", 1, customMessage (.obj []), expectedVersion⟩

/-- An update with extensions of its own. -/
def newExtensions (expectedVersion : Nat) : UpdateRequest :=
  ⟨"notes", "notes", 1,
    customMessage (.obj [("extensions", .obj [("notes", .str "new")])]), expectedVersion⟩

/-- The first client expects version 2 and reads version 1; the second writes version 2 in between.
-/
def overtaken : List (Event Bool) :=
  [.start true ⟨2, 0, []⟩ (keepExtensions 2), .start false ⟨3, 0, []⟩ (newExtensions 1),
    .finish false, .finish true]

/-- The extensions of version 1 are put back over those of version 2. -/
theorem not_noLostUpdate_overtaken :
    ¬ NoLostUpdate sealingEnv extendedNote
      (run (step sealingEnv) (initial extendedNote) overtaken) := by
  intro h
  have hcommit := h.current _ (List.mem_of_getElem? (i := 1) rfl)
  exact absurd hcommit (by decide +kernel)

/-- Each update starts at the version that it expects. -/
def inTurn : List (Event Bool) :=
  [.start false ⟨3, 0, []⟩ (newExtensions 1), .finish false,
    .start true ⟨2, 0, []⟩ (keepExtensions 2), .finish true]

theorem noLostUpdate_run_inTurn :
    NoLostUpdate sealingEnv extendedNote (run (step sealingEnv) (initial extendedNote) inTurn) := by
  apply noLostUpdate_run
  refine everyStep_cons.mpr ⟨?_, everyStep_cons.mpr ⟨trivial, everyStep_cons.mpr ⟨?_,
    everyStep_cons.mpr ⟨trivial, everyStep_nil _ _⟩⟩⟩⟩
  · intro _ r hr _
    obtain rfl := List.mem_singleton.mp hr
    decide
  · intro _ r hr _
    obtain rfl := List.mem_singleton.mp hr
    decide

end LifeEngine.Storage
