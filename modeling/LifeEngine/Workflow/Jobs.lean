import LifeEngine.Support.Machine
import LifeEngine.Types.Pipeline
import Mathlib.Data.List.Induction

/-!
# The job table of the pipeline executor

`PipelineExecutor::spawn` starts two tasks for a job: one inserts the
`InProgress` entry, the other runs the workflow and inserts the outcome.
`execute_async` inserts the `InProgress` entry itself and starts only the second
task.  Every task waits for a lock or a permit before it goes on, so the tasks of
all jobs interleave freely.  One event below is one such atomic step.
-/

namespace LifeEngine.Workflow

open Support

inductive JobStatus where
  | inProgress
  | completed
  | failed (message : String)
  deriving DecidableEq, Repr

structure JobEntry where
  status : JobStatus
  response : Option PipelineMessage
  createdAt : Timestamp

/-- An event that is emitted when a job ends. -/
structure JobEvent where
  name : String
  jobId : Uuid
  workflowId : String
  error : Option String

/-- Where the run task of a job stands. -/
inductive RunPhase where
  /-- The task waits for a permit of the concurrency semaphore. -/
  | waiting
  /-- The task holds a permit and has not stored an outcome. -/
  | running
  /-- The outcome is stored, and the task still holds its permit. -/
  | emitting (event : JobEvent)
  | done

/-- The outcome of the job has been stored. -/
def RunPhase.stored : RunPhase → Bool
  | waiting => false
  | running => false
  | emitting _ => true
  | done => true

/-- The tasks of one job, with the outcome of `build_initial_message`. -/
structure JobTasks where
  workflowId : String
  createdAt : Timestamp
  initial : Except String PipelineMessage
  registerPending : Bool
  phase : RunPhase

/-- The shared state together with the live tasks. -/
structure Executor where
  jobs : Uuid → Option JobEntry
  tasks : Uuid → Option JobTasks
  permits : Nat
  closed : Bool
  emitted : List JobEvent

def withConcurrencyLimit (limit : Nat) (closed : Bool) : Executor where
  jobs := fun _ => none
  tasks := fun _ => none
  permits := limit
  closed := closed
  emitted := []

/-- One atomic step of some task, or a call into the executor. -/
inductive Event where
  | spawn (id : Uuid) (createdAt : Timestamp) (workflowId : String)
      (initial : Except String PipelineMessage)
  | executeAsync (id : Uuid) (createdAt : Timestamp) (workflowId : String)
      (message : PipelineMessage)
  | register (id : Uuid)
  | acquire (id : Uuid)
  | store (id : Uuid) (result : Except String PipelineMessage)
  | emit (id : Uuid)
  | cleanupExpiredJobs (now : Timestamp)

namespace Executor

def insertJob (s : Executor) (id : Uuid) (entry : JobEntry) : Executor :=
  { s with jobs := Function.update s.jobs id (some entry) }

def setTasks (s : Executor) (id : Uuid) (t : JobTasks) : Executor :=
  { s with tasks := Function.update s.tasks id (some t) }

/-- The entry and the event for an outcome. -/
def outcome (id : Uuid) (t : JobTasks) :
    Except String PipelineMessage → JobEntry × JobEvent
  | .ok message =>
    (⟨.completed, some message, t.createdAt⟩,
      ⟨"workflow.completed", id, t.workflowId, none⟩)
  | .error message =>
    (⟨.failed message, none, t.createdAt⟩,
      ⟨"workflow.failed", id, t.workflowId, some message⟩)

/-- The task of `spawn` that inserts the entry. -/
def registerTask (s : Executor) (id : Uuid) (t : JobTasks) : Executor :=
  if t.registerPending then
    (s.insertJob id ⟨.inProgress, none, t.createdAt⟩).setTasks id
      { t with registerPending := false }
  else s

/-- A closed semaphore ends the job, without an event. -/
def acquireTask (s : Executor) (id : Uuid) (t : JobTasks) : Executor :=
  match t.phase with
  | .waiting =>
    if s.closed then
      (s.insertJob id
        ⟨.failed "concurrency semaphore closed", none, t.createdAt⟩).setTasks id
        { t with phase := .done }
    else if 0 < s.permits then
      { s with permits := s.permits - 1 }.setTasks id { t with phase := .running }
    else s
  | _ => s

/-- The error of `build_initial_message`, or the result of `run_steps`. -/
def storeTask (s : Executor) (id : Uuid) (t : JobTasks)
    (result : Except String PipelineMessage) : Executor :=
  match t.phase with
  | .running =>
    let o := outcome id t (t.initial.bind fun _ => result)
    (s.insertJob id o.1).setTasks id { t with phase := .emitting o.2 }
  | _ => s

/-- The run task emits its event and returns the permit. -/
def emitTask (s : Executor) (id : Uuid) (t : JobTasks) : Executor :=
  match t.phase with
  | .emitting event =>
    { s with permits := s.permits + 1, emitted := s.emitted ++ [event] }.setTasks id
      { t with phase := .done }
  | _ => s

/-- Entries as old as the TTL are dropped. -/
def cleanup (ttl : Int) (s : Executor) (now : Timestamp) : Executor :=
  { s with jobs := fun id => (s.jobs id).filter fun e => now - e.createdAt < ttl }

/-- Job ids are fresh UUIDs: starting one under a used id does not happen, nor do steps of a task
that does not exist. -/
def step (ttl : Int) (s : Executor) : Event → Executor
  | .spawn id createdAt workflowId initial =>
    match s.tasks id with
    | some _ => s
    | none => s.setTasks id ⟨workflowId, createdAt, initial, true, .waiting⟩
  | .executeAsync id createdAt workflowId message =>
    match s.tasks id with
    | some _ => s
    | none =>
      (s.insertJob id ⟨.inProgress, none, createdAt⟩).setTasks id
        ⟨workflowId, createdAt, .ok message, false, .waiting⟩
  | .register id => (s.tasks id).elim s (s.registerTask id)
  | .acquire id => (s.tasks id).elim s (s.acquireTask id)
  | .store id result => (s.tasks id).elim s (s.storeTask id · result)
  | .emit id => (s.tasks id).elim s (s.emitTask id)
  | .cleanupExpiredJobs now => s.cleanup ttl now

@[simp] theorem insertJob_jobs (s : Executor) (id : Uuid) (entry : JobEntry) :
    (s.insertJob id entry).jobs = Function.update s.jobs id (some entry) := rfl

@[simp] theorem insertJob_tasks (s : Executor) (id : Uuid) (entry : JobEntry) :
    (s.insertJob id entry).tasks = s.tasks := rfl

@[simp] theorem setTasks_jobs (s : Executor) (id : Uuid) (t : JobTasks) :
    (s.setTasks id t).jobs = s.jobs := rfl

@[simp] theorem setTasks_tasks (s : Executor) (id : Uuid) (t : JobTasks) :
    (s.setTasks id t).tasks = Function.update s.tasks id (some t) := rfl

/-! ## What a step does to one job -/

/-- The effect of a step on a single job. -/
inductive JobStep (id : Uuid) (e : Event) (s s' : Executor) : Prop where
  | unchanged (hjob : s'.jobs id = s.jobs id) (htasks : s'.tasks id = s.tasks id)
  | started (hnew : s.tasks id = none) (t : JobTasks)
      (htasks : s'.tasks id = some t) (hphase : t.phase = .waiting)
      (hjob : s'.jobs id = s.jobs id ∨
        s'.jobs id = some ⟨.inProgress, none, t.createdAt⟩)
  | registered (hevent : e = .register id) (t : JobTasks)
      (htasks : s.tasks id = some t) (hpending : t.registerPending = true)
      (htasks' : s'.tasks id = some { t with registerPending := false })
      (hjob : s'.jobs id = some ⟨.inProgress, none, t.createdAt⟩)
  | moved (t t' : JobTasks) (htasks : s.tasks id = some t)
      (htasks' : s'.tasks id = some t') (hphase : t'.phase.stored = t.phase.stored)
      (hjob : s'.jobs id = s.jobs id)
  | stored (t t' : JobTasks) (entry : JobEntry) (htasks : s.tasks id = some t)
      (htasks' : s'.tasks id = some t') (hbefore : t.phase.stored = false)
      (hafter : t'.phase.stored = true) (hjob : s'.jobs id = some entry)
      (hfinal : entry.status ≠ .inProgress)
  | expired (now : Timestamp) (hevent : e = .cleanupExpiredJobs now)
      (hjob : s'.jobs id = none) (htasks : s'.tasks id = s.tasks id)

variable {s : Executor} {id : Uuid}

variable {e : Event} {t : JobTasks} (ttl : Int)

theorem jobStep_acquire (ht : s.tasks id = some t) : JobStep id e s (s.acquireTask id t) := by
  cases hphase : t.phase with
  | waiting =>
    by_cases hclosed : s.closed
    · exact .stored t { t with phase := .done } _ ht
        (by simp [acquireTask, hphase, hclosed]) (by simp [hphase, RunPhase.stored])
        rfl (by simp [acquireTask, hphase, hclosed]; rfl) (by simp)
    · by_cases hpermit : 0 < s.permits
      · exact .moved t { t with phase := .running } ht
          (by simp [acquireTask, hphase, hclosed, hpermit])
          (by simp [hphase, RunPhase.stored])
          (by simp [acquireTask, hphase, hclosed, hpermit])
      · exact .unchanged (by simp [acquireTask, hphase, hclosed, hpermit])
          (by simp [acquireTask, hphase, hclosed, hpermit])
  | running | emitting _ | done =>
    exact .unchanged (by simp [acquireTask, hphase]) (by simp [acquireTask, hphase])

theorem jobStep_store (ht : s.tasks id = some t) (result : Except String PipelineMessage) :
    JobStep id e s (s.storeTask id t result) := by
  cases hphase : t.phase with
  | running =>
    exact .stored t _ _ ht (by simp [storeTask, hphase]; rfl)
      (by simp [hphase, RunPhase.stored]) rfl (by simp [storeTask, hphase]; rfl)
      (by unfold outcome; split <;> simp)
  | waiting | emitting _ | done =>
    exact .unchanged (by simp [storeTask, hphase]) (by simp [storeTask, hphase])

theorem jobStep_emit (ht : s.tasks id = some t) : JobStep id e s (s.emitTask id t) := by
  cases hphase : t.phase with
  | emitting event =>
    exact .moved t { t with phase := .done } ht (by simp [emitTask, hphase])
      (by simp [hphase, RunPhase.stored]) (by simp [emitTask, hphase])
  | waiting | running | done =>
    exact .unchanged (by simp [emitTask, hphase]) (by simp [emitTask, hphase])

theorem jobStep_register (ht : s.tasks id = some t) :
    JobStep id (.register id) s (s.registerTask id t) := by
  by_cases hpending : t.registerPending = true
  · exact .registered rfl t ht hpending (by simp [registerTask, hpending])
      (by simp [registerTask, hpending])
  · exact .unchanged (by simp [registerTask, hpending]) (by simp [registerTask, hpending])

/-- The jobs other than `id` are the same. -/
def SameElsewhere (id : Uuid) (s s' : Executor) : Prop :=
  ∀ other, other ≠ id → s'.jobs other = s.jobs other ∧ s'.tasks other = s.tasks other

theorem sameElsewhere_refl (id : Uuid) (s : Executor) : SameElsewhere id s s :=
  fun _ _ => ⟨rfl, rfl⟩

theorem sameElsewhere_insert_set (id : Uuid) (s : Executor) (entry : JobEntry)
    (t : JobTasks) : SameElsewhere id s ((s.insertJob id entry).setTasks id t) :=
  fun _ hne => by simp [hne]

theorem sameElsewhere_acquire (s : Executor) (id : Uuid) (t : JobTasks) :
    SameElsewhere id s (s.acquireTask id t) := by
  unfold acquireTask
  split
  · split
    · exact sameElsewhere_insert_set id s _ _
    · split
      · exact fun _ hne => by simp [hne]
      · exact sameElsewhere_refl id s
  · exact sameElsewhere_refl id s

theorem sameElsewhere_store (s : Executor) (id : Uuid) (t : JobTasks)
    (result : Except String PipelineMessage) :
    SameElsewhere id s (s.storeTask id t result) := by
  unfold storeTask
  split
  · exact sameElsewhere_insert_set id s _ _
  · exact sameElsewhere_refl id s

theorem sameElsewhere_emit (s : Executor) (id : Uuid) (t : JobTasks) :
    SameElsewhere id s (s.emitTask id t) := by
  unfold emitTask
  split
  · exact fun _ hne => by simp [hne]
  · exact sameElsewhere_refl id s

theorem sameElsewhere_register (s : Executor) (id : Uuid) (t : JobTasks) :
    SameElsewhere id s (s.registerTask id t) := by
  unfold registerTask
  split
  · exact sameElsewhere_insert_set id s _ _
  · exact sameElsewhere_refl id s

/-- A step of a task acts on its own job only. -/
theorem jobStep_of_task {target : Uuid} {f : JobTasks → Executor}
    (helse : ∀ t, SameElsewhere target s (f t))
    (hself : ∀ t, s.tasks target = some t → JobStep target e s (f t)) :
    JobStep id e s ((s.tasks target).elim s f) := by
  cases ht : s.tasks target with
  | none => exact .unchanged rfl rfl
  | some t =>
    by_cases hid : id = target
    · subst hid
      exact hself t ht
    · exact .unchanged (helse t id hid).1 (helse t id hid).2

theorem step_jobStep (s : Executor) (e : Event) (id : Uuid) : JobStep id e s (step ttl s e) := by
  cases e with
  | spawn target createdAt workflowId initial =>
    cases ht : s.tasks target with
    | some t => exact .unchanged (by simp [step, ht]) (by simp [step, ht])
    | none =>
      by_cases hid : id = target
      · subst hid
        exact .started ht ⟨workflowId, createdAt, initial, true, .waiting⟩
          (by simp [step, ht]) rfl (.inl (by simp [step, ht]))
      · exact .unchanged (by simp [step, ht]) (by simp [step, ht, hid])
  | executeAsync target createdAt workflowId message =>
    cases ht : s.tasks target with
    | some t => exact .unchanged (by simp [step, ht]) (by simp [step, ht])
    | none =>
      by_cases hid : id = target
      · subst hid
        exact .started ht ⟨workflowId, createdAt, .ok message, false, .waiting⟩
          (by simp [step, ht]) rfl (.inr (by simp [step, ht]))
      · exact .unchanged (by simp [step, ht, hid]) (by simp [step, ht, hid])
  | register target =>
    exact jobStep_of_task (sameElsewhere_register s target) (fun t ht => jobStep_register ht)
  | acquire target =>
    exact jobStep_of_task (sameElsewhere_acquire s target) (fun t ht => jobStep_acquire ht)
  | store target result =>
    exact jobStep_of_task (fun t => sameElsewhere_store s target t result)
      (fun t ht => jobStep_store ht result)
  | emit target =>
    exact jobStep_of_task (sameElsewhere_emit s target) (fun t ht => jobStep_emit ht)
  | cleanupExpiredJobs now =>
    cases hjob : (cleanup ttl s now).jobs id with
    | none => exact .expired now rfl hjob rfl
    | some entry =>
      have hkept : s.jobs id = some entry := (Option.filter_eq_some_iff.mp hjob).1
      exact .unchanged (hjob.trans hkept.symm) rfl

/-! ## Settled jobs -/

/-- A `Completed` or `Failed` job is never `InProgress` again and keeps its response, until its
entry is dropped. -/
def Settled (ttl : Int) (s : Executor) (events : List Event) : Prop :=
  ∀ pre mid post id entry, events = pre ++ mid ++ post →
    (run (step ttl) s pre).jobs id = some entry → entry.status ≠ .inProgress →
      match (run (step ttl) s (pre ++ mid)).jobs id with
      | some entry' => entry'.status ≠ .inProgress ∧ entry'.response = entry.response
      | none => ∃ now, Event.cleanupExpiredJobs now ∈ mid

/-- When the register task runs, the outcome is not stored. -/
def RegistersInTime (s : Executor) (e : Event) : Prop :=
  ∀ id t, e = .register id → s.tasks id = some t → t.registerPending = true →
    t.phase.stored = false

/-- The run task of the job has stored its outcome. -/
def OutcomeStored (id : Uuid) (s : Executor) : Prop :=
  ∃ t, s.tasks id = some t ∧ t.phase.stored = true

/-- A final entry was stored by the run task of its job. -/
def FinalStored (s : Executor) : Prop :=
  ∀ id entry, s.jobs id = some entry → entry.status ≠ .inProgress →
    OutcomeStored id s

theorem outcomeStored_step (e : Event) (h : OutcomeStored id s) :
    OutcomeStored id (step ttl s e) := by
  obtain ⟨t, ht, hstored⟩ := h
  rcases step_jobStep ttl s e id with ⟨-, htasks⟩ | ⟨hnew, -, -, -, -⟩ |
    ⟨-, t₁, ht₁, -, ht', -⟩ | ⟨t₁, t', ht₁, ht', hphase, -⟩ |
    ⟨-, t', -, -, ht', -, hafter, -, -⟩ | ⟨-, -, -, htasks⟩
  · exact ⟨t, htasks.trans ht, hstored⟩
  · simp [hnew] at ht
  · obtain rfl : t₁ = t := by simpa [ht₁] using ht
    exact ⟨_, ht', hstored⟩
  · obtain rfl : t₁ = t := by simpa [ht₁] using ht
    exact ⟨t', ht', hphase.trans hstored⟩
  · exact ⟨t', ht', hafter⟩
  · exact ⟨t, htasks.trans ht, hstored⟩

theorem finalStored_step (s : Executor) (e : Event) (h : FinalStored s) :
    FinalStored (step ttl s e) := by
  intro id entry hentry hfinal
  have hold : s.jobs id = some entry → OutcomeStored id (step ttl s e) :=
    fun hjob => outcomeStored_step ttl e (h id entry hjob hfinal)
  rcases step_jobStep ttl s e id with ⟨hjob, -⟩ | ⟨-, t, -, -, hjob | hjob⟩ |
    ⟨-, t, -, -, -, hjob⟩ | ⟨-, -, -, -, -, hjob⟩ |
    ⟨-, t', -, -, ht', -, hafter, -, -⟩ | ⟨-, -, hjob, -⟩
  · exact hold (hjob.symm.trans hentry)
  · exact hold (hjob.symm.trans hentry)
  · obtain rfl : _ = entry := Option.some.inj (hjob.symm.trans hentry)
    exact absurd rfl hfinal
  · obtain rfl : _ = entry := Option.some.inj (hjob.symm.trans hentry)
    exact absurd rfl hfinal
  · exact hold (hjob.symm.trans hentry)
  · exact ⟨t', ht', hafter⟩
  · simp [hjob] at hentry

theorem finalStored_run (limit : Nat) (closed : Bool) (events : List Event) :
    FinalStored (run (step ttl) (withConcurrencyLimit limit closed) events) := by
  refine run_invariant (finalStored_step ttl) ?_ events
  intro id entry hentry
  simp [withConcurrencyLimit] at hentry

/-- After its outcome is stored, the entry is left alone or dropped. -/
theorem job_step_of_stored (hstored : OutcomeStored id s) (hin : RegistersInTime s e) :
    (step ttl s e).jobs id = s.jobs id ∨
      (step ttl s e).jobs id = none ∧ ∃ now, e = .cleanupExpiredJobs now := by
  obtain ⟨t, ht, hphase⟩ := hstored
  rcases step_jobStep ttl s e id with ⟨hjob, -⟩ | ⟨hnew, -, -, -, -⟩ |
    ⟨hevent, t₁, ht₁, hpending, -, -⟩ | ⟨-, -, -, -, -, hjob⟩ |
    ⟨t₁, -, -, ht₁, -, hbefore, -, -, -⟩ | ⟨now, hevent, hjob, -⟩
  · exact .inl hjob
  · simp [hnew] at ht
  · obtain rfl : t₁ = t := by simpa [ht₁] using ht
    simp [hin id t₁ hevent ht hpending] at hphase
  · exact .inl hjob
  · obtain rfl : t₁ = t := by simpa [ht₁] using ht
    simp [hbefore] at hphase
  · exact .inr ⟨hjob, now, hevent⟩

theorem job_run_of_stored {events : List Event} (hstored : OutcomeStored id s)
    (hin : EveryStep (step ttl) RegistersInTime s events) :
    (run (step ttl) s events).jobs id = s.jobs id ∨
      (run (step ttl) s events).jobs id = none ∧ ∃ now, Event.cleanupExpiredJobs now ∈ events := by
  induction events generalizing s with
  | nil => exact .inl rfl
  | cons e es ih =>
    obtain ⟨he, hes⟩ := everyStep_cons.mp hin
    have hrest := ih (outcomeStored_step ttl e hstored) hes
    rcases job_step_of_stored ttl hstored he with hjob | ⟨hjob, now, rfl⟩
    · rcases hrest with hsame | ⟨hnone, now, hmem⟩
      · exact .inl (hsame.trans hjob)
      · exact .inr ⟨hnone, now, List.mem_cons_of_mem e hmem⟩
    · refine .inr ⟨?_, now, List.mem_cons_self⟩
      rcases hrest with hsame | ⟨hnone, -⟩
      · exact hsame.trans hjob
      · exact hnone

/-- A stored outcome was put into the table as a final entry. -/
theorem exists_final_of_stored (limit : Nat) (closed : Bool) (id : Uuid) (events : List Event)
    (h : OutcomeStored id (run (step ttl) (withConcurrencyLimit limit closed) events)) :
    ∃ pre mid entry, events = pre ++ mid ∧
      (run (step ttl) (withConcurrencyLimit limit closed) pre).jobs id = some entry ∧
      entry.status ≠ .inProgress := by
  -- From the end of the run: the last step stores the outcome, or some step before it.
  induction events using List.reverseRecOn with
  | nil =>
    obtain ⟨t, ht, -⟩ := h
    simp [withConcurrencyLimit] at ht
  | append_singleton es e ih =>
    set s := run (step ttl) (withConcurrencyLimit limit closed) es with hs
    rw [run_concat] at h
    by_cases hbefore : OutcomeStored id s
    · obtain ⟨pre, mid, entry, rfl, hentry, hfinal⟩ := ih hbefore
      exact ⟨pre, mid ++ [e], entry, by simp, hentry, hfinal⟩
    · obtain ⟨t, ht, hphase⟩ := h
      rcases step_jobStep ttl s e id with ⟨-, htasks⟩ | ⟨-, t', ht', hwait, -⟩ |
        ⟨-, t₁, ht₁, -, ht', -⟩ | ⟨t₁, t', ht₁, ht', hmoved, -⟩ |
        ⟨-, -, entry, -, -, -, -, hjob, hfinal⟩ | ⟨-, -, -, htasks⟩
      · exact absurd ⟨t, htasks.symm.trans ht, hphase⟩ hbefore
      · obtain rfl : t' = t := Option.some.inj (ht'.symm.trans ht)
        simp [hwait, RunPhase.stored] at hphase
      · obtain rfl : _ = t := Option.some.inj (ht'.symm.trans ht)
        exact absurd ⟨t₁, ht₁, hphase⟩ hbefore
      · obtain rfl : t' = t := Option.some.inj (ht'.symm.trans ht)
        exact absurd ⟨t₁, ht₁, hmoved.symm.trans hphase⟩ hbefore
      · exact ⟨es ++ [e], [], entry, by simp, by rw [run_concat]; exact hjob, hfinal⟩
      · exact absurd ⟨t, htasks.symm.trans ht, hphase⟩ hbefore

/-- Jobs stay settled exactly when no register task runs after the outcome of its job is stored. -/
theorem settled_iff_registersInTime
    (ttl : Int) (limit : Nat) (closed : Bool) (events : List Event) :
    Settled ttl (withConcurrencyLimit limit closed) events ↔
      EveryStep (step ttl) RegistersInTime (withConcurrencyLimit limit closed) events := by
  set s₀ := withConcurrencyLimit limit closed with hs₀
  constructor
  · intro hsettled pre e post hsplit id t hevent ht hpending
    subst hevent
    by_contra hstored
    have houtcome : OutcomeStored id (run (step ttl) s₀ pre) := ⟨t, ht, by simpa using hstored⟩
    obtain ⟨pre₁, mid, entry, rfl, hentry, hfinal⟩ :=
      exists_final_of_stored ttl limit closed id pre houtcome
    have hlate := hsettled pre₁ (mid ++ [.register id]) post id entry
      (by simp [hsplit]) hentry hfinal
    -- The late registration puts `InProgress` over the final entry, response and all.
    have hjob : (run (step ttl) s₀ (pre₁ ++ (mid ++ [.register id]))).jobs id =
        some ⟨.inProgress, none, t.createdAt⟩ := by
      rw [← List.append_assoc, run_concat]
      simp [step, ht, registerTask, hpending]
    rw [hjob] at hlate
    exact hlate.1 rfl
  · intro hin pre mid post id entry hsplit hentry hfinal
    have hstored : OutcomeStored id (run (step ttl) s₀ pre) :=
      finalStored_run ttl limit closed pre id entry hentry hfinal
    have hmid : EveryStep (step ttl) RegistersInTime (run (step ttl) s₀ pre) mid := by
      subst hsplit
      exact hin.of_append_left.of_append_right
    rw [run_append]
    rcases job_run_of_stored ttl hstored hmid with hsame | ⟨hnone, hcleanup⟩
    · rw [hsame, hentry]
      exact ⟨hfinal, rfl⟩
    · rw [hnone]
      exact hcleanup

/-- The run task ends before the register task, which overwrites the completed entry. -/
theorem not_settled_of_late_register :
    ¬ Settled 3600000 (withConcurrencyLimit 32 false)
      [.spawn 1 0 "sync-mail" (.ok ⟨⟨7, "schedule", 0, none, []⟩, .custom .null⟩),
        .acquire 1,
        .store 1 (.ok ⟨⟨7, "schedule", 5, none, []⟩, .custom (.str "done")⟩),
        .register 1] := by
  intro hsettled
  have hlate := hsettled
    [.spawn 1 0 "sync-mail" (.ok ⟨⟨7, "schedule", 0, none, []⟩, .custom .null⟩),
      .acquire 1,
      .store 1 (.ok ⟨⟨7, "schedule", 5, none, []⟩, .custom (.str "done")⟩)]
    [.register 1] [] 1
    ⟨.completed, some ⟨⟨7, "schedule", 5, none, []⟩, .custom (.str "done")⟩, 0⟩
    rfl rfl (by simp)
  exact hlate.1 rfl

end Executor

end LifeEngine.Workflow
