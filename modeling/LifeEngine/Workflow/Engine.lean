import LifeEngine.Workflow.Jobs

/-!
# The workflow engine

One `PipelineExecutor`, the `EventBus` that is its event emitter, and the
`Scheduler`.  A workflow is started by a request, by an event on the bus or by a
tick of a schedule; the task that does so is a call below.  A synchronous
workflow runs within its call, an asynchronous one becomes a job of the executor.
All tasks interleave freely, and one engine event is one atomic step of a task or
a call from outside.

Two parts of the state are records that the program does not keep: who owns a
permit of the semaphore, and which event made a workflow run.
-/

namespace LifeEngine.Workflow

open Support List

inductive ExecutionMode where
  | sync
  | async
  deriving DecidableEq, Repr

structure WorkflowDef where
  id : String
  mode : ExecutionMode
  deriving DecidableEq, Repr

inductive TriggerContext where
  | endpoint (method path : String) (body : Json) (auth : Option Json)
  | event (name : String) (payload : Json)
  | schedule (workflowId : String) (firedAt : Timestamp)

/-- The event and schedule triggers of the loaded workflows. -/
structure TriggerRegistry where
  events : String → List WorkflowDef
  schedules : List WorkflowDef

namespace TriggerRegistry

def findEvent (registry : TriggerRegistry) (name : String) : List WorkflowDef :=
  registry.events name

def getSchedules (registry : TriggerRegistry) : List WorkflowDef :=
  registry.schedules

end TriggerRegistry

/-! ## Messages and events -/

/-- The text of `WorkflowError::PluginExecutionError`. -/
def pluginExecutionError (plugin cause : String) : String :=
  "plugin execution error in '" ++ plugin ++ "': " ++ cause

/-- A correlation id and the time. -/
structure MessageDraw where
  correlationId : Uuid
  timestamp : Timestamp

/-- The payload must be an object, or `typeError` is the message. -/
def buildInitialMessage (typeError : Json → String) (draw : MessageDraw)
    (trigger : TriggerContext) : Except String PipelineMessage :=
  let (source, payload, auth) :=
    match trigger with
    | .endpoint method path body auth => ("endpoint:" ++ method ++ " " ++ path, body, auth)
    | .event name payload => ("event:" ++ name, payload, none)
    | .schedule workflowId _ => ("schedule:" ++ workflowId, .obj [], none)
  match payload with
  | .obj _ => .ok ⟨⟨draw.correlationId, source, draw.timestamp, auth, []⟩, .custom payload⟩
  | _ => .error (pluginExecutionError "workflow-engine"
      ("schema validation failed: " ++ typeError payload))

/-- An `Event` of the bus. -/
structure BusEvent where
  name : String
  payload : Option Json
  source : String
  timestamp : Timestamp
  depth : Nat

/-- The payload that a job event carries. -/
def JobEvent.payload (event : JobEvent) : Json :=
  .obj ((event.error.map fun message => ("error", Json.str message)).toList ++
    [("job_id", .str (uuidText event.jobId)), ("workflow_id", .str event.workflowId)])

/-! ## State -/

/-- A caller from outside, an event on the bus, or a tick of a schedule. -/
inductive Origin where
  | outside
  | event (position : Nat)
  | schedule (loop : Nat)
  deriving DecidableEq

/-- The event that made the workflow run, if it was one. -/
def Origin.cause : Origin → Option Nat
  | event position => some position
  | _ => none

/-- An event on the bus, with the position of its cause. -/
structure Emission where
  event : BusEvent
  cause : Option Nat

inductive CallPhase where
  | starting
  /-- `execute_sync` waits for a permit. -/
  | waiting
  /-- `execute_sync` holds a permit and runs the steps. -/
  | running
  /-- `execute_workflow` has returned, or the message failed. -/
  | returned (error : Option String)
  | done

def CallPhase.isDone : CallPhase → Bool
  | done => true
  | _ => false

/-- A task that builds a message and calls `execute_workflow`. -/
structure Call where
  workflow : WorkflowDef
  trigger : TriggerContext
  origin : Origin
  phase : CallPhase

/-- The run task of a job, or a call. -/
inductive TaskId where
  | job (id : Uuid)
  | call (index : Nat)
  deriving DecidableEq

structure EngineConfig where
  registry : TriggerRegistry
  maxDepth : Nat
  jobTtl : Int
  typeError : Json → String
  timeText : Timestamp → String

structure Engine where
  executor : Executor
  calls : List Call
  tracker : List String
  emissions : List Emission
  origins : Uuid → Option Origin
  owners : List TaskId

/-- The draws of `execute_workflow` for a call. -/
structure CallDraw where
  message : MessageDraw
  jobId : Uuid
  createdAt : Timestamp

inductive EngineEvent where
  /-- `EventBus::emit`, called from outside. -/
  | emit (event : BusEvent)
  /-- A request for a workflow with an endpoint trigger. -/
  | request (workflow : WorkflowDef) (method path : String) (body : Json)
      (auth : Option Json)
  /-- The sleep of a schedule loop is over. -/
  | tick (loop : Nat) (firedAt : Timestamp)
  | start (call : Nat) (draw : CallDraw)
  | acquireCall (call : Nat)
  | finishCall (call : Nat) (result : Except String PipelineMessage)
  | settle (call : Nat) (now : Timestamp)
  /-- `spawn`, `execute_async`, a step of a job, or a cleanup. -/
  | executor (event : Event) (now : Timestamp)

/-- A step of a task, not a call from outside, the end of a sleep or a cleanup. -/
def EngineEvent.isTaskStep : EngineEvent → Bool
  | .start _ _ => true
  | .acquireCall _ => true
  | .finishCall _ _ => true
  | .settle _ _ => true
  | .executor (.register _) _ => true
  | .executor (.acquire _) _ => true
  | .executor (.store _ _) _ => true
  | .executor (.emit _) _ => true
  | _ => false

/-- The job whose task takes the step. -/
def Event.job : Event → Option Uuid
  | .spawn id _ _ _ => some id
  | .executeAsync id _ _ _ => some id
  | .register id => some id
  | .acquire id => some id
  | .store id _ => some id
  | .emit id => some id
  | .cleanupExpiredJobs _ => none

namespace Engine

def withConcurrencyLimit (limit : Nat) : Engine where
  executor := Workflow.withConcurrencyLimit limit false
  calls := []
  tracker := []
  emissions := []
  origins := fun _ => none
  owners := []

def setPhase (s : Engine) (call : Nat) (phase : CallPhase) : Engine :=
  { s with calls := s.calls.modify call fun c => { c with phase := phase } }

/-! ## The event bus -/

/-- The task that `emit` spawns for a workflow. -/
def eventCall (event : BusEvent) (position : Nat) (workflow : WorkflowDef) : Call where
  workflow := workflow
  trigger := .event event.name (event.payload.getD .null)
  origin := .event position
  phase := .starting

/-- An event that is too deep is dropped, any other spawns a task for each matching workflow. -/
def emit (cfg : EngineConfig) (s : Engine) (event : BusEvent) (cause : Option Nat) :
    Engine :=
  { s with
    emissions := s.emissions ++ [⟨event, cause⟩]
    calls := s.calls ++
      if event.depth > cfg.maxDepth then []
      else (cfg.registry.findEvent event.name).map (eventCall event s.emissions.length) }

/-- The bus as the `WorkflowEventEmitter`. -/
def emitWorkflowEvent (cfg : EngineConfig) (s : Engine) (name : String) (payload : Json)
    (now : Timestamp) (cause : Option Nat) : Engine :=
  s.emit cfg ⟨name, some payload, "system", now, 0⟩ cause

/-! ## Calls -/

/-- A call builds its message and enters `execute_workflow`. -/
def startCall (cfg : EngineConfig) (s : Engine) (index : Nat) (c : Call)
    (draw : CallDraw) : Engine :=
  match buildInitialMessage cfg.typeError draw.message c.trigger with
  | .error error => s.setPhase index (.returned (some error))
  | .ok message =>
    match c.workflow.mode with
    | .sync => s.setPhase index .waiting
    | .async =>
      { s with
        executor := Executor.step cfg.jobTtl s.executor
          (.executeAsync draw.jobId draw.createdAt c.workflow.id message)
        origins :=
          match s.executor.tasks draw.jobId with
          | some _ => s.origins
          | none => Function.update s.origins draw.jobId (some c.origin) }.setPhase
        index (.returned none)

/-- `execute_sync` awaits a permit. -/
def acquireCall (s : Engine) (index : Nat) : Engine :=
  if s.executor.closed then
    s.setPhase index (.returned (some
      (pluginExecutionError "workflow-engine" "concurrency semaphore closed")))
  else if 0 < s.executor.permits then
    { s with
      executor := { s.executor with permits := s.executor.permits - 1 }
      owners := .call index :: s.owners }.setPhase index .running
  else s

/-- `run_steps` returns, and drops the permit. -/
def finishCall (s : Engine) (index : Nat) (result : Except String PipelineMessage) :
    Engine :=
  { s with
    executor := { s.executor with permits := s.executor.permits + 1 }
    owners := s.owners.erase (.call index) }.setPhase index
      (.returned (match result with | .ok _ => none | .error error => some error))

def scheduleFailedPayload (cfg : EngineConfig) (c : Call) (error : String) : Json :=
  let firedAt :=
    match c.trigger with
    | .schedule _ firedAt => cfg.timeText firedAt
    | _ => ""
  .obj [("error", .str error), ("fired_at", .str firedAt),
    ("workflow_id", .str c.workflow.id)]

/-- A schedule loop reports an error and takes its workflow off the tracker, the others are done. -/
def settleCall (cfg : EngineConfig) (s : Engine) (index : Nat) (c : Call)
    (error : Option String) (now : Timestamp) : Engine :=
  match c.origin, error with
  | .schedule _, some error =>
    (s.setPhase index (.returned none)).emitWorkflowEvent cfg "workflow.schedule.failed"
      (scheduleFailedPayload cfg c error) now none
  | .schedule _, none =>
    { s with tracker := s.tracker.filter (· ≠ c.workflow.id) }.setPhase index .done
  | _, _ => s.setPhase index .done

/-! ## The scheduler -/

/-- The schedule loop has no execution under way. -/
def sleeping (s : Engine) (loop : Nat) : Bool :=
  s.calls.all fun c => c.origin ≠ .schedule loop || c.phase.isDone

/-- `try_start`, and a new call unless the workflow is on the tracker. -/
def tickLoop (s : Engine) (loop : Nat) (workflow : WorkflowDef) (firedAt : Timestamp) :
    Engine :=
  if s.sleeping loop then
    if workflow.id ∈ s.tracker then s
    else
      { s with
        tracker := workflow.id :: s.tracker
        calls := s.calls ++
          [⟨workflow, .schedule workflow.id firedAt, .schedule loop, .starting⟩] }
  else s

/-! ## Jobs -/

/-- Whoever takes a permit owns it until the permit is returned. -/
def ledger (owners : List TaskId) (event : Event) (before after : Nat) : List TaskId :=
  match event.job with
  | none => owners
  | some id =>
    if after < before then .job id :: owners
    else if before < after then owners.erase (.job id)
    else owners

/-- The emitter call of a job. -/
def relay (cfg : EngineConfig) (now : Timestamp) (s : Engine) (event : JobEvent) :
    Engine :=
  s.emitWorkflowEvent cfg event.name event.payload now
    ((s.origins event.jobId).bind Origin.cause)

/-- A step of the executor; what it emits goes to the bus. -/
def executorStep (cfg : EngineConfig) (s : Engine) (event : Event) (now : Timestamp) :
    Engine :=
  let executor := Executor.step cfg.jobTtl s.executor event
  (executor.emitted.drop s.executor.emitted.length).foldl (relay cfg now)
    { s with
      executor := executor
      owners := ledger s.owners event s.executor.permits executor.permits }

/-- `f` looks for the phase of the call. -/
def onCall (s : Engine) (index : Nat) (f : Call → Engine) : Engine :=
  match s.calls[index]? with
  | some c => f c
  | none => s

def step (cfg : EngineConfig) (s : Engine) : EngineEvent → Engine
  | .emit event => s.emit cfg event none
  | .request workflow method path body auth =>
    { s with calls := s.calls ++
        [⟨workflow, .endpoint method path body auth, .outside, .starting⟩] }
  | .tick loop firedAt =>
    match cfg.registry.getSchedules[loop]? with
    | some workflow => s.tickLoop loop workflow firedAt
    | none => s
  | .start index draw => s.onCall index fun c =>
    match c.phase with
    | .starting => s.startCall cfg index c draw
    | _ => s
  | .acquireCall index => s.onCall index fun c =>
    match c.phase with
    | .waiting => s.acquireCall index
    | _ => s
  | .finishCall index result => s.onCall index fun c =>
    match c.phase with
    | .running => s.finishCall index result
    | _ => s
  | .settle index now => s.onCall index fun c =>
    match c.phase with
    | .returned error => s.settleCall cfg index c error now
    | _ => s
  | .executor event now => s.executorStep cfg event now

end Engine

/-! ## Who holds a permit -/

/-- The run task holds a permit. -/
def RunPhase.holds : RunPhase → Bool
  | waiting => false
  | running => true
  | emitting _ => true
  | done => false

namespace Executor

/-- The run task of the job holds a permit. -/
def Holding (x : Executor) (id : Uuid) : Prop :=
  ∃ t, x.tasks id = some t ∧ t.phase.holds = true

variable {x x' : Executor} {id : Uuid} {t : JobTasks}

theorem holding_iff (ht : x.tasks id = some t) : x.Holding id ↔ t.phase.holds = true := by
  simp [Holding, ht]

theorem not_holding_of_none (h : x.tasks id = none) : ¬ x.Holding id := by
  simp [Holding, h]

theorem holding_set (htasks : x'.tasks = Function.update x.tasks id (some t)) (other : Uuid) :
    x'.Holding other ↔ if other = id then t.phase.holds = true else x.Holding other := by
  by_cases hother : other = id <;> simp [Holding, htasks, hother]

/-- What one step of the executor does to the permits. -/
inductive PermitStep (e : Event) (x x' : Executor) : Prop where
  | keep (hpermits : x'.permits = x.permits) (hemitted : x'.emitted = x.emitted)
      (hholding : ∀ other, x'.Holding other ↔ x.Holding other)
  | take (id : Uuid) (hevent : e = .acquire id) (hfree : ¬ x.Holding id)
      (hpermits : x'.permits + 1 = x.permits) (hemitted : x'.emitted = x.emitted)
      (hholding : ∀ other, x'.Holding other ↔ other = id ∨ x.Holding other)
  | give (id : Uuid) (event : JobEvent) (hevent : e = .emit id) (hheld : x.Holding id)
      (hpermits : x'.permits = x.permits + 1)
      (hemitted : x'.emitted = x.emitted ++ [event])
      (hholding : ∀ other, x'.Holding other ↔ other ≠ id ∧ x.Holding other)

theorem PermitStep.of_eq {e : Event} (h : x' = x) : PermitStep e x x' := by
  subst h
  exact .keep rfl rfl fun _ => Iff.rfl

/-- A task goes on without taking or returning a permit. -/
theorem PermitStep.of_set {e : Event} (id : Uuid) (t : JobTasks)
    (htasks : x'.tasks = Function.update x.tasks id (some t))
    (hself : t.phase.holds = true ↔ x.Holding id) (hpermits : x'.permits = x.permits)
    (hemitted : x'.emitted = x.emitted) : PermitStep e x x' := by
  refine .keep hpermits hemitted fun other => ?_
  rw [holding_set htasks, hself]
  split
  · next hother => rw [hother]
  · rfl

theorem PermitStep.of_task {e : Event} {f : JobTasks → Executor}
    (h : ∀ t, x.tasks id = some t → PermitStep e x (f t)) :
    PermitStep e x ((x.tasks id).elim x f) := by
  cases ht : x.tasks id with
  | none => exact .of_eq rfl
  | some t => exact h t ht

theorem permitStep_acquire (ht : x.tasks id = some t) :
    PermitStep (.acquire id) x (x.acquireTask id t) := by
  cases hphase : t.phase with
  | running | emitting _ | done =>
    exact .of_eq (by simp [acquireTask, hphase])
  | waiting =>
    have hfree : ¬ x.Holding id := by simp [holding_iff ht, hphase, RunPhase.holds]
    by_cases hclosed : x.closed
    · exact .of_set id { t with phase := .done } (by simp [acquireTask, hphase, hclosed])
        (by simp [hfree, RunPhase.holds])
        (by simp [acquireTask, hphase, hclosed, insertJob, setTasks])
        (by simp [acquireTask, hphase, hclosed, insertJob, setTasks])
    · by_cases hpermit : 0 < x.permits
      · refine .take id rfl hfree ?_ ?_ fun other => ?_
        · simp only [acquireTask, hphase, hclosed, hpermit]
          exact Nat.sub_add_cancel hpermit
        · simp [acquireTask, hphase, hclosed, hpermit, setTasks]
        · have htasks : (x.acquireTask id t).tasks =
              Function.update x.tasks id (some { t with phase := .running }) := by
            simp [acquireTask, hphase, hclosed, hpermit]
          rw [holding_set htasks]
          by_cases hother : other = id <;> simp [hother, RunPhase.holds]
      · exact .of_eq (by simp [acquireTask, hphase, hclosed, hpermit])

theorem permitStep_store (ht : x.tasks id = some t) (result : Except String PipelineMessage) :
    PermitStep (.store id result) x (x.storeTask id t result) := by
  cases hphase : t.phase with
  | waiting | emitting _ | done =>
    exact .of_eq (by simp [storeTask, hphase])
  | running =>
    exact .of_set id { t with phase := .emitting (outcome id t (t.initial.bind fun _ => result)).2 }
      (by simp [storeTask, hphase]) (by simp [holding_iff ht, hphase, RunPhase.holds])
      (by simp [storeTask, hphase, insertJob, setTasks])
      (by simp [storeTask, hphase, insertJob, setTasks])

theorem permitStep_emit (ht : x.tasks id = some t) : PermitStep (.emit id) x (x.emitTask id t) := by
  cases hphase : t.phase with
  | waiting | running | done =>
    exact .of_eq (by simp [emitTask, hphase])
  | emitting event =>
    refine .give id event rfl (by simp [holding_iff ht, hphase, RunPhase.holds])
      (by simp [emitTask, hphase, setTasks]) (by simp [emitTask, hphase, setTasks])
      fun other => ?_
    have htasks : (x.emitTask id t).tasks =
        Function.update x.tasks id (some { t with phase := .done }) := by
      simp [emitTask, hphase]
    rw [holding_set htasks]
    by_cases hother : other = id <;> simp [RunPhase.holds]

theorem permitStep_register (ht : x.tasks id = some t) :
    PermitStep (.register id) x (x.registerTask id t) := by
  by_cases hpending : t.registerPending = true
  · exact .of_set id { t with registerPending := false } (by simp [registerTask, hpending])
      (holding_iff ht).symm (by simp [registerTask, hpending, insertJob, setTasks])
      (by simp [registerTask, hpending, insertJob, setTasks])
  · exact .of_eq (by simp [registerTask, hpending])

theorem step_permitStep (ttl : Int) (x : Executor) (e : Event) : PermitStep e x (step ttl x e) := by
  cases e with
  | spawn id createdAt workflowId initial =>
    cases hnew : x.tasks id with
    | some t => exact .of_eq (by simp [step, hnew])
    | none =>
      exact .of_set id ⟨workflowId, createdAt, initial, true, .waiting⟩ (by simp [step, hnew])
        (by simp [RunPhase.holds, not_holding_of_none hnew]) (by simp [step, hnew, setTasks])
        (by simp [step, hnew, setTasks])
  | executeAsync id createdAt workflowId message =>
    cases hnew : x.tasks id with
    | some t => exact .of_eq (by simp [step, hnew])
    | none =>
      exact .of_set id ⟨workflowId, createdAt, .ok message, false, .waiting⟩
        (by simp [step, hnew]) (by simp [RunPhase.holds, not_holding_of_none hnew])
        (by simp [step, hnew, setTasks, insertJob]) (by simp [step, hnew, setTasks, insertJob])
  | register id => exact .of_task fun _ => permitStep_register
  | acquire id => exact .of_task fun _ => permitStep_acquire
  | store id result => exact .of_task fun _ ht => permitStep_store ht result
  | emit id => exact .of_task fun _ => permitStep_emit
  | cleanupExpiredJobs now => exact .keep rfl rfl fun _ => Iff.rfl

end Executor

/-! ## What a step of the engine does -/

/-- The call holds a permit. -/
def CallPhase.holds : CallPhase → Bool
  | running => true
  | _ => false

namespace Engine

/-- The states that one step of the engine can lead to. -/
inductive Move (cfg : EngineConfig) (s : Engine) : Engine → Prop where
  | idle : Move cfg s s
  | emit (event : BusEvent) : Move cfg s (s.emit cfg event none)
  | request (workflow : WorkflowDef) (trigger : TriggerContext) :
      Move cfg s { s with calls := s.calls ++ [⟨workflow, trigger, .outside, .starting⟩] }
  | tick (loop : Nat) (workflow : WorkflowDef) (firedAt : Timestamp)
      (hloop : cfg.registry.getSchedules[loop]? = some workflow)
      (hfree : workflow.id ∉ s.tracker) :
      Move cfg s
        { s with
          tracker := workflow.id :: s.tracker
          calls := s.calls ++
            [⟨workflow, .schedule workflow.id firedAt, .schedule loop, .starting⟩] }
  /-- A call goes on without a permit. -/
  | phase (index : Nat) (c : Call) (p : CallPhase) (hcall : s.calls[index]? = some c)
      (hlive : c.phase.isDone = false) (hholds : c.phase.holds = false)
      (hp : p.holds = false)
      (hloop : p.isDone = true → ∀ loop, c.origin ≠ .schedule loop) :
      Move cfg s (s.setPhase index p)
  /-- A call hands its workflow to a job. -/
  | background (index : Nat) (c : Call) (x : Executor) (id : Uuid)
      (origins : Uuid → Option Origin) (hcall : s.calls[index]? = some c)
      (hphase : c.phase = .starting) (hmode : c.workflow.mode = .async)
      (hpermits : x.permits = s.executor.permits)
      (hholding : ∀ other, x.Holding other ↔ s.executor.Holding other)
      (horigins : origins = s.origins ∨
        origins = Function.update s.origins id (some c.origin)) :
      Move cfg s ({ s with executor := x, origins := origins }.setPhase index
        (.returned none))
  | acquireCall (index : Nat) (c : Call) (hcall : s.calls[index]? = some c)
      (hphase : c.phase = .waiting) (hpermit : 0 < s.executor.permits) :
      Move cfg s ({ s with
        executor := { s.executor with permits := s.executor.permits - 1 }
        owners := .call index :: s.owners }.setPhase index .running)
  | finishCall (index : Nat) (c : Call) (error : Option String)
      (hcall : s.calls[index]? = some c) (hphase : c.phase = .running) :
      Move cfg s ({ s with
        executor := { s.executor with permits := s.executor.permits + 1 }
        owners := s.owners.erase (.call index) }.setPhase index (.returned error))
  /-- A schedule loop reports an error. -/
  | report (index : Nat) (c : Call) (error : Option String) (payload : Json)
      (now : Timestamp) (hcall : s.calls[index]? = some c)
      (hphase : c.phase = .returned error) :
      Move cfg s ((s.setPhase index (.returned none)).emitWorkflowEvent cfg
        "workflow.schedule.failed" payload now none)
  /-- A schedule loop takes its workflow off the tracker. -/
  | finish (index : Nat) (c : Call) (loop : Nat) (error : Option String)
      (hcall : s.calls[index]? = some c) (hphase : c.phase = .returned error)
      (horigin : c.origin = .schedule loop) :
      Move cfg s ({ s with
        tracker := s.tracker.filter (· ≠ c.workflow.id) }.setPhase index .done)
  | job (x : Executor) (hpermits : x.permits = s.executor.permits)
      (hholding : ∀ other, x.Holding other ↔ s.executor.Holding other) :
      Move cfg s { s with executor := x }
  | acquireJob (x : Executor) (id : Uuid) (hfree : ¬ s.executor.Holding id)
      (hpermits : x.permits + 1 = s.executor.permits)
      (hholding : ∀ other, x.Holding other ↔ other = id ∨ s.executor.Holding other) :
      Move cfg s { s with executor := x, owners := .job id :: s.owners }
  | releaseJob (x : Executor) (id : Uuid) (event : JobEvent) (now : Timestamp)
      (hheld : s.executor.Holding id) (hpermits : x.permits = s.executor.permits + 1)
      (hholding : ∀ other, x.Holding other ↔ other ≠ id ∧ s.executor.Holding other) :
      Move cfg s (relay cfg now
        { s with executor := x, owners := s.owners.erase (.job id) } event)

variable {s : Engine} {index : Nat} (cfg : EngineConfig)

theorem move_onCall {cfg : EngineConfig} {f : Call → Engine}
    (hf : ∀ c, s.calls[index]? = some c → Move cfg s (f c)) :
    Move cfg s (s.onCall index f) := by
  unfold onCall
  split
  · rename_i c hcall
    exact hf c hcall
  · exact .idle

theorem move_startCall {c : Call} (hcall : s.calls[index]? = some c)
    (hphase : c.phase = .starting) (draw : CallDraw) :
    Move cfg s (s.startCall cfg index c draw) := by
  unfold startCall
  split
  · exact .phase index c _ hcall (hphase ▸ rfl) (hphase ▸ rfl) rfl nofun
  · rename_i message _
    split
    · exact .phase index c _ hcall (hphase ▸ rfl) (hphase ▸ rfl) rfl nofun
    · rename_i hmode
      have hpermit := Executor.step_permitStep cfg.jobTtl s.executor
        (.executeAsync draw.jobId draw.createdAt c.workflow.id message)
      rcases hpermit with ⟨hpermits, -, hholding⟩ | ⟨_, hevent, -, -, -, -⟩ |
        ⟨_, _, hevent, -, -, -, -⟩
      · refine .background index c _ draw.jobId _ hcall hphase hmode hpermits hholding ?_
        split
        · exact .inl rfl
        · exact .inr rfl
      · cases hevent
      · cases hevent

theorem move_settleCall {c : Call} {error : Option String} (hcall : s.calls[index]? = some c)
    (hphase : c.phase = .returned error) (now : Timestamp) :
    Move cfg s (s.settleCall cfg index c error now) := by
  have hdone : (∀ loop, c.origin ≠ .schedule loop) → Move cfg s (s.setPhase index .done) :=
    fun hloop => .phase index c _ hcall (hphase ▸ rfl) (hphase ▸ rfl) rfl fun _ => hloop
  cases horigin : c.origin with
  | schedule loop =>
    cases error with
    | some message =>
      simp only [settleCall, horigin]
      exact .report index c _ _ now hcall hphase
    | none =>
      simp only [settleCall, horigin]
      exact .finish index c loop _ hcall hphase horigin
  | outside | event _ =>
    simp only [settleCall, horigin]
    exact hdone (by simp [horigin])

theorem move_executorStep (s : Engine) (event : Event) (now : Timestamp) :
    Move cfg s (s.executorStep cfg event now) := by
  unfold executorStep
  rcases Executor.step_permitStep cfg.jobTtl s.executor event with
    ⟨hpermits, hemitted, hholding⟩ | ⟨id, rfl, hfree, hpermits, hemitted, hholding⟩ |
    ⟨id, jobEvent, rfl, hheld, hpermits, hemitted, hholding⟩
  · have howners : ledger s.owners event s.executor.permits
        (Executor.step cfg.jobTtl s.executor event).permits = s.owners := by
      rw [hpermits]
      unfold ledger
      split <;> simp
    simp only [hemitted, drop_length, howners]
    exact .job _ hpermits hholding
  · have hless : (Executor.step cfg.jobTtl s.executor (.acquire id)).permits <
        s.executor.permits := by omega
    simp only [hemitted, drop_length, ledger, hless]
    exact .acquireJob _ id hfree hpermits hholding
  · have hmore : ¬ (Executor.step cfg.jobTtl s.executor (.emit id)).permits <
        s.executor.permits := by omega
    have hmore' : s.executor.permits <
        (Executor.step cfg.jobTtl s.executor (.emit id)).permits := by omega
    simp only [hemitted, drop_left, ledger, hmore, hmore']
    exact .releaseJob _ id jobEvent now hheld hpermits hholding

/-- Every step of the engine is one of the moves. -/
theorem step_move (s : Engine) (e : EngineEvent) : Move cfg s (step cfg s e) := by
  cases e with
  | emit event => exact .emit event
  | request workflow method path body auth => exact .request workflow _
  | tick loop firedAt =>
    simp only [step]
    split
    · rename_i workflow hloop
      unfold tickLoop
      split
      · split
        · exact .idle
        · rename_i hfree
          exact .tick loop workflow firedAt hloop hfree
      · exact .idle
    · exact .idle
  | start index draw =>
    refine move_onCall fun c hcall => ?_
    split
    · rename_i hphase
      exact move_startCall cfg hcall hphase draw
    · exact .idle
  | acquireCall index =>
    refine move_onCall fun c hcall => ?_
    split
    · rename_i hphase
      unfold acquireCall
      split
      · exact .phase index c _ hcall (hphase ▸ rfl) (hphase ▸ rfl) rfl nofun
      · split
        · rename_i hpermit
          exact .acquireCall index c hcall hphase hpermit
        · exact .idle
    · exact .idle
  | finishCall index result =>
    refine move_onCall fun c hcall => ?_
    split
    · rename_i hphase
      exact .finishCall index c _ hcall hphase
    · exact .idle
  | settle index now =>
    refine move_onCall fun c hcall => ?_
    split
    · rename_i error hphase
      exact move_settleCall cfg hcall hphase now
    · exact .idle
  | executor event now => exact move_executorStep cfg s event now

end Engine

/-! ## Where running workflows come from -/

/-- The registry starts the workflow for this origin. -/
def Origin.Starts (registry : TriggerRegistry) (workflow : WorkflowDef) : Origin → Prop
  | outside => True
  | event _ => ∃ name, workflow ∈ registry.findEvent name
  | schedule loop => registry.getSchedules[loop]? = some workflow

namespace Engine

/-- Calls run workflows that the registry has for their origin, and only asynchronous ones become
jobs. -/
structure Sourced (registry : TriggerRegistry) (s : Engine) : Prop where
  calls : ∀ c ∈ s.calls, c.origin.Starts registry c.workflow
  jobs : ∀ id origin, s.origins id = some origin →
    ∃ workflow, workflow.mode = .async ∧ origin.Starts registry workflow
  emissions : ∀ emission ∈ s.emissions, ∀ position, emission.cause = some position →
    ∃ workflow, workflow.mode = .async ∧ (Origin.event position).Starts registry workflow

namespace Sourced

variable {cfg : EngineConfig} {s : Engine}

theorem setPhase (h : Sourced cfg.registry s) (index : Nat) (p : CallPhase) :
    Sourced cfg.registry (s.setPhase index p) := by
  refine ⟨?_, h.jobs, h.emissions⟩
  intro c hc
  obtain ⟨other, hother⟩ := mem_iff_getElem?.mp hc
  rw [Engine.setPhase, getElem?_modify] at hother
  obtain ⟨c', hc', rfl⟩ := Option.map_eq_some_iff.mp hother
  split <;> exact h.calls c' (mem_of_getElem? hc')

theorem appendCall (h : Sourced cfg.registry s) {c : Call}
    (hc : c.origin.Starts cfg.registry c.workflow) (tracker : List String) :
    Sourced cfg.registry { s with calls := s.calls ++ [c], tracker := tracker } := by
  refine ⟨?_, h.jobs, h.emissions⟩
  intro c' hc'
  rcases mem_append.mp hc' with hold | hnew
  · exact h.calls c' hold
  · obtain rfl := mem_singleton.mp hnew
    exact hc

theorem emit (h : Sourced cfg.registry s) (event : BusEvent) {cause : Option Nat}
    (hcause : ∀ position, cause = some position →
      ∃ workflow, workflow.mode = .async ∧ (Origin.event position).Starts cfg.registry workflow) :
    Sourced cfg.registry (s.emit cfg event cause) := by
  refine ⟨?_, h.jobs, ?_⟩
  · intro c hc
    rcases mem_append.mp hc with hold | hnew
    · exact h.calls c hold
    · split at hnew
      · simp at hnew
      · obtain ⟨workflow, hworkflow, rfl⟩ := mem_map.mp hnew
        exact ⟨event.name, hworkflow⟩
  · intro emission hemission position hposition
    rcases mem_append.mp hemission with hold | hnew
    · exact h.emissions emission hold position hposition
    · obtain rfl := mem_singleton.mp hnew
      exact hcause position hposition

theorem congr (h : Sourced cfg.registry s) (x : Executor) (owners : List TaskId)
    (tracker : List String) :
    Sourced cfg.registry { s with executor := x, owners := owners, tracker := tracker } :=
  ⟨h.calls, h.jobs, h.emissions⟩

theorem setOrigin (h : Sourced cfg.registry s) {c : Call} (hc : c ∈ s.calls)
    (hmode : c.workflow.mode = .async) (id : Uuid) :
    Sourced cfg.registry { s with origins := Function.update s.origins id (some c.origin) } := by
  refine ⟨h.calls, ?_, h.emissions⟩
  intro other origin horigin
  by_cases hother : other = id
  · subst hother
    obtain rfl : c.origin = origin := by simpa using horigin
    exact ⟨c.workflow, hmode, h.calls c hc⟩
  · exact h.jobs other origin (by simpa [hother] using horigin)

end Sourced

theorem sourced_move {cfg : EngineConfig} {s s' : Engine} (hmove : Move cfg s s')
    (h : Sourced cfg.registry s) : Sourced cfg.registry s' := by
  cases hmove with
  | idle => exact h
  | emit event => exact h.emit event (by simp)
  | request workflow trigger => exact h.appendCall (c := ⟨_, _, .outside, _⟩) trivial _
  | tick loop workflow firedAt hloop hfree =>
    exact h.appendCall (c := ⟨_, _, .schedule loop, _⟩) hloop _
  | phase index c p hcall hlive hholds hp hloop => exact h.setPhase index p
  | background index c x id origins hcall hphase hmode hpermits hholding horigins =>
    apply Sourced.setPhase
    rcases horigins with rfl | rfl
    · exact h.congr x s.owners s.tracker
    · exact (h.setOrigin (mem_of_getElem? hcall) hmode id).congr x s.owners s.tracker
  | acquireCall index c hcall hphase hpermit =>
    exact Sourced.setPhase (h.congr _ _ s.tracker) index _
  | finishCall index c error hcall hphase =>
    exact Sourced.setPhase (h.congr _ _ s.tracker) index _
  | report index c error payload now hcall hphase =>
    exact (h.setPhase index _).emit _ (by simp)
  | finish index c loop error hcall hphase horigin =>
    exact Sourced.setPhase (h.congr s.executor s.owners _) index _
  | job x hpermits hholding => exact h.congr x s.owners s.tracker
  | acquireJob x id hfree hpermits hholding => exact h.congr x _ s.tracker
  | releaseJob x id event now hheld hpermits hholding =>
    refine (h.congr x _ s.tracker).emit _ fun position hposition => ?_
    obtain ⟨origin, horigin, hcause⟩ := Option.bind_eq_some_iff.mp hposition
    obtain rfl : origin = .event position := by
      cases origin <;> simp_all [Origin.cause]
    exact h.jobs _ _ horigin

theorem sourced_run (cfg : EngineConfig) (limit : Nat) (events : List EngineEvent) :
    Sourced cfg.registry (run (step cfg) (withConcurrencyLimit limit) events) := by
  have hstep : ∀ s e, Sourced cfg.registry s → Sourced cfg.registry (step cfg s e) :=
    fun s e => sourced_move (step_move cfg s e)
  refine run_invariant hstep ?_ events
  exact ⟨by simp [withConcurrencyLimit], by simp [withConcurrencyLimit],
    by simp [withConcurrencyLimit]⟩

/-- One workflow runs whenever a job has completed, another every night. -/
def completionConfig (mode : ExecutionMode) : EngineConfig where
  registry :=
    { events := fun name =>
        if name = "workflow.completed" then [⟨"on-completed", mode⟩] else []
      schedules := [⟨"nightly", mode⟩] }
  maxDepth := 8
  jobTtl := 3600000
  typeError := fun _ => "not of type object"
  timeText := fun _ => "1970-01-01T00:00:00+00:00"

end Engine

end LifeEngine.Workflow
