import LifeEngine.Auth.ApiKeys
import LifeEngine.Pipeline.Workflows
import LifeEngine.Support.Text
import LifeEngine.Support.Traced
import LifeEngine.Types.JsonText
import LifeEngine.Types.Number

/-!
# The pipeline executor

`run_steps`: the steps of a workflow run one after the other, each on the output of the
one before.  A step is called once; if it fails, its severity and its strategy decide
whether the run halts, skips it or tries it again, and after the last attempt a fallback
may be called.

A run leaves a trace of the plugin calls and of the log entries.  The plugin executor
answers each call by whatever it likes, given the trace so far.  A panic ends the run
without a result.
-/

namespace LifeEngine.Pipeline

open Support
open LifeEngine.Auth (cdmTag)

/-! ## Errors and logs -/

inductive Severity where
  | fatal
  | retryable
  | warning
  deriving DecidableEq, Repr

/-- `{:?}` of a severity. -/
def Severity.debug : Severity → String
  | fatal => "Fatal"
  | retryable => "Retryable"
  | warning => "Warning"

/-- An `EngineError` of a plugin. -/
structure PluginError where
  message : String
  code : String
  severity : Severity
  deriving DecidableEq, Repr

inductive StepStatus where
  | completed
  | failed
  | skipped
  | retried
  deriving DecidableEq, Repr

inductive ExecutionStatus where
  | completed
  | failed
  | partiallyFailed
  deriving DecidableEq, Repr

structure StepErrorLog where
  message : String
  code : String
  severity : String
  inputSummary : String
  deriving DecidableEq, Repr

structure StepLog where
  index : Nat
  pluginId : String
  action : String
  status : StepStatus
  durationMs : Nat
  error : Option StepErrorLog
  retryCount : Option Nat
  deriving DecidableEq, Repr

structure ExecutionLog where
  workflowId : String
  triggerType : String
  triggerValue : String
  startedAt : Timestamp
  completedAt : Timestamp
  totalDurationMs : Nat
  status : ExecutionStatus
  steps : List StepLog

/-! ## Traces -/

/-- Where a step stands, and its index. The path has a position in each list, with 0 or 1 for the
branch in between; the program does not keep it. -/
structure Site where
  path : List Nat
  index : Nat
  step : StepDef

inductive CallKind where
  | first
  | retry (attempt backoffSecs : Nat)
  | fallback
  deriving DecidableEq, Repr

structure PluginCall where
  site : Site
  kind : CallKind
  plugin : String
  action : String
  input : PipelineMessage
  answer : Except PluginError PipelineMessage

inductive Event where
  | called (call : PluginCall)
  | logged (site : Site) (entry : StepLog)

/-- How a run ends without a message. -/
inductive Exit where
  | error (e : WorkflowError)
  | panic

abbrev Execution := Traced Event Exit

/-- The texts of doubles and failed validations are those of `serde_json` and `jsonschema`. -/
structure ExecutorEnv where
  /-- `PluginExecutor::execute`. -/
  execute : List Event → (plugin action : String) → PipelineMessage →
    Except PluginError PipelineMessage
  now : List Event → Timestamp
  typeError : Json → String
  doubleText : UInt64 → String
  /-- Whether arithmetic overflow panics, as in a debug build. -/
  overflowChecks : Bool

/-! ## Messages -/

/-- The field `data` of a serialised payload. -/
def payloadData : TypedPayload → Json
  | .cdm kind value => .obj [("collection", .str (cdmTag kind)), ("value", value)]
  | .custom value => value

/-- `serde_json::to_string` of a payload. -/
def payloadText (doubleText : UInt64 → String) (payload : TypedPayload) : List Char :=
  let tag := match payload with
    | .cdm _ _ => "Cdm"
    | .custom _ => "Custom"
  "\x7b\"type\":\"".toList ++ tag.toList ++ "\",\"data\":".toList ++
    (payloadData payload).text doubleText ++ ['\x7d']

def validateMessage (env : ExecutorEnv) (message : PipelineMessage) (stepIndex : Nat)
    (context : String) : Except WorkflowError Unit :=
  match payloadData message.payload with
  | .obj _ => .ok ()
  | data => .error (.validationFailed stepIndex (context ++ ": " ++ env.typeError data))

/-- `str::len`. -/
def byteLength : List Char → Nat
  | [] => 0
  | c :: text => c.utf8Size + byteLength text

/-- `&text[..n]`, unless `n` is no boundary of characters. -/
def sliceTo : Nat → List Char → Option (List Char)
  | 0, _ => some []
  | _ + 1, [] => none
  | n + 1, c :: text =>
    if c.utf8Size ≤ n + 1 then (sliceTo (n + 1 - c.utf8Size) text).map (c :: ·) else none

/-- `summarize_input`; there is no summary if it panics. -/
def summarizeInput (env : ExecutorEnv) (message : PipelineMessage) : Option String :=
  let json := payloadText env.doubleText message.payload
  if byteLength json > 200 then
    (sliceTo 200 json).map fun front => String.ofList (front ++ "...".toList)
  else some (String.ofList json)

def resolveField (message : PipelineMessage) (field : String) : Option Json :=
  let path := if "payload.".toList.isPrefixOf field.toList then
    field.toList.drop "payload.".toList.length else field.toList
  (path.splitOn '.').foldlM (fun current segment => current.get (String.ofList segment))
    (payloadData message.payload)

def evaluateCondition (operator : ConditionOperator) (resolved : Option Json)
    (comparisonValue : Json) : Bool :=
  match operator with
  | .equals => (resolved.map fun v => v.same comparisonValue).getD false
  | .notEquals => (resolved.map fun v => !v.same comparisonValue).getD false
  | .present => resolved.isSome
  | .isEmpty =>
    match resolved with
    | none | some .null | some (.arr []) => true
    | some (.str s) => s.isEmpty
    | some _ => false

/-! ## Steps -/

section Steps

variable (env : ExecutorEnv)

def callPlugin (site : Site) (kind : CallKind) (plugin action : String)
    (input : PipelineMessage) : Execution (Except PluginError PipelineMessage) := do
  let answer := env.execute (← Traced.history) plugin action input
  Traced.emit (.called ⟨site, kind, plugin, action, input, answer⟩)
  return answer

def pushLog (site : Site) (started : Timestamp) (status : StepStatus)
    (error : Option StepErrorLog) (retryCount : Option Nat) : Execution Unit := do
  let durationMs := (env.now (← Traced.history) - started).toNat
  Traced.emit (.logged site ⟨site.index, site.step.plugin, site.step.action, status, durationMs,
    error, retryCount⟩)

/-- The error of a log entry, with a summary of the input. -/
def errorLog (message code : String) (severity : Severity) (input : PipelineMessage) :
    Execution StepErrorLog :=
  match summarizeInput env input with
  | some summary => return ⟨message, code, severity.debug, summary⟩
  | none => Traced.leave .panic

def StepDef.maxRetries (step : StepDef) : Nat :=
  ((step.onError.bind ErrorStrategy.maxRetries).getD 3).toNat

def StepDef.fallback (step : StepDef) : Option StepDef :=
  step.onError.bind ErrorStrategy.fallback

/-- The strategy for an error; a warning needs none. -/
def effectiveStrategy (step : StepDef) : Severity → Option ErrorStrategyType
  | .fatal => some .halt
  | .warning => none
  | .retryable =>
    match step.onError with
    | none => some .retry
    | some onError => some onError.strategy

def haltStep (site : Site) (started : Timestamp) (input : PipelineMessage) (e : PluginError) :
    Execution PipelineMessage := do
  let error ← errorLog env e.message e.code e.severity input
  pushLog env site started .failed (some error) none
  Traced.leave (.error (.stepHalted site.index site.step.plugin site.step.action e.message))

def skipStep (site : Site) (started : Timestamp) (input : PipelineMessage) (e : PluginError) :
    Execution PipelineMessage := do
  let error ← errorLog env e.message e.code e.severity input
  pushLog env site started .skipped (some error) none
  let warning := "step " ++ toString site.index ++ " (" ++ site.step.plugin ++ "." ++
    site.step.action ++ ") skipped: " ++ e.message
  return { input with
    metadata := { input.metadata with warnings := input.metadata.warnings ++ [warning] } }

/-- `min(1u64 << (attempt - 1), 30)`. A shift by 64 or more panics, or else wraps around. -/
def backoffSecs (overflowChecks : Bool) (attempt : Nat) : Option Nat :=
  if attempt - 1 < 64 then some (min (2 ^ (attempt - 1)) 30)
  else if overflowChecks then none
  else some (min (2 ^ ((attempt - 1) % 64)) 30)

/-- The remaining attempts: the output and its attempt, or the last error. -/
def retryLoop (site : Site) (input : PipelineMessage) :
    Nat → Nat → PluginError → Execution (Except PluginError (PipelineMessage × Nat))
  | 0, _, lastError => return .error lastError
  | remaining + 1, attempt, _ =>
    match backoffSecs env.overflowChecks attempt with
    | none => Traced.leave .panic
    | some secs => do
        let answer ← callPlugin env site (.retry attempt secs) site.step.plugin
          site.step.action input
        match answer with
        | .ok output => return .ok (output, attempt)
        | .error e => retryLoop site input remaining (attempt + 1) e

/-- The end of a step whose retries failed. -/
def exhaustStep (site : Site) (started : Timestamp) (input : PipelineMessage)
    (lastError : PluginError) (cause : String) : Execution PipelineMessage := do
  let error ← errorLog env cause lastError.code lastError.severity input
  pushLog env site started .failed (some error) (some site.step.maxRetries)
  Traced.leave (.error (.retryExhausted site.index site.step.plugin site.step.action
    site.step.maxRetries cause))

/-- After the last retry: the fallback, if there is one. -/
def fallbackStep (site : Site) (started : Timestamp) (input : PipelineMessage)
    (lastError : PluginError) : Execution PipelineMessage :=
  match site.step.fallback with
  | some fallback => do
      match ← callPlugin env site .fallback fallback.plugin fallback.action input with
      | .ok output => return output
      | .error fallbackError =>
        exhaustStep env site started input lastError ("retries failed: " ++
          lastError.message ++ "; fallback also failed: " ++ fallbackError.message)
  | none => exhaustStep env site started input lastError lastError.message

def retryStep (site : Site) (started : Timestamp) (input : PipelineMessage) (e : PluginError) :
    Execution PipelineMessage := do
  match ← retryLoop env site input site.step.maxRetries 1 e with
  | .ok (output, attempt) =>
    pushLog env site started .retried none (some attempt)
    return output
  | .error lastError => fallbackStep env site started input lastError

/-- What follows a first attempt that failed. -/
def recoverStep (site : Site) (started : Timestamp) (input : PipelineMessage)
    (e : PluginError) : Execution PipelineMessage :=
  match effectiveStrategy site.step e.severity with
  | none => return input
  | some .halt => haltStep env site started input e
  | some .skip => skipStep env site started input e
  | some .retry => retryStep env site started input e

/-- The output, validated if the level is strict. -/
def validateOutput (validate : ValidationLevel) (site : Site) (output : PipelineMessage) :
    Except Exit PipelineMessage :=
  if validate = .strict then
    match validateMessage env output site.index ("strict validation after step " ++
      toString site.index ++ " (" ++ site.step.plugin ++ "." ++ site.step.action ++ ")") with
    | .ok () => .ok output
    | .error e => .error (.error e)
  else .ok output

/-- The body of the loop of `execute_steps` for a plugin step. -/
def executePlugin (validate : ValidationLevel) (site : Site) (input : PipelineMessage) :
    Execution PipelineMessage := do
  let started := env.now (← Traced.history)
  match ← callPlugin env site .first site.step.plugin site.step.action input with
  | .ok output =>
    pushLog env site started .completed none none
    Traced.ofExcept (validateOutput env validate site output)
  | .error e => recoverStep env site started input e

mutual

/-- `execute_steps` from the given position on. -/
def executeSteps (validate : ValidationLevel) (parent : List Nat) (baseIndex : Nat) :
    Nat → List StepDef → PipelineMessage → Execution PipelineMessage
  | _, [], message => return message
  | offset, step :: rest, message => do
      let next ← executeStep validate parent baseIndex offset step message
      executeSteps validate parent baseIndex (offset + 1) rest next

/-- A plugin step, or the branch that its condition selects. -/
def executeStep (validate : ValidationLevel) (parent : List Nat) (baseIndex offset : Nat) :
    StepDef → PipelineMessage → Execution PipelineMessage
  | ⟨plugin, action, onError, none⟩, message =>
    executePlugin env validate
      ⟨parent ++ [offset], baseIndex + offset, ⟨plugin, action, onError, none⟩⟩ message
  | ⟨_, _, _, some ⟨field, operator, value, thenSteps, elseSteps⟩⟩, message =>
    if evaluateCondition operator (resolveField message field) value then
      executeSteps validate (parent ++ [offset, 0]) ((baseIndex + offset) * 100) 0 thenSteps
        message
    else
      executeSteps validate (parent ++ [offset, 1]) ((baseIndex + offset) * 100) 0 elseSteps
        message

end

end Steps

/-! ## Runs -/

/-- The plugin calls of a trace. -/
def calls (events : List Event) : List PluginCall :=
  events.filterMap fun
    | .called call => some call
    | .logged _ _ => none

/-- The log entries of a trace, with the steps that wrote them. -/
def entries (events : List Event) : List (Site × StepLog) :=
  events.filterMap fun
    | .called _ => none
    | .logged site entry => some (site, entry)

def deriveTriggerInfo (trigger : TriggerDef) : String × String :=
  match trigger.endpoint, trigger.event, trigger.schedule with
  | some endpoint, _, _ => ("endpoint", endpoint)
  | none, some event, _ => ("event", event)
  | none, none, some schedule => ("schedule", schedule)
  | none, none, none => ("unknown", "")

/-- The steps of a workflow: the events of the run and its end. -/
def stepsRun (env : ExecutorEnv) (workflow : WorkflowDef) (initialMessage : PipelineMessage) :
    List Event × Except Exit PipelineMessage :=
  (executeSteps env workflow.validate [] 0 0 workflow.steps initialMessage).run []

def runStatus (events : List Event) (result : Except Exit PipelineMessage) : ExecutionStatus :=
  match result with
  | .ok _ =>
    if (entries events).any fun e => e.2.status = .skipped then .partiallyFailed
    else .completed
  | .error _ => .failed

def executionLog (env : ExecutorEnv) (workflow : WorkflowDef) (events : List Event)
    (result : Except Exit PipelineMessage) : ExecutionLog :=
  let (triggerType, triggerValue) := deriveTriggerInfo workflow.trigger
  { workflowId := workflow.id
    triggerType := triggerType
    triggerValue := triggerValue
    startedAt := env.now []
    completedAt := env.now events
    totalDurationMs := (env.now events - env.now []).toNat
    status := runStatus events result
    steps := (entries events).map Prod.snd }

/-- What happened, the log, and what `run_steps` returns. -/
structure Run where
  events : List Event
  log : Option ExecutionLog
  result : Except Exit PipelineMessage

/-- `Edges` and `Strict` validate what enters and leaves. -/
def validateEdge (env : ExecutorEnv) (workflow : WorkflowDef) (message : PipelineMessage)
    (stepIndex : Nat) (context : String) : Except WorkflowError Unit :=
  if workflow.validate = .none then .ok () else validateMessage env message stepIndex context

/-- What `run_steps` does after the steps. -/
def finishRun (env : ExecutorEnv) (workflow : WorkflowDef) (events : List Event) :
    Except Exit PipelineMessage → Run
  | .error .panic => ⟨events, none, .error .panic⟩
  | .error (.error e) =>
    ⟨events, some (executionLog env workflow events (.error (.error e))), .error (.error e)⟩
  | .ok message =>
    ⟨events, some (executionLog env workflow events (.ok message)),
      match validateEdge env workflow message (workflow.steps.length - 1) "exit validation" with
      | .ok () => .ok message
      | .error e => .error (.error e)⟩

def runSteps (env : ExecutorEnv) (workflow : WorkflowDef) (initialMessage : PipelineMessage) :
    Run :=
  match validateEdge env workflow initialMessage 0 "entry validation" with
  | .error e => ⟨[], none, .error (.error e)⟩
  | .ok () =>
    let (events, result) := stepsRun env workflow initialMessage
    finishRun env workflow events result

/-! ## Scripted executors -/

/-- Gives the answers in turn, and then returns what it gets. -/
def scripted (answers : List (Except PluginError PipelineMessage)) : ExecutorEnv where
  execute events _ _ message := (answers[(calls events).length]?).getD (.ok message)
  now _ := 0
  typeError _ := "not of type \"object\""
  doubleText _ := "0.0"
  overflowChecks := true

def customMessage (data : Json) : PipelineMessage :=
  ⟨⟨0, "test", 0, none, []⟩, .custom data⟩

/-- A step without a condition and with the given strategy. -/
def pluginStep (plugin action : String) (onError : Option ErrorStrategy) : StepDef :=
  ⟨plugin, action, onError, none⟩

def manualWorkflow (validate : ValidationLevel) (steps : List StepDef) : WorkflowDef :=
  ⟨"sync", validate, ⟨none, some "sync.requested", none⟩, steps⟩

end LifeEngine.Pipeline
