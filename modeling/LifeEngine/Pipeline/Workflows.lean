import LifeEngine.Support.Fallible
import LifeEngine.Types.Pipeline

/-!
# Workflow definitions

The definitions that the loader reads from YAML, and their validation.  A workflow has a
trigger and a list of steps; a step calls a plugin, or takes one of two branches.
-/

namespace LifeEngine.Pipeline

open Support

inductive ValidationLevel where
  | strict
  | edges
  | none
  deriving DecidableEq, Repr

inductive ErrorStrategyType where
  | halt
  | skip
  | retry
  deriving DecidableEq, Repr

inductive ConditionOperator where
  | equals
  | notEquals
  /-- `Exists`. -/
  | present
  | isEmpty
  deriving DecidableEq, Repr

mutual

structure StepDef where
  plugin : String
  action : String
  onError : Option ErrorStrategy
  condition : Option ConditionDef

structure ErrorStrategy where
  strategy : ErrorStrategyType
  maxRetries : Option UInt32
  fallback : Option StepDef

structure ConditionDef where
  field : String
  operator : ConditionOperator
  value : Json
  thenSteps : List StepDef
  elseSteps : List StepDef

end

structure TriggerDef where
  endpoint : Option String
  event : Option String
  schedule : Option String
  deriving DecidableEq, Repr

structure WorkflowDef where
  id : String
  validate : ValidationLevel
  trigger : TriggerDef
  steps : List StepDef

inductive WorkflowError where
  | duplicateWorkflowId (id file1 file2 : String)
  | duplicateEndpoint (endpoint workflow1 workflow2 : String)
  | stepHalted (stepIndex : Nat) (plugin action cause : String)
  | validationFailed (stepIndex : Nat) (details : String)
  | loadFailed (file cause : String)
  | invalidDefinition (workflowId reason : String)
  | retryExhausted (stepIndex : Nat) (plugin action : String) (retries : Nat) (cause : String)
  deriving DecidableEq, Repr

/-- The field `step_index` of an error. -/
def WorkflowError.stepIndex : WorkflowError → Option Nat
  | stepHalted index _ _ _ => some index
  | validationFailed index _ => some index
  | retryExhausted index _ _ _ _ => some index
  | _ => none

/-! ## Validation -/

def validateEventName (event workflowId : String) : Except WorkflowError Unit :=
  if event.isEmpty then .error (.invalidDefinition workflowId "event name must not be empty")
  else if (event.toList.splitOn '.').any List.isEmpty then
    .error (.invalidDefinition workflowId ("event name '" ++ event ++
      "' contains an empty segment; use dot-separated names like 'domain.action'"))
  else .ok ()

/-- The checks of a plugin step. -/
def validatePluginStep (plugin action workflowId : String) (index : Nat) :
    Except WorkflowError Unit :=
  if plugin.isEmpty then
    .error (.invalidDefinition workflowId
      ("step " ++ toString index ++ " is missing a 'plugin' field"))
  else if action.isEmpty then
    .error (.invalidDefinition workflowId
      ("step " ++ toString index ++ " is missing an 'action' field"))
  else .ok ()

/-- `validate_step` inside a branch. -/
def validateBranchStep (workflowId : String) (index : Nat) (step : StepDef) :
    Except WorkflowError Unit :=
  match step.condition with
  | some _ => .error (.invalidDefinition workflowId ("step " ++ toString index ++
      " contains a nested condition inside a branch; " ++
      "only flat plugin steps are allowed in then/else branches"))
  | none => validatePluginStep step.plugin step.action workflowId index

/-- The loop over the steps, up to the first error. -/
def validateAll (validate : Nat → StepDef → Except WorkflowError Unit) :
    Nat → List StepDef → Except WorkflowError Unit
  | _, [] => .ok ()
  | index, step :: rest => do
      validate index step
      validateAll validate (index + 1) rest

/-- `validate_step` at the top level. -/
def validateStep (workflowId : String) (index : Nat) (step : StepDef) :
    Except WorkflowError Unit :=
  match step.condition with
  | some condition => do
      validateAll (validateBranchStep workflowId) 0 condition.thenSteps
      validateAll (validateBranchStep workflowId) 0 condition.elseSteps
  | none => validatePluginStep step.plugin step.action workflowId index

def validateTrigger (trigger : TriggerDef) (workflowId : String) : Except WorkflowError Unit :=
  match trigger.event with
  | some event => validateEventName event workflowId
  | none => .ok ()

def validateWorkflow (workflow : WorkflowDef) (filename : String) :
    Except WorkflowError Unit := do
  ensure (workflow.id.isEmpty = false) (.invalidDefinition ("(unknown in " ++ filename ++ ")")
    "workflow is missing an 'id' field")
  ensure (workflow.steps.isEmpty = false)
    (.invalidDefinition workflow.id "workflow must have at least one step")
  validateTrigger workflow.trigger workflow.id
  validateAll (validateStep workflow.id) 0 workflow.steps

/-! ## What acceptance means -/

theorem validateAll_ok {validate : Nat → StepDef → Except WorkflowError Unit} {index : Nat}
    {steps : List StepDef} (h : validateAll validate index steps = .ok ()) :
    ∀ step ∈ steps, ∃ i, validate i step = .ok () := by
  induction steps generalizing index with
  | nil => simp
  | cons step rest ih =>
    obtain ⟨_, hstep, hrest⟩ := bind_eq_ok_iff.mp h
    rw [List.forall_mem_cons]
    exact ⟨⟨index, hstep⟩, ih hrest⟩

/-- A list of plugin steps. -/
def Flat (steps : List StepDef) : Prop :=
  ∀ step ∈ steps, step.condition = none

theorem flat_of_validateAll {workflowId : String} {index : Nat} {steps : List StepDef}
    (h : validateAll (validateBranchStep workflowId) index steps = .ok ()) : Flat steps := by
  intro step hstep
  obtain ⟨i, hi⟩ := validateAll_ok h step hstep
  rcases hcondition : step.condition with _ | condition
  · rfl
  · simp [validateBranchStep, hcondition] at hi

theorem length_pos_of_validateWorkflow {workflow : WorkflowDef} {filename : String}
    (h : validateWorkflow workflow filename = .ok ()) : 0 < workflow.steps.length := by
  simp only [validateWorkflow, bind_eq_ok_iff, ensure_eq_ok_iff] at h
  obtain ⟨_, -, _, hsteps, -⟩ := h
  rw [List.length_pos_iff]
  simpa using hsteps

theorem flat_branches_of_validateWorkflow {workflow : WorkflowDef} {filename : String}
    (h : validateWorkflow workflow filename = .ok ()) {step : StepDef}
    (hstep : step ∈ workflow.steps) {condition : ConditionDef}
    (hcondition : step.condition = some condition) :
    Flat condition.thenSteps ∧ Flat condition.elseSteps := by
  simp only [validateWorkflow, bind_eq_ok_iff] at h
  obtain ⟨_, -, _, -, _, -, hsteps⟩ := h
  obtain ⟨i, hi⟩ := validateAll_ok hsteps step hstep
  simp only [validateStep, hcondition, bind_eq_ok_iff] at hi
  obtain ⟨_, hthen, helse⟩ := hi
  exact ⟨flat_of_validateAll hthen, flat_of_validateAll helse⟩

end LifeEngine.Pipeline
