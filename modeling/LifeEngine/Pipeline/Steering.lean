import LifeEngine.Pipeline.Effects

/-!
# Runs that plugins bring about

The output of a plugin decides which branch a later condition takes.  Plugins that succeed
and count the calls can give every step the message that it is meant to get, as long as the
message only changes at steps that make a call.  Every step that is reached is then logged.
-/

namespace LifeEngine.Pipeline

open Support List

/-! ## Branches -/

/-- The branch for a condition that matches, or does not. -/
def ConditionDef.branch (condition : ConditionDef) (matched : Bool) : List StepDef :=
  if matched then condition.thenSteps else condition.elseSteps

def ConditionDef.selected (condition : ConditionDef) (message : PipelineMessage) : Bool :=
  evaluateCondition condition.operator (resolveField message condition.field) condition.value

def branchNumber (matched : Bool) : Nat :=
  if matched then 0 else 1

/-- The branches of the steps hold plugin steps only. -/
def BranchesFlat (steps : List StepDef) : Prop :=
  ∀ step ∈ steps, ∀ condition, step.condition = some condition →
    Flat condition.thenSteps ∧ Flat condition.elseSteps

theorem branchesFlat_of_validateWorkflow {workflow : WorkflowDef} {filename : String}
    (haccepted : validateWorkflow workflow filename = .ok ()) : BranchesFlat workflow.steps :=
  fun _ hstep _ hcondition => flat_branches_of_validateWorkflow haccepted hstep hcondition

theorem ConditionDef.flat_branch {condition : ConditionDef}
    (hflat : Flat condition.thenSteps ∧ Flat condition.elseSteps) (matched : Bool) :
    Flat (condition.branch matched) := by
  rcases matched with _ | _
  · exact hflat.2
  · exact hflat.1

/-- A condition runs the branch that it selects. -/
theorem executeStep_condition (env : ExecutorEnv) (validate : ValidationLevel)
    {plugin action : String} {onError : Option ErrorStrategy} {condition : ConditionDef}
    (offset : Nat) (message : PipelineMessage) :
    executeStep env validate [] 0 offset ⟨plugin, action, onError, some condition⟩ message =
      executeSteps env validate [offset, branchNumber (condition.selected message)]
        ((0 + offset) * 100) 0 (condition.branch (condition.selected message)) message := by
  obtain ⟨field, operator, value, thenSteps, elseSteps⟩ := condition
  rw [executeStep]
  split <;> next h => simp [ConditionDef.selected, ConditionDef.branch, branchNumber, h]

/-! ## Counted calls -/

/-- The paths and indices of the plugin steps that a step on the message comes to. -/
def StepDef.sites (step : StepDef) (i : Nat) (message : PipelineMessage) : List (List Nat × Nat) :=
  match step.condition with
  | none => [([i], i)]
  | some condition =>
    let matched := condition.selected message
    (range' 0 (condition.branch matched).length).map fun k =>
      ([i, branchNumber matched, k], i * 100 + k)

/-- The sites of the steps, each on the message for its position. -/
def sitesFrom (message : Nat → PipelineMessage) (i : Nat) (steps : List StepDef) :
    List (List Nat × Nat) :=
  (steps.zipIdx i).flatMap fun (step, k) => step.sites k (message k)

/-- The position of the step that is next after a number of calls. -/
def positionFrom (message : Nat → PipelineMessage) : Nat → List StepDef → Nat → Nat
  | i, step :: rest, n + 1 =>
    let count := (step.sites i (message i)).length
    if n + 1 < count then i else positionFrom message (i + 1) rest (n + 1 - count)
  | i, _, _ => i

/-- A message whose time says how many calls were made. -/
def numbered (payload : Nat → TypedPayload) (n : Nat) : PipelineMessage :=
  ⟨⟨0, "", n, none, []⟩, payload n⟩

/-- Answers every call with the message of the next number. -/
def counting (payload : Nat → TypedPayload) : ExecutorEnv :=
  { scripted [] with
    execute := fun _ _ _ input => .ok (numbered payload (input.metadata.timestamp.toNat + 1)) }

/-- Adds entries for the sites, each of which takes one call. -/
def Visits (payload : Nat → TypedPayload) (x : Execution PipelineMessage) (n : Nat)
    (sites : List (List Nat × Nat)) : Prop :=
  ∃ events, (entries events).map (fun a => (a.1.path, a.2.index)) = sites ∧
    ∀ h, x.run h = (events, .ok (numbered payload (n + sites.length)))

section Visits

variable {payload : Nat → TypedPayload} {validate : ValidationLevel} {n i : Nat}

theorem Visits.bind {x : Execution PipelineMessage}
    {g : PipelineMessage → Execution PipelineMessage} {first second : List (List Nat × Nat)}
    (hx : Visits payload x n first)
    (hg : Visits payload (g (numbered payload (n + first.length))) (n + first.length) second) :
    Visits payload (x >>= g) n (first ++ second) := by
  obtain ⟨events, hfirst, hrun⟩ := hx
  obtain ⟨later, hsecond, hrest⟩ := hg
  refine ⟨events ++ later, by rw [entries_append, map_append, hfirst, hsecond], fun h => ?_⟩
  rw [Traced.run_bind_ok (hrun h), hrest, length_append, Nat.add_assoc]

variable (hvalid : ∀ n, Valid (numbered payload n))

include hvalid

theorem visits_executePlugin (site : Site) :
    Visits payload (executePlugin (counting payload) validate site (numbered payload n)) n
      [(site.path, site.index)] := by
  have houtput : validateOutput (counting payload) validate site (numbered payload (n + 1)) =
      .ok (numbered payload (n + 1)) := by
    obtain ⟨fields, hfields⟩ := hvalid (n + 1)
    rw [validateOutput]
    split
    · simp [validateMessage, hfields]
    · rfl
  refine ⟨[.called ⟨site, .first, site.step.plugin, site.step.action, numbered payload n,
      .ok (numbered payload (n + 1))⟩,
    .logged site ⟨site.index, site.step.plugin, site.step.action, .completed, 0, none, none⟩],
    rfl, fun h => ?_⟩
  have hnext : (numbered payload n).metadata.timestamp.toNat + 1 = n + 1 := rfl
  unfold counting scripted at houtput ⊢
  simp [executePlugin, callPlugin, pushLog, Traced.run_bind, houtput, hnext]

/-- The steps of a branch are visited one after the other. -/
theorem visits_flat {steps : List StepDef} (hflat : Flat steps) (parent : List Nat)
    (baseIndex offset : Nat) :
    Visits payload (executeSteps (counting payload) validate parent baseIndex offset steps
      (numbered payload n)) n
      ((range' offset steps.length).map fun k => (parent ++ [k], baseIndex + k)) := by
  induction steps generalizing n offset with
  | nil => exact ⟨[], rfl, fun _ => rfl⟩
  | cons step rest ih =>
    obtain ⟨plugin, action, onError, condition⟩ := step
    obtain rfl : condition = none := hflat _ mem_cons_self
    exact (visits_executePlugin hvalid _).bind
      (ih (fun s hs => hflat s (mem_cons_of_mem _ hs)) (offset + 1))

variable {message : Nat → PipelineMessage}

theorem visits_executeStep {step : StepDef} (hflat : BranchesFlat [step])
    (hpayload : payload n = (message i).payload) :
    Visits payload (executeStep (counting payload) validate [] 0 i step (numbered payload n)) n
      (step.sites i (message i)) := by
  obtain ⟨plugin, action, onError, _ | condition⟩ := step
  · rw [executeStep, Nat.zero_add]
    exact visits_executePlugin hvalid _
  · have hselected : condition.selected (numbered payload n) =
        condition.selected (message i) := by
      simp only [ConditionDef.selected, resolveField, numbered, hpayload]
    rw [executeStep_condition, hselected, Nat.zero_add]
    have hbranches := hflat _ mem_cons_self condition rfl
    exact visits_flat hvalid (ConditionDef.flat_branch hbranches _) _ _ _

/-- The steps are visited if the message only changes at steps that make a call. -/
theorem visits_executeSteps {steps : List StepDef} (hflat : BranchesFlat steps)
    (hmessage : ∀ k step, (step, k) ∈ steps.zipIdx i → step.sites k (message k) = [] →
      message (k + 1) = message k)
    (hpayload : ∀ m, payload (n + m) = (message (positionFrom message i steps m)).payload) :
    Visits payload (executeSteps (counting payload) validate [] 0 i steps (numbered payload n)) n
      (sitesFrom message i steps) := by
  induction steps generalizing n i with
  | nil => exact ⟨[], rfl, fun _ => rfl⟩
  | cons step rest ih =>
    obtain ⟨hfirst, hrest⟩ := forall_mem_cons.mp hflat
    refine (visits_executeStep hvalid (forall_mem_singleton.mpr hfirst) ?_).bind
      (ih hrest (fun k s hs => hmessage k s (mem_cons_of_mem _ hs)) fun m => ?_)
    · exact hpayload 0
    · rw [Nat.add_assoc, hpayload]
      rcases hcalls : (step.sites i (message i)).length + m with _ | k
      · -- a step without a call leaves its message to the next
        have hsites : step.sites i (message i) = [] := length_eq_zero_iff.mp (by omega)
        obtain rfl : m = 0 := by omega
        rw [positionFrom, positionFrom, hmessage i step mem_cons_self hsites]
        all_goals nofun
      · rw [positionFrom, ← hcalls, if_neg (by omega), Nat.add_sub_cancel_left]

end Visits

/-- Some run logs the sites of all steps. -/
theorem exists_run_sites {workflow : WorkflowDef} (hflat : BranchesFlat workflow.steps)
    {message : Nat → PipelineMessage} (hvalid : ∀ i, Valid (message i))
    (hmessage : ∀ i step, workflow.steps[i]? = some step → step.sites i (message i) = [] →
      message (i + 1) = message i) :
    ∃ env input, ∀ {i step site}, workflow.steps[i]? = some step →
      site ∈ StepDef.sites step i (message i) →
      ∃ a ∈ entries (runSteps env workflow input).events, (a.1.path, a.2.index) = site := by
  obtain ⟨payload, hpayload⟩ : ∃ payload : Nat → TypedPayload, ∀ n,
      payload n = (message (positionFrom message 0 workflow.steps n)).payload := ⟨_, fun _ => rfl⟩
  have hnumbered : ∀ n, Valid (numbered payload n) := by
    intro n
    rw [Valid, numbered, hpayload]
    exact hvalid _
  have hvisits : Visits payload (executeSteps (counting payload) workflow.validate [] 0 0
      workflow.steps (numbered payload 0)) 0 (sitesFrom message 0 workflow.steps) := by
    refine visits_executeSteps hnumbered hflat (fun i step hstep => ?_) fun m => ?_
    · exact hmessage i step (mk_mem_zipIdx_iff_getElem?.mp hstep)
    · rw [Nat.zero_add, hpayload]
  obtain ⟨events, hsites, hrun⟩ := hvisits
  refine ⟨counting payload, numbered payload 0, fun {i step site} hstep hsite => ?_⟩
  rcases runSteps_cases (counting payload) workflow (numbered payload 0) with
    ⟨hinvalid, -⟩ | ⟨-, hsteps⟩
  · exact absurd (hnumbered 0) hinvalid
  · rw [hsteps, finishRun_events, stepsRun, hrun, ← mem_map, hsites]
    exact mem_flatMap.mpr ⟨(step, i), mk_mem_zipIdx_iff_getElem?.mpr hstep, hsite⟩

end LifeEngine.Pipeline
