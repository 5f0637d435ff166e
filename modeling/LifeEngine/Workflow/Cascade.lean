import LifeEngine.Workflow.Concurrency

/-!
# Chains of events

The bus drops an event whose depth exceeds the maximum, which is meant to end
every chain of events that cause one another.  The event that a job emits at its
end has depth 0 whatever made the job run, so the depth bounds the chains only
when no workflow started by an event emits one.
-/

namespace LifeEngine.Workflow

open Support

/-- The event at `i` started a workflow whose end emitted that at `j`. -/
def Causes (emissions : List Emission) (i j : Nat) : Prop :=
  ∃ emission, emissions[j]? = some emission ∧ emission.cause = some i

/-- The bus did not drop the event at position `i`. -/
def Delivered (maxDepth : Nat) (emissions : List Emission) (i : Nat) : Prop :=
  ∃ emission, emissions[i]? = some emission ∧ emission.event.depth ≤ maxDepth

/-- Every caused event is deeper than its cause. -/
def Deepens (emissions : List Emission) : Prop :=
  ∀ (i j : Nat) (cause effect : Emission), emissions[i]? = some cause →
    emissions[j]? = some effect → effect.cause = some i →
      cause.event.depth < effect.event.depth

/-- Caused events are deeper than their causes, and no chain of delivered ones has more than
`maxDepth + 1`. -/
structure CascadeBounded (maxDepth : Nat) (emissions : List Emission) : Prop where
  deeper : Deepens emissions
  short : ∀ chain : List Nat, chain.IsChain (Causes emissions) →
    (∀ i ∈ chain, Delivered maxDepth emissions i) → chain.length ≤ maxDepth + 1

theorem depth_add_length_le {maxDepth : Nat} {emissions : List Emission}
    (hdeeper : Deepens emissions)
    (chain : List Nat) (i : Nat) (emission : Emission) (hi : emissions[i]? = some emission)
    (hchain : (i :: chain).IsChain (Causes emissions))
    (hdelivered : ∀ j ∈ i :: chain, Delivered maxDepth emissions j) :
    emission.event.depth + chain.length ≤ maxDepth := by
  induction chain generalizing i emission with
  | nil =>
    obtain ⟨emission', hi', hdepth⟩ := hdelivered i List.mem_cons_self
    obtain rfl : emission = emission' := Option.some.inj (hi.symm.trans hi')
    simpa using hdepth
  | cons j chain ih =>
    obtain ⟨⟨effect, hj, hcause⟩, hrest⟩ := List.isChain_cons_cons.mp hchain
    have hstep := hdeeper i j emission effect hi hj hcause
    have htail := ih j effect hj hrest fun k hk => hdelivered k (List.mem_cons_of_mem i hk)
    rw [List.length_cons]
    omega

theorem cascadeBounded_of_deeper {maxDepth : Nat} {emissions : List Emission}
    (hdeeper : Deepens emissions) : CascadeBounded maxDepth emissions := by
  refine ⟨hdeeper, ?_⟩
  intro chain hchain hdelivered
  cases chain with
  | nil => simp
  | cons i chain =>
    obtain ⟨emission, hi, -⟩ := hdelivered i List.mem_cons_self
    have hlength := depth_add_length_le hdeeper chain i emission hi hchain hdelivered
    rw [List.length_cons]
    omega

namespace Engine

/-- No event was caused by another one. -/
def Uncaused (s : Engine) : Prop :=
  ∀ emission ∈ s.emissions, emission.cause = none

theorem Uncaused.cascadeBounded {s : Engine} (h : s.Uncaused) (maxDepth : Nat) :
    CascadeBounded maxDepth s.emissions := by
  apply cascadeBounded_of_deeper
  intro i j cause effect hi hj hcause
  rw [h effect (List.mem_of_getElem? hj)] at hcause
  cases hcause

theorem Uncaused.emit {cfg : EngineConfig} {s : Engine} (h : s.Uncaused)
    (event : BusEvent) : (s.emit cfg event none).Uncaused := by
  intro emission hemission
  rcases List.mem_append.mp hemission with hold | hnew
  · exact h emission hold
  · obtain rfl := List.mem_singleton.mp hnew
    rfl

/-- Without permits no job comes to its end. -/
theorem uncaused_move {cfg : EngineConfig} {s s' : Engine} (hmove : Move cfg s s')
    (howned : PermitsOwned 0 s) (h : s.Uncaused) : s'.Uncaused := by
  cases hmove with
  | emit event => exact h.emit event
  | report index c error payload now hcall hphase =>
    have hset : (s.setPhase index (.returned none)).Uncaused := h
    exact hset.emit _
  | releaseJob x id event now hheld hpermits hholding =>
    have hmem : TaskId.job id ∈ s.owners := (howned.owner_iff (.job id)).mpr hheld
    rw [howned.balanced.owners_eq_nil] at hmem
    cases hmem
  | idle | request | tick | phase | background | acquireCall | finishCall | finish | job
  | acquireJob => exact h

theorem uncaused_run_zero (cfg : EngineConfig) (events : List EngineEvent) :
    (run (step cfg) (withConcurrencyLimit 0) events).Uncaused := by
  have hstep : ∀ s e, PermitsOwned 0 s ∧ s.Uncaused →
      PermitsOwned 0 (step cfg s e) ∧ (step cfg s e).Uncaused := by
    rintro s e ⟨howned, h⟩
    have hmove := step_move cfg s e
    exact ⟨permitsOwned_move hmove howned, uncaused_move hmove howned h⟩
  refine (run_invariant hstep ⟨permitsOwned_run cfg 0 [], ?_⟩ events).2
  simp [Uncaused, withConcurrencyLimit]

/-- Synchronous workflows emit nothing. -/
theorem uncaused_run_sync (cfg : EngineConfig) (limit : Nat) (events : List EngineEvent)
    (hsync : ∀ name, ∀ workflow ∈ cfg.registry.findEvent name, workflow.mode = .sync) :
    (run (step cfg) (withConcurrencyLimit limit) events).Uncaused := by
  intro emission hemission
  cases hcause : emission.cause with
  | none => rfl
  | some position =>
    obtain ⟨workflow, hasync, name, hmem⟩ :=
      (sourced_run cfg limit events).emissions emission hemission position hcause
    rw [hsync name workflow hmem] at hasync
    cases hasync

/-! ## An asynchronous workflow started by an event -/

/-- The steps of a job from waiting for a permit to its event. -/
def failingJob (id : Uuid) : List EngineEvent :=
  [.executor (.acquire id) 0, .executor (.store id (.error "failed")) 0,
    .executor (.emit id) 0]

section

variable {cfg : EngineConfig} {s : Engine}

theorem executorStep_of_emitted {event : Event}
    (h : (Executor.step cfg.jobTtl s.executor event).emitted = s.executor.emitted)
    (now : Timestamp) :
    s.executorStep cfg event now =
      { s with
        executor := Executor.step cfg.jobTtl s.executor event
        owners := ledger s.owners event s.executor.permits
          (Executor.step cfg.jobTtl s.executor event).permits } := by
  simp [executorStep, h]

theorem emissions_failingJob {id : Uuid} {t : JobTasks} {position : Nat}
    (ht : s.executor.tasks id = some t) (hphase : t.phase = .waiting)
    (hinitial : ∃ message, t.initial = .ok message) (hclosed : s.executor.closed = false)
    (hpermit : 0 < s.executor.permits)
    (horigin : s.origins id = some (.event position)) :
    ∃ event, event.depth = 0 ∧ (run (step cfg) s (failingJob id)).emissions =
      s.emissions ++ [⟨event, some position⟩] := by
  obtain ⟨message, hinitial⟩ := hinitial
  let running : JobTasks := { t with phase := .running }
  let event : JobEvent := ⟨"workflow.failed", id, t.workflowId, some "failed"⟩
  set s₁ := step cfg s (.executor (.acquire id) 0) with hs₁
  set s₂ := step cfg s₁ (.executor (.store id (.error "failed")) 0) with hs₂
  have hacquire : Executor.step cfg.jobTtl s.executor (.acquire id) =
      { s.executor with permits := s.executor.permits - 1 }.setTasks id running := by
    simp [Executor.step, ht, Executor.acquireTask, hphase, hclosed, hpermit, running]
  have hrunning : s₁.executor.tasks id = some running := by
    rw [hs₁, step, executor_executorStep, hacquire]
    simp
  have hframe₁ : s₁.emissions = s.emissions ∧ s₁.origins = s.origins := by
    rw [hs₁, step, executorStep_of_emitted (by rw [hacquire]; rfl)]
    exact ⟨rfl, rfl⟩
  have hstore : Executor.step cfg.jobTtl s₁.executor (.store id (.error "failed")) =
      (s₁.executor.insertJob id ⟨.failed "failed", none, t.createdAt⟩).setTasks id
        { t with phase := .emitting event } := by
    simp [Executor.step, hrunning, Executor.storeTask, running, hinitial, Except.bind,
      Executor.outcome, event]
  have hemitting : s₂.executor.tasks id = some { t with phase := .emitting event } := by
    rw [hs₂, step, executor_executorStep, hstore]
    simp
  have hframe₂ : s₂.emissions = s₁.emissions ∧ s₂.origins = s₁.origins := by
    rw [hs₂, step, executorStep_of_emitted (by rw [hstore]; rfl)]
    exact ⟨rfl, rfl⟩
  refine ⟨⟨event.name, some event.payload, "system", 0, 0⟩, rfl, ?_⟩
  have hlast : (step cfg s₂ (.executor (.emit id) 0)).emissions = s₂.emissions ++
      [⟨⟨event.name, some event.payload, "system", 0, 0⟩,
        (s₂.origins event.jobId).bind Origin.cause⟩] := by
    simp [step, executorStep, Executor.step, hemitting, Executor.emitTask, Executor.setTasks,
      relay, emitWorkflowEvent, emit]
  rw [hframe₂.1, hframe₂.2, hframe₁.1, hframe₁.2, horigin] at hlast
  exact hlast

theorem start_async {index : Nat} {c : Call} {draw : CallDraw} {message : PipelineMessage}
    (hcall : s.calls[index]? = some c) (hphase : c.phase = .starting)
    (hmode : c.workflow.mode = .async)
    (hmessage : buildInitialMessage cfg.typeError draw.message c.trigger = .ok message)
    (hnew : s.executor.tasks draw.jobId = none) :
    step cfg s (.start index draw) =
      { s with
        executor := (s.executor.insertJob draw.jobId
          ⟨.inProgress, none, draw.createdAt⟩).setTasks draw.jobId
            ⟨c.workflow.id, draw.createdAt, .ok message, false, .waiting⟩
        origins := Function.update s.origins draw.jobId (some c.origin) }.setPhase index
          (.returned none) := by
  simp only [step, onCall, hcall, hphase, startCall, hmessage, hmode, Executor.step, hnew]

/-- An event that starts an asynchronous workflow causes one of depth 0. -/
theorem exists_caused_of_async {limit index : Nat} {name : String}
    {workflow : WorkflowDef} (hlimit : limit ≠ 0)
    (hindex : (cfg.registry.findEvent name)[index]? = some workflow)
    (hasync : workflow.mode = .async) :
    ∃ events root effect, root.depth = 0 ∧ effect.depth = 0 ∧
      (run (step cfg) (withConcurrencyLimit limit) events).emissions =
        [⟨root, none⟩, ⟨effect, some 0⟩] := by
  let root : BusEvent := ⟨name, some (.obj []), "system", 0, 0⟩
  let draw : CallDraw := ⟨⟨0, 0⟩, 0, 0⟩
  let message : PipelineMessage := ⟨⟨0, "event:" ++ name, 0, none, []⟩, .custom (.obj [])⟩
  let tasks : JobTasks := ⟨workflow.id, 0, .ok message, false, .waiting⟩
  set s₁ := step cfg (withConcurrencyLimit limit) (.emit root) with hs₁
  set s₂ := step cfg s₁ (.start index draw) with hs₂
  have hcall : s₁.calls[index]? = some (eventCall root 0 workflow) := by
    simp [hs₁, step, emit, withConcurrencyLimit, root, hindex]
  have hstart : s₂ = _ := start_async hcall rfl hasync rfl rfl
  have htasks : s₂.executor.tasks draw.jobId = some tasks := by
    simp only [hstart]
    rfl
  have horigin : s₂.origins draw.jobId = some (.event 0) := by
    simp only [hstart]
    rfl
  have hpermits : s₂.executor.permits = limit := by
    rw [hstart]
    rfl
  obtain ⟨effect, heffect, hemissions⟩ :
      ∃ effect, effect.depth = 0 ∧ (run (step cfg) s₂ (failingJob draw.jobId)).emissions =
        s₂.emissions ++ [⟨effect, some 0⟩] := by
    refine emissions_failingJob htasks rfl ⟨message, rfl⟩ ?_ ?_ horigin
    · rw [hstart]
      rfl
    · rw [hpermits]
      exact Nat.pos_of_ne_zero hlimit
  refine ⟨.emit root :: .start index draw :: failingJob draw.jobId, root, effect, rfl, heffect, ?_⟩
  rw [run_cons, run_cons, hemissions, hstart]
  rfl

end

/-- Caused events are deeper, and chains bounded, exactly when there are no permits or all workflows
started by events are synchronous. -/
theorem cascadeBounded_iff (cfg : EngineConfig) (limit : Nat) :
    (∀ events, CascadeBounded cfg.maxDepth
      (run (step cfg) (withConcurrencyLimit limit) events).emissions) ↔
    limit = 0 ∨ ∀ name, ∀ workflow ∈ cfg.registry.findEvent name, workflow.mode = .sync := by
  constructor
  · intro hbounded
    by_contra hnot
    obtain ⟨hlimit, hasync⟩ := not_or.mp hnot
    push Not at hasync
    obtain ⟨name, workflow, hmem, hmode⟩ := hasync
    obtain ⟨index, hindex⟩ := List.mem_iff_getElem?.mp hmem
    have hasync : workflow.mode = .async := by
      cases h : workflow.mode with
      | sync => exact absurd h hmode
      | async => rfl
    obtain ⟨events, root, effect, hroot, heffect, hemissions⟩ :=
      exists_caused_of_async hlimit hindex hasync
    have hdeeper := (hbounded events).deeper
    rw [hemissions] at hdeeper
    have hlt := hdeeper 0 1 ⟨root, none⟩ ⟨effect, some 0⟩ rfl rfl rfl
    simp [heffect] at hlt
  · rintro (rfl | hsync) events
    · exact (uncaused_run_zero cfg events).cascadeBounded _
    · exact (uncaused_run_sync cfg limit events hsync).cascadeBounded _

/-- The completion of the workflow is again an event of depth 0, which starts it again. -/
theorem not_cascadeBounded_completion :
    ¬ ∀ events, CascadeBounded 8
      (run (step (completionConfig .async)) (withConcurrencyLimit 32) events).emissions := by
  intro hbounded
  have hdeeper := (hbounded
    [.emit ⟨"workflow.completed", some (.obj []), "system", 0, 0⟩,
      .start 0 ⟨⟨1, 5⟩, 2, 5⟩, .executor (.acquire 2) 6,
      .executor (.store 2 (.ok ⟨⟨1, "event:workflow.completed", 5, none, []⟩,
        .custom (.obj [])⟩)) 7,
      .executor (.emit 2) 8]).deeper
  have hlt := hdeeper 0 1 _ _ rfl rfl rfl
  exact absurd hlt (by decide)

end Engine

end LifeEngine.Workflow
