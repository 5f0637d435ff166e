import LifeEngine.Workflow.Cascade

/-!
# Overlapping runs of a scheduled workflow

The scheduler puts a workflow on its tracker before it calls `execute_workflow`
and takes it off when that call returns.  For a synchronous workflow the call
returns when the steps are done, so a tick never starts a second run.  For an
asynchronous one the call returns at once.
-/

namespace LifeEngine.Workflow.Engine

open Support

/-- The task runs the steps of the workflow because of a tick. -/
def InFlight (s : Engine) (workflowId : String) : TaskId → Prop
  | .job id =>
    (∃ loop, s.origins id = some (.schedule loop)) ∧
      ∃ t, s.executor.tasks id = some t ∧ t.workflowId = workflowId ∧ t.phase = .running
  | .call index =>
    ∃ c loop, s.calls[index]? = some c ∧ c.origin = .schedule loop ∧
      c.workflow.id = workflowId ∧ c.phase = .running

/-- No scheduled workflow has two runs in flight; a tick that finds one is skipped. -/
structure NoOverlap (cfg : EngineConfig) (s : Engine) : Prop where
  single : ∀ workflowId x y, s.InFlight workflowId x → s.InFlight workflowId y → x = y
  skipped : ∀ loop firedAt workflow, cfg.registry.getSchedules[loop]? = some workflow →
    (∃ x, s.InFlight workflow.id x) → step cfg s (.tick loop firedAt) = s

variable {s : Engine} {workflowId : String} {index : Nat}

theorem holding_of_inFlight {x : TaskId} (h : s.InFlight workflowId x) : s.Holding x := by
  cases x with
  | job id =>
    obtain ⟨-, t, ht, -, hphase⟩ := h
    exact ⟨t, ht, by simp [hphase, RunPhase.holds]⟩
  | call index =>
    obtain ⟨c, -, hc, -, -, hphase⟩ := h
    exact ⟨c, hc, by simp [hphase, CallPhase.holds]⟩

/-! ## Live calls of the schedule loops -/

/-- The call was started by a tick of the workflow and has not ended. -/
def Live (calls : List Call) (index : Nat) (workflowId : String) : Prop :=
  ∃ c loop, calls[index]? = some c ∧ c.origin = .schedule loop ∧
    c.phase.isDone = false ∧ c.workflow.id = workflowId

theorem live_of_append {calls new : List Call}
    (hnew : ∀ c ∈ new, ∀ loop, c.origin ≠ .schedule loop)
    (h : Live (calls ++ new) index workflowId) : Live calls index workflowId := by
  obtain ⟨c, loop, hcall, horigin, hlive, hid⟩ := h
  by_cases hlt : index < calls.length
  · rw [List.getElem?_append_left hlt] at hcall
    exact ⟨c, loop, hcall, horigin, hlive, hid⟩
  · rw [List.getElem?_append_right (Nat.le_of_not_lt hlt)] at hcall
    exact absurd horigin (hnew c (List.mem_of_getElem? hcall) loop)

variable {c : Call} {cfg : EngineConfig}

theorem live_of_append_singleton {calls : List Call} (h : Live (calls ++ [c]) index workflowId) :
    Live calls index workflowId ∨ index = calls.length ∧ c.workflow.id = workflowId := by
  obtain ⟨c', loop, hcall, horigin, hlive, hid⟩ := h
  by_cases hlt : index < calls.length
  · rw [List.getElem?_append_left hlt] at hcall
    exact .inl ⟨c', loop, hcall, horigin, hlive, hid⟩
  · rw [List.getElem?_append_right (Nat.le_of_not_lt hlt)] at hcall
    obtain ⟨hzero, rfl⟩ : index - calls.length = 0 ∧ c = c' := by
      simpa [List.getElem?_singleton] using hcall
    exact .inr ⟨by omega, hid⟩

theorem live_of_setPhase {p : CallPhase} (hcall : s.calls[index]? = some c)
    (hlive : c.phase.isDone = false) {other : Nat}
    (h : Live (s.setPhase index p).calls other workflowId) :
    Live s.calls other workflowId := by
  obtain ⟨c', loop, hc', horigin, hlive', hid⟩ := h
  by_cases hother : index = other
  · subst hother
    obtain rfl : { c with phase := p } = c' := by simpa [setPhase, hcall] using hc'
    exact ⟨c, loop, hcall, horigin, hlive, hid⟩
  · have hsame : s.calls[other]? = some c' := by simpa [setPhase, hother] using hc'
    exact ⟨c', loop, hsame, horigin, hlive', hid⟩

/-- A live workflow is on the tracker and has one call. -/
structure Exclusive (s : Engine) : Prop where
  tracked : ∀ index workflowId, Live s.calls index workflowId → workflowId ∈ s.tracker
  unique : ∀ i j workflowId, Live s.calls i workflowId → Live s.calls j workflowId → i = j

theorem Exclusive.mono {s' : Engine} (h : Exclusive s) (htracker : s'.tracker = s.tracker)
    (hlive : ∀ index workflowId, Live s'.calls index workflowId → Live s.calls index workflowId) :
    Exclusive s' := by
  constructor
  · intro index workflowId hl
    rw [htracker]
    exact h.tracked index workflowId (hlive index workflowId hl)
  · intro i j workflowId hi hj
    exact h.unique i j workflowId (hlive i workflowId hi) (hlive j workflowId hj)

theorem Exclusive.congr (h : Exclusive s) (x : Executor) (owners : List TaskId)
    (origins : Uuid → Option Origin) :
    Exclusive { s with executor := x, owners := owners, origins := origins } :=
  h.mono rfl fun _ _ hlive => hlive

theorem Exclusive.emit (h : Exclusive s) (cfg : EngineConfig) (event : BusEvent)
    (cause : Option Nat) : Exclusive (s.emit cfg event cause) := by
  refine h.mono rfl fun index workflowId => live_of_append ?_
  intro c hc loop
  split at hc
  · simp at hc
  · obtain ⟨workflow, -, rfl⟩ := List.mem_map.mp hc
    simp [eventCall]

theorem Exclusive.setPhase (h : Exclusive s) (hcall : s.calls[index]? = some c)
    (hlive : c.phase.isDone = false) (p : CallPhase) :
    Exclusive (s.setPhase index p) :=
  h.mono rfl fun _ _ => live_of_setPhase hcall hlive

/-- The workflow of a new call was off the tracker. -/
theorem Exclusive.tick {s' : Engine} (h : Exclusive s) (hfree : c.workflow.id ∉ s.tracker)
    (htracker : s'.tracker = c.workflow.id :: s.tracker) (hcalls : s'.calls = s.calls ++ [c]) :
    Exclusive s' := by
  have hnew : ∀ index, ¬ Live s.calls index c.workflow.id := fun index hlive =>
    hfree (h.tracked index c.workflow.id hlive)
  constructor
  · intro index workflowId hlive
    rw [hcalls] at hlive
    rw [htracker]
    rcases live_of_append_singleton hlive with hold | ⟨-, rfl⟩
    · exact List.mem_cons_of_mem _ (h.tracked index workflowId hold)
    · exact List.mem_cons_self
  · intro i j workflowId hi hj
    rw [hcalls] at hi hj
    rcases live_of_append_singleton hi with hi | ⟨rfl, hid⟩ <;>
      rcases live_of_append_singleton hj with hj | ⟨rfl, hjd⟩
    · exact h.unique i j workflowId hi hj
    · exact absurd (hjd ▸ hi) (hnew i)
    · exact absurd (hid ▸ hj) (hnew j)
    · rfl

/-- The call that ends is the only live one of its workflow. -/
theorem Exclusive.finish (h : Exclusive s) {loop : Nat} (hcall : s.calls[index]? = some c)
    (hlive : c.phase.isDone = false) (horigin : c.origin = .schedule loop) :
    Exclusive ({ s with
      tracker := s.tracker.filter (· ≠ c.workflow.id) }.setPhase index .done) := by
  have hthis : Live s.calls index c.workflow.id := ⟨c, loop, hcall, horigin, hlive, rfl⟩
  have hold : ∀ other workflowId,
      Live (s.setPhase index .done).calls other workflowId →
        other ≠ index ∧ Live s.calls other workflowId := by
    intro other workflowId hother
    refine ⟨?_, live_of_setPhase hcall hlive hother⟩
    rintro rfl
    obtain ⟨c, loop, hc, -, hlive, -⟩ := hother
    obtain ⟨c', -, rfl⟩ : ∃ c', s.calls[other]? = some c' ∧ { c' with phase := .done } = c := by
      simpa [Engine.setPhase] using hc
    simp [CallPhase.isDone] at hlive
  constructor
  · intro other workflowId hother
    obtain ⟨hne, hbefore⟩ := hold other workflowId hother
    refine List.mem_filter.mpr ⟨h.tracked other workflowId hbefore, ?_⟩
    rw [decide_eq_true_iff]
    rintro rfl
    exact hne (h.unique other index _ hbefore hthis)
  · intro i j workflowId hi hj
    exact h.unique i j workflowId (hold i workflowId hi).2 (hold j workflowId hj).2

theorem exclusive_move {s' : Engine} (hmove : Move cfg s s') (h : Exclusive s) : Exclusive s' := by
  cases hmove with
  | idle => exact h
  | emit event => exact h.emit cfg event none
  | request workflow trigger =>
    exact h.mono rfl fun index workflowId => live_of_append (by simp)
  | tick loop workflow firedAt hloop hfree => exact h.tick hfree rfl rfl
  | phase index c p hcall hlive hholds hp hloop => exact h.setPhase hcall hlive p
  | background index c x id origins hcall hphase hmode hpermits hholding horigins =>
    exact (h.setPhase hcall (by simp [hphase, CallPhase.isDone]) _).congr x s.owners origins
  | acquireCall index c hcall hphase hpermit =>
    exact (h.setPhase hcall (by simp [hphase, CallPhase.isDone]) _).congr _ _ s.origins
  | finishCall index c error hcall hphase =>
    exact (h.setPhase hcall (by simp [hphase, CallPhase.isDone]) _).congr _ _ s.origins
  | report index c error payload now hcall hphase =>
    exact (h.setPhase hcall (by simp [hphase, CallPhase.isDone]) _).emit cfg _ _
  | finish index c loop error hcall hphase horigin =>
    exact h.finish hcall (by simp [hphase, CallPhase.isDone]) horigin
  | job x hpermits hholding => exact h.congr x s.owners s.origins
  | acquireJob x id hfree hpermits hholding => exact h.congr x _ s.origins
  | releaseJob x id event now hheld hpermits hholding =>
    exact (h.congr x _ s.origins).emit cfg _ _

theorem exclusive_run (cfg : EngineConfig) (limit : Nat) (events : List EngineEvent) :
    Exclusive (run (step cfg) (withConcurrencyLimit limit) events) := by
  have hstep : ∀ s e, Exclusive s → Exclusive (step cfg s e) :=
    fun s e => exclusive_move (step_move cfg s e)
  refine run_invariant hstep ?_ events
  exact ⟨by simp [Live, withConcurrencyLimit], by simp [Live, withConcurrencyLimit]⟩

/-! ## Synchronous schedules -/

theorem noOverlap_zero (cfg : EngineConfig) (events : List EngineEvent) :
    NoOverlap cfg (run (step cfg) (withConcurrencyLimit 0) events) := by
  have howned := permitsOwned_run cfg 0 events
  have hnone : ∀ workflowId x,
      ¬ (run (step cfg) (withConcurrencyLimit 0) events).InFlight workflowId x := by
    intro workflowId x hx
    have hmem := (howned.owner_iff x).mpr (holding_of_inFlight hx)
    rw [howned.balanced.owners_eq_nil] at hmem
    cases hmem
  constructor
  · intro workflowId x y hx
    exact absurd hx (hnone workflowId x)
  · rintro loop firedAt workflow - ⟨x, hx⟩
    exact absurd hx (hnone workflow.id x)

theorem live_of_inFlight {x : TaskId} (hsourced : Sourced cfg.registry s)
    (hsync : ∀ workflow ∈ cfg.registry.getSchedules, workflow.mode = .sync)
    (h : s.InFlight workflowId x) :
    ∃ index, x = .call index ∧ Live s.calls index workflowId := by
  cases x with
  | job id =>
    obtain ⟨⟨loop, horigin⟩, -⟩ := h
    obtain ⟨workflow, hasync, hloop⟩ := hsourced.jobs id _ horigin
    rw [hsync workflow (List.mem_of_getElem? hloop)] at hasync
    cases hasync
  | call index =>
    obtain ⟨c, loop, hcall, horigin, hid, hphase⟩ := h
    exact ⟨index, rfl, c, loop, hcall, horigin, by simp [hphase, CallPhase.isDone], hid⟩

theorem noOverlap_sync (cfg : EngineConfig) (limit : Nat) (events : List EngineEvent)
    (hsync : ∀ workflow ∈ cfg.registry.getSchedules, workflow.mode = .sync) :
    NoOverlap cfg (run (step cfg) (withConcurrencyLimit limit) events) := by
  have hsourced := sourced_run cfg limit events
  have hexclusive := exclusive_run cfg limit events
  constructor
  · intro workflowId x y hx hy
    obtain ⟨i, rfl, hi⟩ := live_of_inFlight hsourced hsync hx
    obtain ⟨j, rfl, hj⟩ := live_of_inFlight hsourced hsync hy
    rw [hexclusive.unique i j workflowId hi hj]
  · rintro loop firedAt workflow hloop ⟨x, hx⟩
    obtain ⟨index, -, hlive⟩ := live_of_inFlight hsourced hsync hx
    have htracked := hexclusive.tracked index workflow.id hlive
    simp [step, hloop, tickLoop, htracked]

/-! ## An asynchronous schedule -/

theorem exists_overlap_of_async {limit loop : Nat} {workflow : WorkflowDef} (hlimit : limit ≠ 0)
    (hloop : cfg.registry.getSchedules[loop]? = some workflow) (hasync : workflow.mode = .async) :
    ∃ events, ¬ NoOverlap cfg (run (step cfg) (withConcurrencyLimit limit) events) := by
  let draw : CallDraw := ⟨⟨0, 0⟩, 0, 0⟩
  let message : PipelineMessage := ⟨⟨0, "schedule:" ++ workflow.id, 0, none, []⟩, .custom (.obj [])⟩
  let tasks : JobTasks := ⟨workflow.id, 0, .ok message, false, .waiting⟩
  let call : Call := ⟨workflow, .schedule workflow.id 0, .schedule loop, .starting⟩
  set s₁ := step cfg (withConcurrencyLimit limit) (.tick loop 0) with hs₁
  set s₂ := step cfg s₁ (.start 0 draw) with hs₂
  set s₃ := step cfg s₂ (.settle 0 0) with hs₃
  set s₄ := step cfg s₃ (.executor (.acquire draw.jobId) 0) with hs₄
  have htick : s₁ =
      { withConcurrencyLimit limit with tracker := [workflow.id], calls := [call] } := by
    simp [hs₁, step, hloop, tickLoop, sleeping, withConcurrencyLimit, call]
  have hstart : s₂ = _ :=
    start_async (s := s₁) (c := call) (by rw [htick]; rfl) rfl hasync rfl (by rw [htick]; rfl)
  have hsettle : s₃ = { s₂ with tracker := [], calls := [{ call with phase := .done }] } := by
    rw [hs₃, hstart, htick]
    simp [step, onCall, setPhase, call, settleCall]
  have hjob : s₃.executor.tasks draw.jobId = some tasks := by
    simp only [hsettle, hstart, setPhase, Executor.setTasks_tasks]
    rfl
  have hacquire : Executor.step cfg.jobTtl s₃.executor (.acquire draw.jobId) =
      { s₃.executor with permits := s₃.executor.permits - 1 }.setTasks draw.jobId
        { tasks with phase := .running } := by
    have hclosed : s₃.executor.closed = false := by
      rw [hsettle, hstart, htick]
      rfl
    have hpermit : 0 < s₃.executor.permits := by
      rw [hsettle, hstart, htick]
      exact Nat.pos_of_ne_zero hlimit
    simp [Executor.step, hjob, Executor.acquireTask, tasks, hclosed, hpermit]
  have hrunning : s₄ = { s₃ with executor := s₄.executor, owners := s₄.owners } := by
    rw [hs₄, step, executorStep_of_emitted (by rw [hacquire]; rfl)]
  refine ⟨[.tick loop 0, .start 0 draw, .settle 0 0, .executor (.acquire draw.jobId) 0],
    fun hno => ?_⟩
  have hflight : s₄.InFlight workflow.id (.job draw.jobId) := by
    refine ⟨⟨loop, ?_⟩, { tasks with phase := .running }, ?_, rfl, rfl⟩
    · rw [hrunning, hsettle, hstart]
      simp only [setPhase]
      rfl
    · rw [hs₄, step, executor_executorStep, hacquire]
      simp only [Executor.setTasks_tasks, Function.update_self]
  -- The loop sleeps and the tracker is empty, so the next tick starts a second call.
  have hskip : step cfg s₄ (.tick loop 60000) = s₄ :=
    hno.skipped loop 60000 workflow hloop ⟨_, hflight⟩
  have hcalls := congrArg (fun s => s.calls.length) hskip
  rw [hrunning, hsettle] at hcalls
  simp [step, hloop, tickLoop, sleeping, CallPhase.isDone] at hcalls

/-- Ticks never overlap with a run of their workflow exactly when there are no permits or all
scheduled workflows are synchronous. -/
theorem noOverlap_iff (cfg : EngineConfig) (limit : Nat) :
    (∀ events, NoOverlap cfg (run (step cfg) (withConcurrencyLimit limit) events)) ↔
      limit = 0 ∨ ∀ workflow ∈ cfg.registry.getSchedules, workflow.mode = .sync := by
  constructor
  · intro hno
    by_contra hnot
    obtain ⟨hlimit, hasync⟩ := not_or.mp hnot
    push Not at hasync
    obtain ⟨workflow, hmem, hmode⟩ := hasync
    obtain ⟨loop, hloop⟩ := List.mem_iff_getElem?.mp hmem
    have hasync : workflow.mode = .async := by
      cases h : workflow.mode with
      | sync => exact absurd h hmode
      | async => rfl
    obtain ⟨events, hoverlap⟩ := exists_overlap_of_async hlimit hloop hasync
    exact hoverlap (hno events)
  · rintro (rfl | hsync) events
    · exact noOverlap_zero cfg events
    · exact noOverlap_sync cfg limit events hsync

/-- Two ticks of an asynchronous workflow: both runs are in flight. -/
theorem not_noOverlap_nightly :
    ¬ ∀ events, NoOverlap (completionConfig .async)
      (run (step (completionConfig .async)) (withConcurrencyLimit 32) events) := by
  intro hno
  have hsingle := (hno
    [.tick 0 0, .start 0 ⟨⟨7, 0⟩, 1, 0⟩, .settle 0 0, .executor (.acquire 1) 0,
      .tick 0 60000, .start 1 ⟨⟨8, 60000⟩, 2, 60000⟩, .settle 1 60000,
      .executor (.acquire 2) 60000]).single "nightly" (.job 1) (.job 2)
  have hsame : TaskId.job 1 = TaskId.job 2 :=
    hsingle ⟨⟨0, rfl⟩, _, rfl, rfl, rfl⟩ ⟨⟨0, rfl⟩, _, rfl, rfl, rfl⟩
  exact absurd hsame (by decide)

end LifeEngine.Workflow.Engine
