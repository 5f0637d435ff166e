import LifeEngine.Support.Permits
import LifeEngine.Workflow.Engine

/-!
# Permits and progress

At most as many workflows run as the executor has permits, a task that owns a
permit never waits for another one, and every task can be brought to its end by
steps of the tasks that exist.  The completion event of a job is emitted while
its permit is held; the bus only spawns tasks for it and waits for none of them.
-/

namespace LifeEngine.Workflow.Engine

open Support CallPhase

/-! ## Who owns a permit -/

def CallHolding (calls : List Call) (index : Nat) : Prop :=
  ∃ c, calls[index]? = some c ∧ c.phase.holds = true

variable {index : Nat} {calls : List Call}

theorem callHolding_iff {c : Call} (hcall : calls[index]? = some c) :
    CallHolding calls index ↔ c.phase.holds = true := by
  simp [CallHolding, hcall]

theorem callHolding_append {new : List Call} (hnew : ∀ c ∈ new, c.phase.holds = false)
    (index : Nat) :
    CallHolding (calls ++ new) index ↔ CallHolding calls index := by
  by_cases hlt : index < calls.length
  · simp [CallHolding, List.getElem?_append_left hlt]
  · have hnone : calls[index]? = none := by simpa using hlt
    constructor
    · rintro ⟨c, hc, hholds⟩
      rw [List.getElem?_append_right (Nat.le_of_not_lt hlt)] at hc
      simp [hnew c (List.mem_of_getElem? hc)] at hholds
    · rintro ⟨c, hc, -⟩
      simp [hnone] at hc

/-- The task is between taking and returning a permit. -/
def Holding (s : Engine) : TaskId → Prop
  | .job id => s.executor.Holding id
  | .call index => CallHolding s.calls index

/-- The permits balance, and their owners are between taking and returning one. -/
structure PermitsOwned (limit : Nat) (s : Engine) : Prop where
  balanced : Balanced limit s.executor.permits s.owners
  owner_iff : ∀ x, x ∈ s.owners ↔ s.Holding x

namespace PermitsOwned

variable {limit : Nat} {s s' : Engine}

theorem keep (h : PermitsOwned limit s)
    (hpermits : s'.executor.permits = s.executor.permits) (howners : s'.owners = s.owners)
    (hholding : ∀ x, s'.Holding x ↔ s.Holding x) : PermitsOwned limit s' := by
  refine ⟨by rw [hpermits, howners]; exact h.balanced, fun x => ?_⟩
  rw [howners, hholding]
  exact h.owner_iff x

theorem take (h : PermitsOwned limit s) {x : TaskId} (hfree : ¬ s.Holding x)
    (hpermits : s'.executor.permits + 1 = s.executor.permits)
    (howners : s'.owners = x :: s.owners)
    (hholding : ∀ y, s'.Holding y ↔ y = x ∨ s.Holding y) : PermitsOwned limit s' := by
  have hx : x ∉ s.owners := fun hmem => hfree ((h.owner_iff x).mp hmem)
  have hbalanced := h.balanced
  rw [← hpermits] at hbalanced
  refine ⟨by rw [howners]; exact hbalanced.take hx, fun y => ?_⟩
  rw [howners, hholding, List.mem_cons, h.owner_iff]

theorem give (h : PermitsOwned limit s) {x : TaskId} (hheld : s.Holding x)
    (hpermits : s'.executor.permits = s.executor.permits + 1)
    (howners : s'.owners = s.owners.erase x)
    (hholding : ∀ y, s'.Holding y ↔ y ≠ x ∧ s.Holding y) : PermitsOwned limit s' := by
  have hx : x ∈ s.owners := (h.owner_iff x).mpr hheld
  refine ⟨by rw [hpermits, howners]; exact h.balanced.give hx, fun y => ?_⟩
  rw [howners, hholding, h.balanced.nodup.mem_erase_iff, h.owner_iff]

end PermitsOwned

variable {s : Engine}

theorem holding_congr {s' : Engine} (hjobs : ∀ id, s'.executor.Holding id ↔ s.executor.Holding id)
    (hcalls : ∀ index, CallHolding s'.calls index ↔ CallHolding s.calls index) (x : TaskId) :
    s'.Holding x ↔ s.Holding x := by
  cases x with
  | job id => exact hjobs id
  | call index => exact hcalls index

theorem holding_emit (cfg : EngineConfig) (s : Engine) (event : BusEvent)
    (cause : Option Nat) (x : TaskId) :
    (s.emit cfg event cause).Holding x ↔ s.Holding x := by
  apply holding_congr
  · exact fun id => Iff.rfl
  · apply callHolding_append
    intro c hc
    split at hc
    · simp at hc
    · obtain ⟨workflow, -, rfl⟩ := List.mem_map.mp hc
      rfl

theorem holding_setPhase {c : Call} (p : CallPhase) (hcall : s.calls[index]? = some c)
    (x : TaskId) :
    (s.setPhase index p).Holding x ↔
      if x = .call index then p.holds = true else s.Holding x := by
  cases x with
  | job id => simp [Holding, setPhase]
  | call other =>
    by_cases hother : other = index
    · subst hother
      simp [Holding, setPhase, CallHolding, hcall]
    · simp [Holding, setPhase, CallHolding, hother, Ne.symm hother]

theorem holding_setPhase_of_eq {c : Call} {p : CallPhase} (hcall : s.calls[index]? = some c)
    (hp : p.holds = c.phase.holds) (x : TaskId) :
    (s.setPhase index p).Holding x ↔ s.Holding x := by
  rw [holding_setPhase p hcall]
  by_cases hx : x = .call index
  · subst hx
    simp [Holding, callHolding_iff hcall, hp]
  · simp [hx]

/-- Every move keeps the permits and their owners in step. -/
theorem permitsOwned_move {limit : Nat} {cfg : EngineConfig} {s' : Engine} (hmove : Move cfg s s')
    (h : PermitsOwned limit s) : PermitsOwned limit s' := by
  cases hmove with
  | idle => exact h
  | emit event => exact h.keep rfl rfl (holding_emit cfg s event none)
  | request workflow trigger =>
    exact h.keep rfl rfl (holding_congr (fun id => Iff.rfl) (callHolding_append (by simp [holds])))
  | tick loop workflow firedAt hloop hfree =>
    exact h.keep rfl rfl (holding_congr (fun id => Iff.rfl) (callHolding_append (by simp [holds])))
  | phase index c p hcall hlive hholds hp hloop =>
    exact h.keep rfl rfl (holding_setPhase_of_eq hcall (hp.trans hholds.symm))
  | background index c x id origins hcall hphase hmode hpermits hholding horigins =>
    refine h.keep hpermits rfl fun y => ?_
    refine (holding_setPhase_of_eq (c := c) ?_ ?_ y).trans ?_
    · exact hcall
    · simp [hphase, holds]
    · apply holding_congr
      · exact hholding
      · exact fun index => Iff.rfl
  | acquireCall index c hcall hphase hpermit =>
    have hfree : ¬ s.Holding (.call index) := by
      simp [Holding, callHolding_iff hcall, hphase, holds]
    refine h.take hfree (Nat.sub_add_cancel hpermit) rfl fun y => ?_
    refine (holding_setPhase (c := c) _ ?_ y).trans ?_
    · exact hcall
    by_cases hy : y = .call index
    · simp [hy, holds]
    · cases y <;> simp [hy, Holding, Executor.Holding]
  | finishCall index c error hcall hphase =>
    have hheld : s.Holding (.call index) := by
      simp [Holding, callHolding_iff hcall, hphase, holds]
    refine h.give hheld rfl rfl fun y => ?_
    refine (holding_setPhase (c := c) _ ?_ y).trans ?_
    · exact hcall
    by_cases hy : y = .call index
    · simp [hy, holds]
    · cases y <;> simp [hy, Holding, Executor.Holding]
  | report index c error payload now hcall hphase =>
    refine h.keep rfl rfl fun y => ?_
    rw [emitWorkflowEvent, holding_emit, holding_setPhase_of_eq hcall (by simp [hphase, holds])]
  | finish index c loop error hcall hphase horigin =>
    refine h.keep rfl rfl fun y => ?_
    refine (holding_setPhase_of_eq (c := c) ?_ ?_ y).trans ?_
    · exact hcall
    · simp [hphase, holds]
    · exact holding_congr (fun id => Iff.rfl) (fun index => Iff.rfl) y
  | job x hpermits hholding =>
    exact h.keep hpermits rfl (holding_congr hholding fun index => Iff.rfl)
  | acquireJob x id hfree hpermits hholding =>
    refine h.take (x := .job id) hfree hpermits rfl fun y => ?_
    cases y with
    | job other => simpa [Holding] using hholding other
    | call other => simp [Holding]
  | releaseJob x id event now hheld hpermits hholding =>
    refine h.give (x := .job id) hheld hpermits rfl fun y => ?_
    rw [relay, emitWorkflowEvent, holding_emit]
    cases y with
    | job other => simpa [Holding] using hholding other
    | call other => simp [Holding]

theorem permitsOwned_run (cfg : EngineConfig) (limit : Nat) (events : List EngineEvent) :
    PermitsOwned limit (run (step cfg) (withConcurrencyLimit limit) events) := by
  have hstep : ∀ s e, PermitsOwned limit s → PermitsOwned limit (step cfg s e) :=
    fun s e => permitsOwned_move (step_move cfg s e)
  refine run_invariant hstep ?_ events
  refine ⟨Balanced.start limit, fun x => ?_⟩
  cases x <;> simp [withConcurrencyLimit, Holding, CallHolding, Executor.Holding,
    Workflow.withConcurrencyLimit]

/-! ## Progress -/

/-- The run task of the job is in the given phase. -/
def JobIn (s : Engine) (id : Uuid) (p : RunPhase) : Prop :=
  ∃ t, s.executor.tasks id = some t ∧ t.phase = p

def CallIn (s : Engine) (index : Nat) (p : CallPhase) : Prop :=
  ∃ c, s.calls[index]? = some c ∧ c.phase = p

/-- The task waits for a permit. -/
def Waiting (s : Engine) : TaskId → Prop
  | .job id => s.JobIn id .waiting
  | .call index => s.CallIn index .waiting

/-- Inside `run_steps`, or about to enter it with a permit. -/
def InRunSteps (s : Engine) : TaskId → Prop
  | .job id => s.JobIn id .running
  | .call index => s.CallIn index .running

/-- The task has ended; for a job, its register task too. -/
def Finished (s : Engine) : TaskId → Prop
  | .job id => ∀ t, s.executor.tasks id = some t → t.phase = .done ∧ t.registerPending = false
  | .call index => ∀ c, s.calls[index]? = some c → c.phase = .done

/-- Some steps of tasks that exist bring the task to its end. -/
def CanFinish (cfg : EngineConfig) (s : Engine) (x : TaskId) : Prop :=
  ∃ events : List EngineEvent, (∀ e ∈ events, e.isTaskStep = true) ∧
    (run (step cfg) s events).Finished x

/-- Some task has not ended and no steps of tasks bring it there. -/
def Deadlock (cfg : EngineConfig) (s : Engine) : Prop :=
  ∃ x, ¬ s.Finished x ∧ ¬ CanFinish cfg s x

theorem holding_of_inRunSteps {x : TaskId} (h : s.InRunSteps x) : s.Holding x := by
  cases x with
  | job id =>
    obtain ⟨t, ht, hphase⟩ := h
    exact ⟨t, ht, by simp [hphase, RunPhase.holds]⟩
  | call index =>
    obtain ⟨c, hc, hphase⟩ := h
    exact ⟨c, hc, by simp [hphase, holds]⟩

theorem not_holding_of_waiting {x : TaskId} (h : s.Waiting x) : ¬ s.Holding x := by
  cases x with
  | job id =>
    obtain ⟨t, ht, hphase⟩ := h
    simp [Holding, Executor.holding_iff ht, hphase, RunPhase.holds]
  | call index =>
    obtain ⟨c, hc, hphase⟩ := h
    simp [Holding, callHolding_iff hc, hphase, holds]

section

variable {cfg : EngineConfig} {s : Engine}

variable {x : TaskId} {index : Nat} {id : Uuid}

theorem CanFinish.of_finished (h : s.Finished x) : CanFinish cfg s x := ⟨[], by simp, h⟩

theorem CanFinish.of_step (e : EngineEvent) (he : e.isTaskStep = true)
    (h : CanFinish cfg (step cfg s e) x) : CanFinish cfg s x := by
  obtain ⟨events, hevents, hfinished⟩ := h
  exact ⟨e :: events, by simpa [he] using hevents, hfinished⟩

/-! ### Calls -/

theorem callIn_setPhase {q : CallPhase} (h : s.CallIn index q) (p : CallPhase) :
    (s.setPhase index p).CallIn index p := by
  obtain ⟨c, hcall, -⟩ := h
  exact ⟨{ c with phase := p }, by simp [setPhase, hcall], rfl⟩

theorem callIn_emit {p : CallPhase} (h : s.CallIn index p) (event : BusEvent) (cause : Option Nat) :
    (s.emit cfg event cause).CallIn index p := by
  obtain ⟨c, hcall, hphase⟩ := h
  obtain ⟨hlt, -⟩ := List.getElem?_eq_some_iff.mp hcall
  exact ⟨c, by rw [emit, List.getElem?_append_left hlt, hcall], hphase⟩

theorem canFinish_call_of_done (h : s.CallIn index .done) : CanFinish cfg s (.call index) := by
  obtain ⟨c, hcall, hphase⟩ := h
  apply CanFinish.of_finished
  intro c' hc'
  obtain rfl : c = c' := Option.some.inj (hcall.symm.trans hc')
  exact hphase

theorem callIn_settle_none (h : s.CallIn index (.returned none)) (now : Timestamp) :
    (step cfg s (.settle index now)).CallIn index .done := by
  obtain ⟨c, hcall, hphase⟩ := h
  have hin : s.CallIn index c.phase := ⟨c, hcall, rfl⟩
  cases horigin : c.origin with
  | schedule loop =>
    simp only [step, onCall, hcall, hphase, settleCall, horigin]
    exact callIn_setPhase (s := { s with tracker := _ }) hin .done
  | outside | event _ =>
    simp only [step, onCall, hcall, hphase, settleCall, horigin]
    exact callIn_setPhase hin .done

theorem canFinish_call_of_returned {error : Option String} (h : s.CallIn index (.returned error)) :
    CanFinish cfg s (.call index) := by
  have hnone : ∀ s' : Engine, s'.CallIn index (.returned none) →
      CanFinish cfg s' (.call index) := fun s' h' =>
    .of_step (.settle index 0) rfl (canFinish_call_of_done (callIn_settle_none h' 0))
  cases error with
  | none => exact hnone s h
  | some message =>
    obtain ⟨c, hcall, hphase⟩ := h
    have hin : s.CallIn index c.phase := ⟨c, hcall, rfl⟩
    apply CanFinish.of_step (.settle index 0) rfl
    cases horigin : c.origin with
    | schedule loop =>
      simp only [step, onCall, hcall, hphase, settleCall, horigin]
      exact hnone _ (callIn_emit (callIn_setPhase hin _) _ _)
    | outside | event _ =>
      simp only [step, onCall, hcall, hphase, settleCall, horigin]
      exact canFinish_call_of_done (callIn_setPhase hin .done)

theorem canFinish_call_of_running (h : s.CallIn index .running) :
    CanFinish cfg s (.call index) := by
  obtain ⟨c, hcall, hphase⟩ := h
  apply CanFinish.of_step (.finishCall index (.error "stopped")) rfl
  simp only [step, onCall, hcall, hphase]
  exact canFinish_call_of_returned
    (callIn_setPhase (s := { s with executor := _, owners := _ }) ⟨c, hcall, rfl⟩ _)

theorem canFinish_call_of_permit (h : s.CallIn index .waiting)
    (hpermit : s.executor.closed = true ∨ 0 < s.executor.permits) :
    CanFinish cfg s (.call index) := by
  obtain ⟨c, hcall, hphase⟩ := h
  apply CanFinish.of_step (.acquireCall index) rfl
  by_cases hclosed : s.executor.closed = true
  · simp only [step, onCall, hcall, hphase, acquireCall, hclosed, if_true]
    exact canFinish_call_of_returned (callIn_setPhase ⟨c, hcall, rfl⟩ _)
  · have hpos : 0 < s.executor.permits := hpermit.resolve_left hclosed
    simp only [step, onCall, hcall, hphase, acquireCall, hclosed, hpos, if_true]
    exact canFinish_call_of_running
      (callIn_setPhase (s := { s with executor := _, owners := _ }) ⟨c, hcall, rfl⟩ _)

/-! ### Jobs -/

theorem executor_foldl_relay (now : Timestamp) (events : List JobEvent) :
    (events.foldl (relay cfg now) s).executor = s.executor := by
  induction events generalizing s with
  | nil => rfl
  | cons event events ih => exact ih

theorem executor_executorStep (event : Event) (now : Timestamp) :
    (s.executorStep cfg event now).executor = Executor.step cfg.jobTtl s.executor event := by
  rw [executorStep, executor_foldl_relay]

theorem callIn_foldl_relay {p : CallPhase} (h : s.CallIn index p) (now : Timestamp)
    (events : List JobEvent) :
    (events.foldl (relay cfg now) s).CallIn index p := by
  induction events generalizing s with
  | nil => exact h
  | cons event events ih => exact ih (callIn_emit h _ _)

theorem canFinish_job_of_done (h : s.JobIn id .done) : CanFinish cfg s (.job id) := by
  obtain ⟨t, ht, hphase⟩ := h
  apply CanFinish.of_step (.executor (.register id) 0) rfl
  apply CanFinish.of_finished
  intro t' ht'
  simp only [step, executor_executorStep] at ht'
  by_cases hpending : t.registerPending = true
  · obtain rfl : _ = t' := by
      simpa [Executor.step, ht, Executor.registerTask, hpending] using ht'
    exact ⟨hphase, rfl⟩
  · obtain rfl : t = t' := by
      simpa [Executor.step, ht, Executor.registerTask, hpending] using ht'
    exact ⟨hphase, by simpa using hpending⟩

variable {event : JobEvent}

variable (cfg) in
theorem jobIn_store (h : s.JobIn id .running) (result : Except String PipelineMessage)
    (now : Timestamp) :
    ∃ event, (step cfg s (.executor (.store id result) now)).JobIn id (.emitting event) := by
  obtain ⟨t, ht, hphase⟩ := h
  refine ⟨(Executor.outcome id t (t.initial.bind fun _ => result)).2,
    { t with phase := .emitting _ }, ?_, rfl⟩
  simp [step, executor_executorStep, Executor.step, ht, Executor.storeTask, hphase]

theorem canFinish_job_of_emitting (h : s.JobIn id (.emitting event)) :
    CanFinish cfg s (.job id) := by
  obtain ⟨t, ht, hphase⟩ := h
  refine .of_step (.executor (.emit id) 0) rfl
    (canFinish_job_of_done ⟨{ t with phase := .done }, ?_, rfl⟩)
  simp [step, executor_executorStep, Executor.step, ht, Executor.emitTask, hphase]

theorem canFinish_job_of_running (h : s.JobIn id .running) : CanFinish cfg s (.job id) := by
  obtain ⟨event, hnext⟩ := jobIn_store cfg h (.error "stopped") 0
  exact .of_step (.executor (.store id (.error "stopped")) 0) rfl (canFinish_job_of_emitting hnext)

theorem canFinish_job_of_permit (h : s.JobIn id .waiting)
    (hpermit : s.executor.closed = true ∨ 0 < s.executor.permits) :
    CanFinish cfg s (.job id) := by
  obtain ⟨t, ht, hphase⟩ := h
  apply CanFinish.of_step (.executor (.acquire id) 0) rfl
  by_cases hclosed : s.executor.closed = true
  · refine canFinish_job_of_done ⟨{ t with phase := .done }, ?_, rfl⟩
    simp [step, executor_executorStep, Executor.step, ht, Executor.acquireTask, hphase, hclosed]
  · have hpos : 0 < s.executor.permits := hpermit.resolve_left hclosed
    refine canFinish_job_of_running ⟨{ t with phase := .running }, ?_, rfl⟩
    simp [step, executor_executorStep, Executor.step, ht, Executor.acquireTask, hphase,
      hclosed, hpos]

/-! ### A permit becomes free -/

theorem waiting_executorStep {event : Event} (hwait : s.Waiting x) (hx : x ≠ .job id)
    (hother : Executor.SameElsewhere id s.executor (Executor.step cfg.jobTtl s.executor event))
    (now : Timestamp) : (step cfg s (.executor event now)).Waiting x := by
  cases x with
  | job other =>
    obtain ⟨t, ht, hphase⟩ := hwait
    have hne : other ≠ id := fun h => hx (by rw [h])
    exact ⟨t, by rw [step, executor_executorStep, (hother other hne).2, ht], hphase⟩
  | call index =>
    refine callIn_foldl_relay ?_ now _
    exact hwait

theorem canFinish_of_permit (hwait : s.Waiting x)
    (hpermit : s.executor.closed = true ∨ 0 < s.executor.permits) : CanFinish cfg s x := by
  cases x with
  | job id => exact canFinish_job_of_permit hwait hpermit
  | call index => exact canFinish_call_of_permit hwait hpermit

/-- A job that emits returns its permit to a waiting task. -/
theorem canFinish_of_emitting (hwait : s.Waiting x) (hx : x ≠ .job id)
    (h : s.JobIn id (.emitting event)) :
    CanFinish cfg s x := by
  obtain ⟨t, ht, hphase⟩ := h
  apply CanFinish.of_step (.executor (.emit id) 0) rfl
  apply canFinish_of_permit
  · refine waiting_executorStep hwait hx ?_ 0
    rw [Executor.step, ht]
    exact Executor.sameElsewhere_emit s.executor id t
  · simp [step, executor_executorStep, Executor.step, ht, Executor.emitTask, hphase,
      Executor.setTasks]

/-- Whoever holds a permit can return it to a waiting task. -/
theorem canFinish_of_holding {y : TaskId} (hwait : s.Waiting x) (hy : s.Holding y) :
    CanFinish cfg s x := by
  have hx : x ≠ y := fun h => not_holding_of_waiting hwait (h ▸ hy)
  cases y with
  | job id =>
    obtain ⟨t, ht, hholds⟩ := hy
    cases hphase : t.phase with
    | waiting => simp [hphase, RunPhase.holds] at hholds
    | done => simp [hphase, RunPhase.holds] at hholds
    | emitting event => exact canFinish_of_emitting hwait hx ⟨t, ht, hphase⟩
    | running =>
      obtain ⟨event, hnext⟩ := jobIn_store cfg ⟨t, ht, hphase⟩ (.error "stopped") 0
      apply CanFinish.of_step (.executor (.store id (.error "stopped")) 0) rfl
      refine canFinish_of_emitting (waiting_executorStep hwait hx ?_ 0) hx hnext
      rw [Executor.step, ht]
      exact Executor.sameElsewhere_store s.executor id t _
  | call index =>
    obtain ⟨c, hc, hholds⟩ := hy
    have hphase : c.phase = .running := by
      cases hp : c.phase <;> simp_all [holds]
    apply CanFinish.of_step (.finishCall index (.error "stopped")) rfl
    apply canFinish_of_permit
    · cases x with
      | job id =>
        simpa [step, onCall, hc, hphase, finishCall, setPhase, Waiting, JobIn] using hwait
      | call other =>
        have hne : index ≠ other := fun h => hx (by rw [h])
        simpa [step, onCall, hc, hphase, finishCall, setPhase, Waiting, CallIn, hne]
    · simp [step, onCall, hc, hphase, finishCall, setPhase]

theorem canFinish_of_waiting {limit : Nat} (hlimit : 1 ≤ limit) (h : PermitsOwned limit s)
    (hwait : s.Waiting x) : CanFinish cfg s x := by
  by_cases hpos : 0 < s.executor.permits
  · exact canFinish_of_permit hwait (.inr hpos)
  · have hcount := h.balanced.count
    obtain ⟨y, hy⟩ := List.exists_mem_of_length_pos (l := s.owners) (by omega)
    exact canFinish_of_holding hwait ((h.owner_iff y).mp hy)

theorem canFinish_call_of_starting {limit : Nat} (hlimit : 1 ≤ limit) (h : PermitsOwned limit s)
    (hstarting : s.CallIn index .starting) :
    CanFinish cfg s (.call index) := by
  obtain ⟨c, hcall, hphase⟩ := hstarting
  have hin : s.CallIn index c.phase := ⟨c, hcall, rfl⟩
  let draw : CallDraw := ⟨⟨0, 0⟩, 0, 0⟩
  apply CanFinish.of_step (.start index draw) rfl
  have hnext := permitsOwned_move (step_move cfg s (.start index draw)) h
  cases hmessage : buildInitialMessage cfg.typeError draw.message c.trigger with
  | error message =>
    simp only [step, onCall, hcall, hphase, startCall, hmessage]
    exact canFinish_call_of_returned (callIn_setPhase hin _)
  | ok message =>
    cases hmode : c.workflow.mode with
    | sync =>
      refine canFinish_of_waiting hlimit hnext ?_
      simp only [step, onCall, hcall, hphase, startCall, hmessage, hmode]
      exact callIn_setPhase hin _
    | async =>
      simp only [step, onCall, hcall, hphase, startCall, hmessage, hmode]
      exact canFinish_call_of_returned
        (callIn_setPhase (s := { s with executor := _, origins := _ }) hin _)

theorem canFinish_of_permitsOwned {limit : Nat} (hlimit : 1 ≤ limit)
    (h : PermitsOwned limit s) (x : TaskId) : CanFinish cfg s x := by
  cases x with
  | job id =>
    cases ht : s.executor.tasks id with
    | none => exact .of_finished (by simp [Finished, ht])
    | some t =>
      cases hphase : t.phase with
      | waiting => exact canFinish_of_waiting hlimit h ⟨t, ht, hphase⟩
      | running => exact canFinish_job_of_running ⟨t, ht, hphase⟩
      | emitting event => exact canFinish_job_of_emitting ⟨t, ht, hphase⟩
      | done => exact canFinish_job_of_done ⟨t, ht, hphase⟩
  | call index =>
    cases hcall : s.calls[index]? with
    | none => exact .of_finished (by simp [Finished, hcall])
    | some c =>
      cases hphase : c.phase with
      | starting => exact canFinish_call_of_starting hlimit h ⟨c, hcall, hphase⟩
      | waiting => exact canFinish_of_waiting hlimit h ⟨c, hcall, hphase⟩
      | running => exact canFinish_call_of_running ⟨c, hcall, hphase⟩
      | returned error => exact canFinish_call_of_returned ⟨c, hcall, hphase⟩
      | done => exact canFinish_call_of_done ⟨c, hcall, hphase⟩

end

/-- With at least one permit, no more tasks than permits are inside `run_steps`, no owner of a
permit waits for another, and there is no deadlock. -/
theorem run_permits_respected (cfg : EngineConfig) (limit : Nat) (hlimit : 1 ≤ limit)
    (events : List EngineEvent) :
    let s := run (step cfg) (withConcurrencyLimit limit) events
    (∀ tasks : List TaskId, tasks.Nodup → (∀ x ∈ tasks, s.InRunSteps x) → tasks.length ≤ limit) ∧
    (∀ x ∈ s.owners, ¬ s.Waiting x) ∧ ¬ Deadlock cfg s := by
  intro s
  have h : PermitsOwned limit s := permitsOwned_run cfg limit events
  refine ⟨?_, ?_, ?_⟩
  · intro tasks hnodup hrunning
    apply h.balanced.length_le hnodup
    intro x hx
    exact (h.owner_iff x).mpr (holding_of_inRunSteps (hrunning x hx))
  · intro x hx hwait
    exact not_holding_of_waiting hwait ((h.owner_iff x).mp hx)
  · rintro ⟨x, -, hstuck⟩
    exact hstuck (canFinish_of_permitsOwned hlimit h x)

/-- A workflow waits while a job holds the permit, and the event of the job starts it once more. -/
theorem run_permits_respected_completion :
    1 ≤ 1 ∧
    let s := run (step (completionConfig .sync)) (withConcurrencyLimit 1)
      [.executor (.spawn 2 0 "import" (.ok ⟨⟨1, "schedule", 0, none, []⟩, .custom (.obj [])⟩))
          0, .executor (.acquire 2) 1,
        .executor (.store 2 (.ok ⟨⟨1, "schedule", 0, none, []⟩, .custom (.obj [])⟩)) 2,
        .emit ⟨"workflow.completed", some (.obj []), "system", 3, 0⟩,
        .start 0 ⟨⟨3, 4⟩, 5, 4⟩, .executor (.emit 2) 5]
    (∀ tasks : List TaskId, tasks.Nodup → (∀ x ∈ tasks, s.InRunSteps x) → tasks.length ≤ 1) ∧
    (∀ x ∈ s.owners, ¬ s.Waiting x) ∧ ¬ Deadlock (completionConfig .sync) s :=
  ⟨by decide, run_permits_respected (completionConfig .sync) 1 (by decide) _⟩

end LifeEngine.Workflow.Engine
