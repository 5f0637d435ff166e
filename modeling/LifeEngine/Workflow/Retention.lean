import LifeEngine.Workflow.Jobs

/-!
# How long an accepted job stays known

`execute_async` hands out a job id together with an `InProgress` entry, and
`cleanup_expired_jobs` drops every entry as old as the TTL, whatever its status.
A caller who holds the id sees the job as `InProgress` until its outcome is
stored, provided that no cleanup runs while the job is older than the TTL and
still unfinished.
-/

namespace LifeEngine.Workflow.Executor

open Support

def jobStatus (s : Executor) (id : Uuid) : Option JobStatus :=
  (s.jobs id).map fun entry => entry.status

/-- From its acceptance until its outcome is stored, every job is `InProgress`. -/
def AcceptedKnown (ttl : Int) (s : Executor) (events : List Event) : Prop :=
  ∀ pre mid post id createdAt workflowId message,
    events = pre ++ .executeAsync id createdAt workflowId message :: (mid ++ post) →
    (run (step ttl) s pre).tasks id = none →
    let s' := run (step ttl) s (pre ++ .executeAsync id createdAt workflowId message :: mid)
    ¬ OutcomeStored id s' → s'.jobStatus id = some .inProgress

/-- No cleanup when the job has reached the TTL without an outcome. -/
def Spares (ttl : Int) (id : Uuid) (createdAt : Timestamp) (s : Executor)
    (e : Event) : Prop :=
  ∀ now, e = .cleanupExpiredJobs now → ¬ OutcomeStored id s → now - createdAt < ttl

/-- Every cleanup spares the jobs accepted before it. -/
def SparesAccepted (ttl : Int) (s : Executor) (events : List Event) : Prop :=
  ∀ pre rest id createdAt workflowId message,
    events = pre ++ .executeAsync id createdAt workflowId message :: rest →
    (run (step ttl) s pre).tasks id = none →
    EveryStep (step ttl) (Spares ttl id createdAt)
      (run (step ttl) s (pre ++ [.executeAsync id createdAt workflowId message])) rest

/-! ## Creation times -/

/-- The tasks and the entry carry the creation time. -/
structure Dated (id : Uuid) (createdAt : Timestamp) (s : Executor) : Prop where
  task : ∃ t, s.tasks id = some t ∧ t.createdAt = createdAt
  entry : ∀ entry, s.jobs id = some entry → entry.createdAt = createdAt

variable {id : Uuid} {createdAt : Timestamp} {s : Executor} {t : JobTasks}

theorem Dated.congr {s' : Executor} (h : Dated id createdAt s) (hjob : s'.jobs id = s.jobs id)
    (htasks : s'.tasks id = s.tasks id) : Dated id createdAt s' :=
  ⟨by rw [htasks]; exact h.task, by rw [hjob]; exact h.entry⟩

theorem dated_insert_set (s : Executor) (id : Uuid) (entry : JobEntry) (t : JobTasks)
    (hentry : entry.createdAt = t.createdAt) :
    Dated id t.createdAt ((s.insertJob id entry).setTasks id t) :=
  ⟨⟨t, by simp, rfl⟩, by simp [hentry]⟩

theorem Dated.setTasks {t' : JobTasks} (h : Dated id t.createdAt s)
    (ht' : t'.createdAt = t.createdAt) :
    Dated id t.createdAt (s.setTasks id t') :=
  ⟨⟨t', by simp, ht'⟩, by simpa using h.entry⟩

theorem Dated.registerTask (h : Dated id t.createdAt s) :
    Dated id t.createdAt (s.registerTask id t) := by
  unfold Executor.registerTask
  split
  · exact dated_insert_set s id _ { t with registerPending := false } rfl
  · exact h

theorem Dated.acquireTask (h : Dated id t.createdAt s) :
    Dated id t.createdAt (s.acquireTask id t) := by
  unfold Executor.acquireTask
  split
  · split
    · exact dated_insert_set s id _ { t with phase := .done } rfl
    · split
      · refine Dated.setTasks ?_ rfl
        exact h.congr rfl rfl
      · exact h
  · exact h

theorem Dated.storeTask (h : Dated id t.createdAt s) (result : Except String PipelineMessage) :
    Dated id t.createdAt (s.storeTask id t result) := by
  unfold Executor.storeTask
  split
  · exact dated_insert_set s id _ { t with phase := .emitting _ } (by unfold outcome; split <;> rfl)
  · exact h

theorem Dated.emitTask (h : Dated id t.createdAt s) : Dated id t.createdAt (s.emitTask id t) := by
  unfold Executor.emitTask
  split
  · refine Dated.setTasks ?_ rfl
    exact h.congr rfl rfl
  · exact h

theorem dated_of_task {target : Uuid} {f : JobTasks → Executor} (h : Dated id createdAt s)
    (helse : ∀ t, SameElsewhere target s (f t))
    (hself : ∀ t, Dated target t.createdAt s → Dated target t.createdAt (f t)) :
    Dated id createdAt ((s.tasks target).elim s f) := by
  cases ht : s.tasks target with
  | none => exact h
  | some t =>
    by_cases hid : id = target
    · subst hid
      obtain ⟨t', ht', hcreated⟩ := h.task
      obtain rfl : t = t' := Option.some.inj (ht.symm.trans ht')
      subst hcreated
      exact hself t h
    · exact h.congr (helse t id hid).1 (helse t id hid).2

variable (ttl : Int)

/-- No step changes the creation time of a job. -/
theorem dated_step (e : Event) (h : Dated id createdAt s) :
    Dated id createdAt (step ttl s e) := by
  obtain ⟨t, ht, -⟩ := h.task
  cases e with
  | spawn target createdAt' workflowId initial =>
    cases htarget : s.tasks target with
    | some t' => simpa [step, htarget] using h
    | none =>
      have hne : id ≠ target := by
        rintro rfl
        simp [ht] at htarget
      exact h.congr (by simp [step, htarget]) (by simp [step, htarget, hne])
  | executeAsync target createdAt' workflowId message =>
    cases htarget : s.tasks target with
    | some t' => simpa [step, htarget] using h
    | none =>
      have hne : id ≠ target := by
        rintro rfl
        simp [ht] at htarget
      exact h.congr (by simp [step, htarget, hne]) (by simp [step, htarget, hne])
  | register target =>
    exact dated_of_task h (sameElsewhere_register s target) fun t ht => ht.registerTask
  | acquire target =>
    exact dated_of_task h (sameElsewhere_acquire s target) fun t ht => ht.acquireTask
  | store target result =>
    exact dated_of_task h (fun t => sameElsewhere_store s target t result)
      fun t ht => ht.storeTask result
  | emit target =>
    exact dated_of_task h (sameElsewhere_emit s target) fun t ht => ht.emitTask
  | cleanupExpiredJobs now =>
    refine ⟨h.task, ?_⟩
    intro entry hentry
    exact h.entry entry (Option.filter_eq_some_iff.mp hentry).1

/-! ## Jobs without an outcome -/

/-- The entry is the one that `execute_async` inserted. -/
def Accepted (id : Uuid) (createdAt : Timestamp) (s : Executor) : Prop :=
  ¬ OutcomeStored id s ∧ s.jobs id = some ⟨.inProgress, none, createdAt⟩

theorem accepted_executeAsync (createdAt : Timestamp) (workflowId : String)
    (message : PipelineMessage) (hnew : s.tasks id = none) :
    let s' := step ttl s (.executeAsync id createdAt workflowId message)
    Dated id createdAt s' ∧ Accepted id createdAt s' := by
  simp only [step, hnew]
  refine ⟨dated_insert_set s id _ ⟨workflowId, createdAt, .ok message, false, .waiting⟩
    rfl, ?_, by simp⟩
  rintro ⟨t, ht, hstored⟩
  obtain rfl : _ = t := by simpa using ht
  simp [RunPhase.stored] at hstored

theorem accepted_step {e : Event} (hdated : Dated id createdAt s)
    (h : Accepted id createdAt s) (hspares : Spares ttl id createdAt s e) :
    Accepted id createdAt (step ttl s e) ∨ OutcomeStored id (step ttl s e) := by
  obtain ⟨hopen, hentry⟩ := h
  by_cases hstored : OutcomeStored id (step ttl s e)
  · exact .inr hstored
  refine .inl ⟨hstored, ?_⟩
  obtain ⟨t, ht, hcreated⟩ := hdated.task
  rcases step_jobStep ttl s e id with ⟨hjob, -⟩ | ⟨hnew, -, -, -, -⟩ |
    ⟨-, t₁, ht₁, -, -, hjob⟩ | ⟨-, -, -, -, -, hjob⟩ |
    ⟨-, t', -, -, ht', -, hafter, -, -⟩ | ⟨now, rfl, hjob, -⟩
  · exact hjob.trans hentry
  · simp [hnew] at ht
  · obtain rfl : t₁ = t := Option.some.inj (ht₁.symm.trans ht)
    rw [hjob, hcreated]
  · exact hjob.trans hentry
  · exact absurd ⟨t', ht', hafter⟩ hstored
  · have hyoung : now - createdAt < ttl := hspares now rfl hopen
    have hkept : (step ttl s (.cleanupExpiredJobs now)).jobs id =
        some ⟨.inProgress, none, createdAt⟩ := by
      simp [step, cleanup, hentry, hyoung]
    exact hkept

theorem accepted_run {events : List Event} (hdated : Dated id createdAt s)
    (h : Accepted id createdAt s)
    (hspares : EveryStep (step ttl) (Spares ttl id createdAt) s events) :
    Accepted id createdAt (run (step ttl) s events) ∨
      OutcomeStored id (run (step ttl) s events) := by
  induction events generalizing s with
  | nil => exact .inl h
  | cons e es ih =>
    obtain ⟨he, hes⟩ := everyStep_cons.mp hspares
    rcases accepted_step ttl hdated h he with hopen | hstored
    · exact ih (dated_step ttl e hdated) hopen hes
    · exact .inr (run_invariant (fun _ e => outcomeStored_step ttl e) hstored es)

/-- Accepted jobs are `InProgress` until their outcome is stored exactly when every cleanup finds
the unfinished ones younger than the TTL. -/
theorem acceptedKnown_iff_sparesAccepted (ttl : Int) (s : Executor)
    (events : List Event) :
    AcceptedKnown ttl s events ↔ SparesAccepted ttl s events := by
  constructor
  · intro hknown pre rest id createdAt workflowId message hsplit hnew mid e post hrest
      now hevent hopen
    subst hevent
    rw [← run_append] at hopen
    -- The state right after the cleanup: the entry is still there, so it is young.
    have hlater := hknown pre (mid ++ [.cleanupExpiredJobs now]) post id createdAt
      workflowId message (by simp [hsplit, hrest]) hnew
    rw [show pre ++ .executeAsync id createdAt workflowId message ::
        (mid ++ [.cleanupExpiredJobs now]) =
        (pre ++ [.executeAsync id createdAt workflowId message] ++ mid) ++
          [.cleanupExpiredJobs now] by simp, run_concat] at hlater
    obtain ⟨entry, hentry, -⟩ := Option.map_eq_some_iff.mp (hlater hopen)
    obtain ⟨hbefore, hyoung⟩ := Option.filter_eq_some_iff.mp hentry
    have hdated : Dated id createdAt (run (step ttl) s
        (pre ++ [.executeAsync id createdAt workflowId message] ++ mid)) := by
      rw [run_append, run_concat]
      exact run_invariant (fun _ e => dated_step ttl e)
        (accepted_executeAsync ttl createdAt workflowId message hnew).1 mid
    rw [hdated.entry entry hbefore] at hyoung
    simpa using hyoung
  · intro hspares pre mid post id createdAt workflowId message hsplit hnew s' hopen
    have haccepted := accepted_executeAsync ttl createdAt workflowId message hnew
    have hmid := hspares pre (mid ++ post) id createdAt workflowId message hsplit hnew
    rw [run_concat] at hmid
    have hrun := accepted_run ttl haccepted.1 haccepted.2 hmid.of_append_left
    rw [← run_cons, ← run_append] at hrun
    rcases hrun with ⟨-, hentry⟩ | hstored
    · simp [jobStatus, s', hentry]
    · exact absurd hstored hopen

/-- A job takes longer than the TTL: a cleanup makes it unknown while it runs. -/
theorem not_acceptedKnown_of_long_job :
    ¬ AcceptedKnown 3600000 (withConcurrencyLimit 32 false)
      [.executeAsync 1 0 "export-all" ⟨⟨7, "endpoint", 0, none, []⟩, .custom .null⟩,
        .acquire 1, .cleanupExpiredJobs 3600000] := by
  intro hknown
  have hlost := hknown [] [.acquire 1, .cleanupExpiredJobs 3600000] [] 1 0 "export-all"
    ⟨⟨7, "endpoint", 0, none, []⟩, .custom .null⟩ rfl rfl
  have hopen : ¬ OutcomeStored 1 (run (step 3600000) (withConcurrencyLimit 32 false)
      [.executeAsync 1 0 "export-all" ⟨⟨7, "endpoint", 0, none, []⟩, .custom .null⟩,
        .acquire 1, .cleanupExpiredJobs 3600000]) := by
    rintro ⟨t, ht, hstored⟩
    obtain rfl : _ = t := Option.some.inj ht
    exact absurd hstored (by decide)
  exact absurd (hlost hopen) (by decide)

end LifeEngine.Workflow.Executor
