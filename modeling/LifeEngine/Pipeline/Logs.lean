import LifeEngine.Pipeline.Effects

/-!
# Execution logs

Every step that is executed should have its entry in the log of the run.  A step that
ends with a warning has none, and neither has one that its fallback saved; the status of
the run does not see them either.
-/

namespace LifeEngine.Pipeline

open Support List

/-! ## What a log should say -/

/-- The plugin steps that were executed, in order. -/
def executed (cs : List PluginCall) : List Site :=
  (cs.filter fun call => call.kind = .first).map PluginCall.site

/-- The entry names the step. -/
structure Names (entry : StepLog) (site : Site) : Prop where
  index : entry.index = site.index
  pluginId : entry.pluginId = site.step.plugin
  action : entry.action = site.step.action

/-- The step's own action returned a message. -/
def PluginCall.OwnOk (call : PluginCall) : Prop :=
  call.kind ≠ .fallback ∧ ∃ output, call.answer = .ok output

/-- One entry for each executed step, in order, and a completed run means that every step succeeded.
-/
structure Faithful (log : ExecutionLog) (cs : List PluginCall) : Prop where
  steps : List.Forall₂ Names log.steps (executed cs)
  completed : log.status = .completed →
    ∀ site ∈ executed cs, ∃ call ∈ cs, call.site = site ∧ call.OwnOk

/-- A warning, or a fallback that succeeds: the step ends without an entry. -/
def PluginCall.silent (call : PluginCall) : Bool :=
  match call.kind, call.answer with
  | .first, .error e => e.severity = .warning
  | .fallback, .ok _ => true
  | _, _ => false

section Executed

variable (cs cs' : List PluginCall)

@[simp] theorem executed_append : executed (cs ++ cs') = executed cs ++ executed cs' := by
  simp [executed]

end Executed

/-! ## Steps -/

section Steps

variable {env : ExecutorEnv} {validate : ValidationLevel} {site : Site} {input : PipelineMessage}
  {cs : List PluginCall} {ls : List StepLog} {r : Except Exit PipelineMessage}

/-- A step is logged by nothing after a silent call, or by an entry, for a success unless it was
skipped or ends the run. -/
inductive Logging (site : Site) (cs : List PluginCall) (r : Except Exit PipelineMessage) :
    List StepLog → Prop where
  | panicked (hr : r = .error .panic) (ls : List StepLog) : Logging site cs r ls
  | silent (hsilent : cs.countP PluginCall.silent = 1) : Logging site cs r []
  | named {entry : StepLog} (hsilent : cs.countP PluginCall.silent = 0) (hnames : Names entry site)
      (hok : entry.status = .skipped ∨ (∃ exit, r = .error exit) ∨ ∃ call ∈ cs, call.OwnOk) :
      Logging site cs r [entry]

theorem EntryOf.names {status : StepStatus} {entry : StepLog}
    (hentry : EntryOf site status entry) : Names entry site :=
  ⟨hentry.index, hentry.pluginId, hentry.action⟩

theorem FailedRetries.countP_silent {attempt : Nat}
    (hcs : FailedRetries site input env attempt cs) : cs.countP PluginCall.silent = 0 := by
  rw [countP_eq_zero]
  intro call hcall
  obtain ⟨before, after, rfl⟩ := append_of_mem hcall
  obtain ⟨-, -, -, secs, -, hkind⟩ := hcs.kind_eq
  simp [PluginCall.silent, hkind]

theorem FailedFallback.countP_silent (hcs : FailedFallback site input cs) :
    cs.countP PluginCall.silent = 0 := by
  rcases hcs with ⟨-, rfl⟩ | ⟨fallback, e, -, rfl⟩
  · rfl
  · simp [PluginCall.silent, fallbackCall]

theorem countP_silent_firstCall_ok {output : PipelineMessage} :
    [firstCall site input (.ok output)].countP PluginCall.silent = 0 := by
  simp [PluginCall.silent, firstCall]

theorem countP_silent_firstCall {e : PluginError} (rest : List PluginCall) :
    (firstCall site input (.error e) :: rest).countP PluginCall.silent =
      rest.countP PluginCall.silent + if e.severity = .warning then 1 else 0 := by
  simp [countP_cons, PluginCall.silent, firstCall]

theorem RetryEnd.logging {failed : Nat} (hend : RetryEnd env site input failed cs ls r) :
    Logging site cs r ls := by
  rcases hend with ⟨-, hentry⟩ | _ | _ | ⟨-, hrest, -, hlogs⟩
  · refine .named ?_ hentry.names (.inr (.inr ⟨_, mem_singleton_self _, nofun, _, rfl⟩))
    simp [PluginCall.silent, retryCall]
  · exact .panicked rfl []
  · refine .silent ?_
    simp [PluginCall.silent, fallbackCall]
  · rcases hlogs with ⟨hentry, -⟩ | -
    · exact .named hrest.countP_silent hentry.names (.inr (.inl ⟨_, rfl⟩))
    · exact .panicked rfl []

theorem Logging.named_of_forall (h : Logging site cs r ls) (hr : r ≠ .error .panic)
    (hnone : ∀ call ∈ cs, call.silent = false) :
    ∃ entry, ls = [entry] ∧ Names entry site ∧
      (entry.status = .skipped ∨ (∃ exit, r = .error exit) ∨ ∃ call ∈ cs, call.OwnOk) := by
  rcases h with hpanic | hsilent | ⟨-, hnames, hok⟩
  · exact absurd hpanic hr
  · rw [countP_eq_zero.mpr fun call hcall => by simp [hnone call hcall]] at hsilent
    exact nomatch hsilent
  · exact ⟨_, rfl, hnames, hok⟩

/-- Calls that are not silent change nothing. -/
theorem Logging.prepend {front : List PluginCall} (h : Logging site cs r ls)
    (hfront : front.countP PluginCall.silent = 0) : Logging site (front ++ cs) r ls := by
  have hcount : (front ++ cs).countP PluginCall.silent = cs.countP PluginCall.silent := by
    rw [countP_append, hfront, Nat.zero_add]
  rcases h with hr | hsilent | ⟨hsilent, hnames, hok⟩
  · exact .panicked hr ls
  · exact .silent (hcount.trans hsilent)
  · refine .named (hcount.trans hsilent) hnames (hok.imp_right (Or.imp_right ?_))
    rintro ⟨call, hcall, hown⟩
    exact ⟨call, mem_append_right front hcall, hown⟩

theorem StepEffect.logging (heffect : StepEffect env validate site input cs ls r) :
    Logging site cs r ls := by
  rcases heffect with ⟨hentry, -⟩ | ⟨hentry, -⟩ | ⟨he⟩ | ⟨he, -, hlogs⟩ | ⟨he, -, hlogs⟩ |
    ⟨he, hfailed, hend⟩
  · exact .named countP_silent_firstCall_ok hentry.names
      (.inr (.inr ⟨_, mem_singleton_self _, nofun, _, rfl⟩))
  · exact .named countP_silent_firstCall_ok hentry.names (.inr (.inl ⟨_, rfl⟩))
  · refine .silent ?_
    rw [countP_silent_firstCall, if_pos he]
    rfl
  · rcases hlogs with ⟨hentry, -⟩ | -
    · refine .named ?_ hentry.names (.inr (.inl ⟨_, rfl⟩))
      rw [countP_silent_firstCall, if_neg he]
      rfl
    · exact .panicked rfl []
  · rcases hlogs with ⟨hentry, -⟩ | -
    · refine .named ?_ hentry.names (.inl hentry.status)
      rw [countP_silent_firstCall, if_neg (by simp [he])]
      rfl
    · exact .panicked rfl []
  · rw [← cons_append]
    refine hend.logging.prepend ?_
    rw [countP_silent_firstCall, if_neg (by simp [he]), hfailed.countP_silent]

theorem StepEffect.executed_eq (heffect : StepEffect env validate site input cs ls r) :
    executed cs = [site] := by
  obtain ⟨answer, rest, rfl, hrest⟩ := heffect.eq_cons
  have hnil : executed rest = [] := by
    simpa [executed] using fun call hcall => (hrest call hcall).2.2
  rw [← singleton_append, executed_append, hnil]
  rfl

end Steps

/-! ## Runs -/

/-- The accounts of the steps of a run that did not panic. -/
structure LoggedSteps (events : List Event) (r : Except Exit PipelineMessage) : Prop where
  count : (entries events).length + (calls events).countP PluginCall.silent =
    (executed (calls events)).length
  names : (∀ call ∈ calls events, call.silent = false) →
    List.Forall₂ Names ((entries events).map Prod.snd) (executed (calls events))
  own : (∀ call ∈ calls events, call.silent = false) → (∃ message, r = .ok message) →
    (∀ entry ∈ entries events, entry.2.status ≠ .skipped) →
    ∀ site ∈ executed (calls events), ∃ call ∈ calls events, call.site = site ∧ call.OwnOk

variable {r : Except Exit PipelineMessage}

theorem LoggedSteps.append {events events' : List Event} {next : PipelineMessage}
    (hfirst : LoggedSteps events (.ok next)) (hsecond : LoggedSteps events' r) :
    LoggedSteps (events ++ events') r where
  count := by
    have hfirst := hfirst.count
    have hsecond := hsecond.count
    simp only [entries_append, calls_append, executed_append, length_append, countP_append]
    omega
  names hsilent := by
    simp only [calls_append, forall_mem_append] at hsilent
    simp only [entries_append, calls_append, executed_append, map_append]
    exact rel_append (hfirst.names hsilent.1) (hsecond.names hsilent.2)
  own hsilent hr hskipped site hsite := by
    simp only [calls_append, forall_mem_append] at hsilent
    simp only [entries_append, forall_mem_append] at hskipped
    simp only [calls_append, executed_append, mem_append] at hsite ⊢
    rcases hsite with hsite | hsite
    · obtain ⟨call, hcall, hown⟩ := hfirst.own hsilent.1 ⟨next, rfl⟩ hskipped.1 site hsite
      exact ⟨call, .inl hcall, hown⟩
    · obtain ⟨call, hcall, hown⟩ := hsecond.own hsilent.2 hr hskipped.2 site hsite
      exact ⟨call, .inr hcall, hown⟩

theorem StepEffect.loggedSteps {env : ExecutorEnv} {validate : ValidationLevel} {site : Site}
    {input : PipelineMessage} {cs : List PluginCall} {ls : List StepLog}
    (heffect : StepEffect env validate site input cs ls r) (hr : r ≠ .error .panic) :
    LoggedSteps (cs.map .called ++ ls.map (.logged site)) r := by
  have hexecuted := heffect.executed_eq
  constructor <;>
    simp only [calls_append, calls_map_called, calls_map_logged, append_nil, entries_append,
      entries_map_called, entries_map_logged, nil_append, length_map, hexecuted, length_singleton,
      mem_singleton, forall_eq]
  · rcases heffect.logging with hpanic | hsilent | ⟨hsilent, -⟩
    · exact absurd hpanic hr
    · rw [hsilent, length_nil]
    · rw [hsilent, length_singleton]
  · intro hnone
    obtain ⟨entry, rfl, hnames, -⟩ := heffect.logging.named_of_forall hr hnone
    exact .cons hnames .nil
  · intro hnone hmessage hskipped
    obtain ⟨entry, rfl, -, hok⟩ := heffect.logging.named_of_forall hr hnone
    rcases hok with hstatus | ⟨exit, hexit⟩ | ⟨call, hcall, hown⟩
    · exact absurd hstatus (hskipped (site, entry) (by simp))
    · obtain ⟨message, hok⟩ := hmessage
      rw [hexit] at hok
      exact nomatch hok
    · exact ⟨call, hcall, (heffect.of_mem hcall).1, hown⟩

theorem sequential_logged (env : ExecutorEnv) (validate : ValidationLevel) :
    Sequential env validate fun _ events r => r ≠ .error .panic → LoggedSteps events r where
  nil _ _ := ⟨rfl, fun _ => .nil, fun _ _ _ => forall_mem_nil _⟩
  step _ _ _ _ _ heffect hr := heffect.loggedSteps hr
  append _ _ _ _ _ hfirst hsecond hr := (hfirst nofun).append (hsecond hr)

/-- The log that a run writes is that of its steps. -/
theorem log_eq_some {env : ExecutorEnv} {workflow : WorkflowDef} {message : PipelineMessage}
    {log : ExecutionLog} (hlog : (runSteps env workflow message).log = some log) :
    ∃ events r, stepsRun env workflow message = (events, r) ∧ r ≠ .error .panic ∧
      (runSteps env workflow message).events = events ∧
      log = executionLog env workflow events r := by
  rcases runSteps_cases env workflow message with ⟨-, details, hrun⟩ | ⟨-, hrun⟩
  · rw [hrun] at hlog
    exact nomatch hlog
  · rcases hsteps : stepsRun env workflow message with ⟨events, r⟩
    rw [hsteps] at hrun
    refine ⟨events, r, rfl, ?_, by rw [hrun, finishRun_events], ?_⟩
    · rintro rfl
      rw [hrun] at hlog
      exact nomatch hlog
    · rw [hrun] at hlog
      rcases r with (e | _) | output
      · exact (Option.some.inj hlog).symm
      · exact nomatch hlog
      · exact (Option.some.inj hlog).symm

/-- A log is faithful exactly if no step ended without an entry. -/
theorem faithful_iff (env : ExecutorEnv) (workflow : WorkflowDef)
    (initialMessage : PipelineMessage) (log : ExecutionLog)
    (hlog : (runSteps env workflow initialMessage).log = some log) :
    Faithful log (calls (runSteps env workflow initialMessage).events) ↔
      ∀ call ∈ calls (runSteps env workflow initialMessage).events, call.silent = false := by
  obtain ⟨events, r, hsteps, hr, hevents, rfl⟩ := log_eq_some hlog
  have hlogged : LoggedSteps events r := by
    have hlogged := (sequential_logged env workflow.validate).stepsRun initialMessage
    rw [hsteps] at hlogged
    exact hlogged hr
  rw [hevents]
  constructor
  · intro hfaithful
    have hlength : (entries events).length = (executed (calls events)).length := by
      have hlength := hfaithful.steps.length_eq
      rwa [executionLog, length_map] at hlength
    have hcount : (calls events).countP PluginCall.silent = 0 := by
      have hcount := hlogged.count
      omega
    rw [countP_eq_zero] at hcount
    exact fun call hcall => Bool.eq_false_of_not_eq_true (hcount call hcall)
  · intro hnone
    refine ⟨hlogged.names hnone, fun hstatus => ?_⟩
    change runStatus events r = .completed at hstatus
    rcases r with exit | message
    · exact nomatch hstatus
    · rw [runStatus] at hstatus
      split at hstatus
      · exact nomatch hstatus
      · next hany => exact hlogged.own hnone ⟨message, rfl⟩ (by simpa using hany)

/-- A skipped step, one that a retry saves, and a success. -/
theorem faithful_skipped_and_retried :
    ∃ log, (runSteps
        (scripted [.error ⟨"offline", "E1", .retryable⟩, .error ⟨"busy", "E2", .retryable⟩])
        (manualWorkflow .edges [pluginStep "mail" "fetch" (some ⟨.skip, none, none⟩),
          pluginStep "notes" "save" none, pluginStep "notes" "index" none])
        (customMessage (.obj []))).log = some log ∧
      Faithful log (calls (runSteps
        (scripted [.error ⟨"offline", "E1", .retryable⟩, .error ⟨"busy", "E2", .retryable⟩])
        (manualWorkflow .edges [pluginStep "mail" "fetch" (some ⟨.skip, none, none⟩),
          pluginStep "notes" "save" none, pluginStep "notes" "index" none])
        (customMessage (.obj []))).events) :=
  ⟨_, rfl, (faithful_iff _ _ _ _ rfl).mpr (by decide)⟩

/-- The log of a run with a warning has no entry. -/
theorem not_faithful_warning :
    validateWorkflow (manualWorkflow .edges [pluginStep "mail" "fetch" none]) "mail.yaml" = .ok () ∧
    ∃ log, (runSteps (scripted [.error ⟨"quota at 90%", "W1", .warning⟩])
        (manualWorkflow .edges [pluginStep "mail" "fetch" none])
        (customMessage (.obj []))).log = some log ∧
      ¬Faithful log (calls (runSteps (scripted [.error ⟨"quota at 90%", "W1", .warning⟩])
        (manualWorkflow .edges [pluginStep "mail" "fetch" none])
        (customMessage (.obj []))).events) := by
  refine ⟨by decide, _, rfl, fun hfaithful => ?_⟩
  exact nomatch hfaithful.steps.length_eq

end LifeEngine.Pipeline
