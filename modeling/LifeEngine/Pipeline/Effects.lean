import LifeEngine.Pipeline.Executor

/-!
# What a step does

Every way through the body of the loop of `execute_steps`: the calls that are made, the
log entries that are written, and how the step ends.  What holds of each of them and is
kept by sequences holds of `execute_steps`.
-/

namespace LifeEngine.Pipeline

open Support List Traced

/-! ## Projections of traces -/

section Projections

variable (events events' : List Event) (cs : List PluginCall) (ls : List StepLog) (site : Site)

@[simp] theorem calls_nil : calls [] = [] := rfl

@[simp] theorem entries_nil : entries [] = [] := rfl

@[simp] theorem calls_append : calls (events ++ events') = calls events ++ calls events' := by
  simp [calls]

@[simp] theorem entries_append :
    entries (events ++ events') = entries events ++ entries events' := by
  simp [entries]

@[simp] theorem calls_map_called : calls (cs.map .called) = cs := by
  simp [calls]

@[simp] theorem calls_map_logged : calls (ls.map (.logged site)) = [] := by
  simp [calls]

@[simp] theorem entries_map_called : entries (cs.map .called) = [] := by
  simp [entries]

@[simp] theorem entries_map_logged : entries (ls.map (.logged site)) = ls.map (site, ·) := by
  simp [entries]

end Projections

/-! ## Calls of a step -/

section Calls

variable (site : Site) (input : PipelineMessage)

def firstCall (answer : Except PluginError PipelineMessage) : PluginCall :=
  ⟨site, .first, site.step.plugin, site.step.action, input, answer⟩

def retryCall (attempt secs : Nat) (answer : Except PluginError PipelineMessage) : PluginCall :=
  ⟨site, .retry attempt secs, site.step.plugin, site.step.action, input, answer⟩

def fallbackCall (fallback : StepDef) (answer : Except PluginError PipelineMessage) :
    PluginCall :=
  ⟨site, .fallback, fallback.plugin, fallback.action, input, answer⟩

/-- Retries in a row that fail, from the given attempt on. -/
inductive FailedRetries (env : ExecutorEnv) : Nat → List PluginCall → Prop where
  | nil (attempt : Nat) : FailedRetries env attempt []
  | cons {attempt secs : Nat} {e : PluginError} {rest : List PluginCall}
      (hsecs : backoffSecs env.overflowChecks attempt = some secs)
      (hrest : FailedRetries env (attempt + 1) rest) :
      FailedRetries env attempt (retryCall site input attempt secs (.error e) :: rest)

/-- Nothing, or a fallback that fails. -/
def FailedFallback (rest : List PluginCall) : Prop :=
  (site.step.fallback = none ∧ rest = []) ∨
    ∃ fallback e, site.step.fallback = some fallback ∧
      rest = [fallbackCall site input fallback (.error e)]

/-- The ways through `retryLoop`. -/
inductive RetryEffect (env : ExecutorEnv) (remaining attempt : Nat) :
    List PluginCall → Except Exit (Except PluginError (PipelineMessage × Nat)) → Prop where
  | exhausted {cs : List PluginCall} {e : PluginError}
      (hcs : FailedRetries site input env attempt cs) (hlength : cs.length = remaining) :
      RetryEffect env remaining attempt cs (.ok (.error e))
  | succeeded {cs : List PluginCall} {secs : Nat} {output : PipelineMessage}
      (hcs : FailedRetries site input env attempt cs) (hlength : cs.length < remaining) :
      RetryEffect env remaining attempt
        (cs ++ [retryCall site input (attempt + cs.length) secs (.ok output)])
        (.ok (.ok (output, attempt + cs.length)))
  | overflow {cs : List PluginCall} (hcs : FailedRetries site input env attempt cs)
      (hlength : cs.length < remaining)
      (hover : backoffSecs env.overflowChecks (attempt + cs.length) = none) :
      RetryEffect env remaining attempt cs (.error .panic)

end Calls

/-- A retry that fails leaves the rest of the loop to do. -/
theorem RetryEffect.cons {site : Site} {input : PipelineMessage} {env : ExecutorEnv}
    {remaining attempt secs : Nat} {e : PluginError} {cs : List PluginCall}
    {r : Except Exit (Except PluginError (PipelineMessage × Nat))}
    (hsecs : backoffSecs env.overflowChecks attempt = some secs)
    (heffect : RetryEffect site input env remaining (attempt + 1) cs r) :
    RetryEffect site input env (remaining + 1) attempt
      (retryCall site input attempt secs (.error e) :: cs) r := by
  have hshift : ∀ n, attempt + 1 + n = attempt + (n + 1) := fun n => by omega
  rcases heffect with ⟨hcs, hlength⟩ | ⟨hcs, hlength⟩ | ⟨hcs, hlength, hover⟩
  · exact .exhausted (.cons hsecs hcs) (by rw [length_cons, hlength])
  · rw [hshift]
    exact .succeeded (.cons hsecs hcs) (Nat.succ_lt_succ hlength)
  · refine .overflow (.cons hsecs hcs) (Nat.succ_lt_succ hlength) ?_
    rwa [length_cons, ← hshift]

theorem FailedRetries.kind_eq {site : Site} {input : PipelineMessage} {env : ExecutorEnv}
    {attempt : Nat} {before after : List PluginCall} {call : PluginCall}
    (hcs : FailedRetries site input env attempt (before ++ call :: after)) :
    call.site = site ∧ call.input = input ∧ (∃ e, call.answer = .error e) ∧
      ∃ secs, backoffSecs env.overflowChecks (attempt + before.length) = some secs ∧
        call.kind = .retry (attempt + before.length) secs := by
  induction before generalizing attempt with
  | nil =>
    rcases hcs with _ | ⟨hsecs, hrest⟩
    exact ⟨rfl, rfl, ⟨_, rfl⟩, _, hsecs, rfl⟩
  | cons head before ih =>
    rcases hcs with _ | ⟨hsecs, hrest⟩
    have hkind := ih hrest
    rwa [Nat.add_assoc, Nat.add_comm 1] at hkind

/-! ## Steps -/

/-- The payload is an object and passes `validate_message`. -/
def Valid (message : PipelineMessage) : Prop :=
  ∃ fields, payloadData message.payload = .obj fields

instance (message : PipelineMessage) : Decidable (Valid message) :=
  match hdata : payloadData message.payload with
  | .obj fields => isTrue ⟨fields, hdata⟩
  | .null | .bool _ | .num _ | .str _ | .arr _ => isFalse (by simp [Valid, hdata])

theorem validateMessage_cases (env : ExecutorEnv) (message : PipelineMessage) (stepIndex : Nat)
    (context : String) :
    (Valid message ∧ validateMessage env message stepIndex context = .ok ()) ∨
      (¬Valid message ∧ ∃ details, validateMessage env message stepIndex context =
        .error (.validationFailed stepIndex details)) := by
  simp only [validateMessage]
  split
  · rename_i fields hdata
    exact .inl ⟨⟨fields, hdata⟩, rfl⟩
  · rename_i hdata
    exact .inr ⟨fun ⟨fields, hfields⟩ => hdata fields hfields, _, rfl⟩

/-- The entry is about the step. -/
structure EntryOf (site : Site) (status : StepStatus) (entry : StepLog) : Prop where
  index : entry.index = site.index
  pluginId : entry.pluginId = site.step.plugin
  action : entry.action = site.step.action
  status : entry.status = status

/-- A failure is logged, or the summary of the input panics. -/
inductive Logs (env : ExecutorEnv) (site : Site) (input : PipelineMessage) (status : StepStatus)
    (result : Except Exit PipelineMessage) :
    List StepLog → Except Exit PipelineMessage → Prop where
  | logged {entry : StepLog} (hentry : EntryOf site status entry)
      (hsummary : (summarizeInput env input).isSome) :
      Logs env site input status result [entry] result
  | panicked (hsummary : summarizeInput env input = none) :
      Logs env site input status result [] (.error .panic)

/-- How a step ends after the given number of failed retries. -/
inductive RetryEnd (env : ExecutorEnv) (site : Site) (input : PipelineMessage) (failed : Nat) :
    List PluginCall → List StepLog → Except Exit PipelineMessage → Prop where
  | succeeded {secs : Nat} {output : PipelineMessage} {entry : StepLog}
      (hlength : failed < site.step.maxRetries) (hentry : EntryOf site .retried entry) :
      RetryEnd env site input failed [retryCall site input (1 + failed) secs (.ok output)] [entry]
        (.ok output)
  | overflowed (hlength : failed < site.step.maxRetries)
      (hover : backoffSecs env.overflowChecks (1 + failed) = none) :
      RetryEnd env site input failed [] [] (.error .panic)
  | fellBack {fallback : StepDef} {output : PipelineMessage}
      (hlength : failed = site.step.maxRetries) (hfallback : site.step.fallback = some fallback) :
      RetryEnd env site input failed [fallbackCall site input fallback (.ok output)] []
        (.ok output)
  | exhausted {rest : List PluginCall} {error : WorkflowError} {ls : List StepLog}
      {r : Except Exit PipelineMessage} (hlength : failed = site.step.maxRetries)
      (hrest : FailedFallback site input rest) (herror : error.stepIndex = some site.index)
      (hlogs : Logs env site input .failed (.error (.error error)) ls r) :
      RetryEnd env site input failed rest ls r

/-- The ways through a plugin step. -/
inductive StepEffect (env : ExecutorEnv) (validate : ValidationLevel) (site : Site)
    (input : PipelineMessage) :
    List PluginCall → List StepLog → Except Exit PipelineMessage → Prop where
  | completed {output : PipelineMessage} {entry : StepLog}
      (hentry : EntryOf site .completed entry) (hvalid : validate = .strict → Valid output) :
      StepEffect env validate site input [firstCall site input (.ok output)] [entry] (.ok output)
  | invalid {output : PipelineMessage} {entry : StepLog} {details : String}
      (hentry : EntryOf site .completed entry) (hinvalid : ¬Valid output) :
      StepEffect env validate site input [firstCall site input (.ok output)] [entry]
        (.error (.error (.validationFailed site.index details)))
  | warned {e : PluginError} (he : e.severity = .warning) :
      StepEffect env validate site input [firstCall site input (.error e)] [] (.ok input)
  | halted {e : PluginError} {error : WorkflowError} {ls : List StepLog}
      {r : Except Exit PipelineMessage} (he : e.severity ≠ .warning)
      (herror : error.stepIndex = some site.index)
      (hlogs : Logs env site input .failed (.error (.error error)) ls r) :
      StepEffect env validate site input [firstCall site input (.error e)] ls r
  | skipped {e : PluginError} {output : PipelineMessage} {ls : List StepLog}
      {r : Except Exit PipelineMessage} (he : e.severity = .retryable)
      (houtput : output.payload = input.payload)
      (hlogs : Logs env site input .skipped (.ok output) ls r) :
      StepEffect env validate site input [firstCall site input (.error e)] ls r
  | retried {e : PluginError} {failed rest : List PluginCall} {ls : List StepLog}
      {r : Except Exit PipelineMessage} (he : e.severity = .retryable)
      (hfailed : FailedRetries site input env 1 failed)
      (hend : RetryEnd env site input failed.length rest ls r) :
      StepEffect env validate site input
        (firstCall site input (.error e) :: (failed ++ rest)) ls r

/-! ### The calls of a step -/

section StepCalls

variable {env : ExecutorEnv} {validate : ValidationLevel} {site : Site} {input : PipelineMessage}
  {cs : List PluginCall} {ls : List StepLog} {r : Except Exit PipelineMessage} {call : PluginCall}

theorem FailedRetries.of_mem {attempt : Nat} (hcs : FailedRetries site input env attempt cs)
    (hcall : call ∈ cs) :
    call.site = site ∧ call.input = input ∧ call.kind ≠ .first ∧ ∃ e, call.answer = .error e := by
  obtain ⟨before, after, rfl⟩ := append_of_mem hcall
  obtain ⟨hsite, hinput, hanswer, secs, -, hkind⟩ := hcs.kind_eq
  exact ⟨hsite, hinput, by simp [hkind], hanswer⟩

theorem FailedFallback.of_mem (hrest : FailedFallback site input cs) (hcall : call ∈ cs) :
    call.site = site ∧ call.input = input ∧ call.kind ≠ .first ∧ ∃ e, call.answer = .error e := by
  rcases hrest with ⟨-, rfl⟩ | ⟨fallback, e, -, rfl⟩
  · exact nomatch hcall
  · rw [mem_singleton.mp hcall]
    exact ⟨rfl, rfl, nofun, e, rfl⟩

theorem RetryEnd.of_mem {failed : Nat} (hend : RetryEnd env site input failed cs ls r)
    (hcall : call ∈ cs) : call.site = site ∧ call.input = input ∧ call.kind ≠ .first := by
  rcases hend with _ | _ | _ | ⟨-, hrest⟩
  · rw [mem_singleton.mp hcall]
    exact ⟨rfl, rfl, nofun⟩
  · exact nomatch hcall
  · rw [mem_singleton.mp hcall]
    exact ⟨rfl, rfl, nofun⟩
  · obtain ⟨hsite, hinput, hkind, -⟩ := hrest.of_mem hcall
    exact ⟨hsite, hinput, hkind⟩

/-- A step makes a first call and then only others. -/
theorem StepEffect.eq_cons (heffect : StepEffect env validate site input cs ls r) :
    ∃ answer rest, cs = firstCall site input answer :: rest ∧
      ∀ call ∈ rest, call.site = site ∧ call.input = input ∧ call.kind ≠ .first := by
  rcases heffect with _ | _ | _ | _ | _ | ⟨-, hfailed, hend⟩
  · exact ⟨_, [], rfl, forall_mem_nil _⟩
  · exact ⟨_, [], rfl, forall_mem_nil _⟩
  · exact ⟨_, [], rfl, forall_mem_nil _⟩
  · exact ⟨_, [], rfl, forall_mem_nil _⟩
  · exact ⟨_, [], rfl, forall_mem_nil _⟩
  · refine ⟨_, _, rfl, fun call hcall => ?_⟩
    rcases mem_append.mp hcall with hcall | hcall
    · obtain ⟨hsite, hinput, hkind, -⟩ := hfailed.of_mem hcall
      exact ⟨hsite, hinput, hkind⟩
    · exact hend.of_mem hcall

theorem StepEffect.of_mem (heffect : StepEffect env validate site input cs ls r)
    (hcall : call ∈ cs) : call.site = site ∧ call.input = input := by
  obtain ⟨answer, rest, rfl, hrest⟩ := heffect.eq_cons
  rcases mem_cons.mp hcall with rfl | hcall
  · exact ⟨rfl, rfl⟩
  · obtain ⟨hsite, hinput, -⟩ := hrest call hcall
    exact ⟨hsite, hinput⟩

end StepCalls

section Runs

variable (env : ExecutorEnv) (site : Site) (started : Timestamp) (input : PipelineMessage)
  (h : List Event)

theorem run_callPlugin (kind : CallKind) (plugin action : String) :
    (callPlugin env site kind plugin action input).run h =
      ([.called ⟨site, kind, plugin, action, input, env.execute h plugin action input⟩],
        .ok (env.execute h plugin action input)) := by
  simp [callPlugin]

theorem run_pushLog (status : StepStatus) (error : Option StepErrorLog)
    (retryCount : Option Nat) :
    ∃ entry, (pushLog env site started status error retryCount).run h =
      ([.logged site entry], .ok ()) ∧ EntryOf site status entry :=
  ⟨_, rfl, rfl, rfl, rfl, rfl⟩

variable {retryCount : Option Nat} {e : PluginError} {cs : List PluginCall}

/-- The end of the trace of `retryLoop`, whatever came before. -/
theorem run_retryLoop (remaining attempt : Nat) (lastError : PluginError) :
    ∃ cs r, (retryLoop env site input remaining attempt lastError).run h = (cs.map .called, r) ∧
      RetryEffect site input env remaining attempt cs r := by
  induction remaining generalizing attempt lastError h with
  | zero => exact ⟨[], _, rfl, .exhausted (.nil attempt) rfl⟩
  | succ remaining ih =>
    rw [retryLoop]
    rcases hsecs : backoffSecs env.overflowChecks attempt with _ | secs
    · exact ⟨[], _, rfl, .overflow (.nil attempt) (Nat.succ_pos remaining) hsecs⟩
    · have hcall := run_callPlugin env site input h (.retry attempt secs) site.step.plugin
        site.step.action
      rcases hanswer : env.execute h site.step.plugin site.step.action input with e | output
      · rw [hanswer] at hcall
        obtain ⟨cs, r, hrun, heffect⟩ := ih _ (attempt + 1) e
        refine ⟨retryCall site input attempt secs (.error e) :: cs, r, ?_, ?_⟩
        · rw [run_bind_ok hcall, hrun]
          rfl
        · exact heffect.cons hsecs
      · rw [hanswer] at hcall
        refine ⟨[retryCall site input attempt secs (.ok output)], _, run_bind_ok hcall, ?_⟩
        exact .succeeded (.nil attempt) (Nat.succ_pos remaining)

/-! ### The parts of a step -/

/-- The trace of a part of a step, given the calls before it. -/
def Ends (validate : ValidationLevel) (before : List PluginCall)
    (x : Execution PipelineMessage) : Prop :=
  ∀ h, ∃ cs ls r, x.run h = (cs.map .called ++ ls.map (.logged site), r) ∧
    StepEffect env validate site input (before ++ cs) ls r

variable {env site input} {validate : ValidationLevel} {before : List PluginCall}

/-- A part that makes no more calls and logs a failure. -/
theorem ends_of_failure {status : StepStatus} {message code : String} {severity : Severity}
    {result : Except Exit PipelineMessage}
    (heffect : ∀ ls r, Logs env site input status result ls r →
      StepEffect env validate site input before ls r) :
    Ends env site input validate before (do
      let error ← errorLog env message code severity input
      pushLog env site started status (some error) retryCount
      ofExcept result) := by
  intro h
  rcases hsummary : summarizeInput env input with _ | summary
  · refine ⟨[], [], .error .panic, ?_, ?_⟩
    · rw [errorLog, hsummary]
      rfl
    · rw [append_nil]
      exact heffect _ _ (.panicked hsummary)
  · obtain ⟨entry, hentry, hof⟩ := run_pushLog env site started h status
      (some ⟨message, code, severity.debug, summary⟩) retryCount
    refine ⟨[], [entry], result, ?_, ?_⟩
    · rw [errorLog, hsummary]
      rw [run_bind_ok (run_pure h _), append_nil, run_bind_ok hentry]
      rfl
    · rw [append_nil]
      exact heffect _ _ (.logged hof (by rw [hsummary]; rfl))

theorem ends_haltStep (he : e.severity ≠ .warning) :
    Ends env site input validate [firstCall site input (.error e)]
      (haltStep env site started input e) := by
  rw [haltStep, leave_eq_ofExcept]
  exact ends_of_failure started fun _ _ hlogs => .halted he rfl hlogs

theorem ends_skipStep (he : e.severity = .retryable) :
    Ends env site input validate [firstCall site input (.error e)]
      (skipStep env site started input e) := by
  rw [skipStep, pure_eq_ofExcept]
  exact ends_of_failure started fun _ _ hlogs => StepEffect.skipped he (by rfl) hlogs

theorem ends_exhaustStep {rest : List PluginCall} (he : e.severity = .retryable)
    (hcs : FailedRetries site input env 1 cs) (hlength : cs.length = site.step.maxRetries)
    (hrest : FailedFallback site input rest) (lastError : PluginError) (cause : String) :
    Ends env site input validate (firstCall site input (.error e) :: (cs ++ rest))
      (exhaustStep env site started input lastError cause) := by
  rw [exhaustStep, leave_eq_ofExcept]
  exact ends_of_failure started fun _ _ hlogs =>
    .retried he hcs (.exhausted hlength hrest rfl hlogs)

/-- The part of a trace that follows calls of the step. -/
theorem Ends.after {x : Execution PipelineMessage}
    (hx : Ends env site input validate (before ++ cs) x) :
    ∃ cs' ls r, (cs.map Event.called ++ (x.run (h ++ cs.map .called)).1,
        (x.run (h ++ cs.map .called)).2) = (cs'.map .called ++ ls.map (.logged site), r) ∧
      StepEffect env validate site input (before ++ cs') ls r := by
  obtain ⟨cs', ls, r, hrun, heffect⟩ := hx (h ++ cs.map .called)
  refine ⟨cs ++ cs', ls, r, ?_, ?_⟩
  · rw [hrun, map_append, append_assoc]
  · rwa [← append_assoc]

/-- A call before a part. -/
theorem Ends.call {kind : CallKind} {plugin action : String}
    {f : Except PluginError PipelineMessage → Execution PipelineMessage}
    (hf : ∀ answer,
      Ends env site input validate (before ++ [⟨site, kind, plugin, action, input, answer⟩])
        (f answer)) :
    Ends env site input validate before (callPlugin env site kind plugin action input >>= f) := by
  intro h
  exact (hf (env.execute h plugin action input)).after h

theorem ends_ofExcept {r : Except Exit PipelineMessage}
    (heffect : StepEffect env validate site input before [] r) :
    Ends env site input validate before (ofExcept r) := by
  intro h
  refine ⟨[], [], r, rfl, ?_⟩
  rwa [append_nil]

theorem ends_pushLog {status : StepStatus} {r : Except Exit PipelineMessage}
    (heffect : ∀ entry, EntryOf site status entry →
      StepEffect env validate site input before [entry] r) :
    Ends env site input validate before (do
      pushLog env site started status none retryCount
      ofExcept r) := by
  intro h
  obtain ⟨entry, hrun, hentry⟩ := run_pushLog env site started h status none retryCount
  refine ⟨[], [entry], r, run_bind_ok hrun, ?_⟩
  rw [append_nil]
  exact heffect entry hentry

theorem ends_fallbackStep (he : e.severity = .retryable) (hcs : FailedRetries site input env 1 cs)
    (hlength : cs.length = site.step.maxRetries) (lastError : PluginError) :
    Ends env site input validate (firstCall site input (.error e) :: cs)
      (fallbackStep env site started input lastError) := by
  rw [fallbackStep]
  rcases hfallback : site.step.fallback with _ | fallback
  · rw [← append_nil cs]
    exact ends_exhaustStep started he hcs hlength (.inl ⟨hfallback, rfl⟩) lastError _
  · refine Ends.call fun answer => ?_
    rcases answer with fallbackError | output
    · exact ends_exhaustStep started he hcs hlength
        (.inr ⟨fallback, fallbackError, hfallback, rfl⟩) lastError _
    · exact ends_ofExcept (.retried he hcs (.fellBack hlength hfallback))

theorem ends_retryStep (he : e.severity = .retryable) :
    Ends env site input validate [firstCall site input (.error e)]
      (retryStep env site started input e) := by
  intro h
  obtain ⟨cs, r, hrun, heffect⟩ := run_retryLoop env site input h site.step.maxRetries 1 e
  rcases heffect with ⟨hcs, hlength⟩ | ⟨hcs, hlength⟩ | ⟨hcs, hlength, hover⟩
  · rw [retryStep, run_bind_ok hrun]
    exact (ends_fallbackStep started he hcs hlength _).after h
  · rw [retryStep, run_bind_ok hrun]
    exact (ends_pushLog started fun _ hentry =>
      .retried he hcs (.succeeded hlength hentry)).after h
  · refine ⟨cs, [], .error .panic, ?_, ?_⟩
    · rw [retryStep, run_bind_error hrun, map_nil, append_nil]
    · rw [singleton_append, ← append_nil cs]
      exact .retried he hcs (.overflowed hlength hover)

theorem ends_recoverStep (e : PluginError) :
    Ends env site input validate [firstCall site input (.error e)]
      (recoverStep env site started input e) := by
  rw [recoverStep]
  rcases hseverity : e.severity with _ | _ | _
  · exact ends_haltStep started (by simp [hseverity])
  · rcases hstrategy : effectiveStrategy site.step .retryable with _ | _ | _ | _
    · rcases honError : site.step.onError with _ | _ <;>
        simp [effectiveStrategy, honError] at hstrategy
    · exact ends_haltStep started (by simp [hseverity])
    · exact ends_skipStep started hseverity
    · exact ends_retryStep started hseverity
  · exact ends_ofExcept (.warned hseverity)

theorem ends_executePlugin :
    Ends env site input validate [] (executePlugin env validate site input) := by
  intro h
  rw [executePlugin, run_history_bind]
  refine Ends.call (fun answer => ?_) h
  rcases answer with e | output
  · exact ends_recoverStep _ e
  · refine ends_pushLog _ fun entry hentry => ?_
    rw [validateOutput]
    split
    · rcases validateMessage_cases env output site.index _ with
        ⟨hvalid, hok⟩ | ⟨hinvalid, d, herror⟩
      · rw [hok]
        exact .completed hentry fun _ => hvalid
      · rw [herror]
        exact .invalid hentry hinvalid
    · exact .completed hentry fun hstrict => absurd hstrict ‹_›

end Runs

/-! ## Sequences of steps -/

section Sequences

variable {env : ExecutorEnv} {validate : ValidationLevel}
  {Q : PipelineMessage → List Event → Except Exit PipelineMessage → Prop}

/-- A relation between input, events and end that plugin steps meet and sequences keep. -/
structure Sequential (env : ExecutorEnv) (validate : ValidationLevel)
    (Q : PipelineMessage → List Event → Except Exit PipelineMessage → Prop) : Prop where
  nil : ∀ message, Q message [] (.ok message)
  step : ∀ site message cs ls r, StepEffect env validate site message cs ls r →
    Q message (cs.map .called ++ ls.map (.logged site)) r
  append : ∀ message events next events' r, Q message events (.ok next) → Q next events' r →
    Q message (events ++ events') r

mutual

/-- The induction over a list of steps and the branches in it. -/
theorem Sequential.executeSteps (hQ : Sequential env validate Q) (parent : List Nat)
    (baseIndex : Nat) : ∀ (offset : Nat) (steps : List StepDef) (message : PipelineMessage)
      (h : List Event),
      Q message ((executeSteps env validate parent baseIndex offset steps message).run h).1
        ((executeSteps env validate parent baseIndex offset steps message).run h).2
  | _, [], message, _ => hQ.nil message
  | offset, step :: rest, message, h => by
    have hstep := hQ.executeStep parent baseIndex offset step message h
    rw [Pipeline.executeSteps]
    rcases hrun : (Pipeline.executeStep env validate parent baseIndex offset step message).run h
      with ⟨events, e | next⟩
    · rw [hrun] at hstep
      rw [run_bind_error hrun]
      exact hstep
    · rw [hrun] at hstep
      rw [run_bind_ok hrun]
      exact hQ.append _ _ _ _ _ hstep (hQ.executeSteps parent baseIndex (offset + 1) rest next _)

theorem Sequential.executeStep (hQ : Sequential env validate Q) (parent : List Nat)
    (baseIndex offset : Nat) : ∀ (step : StepDef) (message : PipelineMessage) (h : List Event),
      Q message ((executeStep env validate parent baseIndex offset step message).run h).1
        ((executeStep env validate parent baseIndex offset step message).run h).2
  | ⟨plugin, action, onError, none⟩, message, h => by
    rw [Pipeline.executeStep]
    obtain ⟨cs, ls, r, hrun, heffect⟩ := @ends_executePlugin env _ message validate h
    rw [hrun]
    exact hQ.step _ _ _ _ _ heffect
  | ⟨_, _, _, some ⟨field, operator, value, thenSteps, elseSteps⟩⟩, message, h => by
    rw [Pipeline.executeStep]
    split
    · exact hQ.executeSteps _ _ 0 thenSteps message h
    · exact hQ.executeSteps _ _ 0 elseSteps message h

end

/-- What holds of the steps of a run. -/
theorem Sequential.stepsRun {workflow : WorkflowDef}
    (hQ : Sequential env workflow.validate Q) (initialMessage : PipelineMessage) :
    Q initialMessage (stepsRun env workflow initialMessage).1
      (stepsRun env workflow initialMessage).2 :=
  hQ.executeSteps [] 0 0 workflow.steps initialMessage []

end Sequences

/-! ## Runs -/

section WholeRuns

variable (env : ExecutorEnv) (workflow : WorkflowDef) (message : PipelineMessage)

/-- The message has passed the validation at the edges. -/
def PassesEdge : Prop :=
  workflow.validate = .none ∨ Valid message

theorem validateEdge_cases (stepIndex : Nat) (context : String) :
    (PassesEdge workflow message ∧ validateEdge env workflow message stepIndex context = .ok ()) ∨
    (¬Valid message ∧ ∃ details, validateEdge env workflow message stepIndex context =
      .error (.validationFailed stepIndex details)) := by
  rw [validateEdge]
  by_cases hnone : workflow.validate = .none
  · rw [if_pos hnone]
    exact .inl ⟨.inl hnone, rfl⟩
  · rw [if_neg hnone]
    rcases validateMessage_cases env message stepIndex context with ⟨hvalid, hok⟩ | hinvalid
    · exact .inl ⟨.inr hvalid, hok⟩
    · exact .inr hinvalid

/-- A run is refused at the entry or goes through its steps. -/
theorem runSteps_cases :
    (¬Valid message ∧ ∃ details, runSteps env workflow message =
      ⟨[], none, .error (.error (.validationFailed 0 details))⟩) ∨
    (PassesEdge workflow message ∧ runSteps env workflow message =
      finishRun env workflow (stepsRun env workflow message).1
        (stepsRun env workflow message).2) := by
  rcases validateEdge_cases env workflow message 0 "entry validation" with
    ⟨hpasses, hok⟩ | ⟨hinvalid, details, herror⟩
  · refine .inr ⟨hpasses, ?_⟩
    rw [runSteps, hok]
  · refine .inl ⟨hinvalid, details, ?_⟩
    rw [runSteps, herror]

variable {env workflow} {events : List Event}

@[simp] theorem finishRun_events (result : Except Exit PipelineMessage) :
    (finishRun env workflow events result).events = events := by
  rcases result with (_ | _) | _ <;> rfl

@[simp] theorem finishRun_result_error (exit : Exit) :
    (finishRun env workflow events (.error exit)).result = .error exit := by
  rcases exit with _ | _ <;> rfl

theorem finishRun_result_ok :
    (PassesEdge workflow message ∧
      (finishRun env workflow events (.ok message)).result = .ok message) ∨
    (¬Valid message ∧ ∃ details, (finishRun env workflow events (.ok message)).result =
      .error (.error (.validationFailed (workflow.steps.length - 1) details))) := by
  rcases validateEdge_cases env workflow message (workflow.steps.length - 1) "exit validation" with
    ⟨hpasses, hok⟩ | ⟨hinvalid, details, herror⟩
  · refine .inl ⟨hpasses, ?_⟩
    simp [finishRun, hok]
  · refine .inr ⟨hinvalid, details, ?_⟩
    simp [finishRun, herror]

end WholeRuns

/-! ## Where messages come from -/

/-- The payload is that of the first message, or an answer to one of the calls. -/
def Known (first : PipelineMessage) (cs : List PluginCall) (message : PipelineMessage) : Prop :=
  message.payload = first.payload ∨
    ∃ call ∈ cs, ∃ output, call.answer = .ok output ∧ message.payload = output.payload

/-- Each call gets a payload known before it, and so does whoever takes the result. -/
structure Traceable (first : PipelineMessage) (cs : List PluginCall)
    (r : Except Exit PipelineMessage) : Prop where
  inputs : ∀ before call after, cs = before ++ call :: after → Known first before call.input
  output : ∀ message, r = .ok message → Known first cs message

section Provenance

variable {first next message : PipelineMessage} {cs cs' : List PluginCall}
  {r : Except Exit PipelineMessage}

theorem Known.append (h : Known first cs next) (h' : Known next cs' message) :
    Known first (cs ++ cs') message := by
  rcases h' with hsame | ⟨call, hcall, hanswer⟩
  · rw [Known, hsame]
    rcases h with hsame | ⟨call, hcall, hanswer⟩
    · exact .inl hsame
    · exact .inr ⟨call, mem_append_left cs' hcall, hanswer⟩
  · exact .inr ⟨call, mem_append_right cs hcall, hanswer⟩

theorem Traceable.append (h : Traceable first cs (.ok next)) (h' : Traceable next cs' r) :
    Traceable first (cs ++ cs') r where
  inputs before call after hcs := by
    rcases append_eq_append_iff.mp hcs with ⟨rest, rfl, hrest⟩ | ⟨rest, rfl, hrest⟩
    · exact (h.output next rfl).append (h'.inputs rest call after hrest)
    · rcases rest with _ | ⟨_, rest⟩
      · rw [append_nil] at h
        rw [← append_nil before]
        exact (h.output next rfl).append (h'.inputs [] call after hrest.symm)
      · obtain ⟨rfl, -⟩ := cons.inj hrest
        exact h.inputs before call rest rfl
  output message hr := (h.output next rfl).append (h'.output message hr)

variable {env : ExecutorEnv} {validate : ValidationLevel} {site : Site} {ls : List StepLog}

theorem StepEffect.known (heffect : StepEffect env validate site first cs ls (.ok message)) :
    Known first cs message := by
  generalize hr : Except.ok message = r at heffect
  rcases heffect with _ | _ | _ | ⟨-, -, hlogs⟩ | ⟨-, houtput, hlogs⟩ | ⟨-, -, hend⟩
  · cases hr
    exact .inr ⟨_, mem_cons_self, _, rfl, rfl⟩
  · cases hr
  · cases hr
    exact .inl rfl
  · cases hlogs <;> cases hr
  · cases hlogs <;> cases hr
    exact .inl houtput
  · rcases hend with _ | _ | _ | ⟨-, -, -, hlogs⟩
    · cases hr
      exact .inr ⟨_, mem_cons_of_mem _ (mem_append_right _ mem_cons_self), _, rfl, rfl⟩
    · cases hr
    · cases hr
      exact .inr ⟨_, mem_cons_of_mem _ (mem_append_right _ mem_cons_self), _, rfl, rfl⟩
    · cases hlogs <;> cases hr

/-- What plugins are given and what a run returns was given to the run or answered by a plugin. -/
theorem traceable_runSteps (env : ExecutorEnv) (workflow : WorkflowDef) (first : PipelineMessage) :
    Traceable first (calls (runSteps env workflow first).events)
      (runSteps env workflow first).result := by
  have hsequential : Sequential env workflow.validate
      (fun message events r => Traceable message (calls events) r) := by
    refine ⟨fun message => ⟨by simp, ?_⟩, ?_, ?_⟩
    · rintro _ ⟨rfl⟩
      exact .inl rfl
    · intro site message cs ls r heffect
      simp only [calls_append, calls_map_called, calls_map_logged, append_nil]
      refine ⟨?_, fun output hr => (hr ▸ heffect).known⟩
      rintro before call after rfl
      have hcall : call ∈ before ++ call :: after := by simp
      exact .inl (by rw [(heffect.of_mem hcall).2])
    · intro message events next events' r h h'
      rw [calls_append]
      exact h.append h'
  have hsteps := hsequential.stepsRun first
  rcases runSteps_cases env workflow first with ⟨-, details, hrun⟩ | ⟨-, hrun⟩
  · rw [hrun]
    exact ⟨by simp, nofun⟩
  · rw [hrun, finishRun_events]
    refine ⟨hsteps.inputs, fun message hresult => hsteps.output message ?_⟩
    rcases hr : (stepsRun env workflow first).2 with exit | returned
    · rw [hr, finishRun_result_error] at hresult
      exact hresult
    · rw [hr] at hresult
      rcases finishRun_result_ok returned with ⟨-, hok⟩ | ⟨-, details, herror⟩
      · rw [← hok, hresult]
      · rw [herror] at hresult
        cases hresult

end Provenance

end LifeEngine.Pipeline
