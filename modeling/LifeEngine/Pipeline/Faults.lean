import LifeEngine.Pipeline.Effects

/-!
# Fatal errors

The first attempt of a step halts the run if its error is fatal.  The retry loop does not
look at the severity of the errors it gets, so a fatal error there ends the run only if
no attempt is left.
-/

namespace LifeEngine.Pipeline

open Support

/-- The call returned an error of fatal severity. -/
def PluginCall.Fatal (call : PluginCall) : Prop :=
  ∃ e, call.answer = .error e ∧ e.severity = .fatal

/-- After a fatal error no call is made, and the run fails. -/
def StopsAtFatal (run : Run) : Prop :=
  ∀ before call after, calls run.events = before ++ call :: after → call.Fatal →
    after = [] ∧ ∃ e, run.result = .error (.error e)

/-- No attempt or fallback may follow the call. -/
def PluginCall.Final (call : PluginCall) : Prop :=
  match call.kind with
  | .first | .fallback => True
  | .retry attempt _ => attempt = call.site.step.maxRetries ∧ call.site.step.fallback = none

/-- The calls after a fatal error, and the end of the steps. -/
structure FatalOutcome (env : ExecutorEnv) (call : PluginCall) (after : List PluginCall)
    (r : Except Exit PipelineMessage) : Prop where
  stops : call.Final → after = []
  halts : call.Final → (summarizeInput env call.input).isSome → ∃ e, r = .error (.error e)
  panics : call.Final → summarizeInput env call.input = none → r = .error .panic
  continues : ¬call.Final → after ≠ [] ∨ r = .error .panic

section Steps

variable {env : ExecutorEnv} {site : Site} {input : PipelineMessage}
  {before after cs rest : List PluginCall} {call : PluginCall} {r : Except Exit PipelineMessage}

theorem fatal_firstCall_iff {e : PluginError} :
    (firstCall site input (.error e)).Fatal ↔ e.severity = .fatal := by
  constructor
  · rintro ⟨e', heq, hfatal⟩
    injection heq with heq
    rwa [heq]
  · exact fun hfatal => ⟨e, rfl, hfatal⟩

theorem not_fatal_of_ok {output : PipelineMessage} (hanswer : call.answer = .ok output) :
    ¬call.Fatal := by
  rintro ⟨e, heq, -⟩
  rw [hanswer] at heq
  exact nomatch heq

/-- The step of the last call logs the failure, or panics. -/
theorem Logs.fatalOutcome {error : WorkflowError} {ls : List StepLog}
    (hlogs : Logs env site input .failed (.error (.error error)) ls r)
    (hinput : call.input = input) (hfinal : call.Final) : FatalOutcome env call [] r := by
  subst hinput
  rcases hlogs with ⟨-, hsome⟩ | ⟨hnone⟩
  · refine ⟨fun _ => rfl, fun _ _ => ⟨error, rfl⟩, fun _ hnone => ?_, fun h => absurd hfinal h⟩
    rw [hnone] at hsome
    exact nomatch hsome
  · refine ⟨fun _ => rfl, fun _ hsome => ?_, fun _ _ => rfl, fun h => absurd hfinal h⟩
    rw [hnone] at hsome
    exact nomatch hsome

theorem fatalOutcome_of_not_final (hfinal : ¬call.Final)
    (hcontinues : after ≠ [] ∨ r = .error .panic) : FatalOutcome env call after r :=
  ⟨fun h => absurd h hfinal, fun h => absurd h hfinal, fun h => absurd h hfinal,
    fun _ => hcontinues⟩

/-- A failed retry is final if it is the last and there is no fallback. -/
theorem FailedRetries.final_iff
    (hcs : FailedRetries site input env 1 (before ++ call :: after)) :
    call.Final ↔ 1 + before.length = site.step.maxRetries ∧ site.step.fallback = none := by
  obtain ⟨hsite, -, -, secs, -, hkind⟩ := hcs.kind_eq
  rw [PluginCall.Final, hkind, hsite]

theorem FailedRetries.not_final_of_lt
    (hcs : FailedRetries site input env 1 (before ++ call :: after))
    (hlength : (before ++ call :: after).length < site.step.maxRetries) : ¬call.Final := by
  intro hfinal
  have hlast := (hcs.final_iff.mp hfinal).1
  rw [List.length_append, List.length_cons] at hlength
  omega

/-- A fatal error among the retries. -/
theorem RetryEnd.fatalOutcome {ls : List StepLog}
    (hend : RetryEnd env site input (before ++ call :: after).length rest ls r)
    (hcs : FailedRetries site input env 1 (before ++ call :: after)) :
    FatalOutcome env call (after ++ rest) r := by
  rcases hend with ⟨hlength⟩ | ⟨hlength⟩ | ⟨hlength, hfallback⟩ | ⟨hlength, hrest, -, hlogs⟩
  · exact fatalOutcome_of_not_final (hcs.not_final_of_lt hlength) (.inl (by simp))
  · exact fatalOutcome_of_not_final (hcs.not_final_of_lt hlength) (.inr rfl)
  · refine fatalOutcome_of_not_final (fun hfinal => ?_) (.inl (by simp))
    rw [(hcs.final_iff.mp hfinal).2] at hfallback
    exact nomatch hfallback
  · rw [List.length_append, List.length_cons] at hlength
    rcases hrest with ⟨hfallback, rfl⟩ | ⟨fallback, e, hfallback, rfl⟩
    · -- without a fallback the last retry is final, and the others are not
      rw [List.append_nil]
      by_cases hafter : after = []
      · subst hafter
        have hfinal := hcs.final_iff.mpr ⟨by simpa [Nat.add_comm] using hlength, hfallback⟩
        exact hlogs.fatalOutcome hcs.kind_eq.2.1 hfinal
      · refine fatalOutcome_of_not_final (fun hfinal => hafter ?_) (.inl hafter)
        have hlast := (hcs.final_iff.mp hfinal).1
        exact List.eq_nil_of_length_eq_zero (by omega)
    · refine fatalOutcome_of_not_final (fun hfinal => ?_) (.inl (by simp))
      rw [(hcs.final_iff.mp hfinal).2] at hfallback
      exact nomatch hfallback

theorem RetryEnd.fatalOutcome_rest {failed : Nat} {ls : List StepLog}
    (hend : RetryEnd env site input failed (before ++ call :: after) ls r)
    (hfatal : call.Fatal) : FatalOutcome env call after r := by
  generalize hcs : before ++ call :: after = cs at hend
  rcases hend with _ | _ | _ | ⟨-, hrest, -, hlogs⟩
  · obtain ⟨-, rfl, -⟩ := singleton_eq_append_cons hcs.symm
    exact absurd hfatal (not_fatal_of_ok rfl)
  · simp at hcs
  · obtain ⟨-, rfl, -⟩ := singleton_eq_append_cons hcs.symm
    exact absurd hfatal (not_fatal_of_ok rfl)
  · rcases hrest with ⟨-, rfl⟩ | ⟨fallback, e, -, rfl⟩
    · simp at hcs
    · obtain ⟨-, rfl, rfl⟩ := singleton_eq_append_cons hcs.symm
      exact hlogs.fatalOutcome rfl trivial

theorem StepEffect.fatalOutcome {validate : ValidationLevel} {ls : List StepLog}
    (heffect : StepEffect env validate site input (before ++ call :: after) ls r)
    (hfatal : call.Fatal) : FatalOutcome env call after r := by
  generalize hcs : before ++ call :: after = cs at heffect
  rcases heffect with _ | _ | ⟨he⟩ | ⟨-, -, hlogs⟩ | ⟨he⟩ | ⟨he, hretries, hend⟩
  · obtain ⟨-, rfl, -⟩ := singleton_eq_append_cons hcs.symm
    exact absurd hfatal (not_fatal_of_ok rfl)
  · obtain ⟨-, rfl, -⟩ := singleton_eq_append_cons hcs.symm
    exact absurd hfatal (not_fatal_of_ok rfl)
  · obtain ⟨-, rfl, -⟩ := singleton_eq_append_cons hcs.symm
    rw [fatal_firstCall_iff, he] at hfatal
    exact nomatch hfatal
  · obtain ⟨-, rfl, rfl⟩ := singleton_eq_append_cons hcs.symm
    exact hlogs.fatalOutcome rfl trivial
  · obtain ⟨-, rfl, -⟩ := singleton_eq_append_cons hcs.symm
    rw [fatal_firstCall_iff, he] at hfatal
    exact nomatch hfatal
  · rcases cons_append_eq_append_cons hcs.symm with
      ⟨-, rfl, -⟩ | ⟨front, rest, -, rfl, rfl⟩ | ⟨front, -, rfl⟩
    · rw [fatal_firstCall_iff, he] at hfatal
      exact nomatch hfatal
    · exact hend.fatalOutcome hretries
    · exact hend.fatalOutcome_rest hfatal

end Steps

/-! ## Runs -/

/-- Every fatal error in a trace has its outcome. -/
theorem sequential_fatal (env : ExecutorEnv) (validate : ValidationLevel) :
    Sequential env validate fun _ events r =>
      ∀ before call after, calls events = before ++ call :: after → call.Fatal →
        FatalOutcome env call after r where
  nil _ before call after hsplit := by simp at hsplit
  step site input cs ls r heffect before call after hsplit hfatal := by
    simp only [calls_append, calls_map_called, calls_map_logged, List.append_nil] at hsplit
    subst hsplit
    exact heffect.fatalOutcome hfatal
  append input events next events' r hfirst hsecond before call after hsplit hfatal := by
    rw [calls_append] at hsplit
    rcases append_eq_append_cons hsplit with ⟨rest, hcalls, rfl⟩ | ⟨rest, -, hcalls⟩
    · -- the steps go on after the call, so it is not final
      have houtcome := hfirst _ _ _ hcalls hfatal
      have hfinal : ¬call.Final := by
        intro hfinal
        rcases hsummary : summarizeInput env call.input with _ | summary
        · exact nomatch houtcome.panics hfinal hsummary
        · obtain ⟨e, he⟩ := houtcome.halts hfinal (by rw [hsummary]; rfl)
          exact nomatch he
      refine fatalOutcome_of_not_final hfinal (.inl ?_)
      rcases houtcome.continues hfinal with hrest | hpanic
      · simp [hrest]
      · exact nomatch hpanic
    · exact hsecond _ _ _ hcalls hfatal

/-- A run stops at fatal errors exactly if each is final, and the summary that is then logged is not
cut inside a character. -/
theorem stopsAtFatal_iff (env : ExecutorEnv) (workflow : WorkflowDef)
    (initialMessage : PipelineMessage) :
    StopsAtFatal (runSteps env workflow initialMessage) ↔
      ∀ call ∈ calls (runSteps env workflow initialMessage).events, call.Fatal →
        call.Final ∧ (summarizeInput env call.input).isSome := by
  rcases runSteps_cases env workflow initialMessage with ⟨-, details, hrun⟩ | ⟨-, hrun⟩
  · simp [StopsAtFatal, hrun]
  · have houtcome := (sequential_fatal env workflow.validate).stepsRun initialMessage
    rw [StopsAtFatal, hrun]
    simp only [finishRun_events]
    generalize stepsRun env workflow initialMessage = steps at houtcome
    obtain ⟨events, r⟩ := steps
    constructor
    · intro hstops call hcall hfatal
      obtain ⟨before, after, hsplit⟩ := List.append_of_mem hcall
      obtain ⟨rfl, e, he⟩ := hstops before call after hsplit hfatal
      have hcall := houtcome before call [] hsplit hfatal
      have hpanic : r ≠ .error .panic := by
        rintro rfl
        exact nomatch he
      have hfinal : call.Final := by
        by_contra hfinal
        rcases hcall.continues hfinal with hnil | hr
        · exact hnil rfl
        · exact hpanic hr
      refine ⟨hfinal, ?_⟩
      rw [Option.isSome_iff_ne_none]
      exact fun hnone => hpanic (hcall.panics hfinal hnone)
    · intro hall before call after hsplit hfatal
      have hcall := houtcome before call after hsplit hfatal
      obtain ⟨hfinal, hsome⟩ := hall call (by rw [hsplit]; simp) hfatal
      obtain ⟨e, rfl⟩ := hcall.halts hfinal hsome
      exact ⟨hcall.stops hfinal, e, finishRun_result_error _⟩

/-- A retry that fails fatally, with two attempts left. -/
theorem not_stopsAtFatal_second_retry :
    ¬StopsAtFatal (runSteps
      (scripted [.error ⟨"busy", "E1", .retryable⟩, .error ⟨"key revoked", "E2", .fatal⟩])
      (manualWorkflow .edges [pluginStep "mail" "fetch" (some ⟨.retry, some 3, none⟩)])
      (customMessage (.obj []))) := by
  intro hstops
  have hafter := (hstops [_] _ [_] rfl ⟨_, rfl, rfl⟩).1
  exact nomatch hafter

end LifeEngine.Pipeline
