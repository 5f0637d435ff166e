import LifeEngine.Pipeline.Effects

/-!
# Strict validation

Under strict validation the output of a first attempt is validated before the next step.
The outputs of retries and of fallbacks are not: only the validation at the exit finds
them, if no call comes in between.
-/

namespace LifeEngine.Pipeline

open Support

/-- The message does not pass `validate_message`. -/
def PluginCall.Invalid (call : PluginCall) : Prop :=
  ∃ output, call.answer = .ok output ∧ ¬Valid output

def Rejected (r : Except Exit PipelineMessage) : Prop :=
  ∃ index details, r = .error (.error (.validationFailed index details))

/-- No message that fails validation is handed on or returned. -/
structure StrictlyValidated (run : Run) : Prop where
  inputs : ∀ before call after, calls run.events = before ++ call :: after → before ≠ [] →
    Valid call.input
  returned : ∀ message, run.result = .ok message → Valid message
  rejects : ∀ before call after, calls run.events = before ++ call :: after → call.Invalid →
    after = [] ∧ Rejected run.result

/-- No call follows an invalid output of a retry or fallback. -/
def UncheckedLast (cs : List PluginCall) : Prop :=
  ∀ before call after, cs = before ++ call :: after → call.kind ≠ .first → call.Invalid →
    after = []

/-- From a valid message on, an invalid output is the last one, and is rejected or returned. -/
structure ValidatedSteps (cs : List PluginCall) (r : Except Exit PipelineMessage) : Prop where
  inputs : ∀ call ∈ cs, Valid call.input
  invalid : ∀ before call after, cs = before ++ call :: after → call.Invalid →
    after = [] ∧ (Rejected r ∨ ∃ message, r = .ok message ∧ ¬Valid message)
  returned : ∀ message, r = .ok message → ¬Valid message →
    ∃ before call, cs = before ++ [call] ∧ call.kind ≠ .first ∧ call.Invalid

section Steps

variable {env : ExecutorEnv} {site : Site} {input : PipelineMessage}
  {before after cs : List PluginCall} {ls : List StepLog} {call : PluginCall}
  {r : Except Exit PipelineMessage}

theorem not_invalid_of_error {e : PluginError} (hanswer : call.answer = .error e) :
    ¬call.Invalid := by
  rintro ⟨output, hok, -⟩
  rw [hanswer] at hok
  exact nomatch hok

instance (call : PluginCall) : Decidable call.Invalid :=
  match hanswer : call.answer with
  | .ok output => decidable_of_iff (¬Valid output) (by simp [PluginCall.Invalid, hanswer])
  | .error _ => isFalse (not_invalid_of_error hanswer)

/-- The step returns the output of its last call. -/
theorem RetryEnd.returned {failed : Nat} (hend : RetryEnd env site input failed cs ls r) :
    (∃ call output, cs = [call] ∧ call.answer = .ok output ∧ r = .ok output) ∨
      ((∀ call ∈ cs, ∃ e, call.answer = .error e) ∧ ∃ exit, r = .error exit) := by
  rcases hend with _ | _ | _ | ⟨-, hrest, -, hlogs⟩
  · exact .inl ⟨_, _, rfl, rfl, rfl⟩
  · exact .inr ⟨List.forall_mem_nil _, _, rfl⟩
  · exact .inl ⟨_, _, rfl, rfl, rfl⟩
  · refine .inr ⟨fun call hcall => (hrest.of_mem hcall).2.2.2, ?_⟩
    rcases hlogs with _ | _ <;> exact ⟨_, rfl⟩

theorem StepEffect.validatedSteps (heffect : StepEffect env .strict site input cs ls r)
    (hinput : Valid input) : ValidatedSteps cs r where
  inputs call hcall := by
    rw [(heffect.of_mem hcall).2]
    exact hinput
  invalid before call after hcs hinvalid := by
    rcases heffect with ⟨-, hvalid⟩ | _ | _ | _ | _ | ⟨-, hfailed, hend⟩
    · obtain ⟨-, rfl, -⟩ := singleton_eq_append_cons hcs
      obtain ⟨output, heq, hnot⟩ := hinvalid
      injection heq with heq
      rw [← heq] at hnot
      exact absurd (hvalid rfl) hnot
    · obtain ⟨-, -, rfl⟩ := singleton_eq_append_cons hcs
      exact ⟨rfl, .inl ⟨_, _, rfl⟩⟩
    · obtain ⟨-, rfl, -⟩ := singleton_eq_append_cons hcs
      exact absurd hinvalid (not_invalid_of_error rfl)
    · obtain ⟨-, rfl, -⟩ := singleton_eq_append_cons hcs
      exact absurd hinvalid (not_invalid_of_error rfl)
    · obtain ⟨-, rfl, -⟩ := singleton_eq_append_cons hcs
      exact absurd hinvalid (not_invalid_of_error rfl)
    · rcases cons_append_eq_append_cons hcs with
        ⟨-, rfl, -⟩ | ⟨front, rest, -, rfl, -⟩ | ⟨front, -, rfl⟩
      · exact absurd hinvalid (not_invalid_of_error rfl)
      · obtain ⟨-, -, -, e, he⟩ := hfailed.of_mem (List.mem_append_right _ List.mem_cons_self)
        exact absurd hinvalid (not_invalid_of_error he)
      · rcases hend.returned with ⟨last, output, hlast, hanswer, rfl⟩ | ⟨herrors, -⟩
        · obtain ⟨-, rfl, rfl⟩ := singleton_eq_append_cons hlast.symm
          obtain ⟨output', heq, hnot⟩ := hinvalid
          rw [hanswer] at heq
          injection heq with heq
          exact ⟨rfl, .inr ⟨output, rfl, by rwa [heq]⟩⟩
        · obtain ⟨e, he⟩ := herrors call (List.mem_append_right _ List.mem_cons_self)
          exact absurd hinvalid (not_invalid_of_error he)
  returned message hr hnot := by
    rcases heffect with ⟨-, hvalid⟩ | _ | _ | ⟨-, -, hlogs⟩ | ⟨-, hpayload, hlogs⟩ |
      ⟨-, hfailed, hend⟩
    · injection hr with hr
      rw [← hr] at hnot
      exact absurd (hvalid rfl) hnot
    · exact nomatch hr
    · injection hr with hr
      rw [← hr] at hnot
      exact absurd hinput hnot
    · rcases hlogs with _ | _ <;> exact nomatch hr
    · rcases hlogs with _ | _
      · injection hr with hr
        rw [← hr] at hnot
        exact absurd (by rwa [Valid, hpayload]) hnot
      · exact nomatch hr
    · rcases hend.returned with ⟨last, output, rfl, hanswer, rfl⟩ | ⟨-, exit, rfl⟩
      · injection hr with hr
        refine ⟨_ :: _, last, rfl, ?_, output, hanswer, by rwa [hr]⟩
        exact (hend.of_mem (List.mem_singleton_self last)).2.2
      · exact nomatch hr

end Steps

/-! ## Runs -/

section Runs

variable {cs cs' : List PluginCall} {r : Except Exit PipelineMessage} {next : PipelineMessage}

theorem uncheckedLast_of_forall (h : ∀ call ∈ cs, ¬call.Invalid) : UncheckedLast cs := by
  intro before call after hcs _ hinvalid
  exact absurd hinvalid (h call (by simp [hcs]))

theorem UncheckedLast.left (h : UncheckedLast (cs ++ cs')) : UncheckedLast cs := by
  intro before call after hcs hkind hinvalid
  have hafter := h before call (after ++ cs') (by simp [hcs]) hkind hinvalid
  exact (List.append_eq_nil_iff.mp hafter).1

theorem UncheckedLast.right (h : UncheckedLast (cs ++ cs')) : UncheckedLast cs' := by
  intro before call after hcs hkind hinvalid
  exact h (cs ++ before) call after (by simp [hcs]) hkind hinvalid

/-- Steps that go on after a valid message. -/
theorem ValidatedSteps.append (hfirst : ValidatedSteps cs (.ok next)) (hnext : Valid next)
    (hsecond : ValidatedSteps cs' r) : ValidatedSteps (cs ++ cs') r where
  inputs call hcall := by
    rcases List.mem_append.mp hcall with hcall | hcall
    · exact hfirst.inputs call hcall
    · exact hsecond.inputs call hcall
  invalid before call after hcs hinvalid := by
    rcases append_eq_append_cons hcs with ⟨rest, hcs, -⟩ | ⟨rest, -, hcs'⟩
    · rcases (hfirst.invalid _ _ _ hcs hinvalid).2 with ⟨_, _, hr⟩ | ⟨message, hr, hnot⟩
      · exact nomatch hr
      · injection hr with hr
        rw [← hr] at hnot
        exact absurd hnext hnot
    · exact hsecond.invalid _ _ _ hcs' hinvalid
  returned message hr hnot := by
    obtain ⟨before, call, rfl, hcall⟩ := hsecond.returned message hr hnot
    exact ⟨cs ++ before, call, by simp, hcall⟩

theorem sequential_validated (env : ExecutorEnv) :
    Sequential env .strict fun input events r =>
      (calls events = [] → r = .ok input) ∧
        (Valid input → UncheckedLast (calls events) → ValidatedSteps (calls events) r) where
  nil input := by
    refine ⟨fun _ => rfl, fun hinput _ => ⟨List.forall_mem_nil _, ?_, ?_⟩⟩
    · intro before call after hcs
      simp at hcs
    · intro message hr hnot
      injection hr with hr
      rw [← hr] at hnot
      exact absurd hinput hnot
  step site input cs ls r heffect := by
    simp only [calls_append, calls_map_called, calls_map_logged, List.append_nil]
    refine ⟨fun hnil => ?_, fun hinput _ => heffect.validatedSteps hinput⟩
    obtain ⟨answer, rest, rfl, -⟩ := heffect.eq_cons
    exact nomatch hnil
  append input events next events' r hfirst hsecond := by
    rw [calls_append]
    refine ⟨fun hnil => ?_, fun hinput hlast => ?_⟩
    · obtain ⟨hnil, hnil'⟩ := List.append_eq_nil_iff.mp hnil
      have hnext := hfirst.1 hnil
      rw [hsecond.1 hnil', hnext]
    · have hsteps := hfirst.2 hinput hlast.left
      by_cases hnext : Valid next
      · exact hsteps.append hnext (hsecond.2 hnext hlast.right)
      · -- the invalid message came from the last call, so the steps that follow make none
        obtain ⟨before, call, hcalls, hkind, hinvalid⟩ := hsteps.returned next rfl hnext
        have hnil : calls events' = [] := by
          refine hlast before call (calls events') ?_ hkind hinvalid
          rw [hcalls, List.append_assoc, List.singleton_append]
        rw [hnil, List.append_nil, hsecond.1 hnil]
        exact hsteps

theorem PassesEdge.valid {workflow : WorkflowDef} {message : PipelineMessage}
    (hpasses : PassesEdge workflow message) (hstrict : workflow.validate = .strict) :
    Valid message := by
  refine hpasses.resolve_left fun hnone => ?_
  rw [hstrict] at hnone
  exact nomatch hnone

/-- An invalid message that the steps return is rejected at the exit. -/
theorem ValidatedSteps.finishRun {env : ExecutorEnv} {workflow : WorkflowDef}
    {events : List Event} (hstrict : workflow.validate = .strict)
    (hsteps : ValidatedSteps (calls events) r) :
    StrictlyValidated (finishRun env workflow events r) where
  inputs before call after hcs _ := by
    rw [finishRun_events] at hcs
    exact hsteps.inputs call (by simp [hcs])
  returned message hresult := by
    rcases r with exit | last
    · rw [finishRun_result_error] at hresult
      exact nomatch hresult
    · rcases finishRun_result_ok last with ⟨hpasses, hok⟩ | ⟨-, details, herror⟩
      · rw [hok] at hresult
        injection hresult with hresult
        rw [← hresult]
        exact hpasses.valid hstrict
      · rw [herror] at hresult
        exact nomatch hresult
  rejects before call after hcs hinvalid := by
    rw [finishRun_events] at hcs
    obtain ⟨hafter, hr⟩ := hsteps.invalid _ _ _ hcs hinvalid
    refine ⟨hafter, ?_⟩
    rcases hr with ⟨index, details, rfl⟩ | ⟨last, rfl, hnot⟩
    · exact ⟨index, details, finishRun_result_error _⟩
    · rcases finishRun_result_ok last with ⟨hpasses, -⟩ | ⟨-, details, herror⟩
      · exact absurd (hpasses.valid hstrict) hnot
      · exact ⟨_, details, herror⟩

/-- Strict validation holds exactly if no call follows an invalid output of a retry or of a
fallback. -/
theorem strictlyValidated_iff (env : ExecutorEnv) (workflow : WorkflowDef)
    (initialMessage : PipelineMessage) (hstrict : workflow.validate = .strict) :
    StrictlyValidated (runSteps env workflow initialMessage) ↔
      UncheckedLast (calls (runSteps env workflow initialMessage).events) := by
  refine ⟨fun h before call after hcs _ hinvalid => (h.rejects _ _ _ hcs hinvalid).1, ?_⟩
  intro hlast
  rcases runSteps_cases env workflow initialMessage with ⟨-, details, hrun⟩ | ⟨hentry, hrun⟩
  · rw [hrun]
    refine ⟨fun before call after hcs => ?_, fun message hr => ?_, fun before call after hcs => ?_⟩
    · simp at hcs
    · exact nomatch hr
    · simp at hcs
  · have hinput : Valid initialMessage := hentry.valid hstrict
    have hsteps := Sequential.stepsRun (hstrict ▸ sequential_validated env) initialMessage
    rw [hrun, finishRun_events] at hlast
    rw [hrun]
    exact (hsteps.2 hinput hlast).finishRun hstrict

/-- A retry that returns an object, before another step. -/
theorem strictlyValidated_retried_object :
    StrictlyValidated (runSteps
      (scripted [.error ⟨"busy", "E1", .retryable⟩, .ok (customMessage (.obj []))])
      (manualWorkflow .strict [pluginStep "mail" "fetch" none, pluginStep "notes" "save" none])
      (customMessage (.obj []))) :=
  (strictlyValidated_iff _ _ _ rfl).mpr (uncheckedLast_of_forall (by decide))

/-- The retry returns a string, and the next step gets it. -/
theorem not_strictlyValidated_retried_string :
    ¬StrictlyValidated (runSteps
      (scripted [.error ⟨"busy", "E1", .retryable⟩, .ok (customMessage (.str "inbox"))])
      (manualWorkflow .strict [pluginStep "mail" "fetch" none, pluginStep "notes" "save" none])
      (customMessage (.obj []))) := by
  intro hvalidated
  have hafter := (hvalidated.rejects [_] _ [_] rfl ⟨_, rfl, fun ⟨_, h⟩ => nomatch h⟩).1
  exact nomatch hafter

end Runs

end LifeEngine.Pipeline
