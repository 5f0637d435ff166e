import LifeEngine.Pipeline.Steering

/-!
# Step indices

Steps at the top level are numbered by their position, and the steps of a branch from a
hundred times the position of its condition.  The numbers of two steps may meet: after a
condition at the first position, or when a list has more than a hundred steps.  Where they
do, there is a run that logs both.
-/

namespace LifeEngine.Pipeline

open Support List

/-! ## Where steps stand -/

def Event.site : Event → Site
  | .called call => call.site
  | .logged site _ => site

/-- The path and index of a plugin step, given the branches taken. -/
inductive Placed (steps : List StepDef) (taken : Nat → Bool) : List Nat → Nat → Prop where
  | top {i : Nat} {step : StepDef} (hstep : steps[i]? = some step)
      (hplugin : step.condition = none) : Placed steps taken [i] i
  | branch {c k : Nat} {step : StepDef} {condition : ConditionDef} (hstep : steps[c]? = some step)
      (hcondition : step.condition = some condition)
      (hselected : ∃ message, condition.selected message = taken c)
      (hk : k < (condition.branch (taken c)).length) :
      Placed steps taken [c, branchNumber (taken c), k] (c * 100 + k)

/-- A step in a branch that some message selects. -/
structure BranchStep (steps : List StepDef) (c : Nat) (matched : Bool) (k : Nat) : Prop where
  exists_condition : ∃ step condition, steps[c]? = some step ∧ step.condition = some condition ∧
    (∃ message, condition.selected message = matched) ∧ k < (condition.branch matched).length

/-- Indices of steps in branches meet neither those of plugin steps nor each other. -/
structure Separated (steps : List StepDef) : Prop where
  plugins : ∀ c matched k, BranchStep steps c matched k → ∀ i step, steps[i]? = some step →
    step.condition = none → c * 100 + k ≠ i
  branches : ∀ c matched k, BranchStep steps c matched k → ∀ d matched' l,
    BranchStep steps d matched' l → c < d → c * 100 + k ≠ d * 100 + l

variable {steps : List StepDef}

/-- How many indices the branches at a position may use. -/
def branchWidth (steps : List StepDef) (c : Nat) : Nat :=
  match steps[c]? with
  | some ⟨_, _, _, some condition⟩ => max condition.thenSteps.length condition.elseSteps.length
  | _ => 0

theorem BranchStep.lt_branchWidth {c k : Nat} {matched : Bool}
    (h : BranchStep steps c matched k) : c < steps.length ∧ k < branchWidth steps c := by
  obtain ⟨⟨plugin, action, onError, _⟩, condition, hstep, rfl, -, hk⟩ := h.exists_condition
  refine ⟨(List.getElem?_eq_some_iff.mp hstep).1, ?_⟩
  rw [branchWidth, hstep]
  refine Nat.lt_of_lt_of_le hk ?_
  rcases matched with _ | _
  · exact Nat.le_max_right _ _
  · exact Nat.le_max_left _ _

/-- Lists of at most a hundred steps are separated, if the first has at most one step in each
branch. -/
theorem separated_of_le (hlength : steps.length ≤ 100)
    (hwidth : ∀ c < steps.length, branchWidth steps c ≤ 100) (hfirst : branchWidth steps 0 ≤ 1) :
    Separated steps := by
  constructor
  · rintro c matched k h i step hstep hplugin rfl
    have hi := (List.getElem?_eq_some_iff.mp hstep).1
    obtain ⟨-, hk⟩ := h.lt_branchWidth
    obtain rfl : c = 0 := by omega
    obtain rfl : k = 0 := by omega
    obtain ⟨step', condition, hstep', hcondition, -⟩ := h.exists_condition
    obtain rfl := Option.some.inj (hstep'.symm.trans hstep)
    exact nomatch hcondition.symm.trans hplugin
  · intro c matched k h d matched' l h' hlt
    obtain ⟨hc, hk⟩ := h.lt_branchWidth
    have hle := hwidth c hc
    omega

/-- Separated steps have one path for each index. -/
theorem Placed.path_eq {taken : Nat → Bool} {path path' : List Nat} {index : Nat}
    (hseparated : Separated steps) (h : Placed steps taken path index)
    (h' : Placed steps taken path' index) : path = path' := by
  generalize hindex : index = index' at h'
  rcases h with
    @⟨i, step, hstep, hplugin⟩ | @⟨c, k, step, condition, hstep, hcondition, hsel, hk⟩ <;>
    rcases h' with
      @⟨j, step', hstep', hplugin'⟩ | @⟨d, l, step', condition', hstep', hcondition', hsel', hl⟩
  · rw [hindex]
  · have hbranch : BranchStep steps d (taken d) l :=
      ⟨step', condition', hstep', hcondition', hsel', hl⟩
    exact absurd hindex.symm (hseparated.plugins d _ l hbranch _ step hstep hplugin)
  · have hbranch : BranchStep steps c (taken c) k := ⟨step, condition, hstep, hcondition, hsel, hk⟩
    exact absurd hindex (hseparated.plugins c _ k hbranch _ step' hstep' hplugin')
  · have hbranch : BranchStep steps c (taken c) k := ⟨step, condition, hstep, hcondition, hsel, hk⟩
    have hbranch' : BranchStep steps d (taken d) l :=
      ⟨step', condition', hstep', hcondition', hsel', hl⟩
    rcases Nat.lt_trichotomy c d with hlt | rfl | hlt
    · exact absurd hindex (hseparated.branches c _ k hbranch d _ l hbranch' hlt)
    · obtain rfl : k = l := by omega
      rfl
    · exact absurd hindex.symm (hseparated.branches d _ l hbranch' c _ k hbranch hlt)

/-! ## The places of a run -/

section Places

variable {env : ExecutorEnv} {validate : ValidationLevel}

theorem site_of_mem_executePlugin {site : Site} {input : PipelineMessage} {h : List Event}
    {event : Event} (hevent : event ∈ ((executePlugin env validate site input).run h).1) :
    event.site = site := by
  obtain ⟨cs, ls, r, hrun, heffect⟩ := @ends_executePlugin env site input validate h
  rw [hrun] at hevent
  rcases mem_append.mp hevent with hevent | hevent
  · obtain ⟨call, hcall, rfl⟩ := mem_map.mp hevent
    exact (heffect.of_mem hcall).1
  · obtain ⟨entry, -, rfl⟩ := mem_map.mp hevent
    rfl

theorem mem_run_bind {α β : Type} {x : Execution α} {f : α → Execution β} {h : List Event}
    {event : Event} (hevent : event ∈ ((x >>= f).run h).1) :
    event ∈ (x.run h).1 ∨ ∃ a, (x.run h).2 = .ok a ∧ event ∈ ((f a).run (h ++ (x.run h).1)).1 := by
  rcases hrun : x.run h with ⟨events, e | a⟩
  · rw [Traced.run_bind_error hrun] at hevent
    exact .inl hevent
  · rw [Traced.run_bind_ok hrun] at hevent
    exact (mem_append.mp hevent).imp_right fun hevent => ⟨a, rfl, hevent⟩

/-- The steps of a branch are numbered one after the other. -/
theorem flat_executeSteps {steps : List StepDef} (hflat : Flat steps) (parent : List Nat)
    (baseIndex offset : Nat) (message : PipelineMessage) (h : List Event) :
    ∀ event ∈ ((executeSteps env validate parent baseIndex offset steps message).run h).1,
      ∃ k < steps.length, event.site.path = parent ++ [offset + k] ∧
        event.site.index = baseIndex + (offset + k) := by
  induction steps generalizing offset message h with
  | nil =>
    intro event hevent
    exact nomatch hevent
  | cons step rest ih =>
    intro event hevent
    rcases mem_run_bind hevent with hevent | ⟨next, -, hevent⟩
    · obtain ⟨plugin, action, onError, condition⟩ := step
      obtain rfl : condition = none := hflat _ mem_cons_self
      rw [site_of_mem_executePlugin hevent]
      exact ⟨0, by simp, rfl, rfl⟩
    · obtain ⟨k, hk, hpath, hindex⟩ := ih (fun s hs => hflat s (mem_cons_of_mem _ hs))
        (offset + 1) next _ event hevent
      refine ⟨k + 1, by simpa using hk, ?_, ?_⟩
      · rw [hpath, Nat.add_right_comm, Nat.add_assoc]
      · rw [hindex, Nat.add_right_comm, Nat.add_assoc offset]

variable (env validate)

theorem placed_executeStep {steps : List StepDef} {step : StepDef} {offset : Nat}
    (hflat : BranchesFlat steps) (hstep : steps[offset]? = some step)
    (message : PipelineMessage) (h : List Event) :
    ∃ matched, ∀ taken : Nat → Bool, taken offset = matched →
      ∀ event ∈ ((executeStep env validate [] 0 offset step message).run h).1,
        Placed steps taken event.site.path event.site.index := by
  have hmem := mem_of_getElem? hstep
  obtain ⟨plugin, action, onError, _ | condition⟩ := step
  · refine ⟨true, fun taken _ event hevent => ?_⟩
    rw [site_of_mem_executePlugin hevent, Nat.zero_add]
    exact .top hstep rfl
  · refine ⟨condition.selected message, fun taken htaken event hevent => ?_⟩
    rw [executeStep_condition] at hevent
    obtain ⟨k, hk, hpath, hindex⟩ := flat_executeSteps
      (ConditionDef.flat_branch (hflat _ hmem condition rfl) _) _ _ _ _ _ event hevent
    rw [hpath, hindex, Nat.zero_add, Nat.zero_add]
    rw [← htaken] at hk ⊢
    exact .branch hstep rfl ⟨message, htaken.symm⟩ hk

theorem placed_executeSteps {front rest : List StepDef} (hflat : BranchesFlat (front ++ rest))
    (message : PipelineMessage) (h : List Event) (taken : Nat → Bool) :
    ∃ taken' : Nat → Bool, (∀ c < front.length, taken' c = taken c) ∧
      ∀ event ∈ ((executeSteps env validate [] 0 front.length rest message).run h).1,
        Placed (front ++ rest) taken' event.site.path event.site.index := by
  induction rest generalizing front message h taken with
  | nil =>
    refine ⟨taken, fun _ _ => rfl, fun event hevent => ?_⟩
    exact nomatch hevent
  | cons step rest ih =>
    have hget : (front ++ step :: rest)[front.length]? = some step := by simp
    obtain ⟨matched, hplaced⟩ := placed_executeStep env validate hflat hget message h
    rw [executeSteps]
    rcases hrun : (executeStep env validate [] 0 front.length step message).run h with
      ⟨events, e | next⟩
    · rw [hrun] at hplaced
      rw [Traced.run_bind_error hrun]
      refine ⟨Function.update taken front.length matched, fun c hc => ?_, ?_⟩
      · exact Function.update_of_ne (Nat.ne_of_lt hc) _ _
      · exact hplaced _ (Function.update_self _ _ _)
    · -- the branch taken here is fixed before the steps that follow
      rw [hrun] at hplaced
      rw [Traced.run_bind_ok hrun]
      rw [append_cons] at hflat
      obtain ⟨taken', hbefore, hrest⟩ := ih hflat next (h ++ events)
        (Function.update taken front.length matched)
      rw [← append_cons, length_append] at hrest
      rw [length_append] at hbefore
      have hhere : taken' front.length = matched := by
        rw [hbefore _ (Nat.lt_succ_self _), Function.update_self]
      refine ⟨taken', fun c hc => ?_, fun event hevent => ?_⟩
      · rw [hbefore c (by omega), Function.update_of_ne (Nat.ne_of_lt hc)]
      · rcases mem_append.mp hevent with hevent | hevent
        · exact hplaced taken' hhere event hevent
        · exact hrest event hevent

end Places

/-! ## Runs -/

/-- Entries with one index are about one step.  An error has the index of the step called last, or
at the exit that of the last position, and no entry about another step has it; a condition at the
last position has no entry. -/
structure IndicesIdentify (steps : List StepDef) (run : Run) : Prop where
  entries : ∀ a ∈ entries run.events, ∀ b ∈ entries run.events,
    a.2.index = b.2.index → a.1.path = b.1.path
  stepErrors : ∀ log e index, run.log = some log → log.status = .failed →
    run.result = .error (.error e) → e.stepIndex = some index →
    ∃ before call, calls run.events = before ++ [call] ∧ call.site.index = index ∧
      ∀ a ∈ Pipeline.entries run.events, a.2.index = index → a.1.path = call.site.path
  exitErrors : ∀ log e index, run.log = some log → log.status ≠ .failed →
    run.result = .error (.error e) → e.stepIndex = some index →
    index + 1 = steps.length ∧ ∀ step, steps[index]? = some step → step.condition = none →
      ∀ a ∈ Pipeline.entries run.events, a.2.index = index → a.1.path = [index]

section Runs

variable {env : ExecutorEnv} {validate : ValidationLevel} {site : Site} {input : PipelineMessage}
  {cs : List PluginCall} {ls : List StepLog} {r : Except Exit PipelineMessage}

theorem Logs.index_eq {status : StepStatus} {result : Except Exit PipelineMessage}
    (hlogs : Logs env site input status result ls r) : ∀ entry ∈ ls, entry.index = site.index := by
  rcases hlogs with ⟨hentry, -⟩ | -
  · rw [forall_mem_singleton]
    exact hentry.index
  · exact forall_mem_nil _

theorem StepEffect.index_eq (heffect : StepEffect env validate site input cs ls r) :
    ∀ entry ∈ ls, entry.index = site.index := by
  rcases heffect with ⟨hentry, -⟩ | ⟨hentry, -⟩ | - | ⟨-, -, hlogs⟩ | ⟨-, -, hlogs⟩ | ⟨-, -, hend⟩
  · rw [forall_mem_singleton]
    exact hentry.index
  · rw [forall_mem_singleton]
    exact hentry.index
  · exact forall_mem_nil _
  · exact hlogs.index_eq
  · exact hlogs.index_eq
  · rcases hend with ⟨-, hentry⟩ | - | - | ⟨-, -, -, hlogs⟩
    · rw [forall_mem_singleton]
      exact hentry.index
    · exact forall_mem_nil _
    · exact forall_mem_nil _
    · exact hlogs.index_eq

theorem Logs.stepIndex_eq {status : StepStatus} {error e : WorkflowError}
    (hlogs : Logs env site input status (.error (.error error)) ls r)
    (herror : error.stepIndex = some site.index) (hr : r = .error (.error e)) :
    e.stepIndex = some site.index := by
  rcases hlogs with _ | _
  · rw [Except.error.injEq, Exit.error.injEq] at hr
    rw [← hr]
    exact herror
  · exact nomatch hr

theorem StepEffect.stepIndex_eq (heffect : StepEffect env validate site input cs ls r)
    {e : WorkflowError} (hr : r = .error (.error e)) : e.stepIndex = some site.index := by
  rcases heffect with - | - | - | ⟨-, herror, hlogs⟩ | ⟨-, -, hlogs⟩ | ⟨-, -, hend⟩
  · exact nomatch hr
  · rw [Except.error.injEq, Exit.error.injEq] at hr
    rw [← hr]
    rfl
  · exact nomatch hr
  · exact hlogs.stepIndex_eq herror hr
  · rcases hlogs with - | - <;> exact nomatch hr
  · rcases hend with - | - | - | ⟨-, -, herror, hlogs⟩
    · exact nomatch hr
    · exact nomatch hr
    · exact nomatch hr
    · exact hlogs.stepIndex_eq herror hr

theorem sequential_index_eq (env : ExecutorEnv) (validate : ValidationLevel) :
    Sequential env validate fun _ events _ =>
      ∀ entry ∈ entries events, entry.2.index = entry.1.index where
  nil _ := forall_mem_nil _
  step site input cs ls r heffect := by
    simpa using heffect.index_eq
  append _ _ _ _ _ hfirst hsecond := by
    rw [entries_append, forall_mem_append]
    exact ⟨hfirst, hsecond⟩

theorem sequential_stepIndex (env : ExecutorEnv) (validate : ValidationLevel) :
    Sequential env validate fun _ events r => ∀ e, r = .error (.error e) →
      ∃ before call, calls events = before ++ [call] ∧ e.stepIndex = some call.site.index where
  nil _ _ hr := nomatch hr
  step site input cs ls r heffect e hr := by
    simp only [calls_append, calls_map_called, calls_map_logged, append_nil]
    obtain ⟨answer, rest, hcs, -⟩ := heffect.eq_cons
    have hne : cs ≠ [] := by simp [hcs]
    refine ⟨cs.dropLast, cs.getLast hne, (dropLast_append_getLast hne).symm, ?_⟩
    rw [(heffect.of_mem (getLast_mem hne)).1]
    exact heffect.stepIndex_eq hr
  append _ events _ _ _ _ hsecond e hr := by
    obtain ⟨before, call, hcalls, hindex⟩ := hsecond e hr
    refine ⟨calls events ++ before, call, ?_, hindex⟩
    rw [calls_append, hcalls, append_assoc]

end Runs

theorem placed_stepsRun {workflow : WorkflowDef} (hflat : BranchesFlat workflow.steps)
    (env : ExecutorEnv) (initialMessage : PipelineMessage) :
    ∃ taken, ∀ event ∈ (stepsRun env workflow initialMessage).1,
      Placed workflow.steps taken event.site.path event.site.index := by
  obtain ⟨taken, -, hplaced⟩ := @placed_executeSteps env workflow.validate [] workflow.steps hflat
    initialMessage [] fun _ => true
  exact ⟨taken, hplaced⟩

theorem logged_mem_of_mem_entries {events : List Event} {entry : Site × StepLog}
    (hentry : entry ∈ entries events) : .logged entry.1 entry.2 ∈ events := by
  obtain ⟨event, hevent, hsome⟩ := mem_filterMap.mp hentry
  rcases event with call | ⟨site, log⟩
  · exact nomatch hsome
  · rwa [← Option.some.inj hsome]

theorem called_mem_of_mem_calls {events : List Event} {call : PluginCall}
    (hcall : call ∈ calls events) : .called call ∈ events := by
  obtain ⟨event, hevent, hsome⟩ := mem_filterMap.mp hcall
  rcases event with call' | ⟨site, log⟩
  · rwa [← Option.some.inj hsome]
  · exact nomatch hsome

theorem Separated.identify {workflow : WorkflowDef} {filename : String}
    (hseparated : Separated workflow.steps)
    (haccepted : validateWorkflow workflow filename = .ok ()) (env : ExecutorEnv)
    (initialMessage : PipelineMessage) :
    IndicesIdentify workflow.steps (runSteps env workflow initialMessage) := by
  rcases runSteps_cases env workflow initialMessage with ⟨-, details, hrun⟩ | ⟨-, hrun⟩
  · rw [hrun]
    exact ⟨forall_mem_nil _, nofun, nofun⟩
  · have hflat := branchesFlat_of_validateWorkflow haccepted
    obtain ⟨taken, hplaced⟩ := placed_stepsRun hflat env initialMessage
    have hindex := (sequential_index_eq env workflow.validate).stepsRun initialMessage
    have hlast := (sequential_stepIndex env workflow.validate).stepsRun initialMessage
    rw [hrun]
    generalize stepsRun env workflow initialMessage = steps at hplaced hindex hlast
    obtain ⟨events, r⟩ := steps
    have hentry : ∀ a ∈ entries events, Placed workflow.steps taken a.1.path a.2.index := by
      intro a ha
      rw [hindex a ha]
      exact hplaced _ (logged_mem_of_mem_entries ha)
    constructor
    · rw [finishRun_events]
      intro a ha b hb hab
      have hplace := hentry a ha
      rw [hab] at hplace
      exact hplace.path_eq hseparated (hentry b hb)
    · intro log e index hlog hstatus hresult hstep
      rw [finishRun_events]
      have hr : r = .error (.error e) := by
        rcases r with exit | message
        · rwa [finishRun_result_error] at hresult
        · obtain rfl := Option.some.inj hlog
          simp only [executionLog, runStatus] at hstatus
          split at hstatus <;> exact nomatch hstatus
      obtain ⟨before, call, hcalls, hcall⟩ := hlast e hr
      obtain rfl := Option.some.inj (hcall.symm.trans hstep)
      refine ⟨before, call, hcalls, rfl, fun a ha haindex => ?_⟩
      have hplace := hentry a ha
      rw [haindex] at hplace
      refine hplace.path_eq hseparated (hplaced (.called call) (called_mem_of_mem_calls ?_))
      simp [hcalls]
    · intro log e index hlog hstatus hresult hstep
      rw [finishRun_events]
      refine ⟨?_, fun step hget hplugin a ha haindex => ?_⟩
      · -- the steps returned a message, and the exit rejected it
        rcases r with exit | message
        · rcases exit with _ | _
          · obtain rfl := Option.some.inj hlog
            exact absurd rfl hstatus
          · exact nomatch hlog
        · have hpos := length_pos_of_validateWorkflow haccepted
          rcases finishRun_result_ok message with ⟨-, hok⟩ | ⟨-, details, herror⟩
          · rw [hok] at hresult
            exact nomatch hresult
          · rw [herror, Except.error.injEq, Exit.error.injEq] at hresult
            rw [← hresult] at hstep
            obtain rfl := Option.some.inj hstep
            omega
      · have hplace := hentry a ha
        rw [haindex] at hplace
        exact hplace.path_eq hseparated (.top hget hplugin)

/-! ## Runs that log two steps with one index -/

/-- A path leads nowhere from a value without fields. -/
theorem resolveField_of_get_eq_none {message : PipelineMessage}
    (hdata : ∀ field, (payloadData message.payload).get field = none) (field : String) :
    resolveField message field = none := by
  simp only [resolveField]
  generalize (if "payload.".toList.isPrefixOf field.toList then
    field.toList.drop "payload.".toList.length else field.toList) = path
  rcases hpath : path.splitOn '.' with _ | ⟨segment, rest⟩
  · exact absurd hpath (splitOnP_ne_nil _ _)
  · simp [hdata]

/-- A branch that some message selects is selected by one that validation accepts. -/
theorem exists_valid_selected {condition : ConditionDef} {matched : Bool}
    (hselected : ∃ message, condition.selected message = matched) :
    ∃ message, Valid message ∧ condition.selected message = matched := by
  obtain ⟨message, rfl⟩ := hselected
  by_cases hvalid : Valid message
  · exact ⟨message, hvalid, rfl⟩
  · have hdata : ∀ field, (payloadData message.payload).get field = none := by
      intro field
      rcases hvalue : payloadData message.payload with _ | _ | _ | _ | _ | fields
      case obj => exact absurd ⟨fields, hvalue⟩ hvalid
      all_goals rfl
    refine ⟨customMessage (.obj []), ⟨[], rfl⟩, ?_⟩
    rw [ConditionDef.selected, ConditionDef.selected, resolveField_of_get_eq_none hdata,
      resolveField_of_get_eq_none fun _ => rfl]

theorem mem_sites_of_condition {step : StepDef} {condition : ConditionDef} {i k : Nat}
    {message : PipelineMessage} (hcondition : step.condition = some condition)
    (hk : k < (condition.branch (condition.selected message)).length) :
    ([i, branchNumber (condition.selected message), k], i * 100 + k) ∈ step.sites i message := by
  simpa [StepDef.sites, hcondition] using hk

section Identified

variable {workflow : WorkflowDef} (hflat : BranchesFlat workflow.steps)
  (hidentify : ∀ env message, IndicesIdentify workflow.steps (runSteps env workflow message))

include hflat hidentify

/-- Steps that plugins can bring into one run with one index are one step. -/
theorem path_eq_of_mem_sites {message : Nat → PipelineMessage} (hvalid : ∀ i, Valid (message i))
    (hmessage : ∀ i step, workflow.steps[i]? = some step → step.sites i (message i) = [] →
      message (i + 1) = message i)
    {i j index : Nat} {path path' : List Nat} {step step' : StepDef}
    (hi : workflow.steps[i]? = some step) (hpath : (path, index) ∈ step.sites i (message i))
    (hj : workflow.steps[j]? = some step') (hpath' : (path', index) ∈ step'.sites j (message j)) :
    path = path' := by
  obtain ⟨env, input, hlogged⟩ := exists_run_sites hflat hvalid hmessage
  obtain ⟨a, ha, hsite⟩ := hlogged hi hpath
  obtain ⟨b, hb, hsite'⟩ := hlogged hj hpath'
  rw [Prod.mk.injEq] at hsite hsite'
  rw [← hsite.1, ← hsite'.1]
  exact (hidentify env input).entries a ha b hb (hsite.2.trans hsite'.2.symm)

/-- Indices that tell the steps of every run apart are separated. -/
theorem separated_of_identify : Separated workflow.steps := by
  constructor
  · -- every step passes on the message that selects the branch
    rintro c matched k h i step hstep hplugin rfl
    obtain ⟨step', condition, hstep', hcondition, hselected, hk⟩ := h.exists_condition
    obtain ⟨message, hvalid, rfl⟩ := exists_valid_selected hselected
    have hsite : ([c * 100 + k], c * 100 + k) ∈ step.sites (c * 100 + k) message := by
      simp [StepDef.sites, hplugin]
    have hpath := path_eq_of_mem_sites hflat hidentify (fun _ => hvalid) (fun _ _ _ _ => rfl) hstep'
      (mem_sites_of_condition hcondition hk) hstep hsite
    exact nomatch (cons.inj hpath).2
  · -- the first branch passes on the message that selects the second
    intro c matched k h d matched' l h' hlt hindex
    obtain ⟨step, condition, hstep, hcondition, hselected, hk⟩ := h.exists_condition
    obtain ⟨step', condition', hstep', hcondition', hselected', hl⟩ := h'.exists_condition
    obtain ⟨message, hvalid, rfl⟩ := exists_valid_selected hselected
    obtain ⟨next, hvalid', rfl⟩ := exists_valid_selected hselected'
    have hsite := mem_sites_of_condition (i := c) hcondition hk
    have hsite' := mem_sites_of_condition (i := d) hcondition' hl
    rw [← hindex] at hsite'
    have hvalids : ∀ i, Valid (if i ≤ c then message else next) := by
      intro i
      split <;> assumption
    have hpath := path_eq_of_mem_sites hflat hidentify hvalids (fun i s hs hsites => ?_) hstep
      (by rwa [if_pos le_rfl]) hstep' (by rwa [if_neg (Nat.not_le.mpr hlt)])
    · exact absurd (cons.inj hpath).1 (Nat.ne_of_lt hlt)
    · rcases Nat.lt_trichotomy i c with hi | rfl | hi
      · rw [if_pos (by omega), if_pos (by omega)]
      · obtain rfl := Option.some.inj (hstep.symm.trans hs)
        rw [if_pos le_rfl] at hsites
        exact absurd hsite (hsites ▸ not_mem_nil)
      · rw [if_neg (by omega), if_neg (by omega)]

end Identified

/-- The indices tell the steps of every run apart if and only if they are separated. -/
theorem indicesIdentify_iff_separated (workflow : WorkflowDef) (filename : String)
    (haccepted : validateWorkflow workflow filename = .ok ()) :
    (∀ env message, IndicesIdentify workflow.steps (runSteps env workflow message)) ↔
      Separated workflow.steps := by
  constructor
  · exact separated_of_identify (branchesFlat_of_validateWorkflow haccepted)
  · intro hseparated env message
    exact hseparated.identify haccepted env message

/-- A condition with one step comes first, and later one with two. -/
def oneStepFirst : WorkflowDef :=
  manualWorkflow .edges
    [⟨"", "", none, some ⟨"unread", .present, .null, [pluginStep "notes" "save" none], []⟩⟩,
     pluginStep "mail" "fetch" none,
     ⟨"", "", none, some ⟨"unread", .present, .null, [],
       [pluginStep "mail" "mark" none, pluginStep "mail" "move" none]⟩⟩]

theorem indicesIdentify_oneStepFirst :
    Separated oneStepFirst.steps ∧
    ∀ env message, IndicesIdentify oneStepFirst.steps (runSteps env oneStepFirst message) := by
  have hseparated := @separated_of_le oneStepFirst.steps (by decide) (by decide) (by decide)
  have hiff := indicesIdentify_iff_separated oneStepFirst "mail.yaml" (by decide)
  exact ⟨hseparated, hiff.mpr hseparated⟩

/-- A condition with two steps comes first. -/
def twoStepsFirst : WorkflowDef :=
  manualWorkflow .edges
    [⟨"", "", none, some ⟨"unread", .isEmpty, .null,
       [pluginStep "notes" "save" none, pluginStep "notes" "index" none], []⟩⟩,
     pluginStep "mail" "fetch" none]

/-- The second step of the branch and the next step of the workflow have one index. -/
theorem not_indicesIdentify_first_condition :
    validateWorkflow twoStepsFirst "mail.yaml" = .ok () ∧
    ¬IndicesIdentify twoStepsFirst.steps
      (runSteps (scripted []) twoStepsFirst (customMessage (.obj []))) := by
  refine ⟨by decide, fun hidentify => ?_⟩
  have hpath := hidentify.entries _ (mem_of_getElem? (i := 1) rfl) _
    (mem_of_getElem? (i := 2) rfl) rfl
  exact nomatch hpath

end LifeEngine.Pipeline
