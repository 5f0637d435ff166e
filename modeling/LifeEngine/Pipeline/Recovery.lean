import LifeEngine.Pipeline.Effects

/-!
# Retries and error logs of a failing step

The delay before a retry is a power of two that is capped only after the shift, so from
the sixty-fifth attempt on the shift overflows.  The input of a failed step is cut after
200 bytes for the log, whether or not a character ends there.
-/

namespace LifeEngine.Pipeline

open Support List

/-! ## Delays -/

/-- The delay in seconds before attempt `n`. -/
def intendedDelay (n : Nat) : Nat :=
  min (2 ^ (n - 1)) 30

theorem intendedDelay_mono {n m : Nat} (h : n ≤ m) : intendedDelay n ≤ intendedDelay m := by
  have hpow : 2 ^ (n - 1) ≤ 2 ^ (m - 1) := Nat.pow_le_pow_right (by decide) (by omega)
  rw [intendedDelay, intendedDelay]
  omega

theorem backoffSecs_eq_of_le (overflowChecks : Bool) {n : Nat} (h : n ≤ 64) :
    backoffSecs overflowChecks n = some (intendedDelay n) := by
  rw [backoffSecs, if_pos (by omega)]
  rfl

/-- The delay of a call. -/
def PluginCall.delay (call : PluginCall) : Nat :=
  match call.kind with
  | .retry _ secs => secs
  | .first | .fallback => 0

/-- All attempts are made, with the intended delays, which never shrink. -/
structure Punctual (maxRetries : Nat)
    (run : List Event × Except Exit (Except PluginError (PipelineMessage × Nat))) : Prop where
  attempts : (calls run.1).map PluginCall.kind =
    (List.range' 1 maxRetries).map fun n => .retry n (intendedDelay n)
  delays : (calls run.1).Pairwise fun a b => a.delay ≤ b.delay
  finishes : ∃ e, run.2 = .ok (.error e)

section Retries

variable {env : ExecutorEnv} {site : Site} {input : PipelineMessage}

/-- The plugin answers every call of the step by an error. -/
def Failing (env : ExecutorEnv) (site : Site) (input : PipelineMessage) : Prop :=
  ∀ h, ∃ e, env.execute h site.step.plugin site.step.action input = .error e

/-- The loop up to the last shift that does not overflow. -/
theorem run_retryLoop_of_failing (hfailing : Failing env site input) (remaining attempt : Nat)
    (hattempts : attempt + remaining ≤ 65) (lastError : PluginError) (h : List Event) :
    ∃ (cs : List PluginCall) (e : PluginError),
      (retryLoop env site input remaining attempt lastError).run h =
        (cs.map .called, .ok (.error e)) ∧
      cs.map PluginCall.kind =
        (List.range' attempt remaining).map fun n => .retry n (intendedDelay n) := by
  induction remaining generalizing attempt lastError h with
  | zero => exact ⟨[], lastError, rfl, rfl⟩
  | succ remaining ih =>
    obtain ⟨e, he⟩ := hfailing h
    have hcall := run_callPlugin env site input h (.retry attempt (intendedDelay attempt))
      site.step.plugin site.step.action
    rw [he] at hcall
    obtain ⟨cs, last, hrun, hkinds⟩ := ih (attempt + 1) (by omega) e _
    refine ⟨retryCall site input attempt (intendedDelay attempt) (.error e) :: cs, last, ?_, ?_⟩
    · rw [retryLoop, backoffSecs_eq_of_le _ (by omega)]
      rw [Traced.run_bind_ok hcall, hrun]
      rfl
    · rw [map_cons, hkinds]
      rfl

theorem pairwise_delay {cs : List PluginCall} {attempt count : Nat}
    (hkinds : cs.map PluginCall.kind =
      (List.range' attempt count).map fun n => .retry n (intendedDelay n)) :
    cs.Pairwise fun a b => a.delay ≤ b.delay := by
  have hdelays : cs.map PluginCall.delay = (List.range' attempt count).map intendedDelay := by
    have hkinds := congrArg (List.map fun kind => match kind with
      | CallKind.retry _ secs => secs
      | .first | .fallback => 0) hkinds
    rwa [map_map, map_map] at hkinds
  have hsorted : ((List.range' attempt count).map intendedDelay).Pairwise (· ≤ ·) := by
    rw [pairwise_map]
    exact pairwise_le_range'.imp intendedDelay_mono
  rw [← hdelays, pairwise_map] at hsorted
  exact hsorted

theorem Punctual.maxRetries_le {maxRetries : Nat} {e : PluginError} {h : List Event}
    (hpunctual : Punctual maxRetries ((retryLoop env site input maxRetries 1 e).run h)) :
    maxRetries ≤ 64 := by
  by_contra hmany
  obtain ⟨cs, r, hrun, heffect⟩ := run_retryLoop env site input h maxRetries 1 e
  rw [hrun] at hpunctual
  obtain ⟨hkinds, -, last, rfl⟩ := hpunctual
  simp only [calls_map_called] at hkinds
  rcases heffect with ⟨hcs, hlength⟩
  have hlt : 64 < cs.length := by omega
  have hsplit : cs = cs.take 64 ++ cs[64] :: cs.drop 65 := by simp
  rw [hsplit] at hcs
  obtain ⟨-, -, -, secs, hsecs, hkind⟩ := hcs.kind_eq
  have hlength64 : (cs.take 64).length = 64 := length_take_of_le (Nat.le_of_lt hlt)
  rw [hlength64] at hsecs hkind
  have hmem : cs[64].kind ∈ cs.map PluginCall.kind := mem_map_of_mem (getElem_mem hlt)
  rw [hkinds] at hmem
  obtain ⟨n, -, hn⟩ := mem_map.mp hmem
  rw [hkind] at hn
  obtain ⟨rfl, rfl⟩ := hn
  -- the shift of attempt 65 panics or starts again
  revert hsecs
  rcases env.overflowChecks with _ | _ <;> decide

/-- The loop is punctual exactly up to 64 retries. -/
theorem punctual_iff (env : ExecutorEnv) (site : Site) (input : PipelineMessage)
    (e : PluginError) (h : List Event) (hfailing : Failing env site input) :
    Punctual site.step.maxRetries
        ((retryLoop env site input site.step.maxRetries 1 e).run h) ↔
      site.step.maxRetries ≤ 64 := by
  refine ⟨Punctual.maxRetries_le, fun hle => ?_⟩
  obtain ⟨cs, last, hrun, hkinds⟩ :=
    run_retryLoop_of_failing hfailing site.step.maxRetries 1 (by omega) e h
  rw [hrun]
  refine ⟨?_, ?_, last, rfl⟩
  · rw [calls_map_called, hkinds]
  · rw [calls_map_called]
    exact pairwise_delay hkinds

end Retries

/-- A plugin that always fails. -/
def failingEnv (overflowChecks : Bool) : ExecutorEnv :=
  { scripted [] with
    execute := fun _ _ _ _ => .error ⟨"offline", "E1", .retryable⟩
    overflowChecks := overflowChecks }

def retriedSite (maxRetries : UInt32) : Site :=
  ⟨[0], 0, pluginStep "mail" "fetch" (some ⟨.retry, some maxRetries, none⟩)⟩

theorem punctual_sixty_four :
    Punctual 64 ((retryLoop (failingEnv true) (retriedSite 64) (customMessage (.obj []))
      64 1 ⟨"offline", "E1", .retryable⟩).run []) :=
  (punctual_iff (failingEnv true) (retriedSite 64) _ _ _ fun _ => ⟨_, rfl⟩).mpr (by decide)

/-- One more retry, whether or not overflow panics. -/
theorem not_punctual_sixty_five :
    Failing (failingEnv true) (retriedSite 65) (customMessage (.obj [])) ∧
      ¬Punctual 65 ((retryLoop (failingEnv true) (retriedSite 65) (customMessage (.obj []))
        65 1 ⟨"offline", "E1", .retryable⟩).run []) ∧
      ¬Punctual 65 ((retryLoop (failingEnv false) (retriedSite 65) (customMessage (.obj []))
        65 1 ⟨"offline", "E1", .retryable⟩).run []) :=
  ⟨fun _ => ⟨_, rfl⟩, fun hpunctual => absurd hpunctual.maxRetries_le (by decide),
    fun hpunctual => absurd hpunctual.maxRetries_le (by decide)⟩

/-! ## Summaries -/

/-- The error log is built, with the text of the payload, or a front of at most 200 bytes with dots.
-/
def Summarized (env : ExecutorEnv) (input : PipelineMessage) : Prop :=
  ∀ message code severity h, ∃ error,
    (errorLog env message code severity input).run h = ([], .ok error) ∧
    (byteLength (payloadText env.doubleText input.payload) ≤ 200 →
      error.inputSummary = String.ofList (payloadText env.doubleText input.payload)) ∧
    (200 < byteLength (payloadText env.doubleText input.payload) →
      ∃ front, front <+: payloadText env.doubleText input.payload ∧ byteLength front ≤ 200 ∧
        error.inputSummary = String.ofList (front ++ "...".toList))

theorem byteLength_eq_zero_iff {text : List Char} : byteLength text = 0 ↔ text = [] := by
  rcases text with _ | ⟨c, text⟩
  · simp [byteLength]
  · have hc := c.utf8Size_pos
    simp only [byteLength, cons_ne_nil, iff_false]
    omega

theorem sliceTo_zero_eq_some_iff {text front : List Char} :
    sliceTo 0 text = some front ↔ front <+: text ∧ byteLength front = 0 := by
  rw [byteLength_eq_zero_iff, sliceTo, Option.some.injEq]
  constructor
  · rintro rfl
    exact And.intro nil_prefix rfl
  · exact fun h => h.2.symm

/-- Slicing gives the front with that many bytes, if there is one. -/
theorem sliceTo_eq_some_iff {n : Nat} {text front : List Char} :
    sliceTo n text = some front ↔ front <+: text ∧ byteLength front = n := by
  induction text generalizing n front with
  | nil =>
    rcases n with _ | n
    · exact sliceTo_zero_eq_some_iff
    · simp only [sliceTo, reduceCtorEq, false_iff, prefix_nil]
      exact nofun
  | cons c text ih =>
    rcases n with _ | n
    · exact sliceTo_zero_eq_some_iff
    · rw [sliceTo]
      rcases front with _ | ⟨d, front⟩
      · split <;> simp [byteLength]
      · rw [cons_prefix_cons, byteLength]
        split
        · rename_i hle
          simp only [Option.map_eq_some_iff, List.cons.injEq, ih]
          constructor
          · rintro ⟨rest, ⟨hfront, hlength⟩, rfl, rfl⟩
            exact ⟨⟨rfl, hfront⟩, by omega⟩
          · rintro ⟨⟨rfl, hfront⟩, hlength⟩
            exact ⟨front, ⟨hfront, by omega⟩, rfl, rfl⟩
        · rename_i hle
          simp only [reduceCtorEq, false_iff, not_and]
          rintro ⟨rfl, -⟩
          omega

theorem run_errorLog_of_some {env : ExecutorEnv} {input : PipelineMessage} {summary : String}
    (hsummary : summarizeInput env input = some summary) (message code : String)
    (severity : Severity) (h : List Event) :
    (errorLog env message code severity input).run h =
      ([], .ok ⟨message, code, severity.debug, summary⟩) := by
  rw [errorLog, hsummary]
  rfl

theorem run_errorLog_of_none {env : ExecutorEnv} {input : PipelineMessage}
    (hsummary : summarizeInput env input = none) (message code : String)
    (severity : Severity) (h : List Event) :
    (errorLog env message code severity input).run h = ([], .error .panic) := by
  rw [errorLog, hsummary]
  rfl

/-- The error log is built exactly if the text is short or a character ends at its byte 200. -/
theorem summarized_iff (env : ExecutorEnv) (input : PipelineMessage) :
    Summarized env input ↔
      byteLength (payloadText env.doubleText input.payload) ≤ 200 ∨
        ∃ front, front <+: payloadText env.doubleText input.payload ∧ byteLength front = 200 := by
  by_cases hshort : byteLength (payloadText env.doubleText input.payload) ≤ 200
  · have hsummary : summarizeInput env input =
        some (String.ofList (payloadText env.doubleText input.payload)) := by
      rw [summarizeInput]
      exact if_neg (Nat.not_lt.mpr hshort)
    refine iff_of_true (fun message code severity h => ?_) (.inl hshort)
    exact ⟨_, run_errorLog_of_some hsummary message code severity h, fun _ => rfl,
      fun hlong => absurd hshort (Nat.not_le.mpr hlong)⟩
  · have hlong := Nat.lt_of_not_le hshort
    have hsummary : summarizeInput env input =
        (sliceTo 200 (payloadText env.doubleText input.payload)).map fun front =>
          String.ofList (front ++ "...".toList) := by
      rw [summarizeInput]
      exact if_pos hlong
    constructor
    · intro hsummarized
      right
      rcases hslice : sliceTo 200 (payloadText env.doubleText input.payload) with _ | front
      · rw [hslice] at hsummary
        obtain ⟨error, hrun, -⟩ := hsummarized "" "" .fatal []
        rw [run_errorLog_of_none hsummary] at hrun
        exact nomatch hrun
      · exact ⟨front, sliceTo_eq_some_iff.mp hslice⟩
    · rintro (hle | ⟨front, hfront, hbytes⟩) message code severity h
      · exact absurd hle hshort
      · rw [sliceTo_eq_some_iff.mpr ⟨hfront, hbytes⟩] at hsummary
        exact ⟨_, run_errorLog_of_some hsummary message code severity h,
          fun hle => absurd hle hshort, fun _ => ⟨front, hfront, hbytes.le, rfl⟩⟩

/-- Characters of four bytes each: the cut falls into one. -/
theorem not_summarized_clefs :
    ¬Summarized (scripted []) (customMessage (.str (String.ofList (List.replicate 44 '𝄞')))) := by
  intro hsummarized
  obtain ⟨error, hrun, -⟩ := hsummarized "offline" "E1" .retryable []
  rw [run_errorLog_of_none] at hrun
  · exact nomatch hrun
  · decide +kernel

end LifeEngine.Pipeline
