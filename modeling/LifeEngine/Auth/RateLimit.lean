import LifeEngine.Auth.ApiKeys

/-!
# The limiter of failed logins

`validate_request` asks the limiter, lets a provider judge the credentials, and records a
failure.  Only the first and the last of these hold the lock of the limiter, so the
requests of an address interleave between them.  The main result bounds the failures of
an address by the limit and the number of its requests that are in progress at once.
-/

namespace LifeEngine.Auth

open Support List

/-- `AuthError`; the errors of the key operations are one case. -/
inductive RequestError where
  | tokenMissing
  | tokenExpired
  | tokenInvalid (message : String)
  | providerUnreachable (message : String)
  | rateLimited (retryAfter : Nat)
  | key (e : AuthError)
  deriving DecidableEq, Repr

/-- What the provider answers at one moment. -/
structure AuthProvider where
  validateToken : String → Except RequestError AuthIdentity
  validateKey : String → Except RequestError AuthIdentity

/-! ## The limiter -/

/-- An `Instant` is a number of nanoseconds. -/
def nanosPerSec : Nat := 1000000000

structure RateLimiter where
  failures : String → Option (List Nat)
  maxFailures : Nat
  windowSecs : Nat

namespace RateLimiter

def withConfig (maxFailures windowSecs : Nat) : RateLimiter :=
  ⟨fun _ => none, maxFailures, windowSecs⟩

def new : RateLimiter := withConfig 5 60

def window (l : RateLimiter) : Nat := l.windowSecs * nanosPerSec

/-- The entries that have not aged out. -/
def prune (l : RateLimiter) (now : Nat) (entries : List Nat) : List Nat :=
  entries.filter fun t => now - t < l.window

def isRateLimited (l : RateLimiter) (now : Nat) (ip : String) :
    Option Nat × RateLimiter :=
  match l.failures ip with
  | none => (none, l)
  | some entries =>
    match l.prune now entries with
    | [] => (none, { l with failures := Function.update l.failures ip none })
    | oldest :: rest =>
      let l' := { l with failures := Function.update l.failures ip (some (oldest :: rest)) }
      if l.maxFailures ≤ (oldest :: rest).length then
        let elapsed := (now - oldest) / nanosPerSec
        let retryAfter := l.windowSecs - elapsed
        (some (if retryAfter = 0 then 1 else retryAfter), l')
      else (none, l')

def recordFailure (l : RateLimiter) (now : Nat) (ip : String) : RateLimiter :=
  { l with failures := Function.update l.failures ip (some ((l.failures ip).getD [] ++ [now])) }

/-- `cleanup`: addresses without recent failures are forgotten. -/
def cleanup (l : RateLimiter) (now : Nat) : RateLimiter :=
  { l with failures := fun ip => ((l.failures ip).map (l.prune now)).filter (· ≠ []) }

/-- The failures that the limiter knows of an address. -/
def entries (l : RateLimiter) (ip : String) : List Nat := (l.failures ip).getD []

section

variable (l : RateLimiter) (now : Nat) (ip : String)

theorem entries_isRateLimited (other : String) :
    (l.isRateLimited now ip).2.entries other =
      if other = ip then l.prune now (l.entries ip) else l.entries other := by
  unfold isRateLimited
  rcases hfailures : l.failures ip with _ | found
  · by_cases hother : other = ip
    · subst hother
      simp [entries, hfailures, prune]
    · simp [hother]
  · have hentries : l.entries ip = found := by simp [entries, hfailures]
    rw [hentries]
    dsimp only
    rcases hprune : l.prune now found with _ | ⟨oldest, rest⟩
    · by_cases hother : other = ip <;> simp [entries, hother]
    · dsimp only
      by_cases hother : other = ip
      · subst hother
        split <;> simp [entries]
      · split <;> simp [entries, hother]

/-- The limiter lets pass only while it knows of too few failures. -/
theorem length_prune_of_isRateLimited (h : (l.isRateLimited now ip).1 = none) :
    (l.prune now (l.entries ip)).length < max l.maxFailures 1 := by
  unfold isRateLimited at h
  rw [entries]
  have hone : 0 < max l.maxFailures 1 := by omega
  rcases hfound : l.failures ip with _ | found
  · exact hone
  · rw [hfound] at h
    dsimp only [Option.getD_some] at h ⊢
    split at h
    · next hnone => rwa [hnone]
    · next hsome =>
      rw [hsome]
      split at h
      · cases h
      · omega

theorem isRateLimited_settings :
    (l.isRateLimited now ip).2.maxFailures = l.maxFailures ∧
      (l.isRateLimited now ip).2.windowSecs = l.windowSecs := by
  unfold isRateLimited
  split
  · exact ⟨rfl, rfl⟩
  · split
    · exact ⟨rfl, rfl⟩
    · split <;> exact ⟨rfl, rfl⟩

theorem entries_recordFailure (other : String) :
    (l.recordFailure now ip).entries other =
      if other = ip then l.entries ip ++ [now] else l.entries other := by
  by_cases hother : other = ip <;> simp [recordFailure, entries, hother]

theorem entries_cleanup : (l.cleanup now).entries ip = l.prune now (l.entries ip) := by
  rcases hfailures : l.failures ip with _ | found
  · simp [cleanup, entries, hfailures, prune]
  · by_cases hprune : l.prune now found = []
    · simp [cleanup, entries, hfailures, hprune, Option.filter_some]
    · simp [cleanup, entries, hfailures, hprune, Option.filter_some]

end

end RateLimiter

open RateLimiter

/-! ## Requests -/

/-- Where a request stands that the limiter has let pass. -/
inductive Phase where
  | validating (header : String)
  | failed (e : RequestError)
  | done (result : Except RequestError AuthIdentity)

structure Attempt where
  ip : String
  phase : Phase

/-- The limiter and all requests, with each invalid credential that was judged. -/
structure Logins where
  limiter : RateLimiter
  now : Nat
  attempts : List Attempt
  judged : List (String × Nat)

/-- What happens next, and how long after what happened last. -/
inductive LoginEvent where
  | request (wait : Nat) (ip : String) (header : Option String)
  | validate (wait : Nat) (index : Nat) (provider : AuthProvider)
  | record (wait : Nat) (index : Nat)
  | cleanup (wait : Nat)

/-- The scheme of the header selects the method of the provider. -/
def judge (provider : AuthProvider) (header : String) : Except RequestError AuthIdentity :=
  if "Bearer ".toList.isPrefixOf header.toList then
    provider.validateToken (String.ofList (header.toList.drop 7))
  else if "ApiKey ".toList.isPrefixOf header.toList then
    provider.validateKey (String.ofList (header.toList.drop 7))
  else .error (.tokenInvalid "unsupported authorization scheme")

namespace Logins

def start (limiter : RateLimiter) : Logins := ⟨limiter, 0, [], []⟩

/-- The first section of `validate_request`. -/
def arrive (s : Logins) (ip : String) (header : Option String) : Logins :=
  let (limited, limiter) := s.limiter.isRateLimited s.now ip
  let phase := match limited, header with
    | some retryAfter, _ => .done (.error (.rateLimited retryAfter))
    | none, none => .done (.error .tokenMissing)
    | none, some header => .validating header
  { s with limiter := limiter, attempts := s.attempts ++ [⟨ip, phase⟩] }

def setPhase (s : Logins) (index : Nat) (phase : Phase) : Logins :=
  { s with attempts := s.attempts.modify index fun a => { a with phase := phase } }

/-- The provider judges the credentials of a request. -/
def finishValidation (s : Logins) (index : Nat) (provider : AuthProvider) : Logins :=
  match s.attempts[index]? with
  | some ⟨ip, .validating header⟩ =>
    match judge provider header with
    | .ok identity => s.setPhase index (.done (.ok identity))
    | .error e =>
      { s.setPhase index (.failed e) with judged := s.judged ++ [(ip, s.now)] }
  | _ => s

/-- The last section of `validate_request`. -/
def recordAttempt (s : Logins) (index : Nat) : Logins :=
  match s.attempts[index]? with
  | some ⟨ip, .failed e⟩ =>
    { s.setPhase index (.done (.error e)) with limiter := s.limiter.recordFailure s.now ip }
  | _ => s

def wait (s : Logins) (nanos : Nat) : Logins := { s with now := s.now + nanos }

def step (s : Logins) : LoginEvent → Logins
  | .request nanos ip header => (s.wait nanos).arrive ip header
  | .validate nanos index provider => (s.wait nanos).finishValidation index provider
  | .record nanos index => (s.wait nanos).recordAttempt index
  | .cleanup nanos => { s.wait nanos with limiter := s.limiter.cleanup (s.now + nanos) }

/-- The invalid credentials of the address judged in the window. -/
def judgedIn (s : Logins) (ip : String) (first : Nat) : Nat :=
  s.judged.countP fun e => e.1 = ip ∧ first ≤ e.2 ∧ e.2 < first + s.limiter.window

end Logins

/-- The request has passed the limiter and has not returned. -/
def Attempt.open (a : Attempt) : Bool :=
  match a.phase with
  | .done _ => false
  | .validating _ | .failed _ => true

def Attempt.isFailed (a : Attempt) : Bool :=
  match a.phase with
  | .failed _ => true
  | .validating _ | .done _ => false

/-- How many requests of the address are in progress. -/
def Logins.inProgress (s : Logins) (ip : String) : Nat :=
  s.attempts.countP fun a => a.ip = ip ∧ a.open

/-! ## Counting -/

theorem countP_modify {α : Type} {xs : List α} {index : Nat} {x : α}
    (h : xs[index]? = some x) (p : α → Bool) (f : α → α) :
    (xs.modify index f).countP p + (if p x then 1 else 0) =
      xs.countP p + (if p (f x) then 1 else 0) := by
  induction xs generalizing index with
  | nil => cases h
  | cons y ys ih =>
    rcases index with _ | index
    · obtain rfl : y = x := Option.some.inj h
      rw [modify_zero_cons, countP_cons, countP_cons]
      omega
    · have hrest := @ih index h
      rw [modify_succ_cons, countP_cons, countP_cons]
      omega

/-- What counts for the window from `first` is not pruned. -/
theorem countP_prune {l : RateLimiter} {now first : Nat} {entries : List Nat}
    (hpast : ∀ t ∈ entries, t ≤ now) (hwindow : now < first + l.window) :
    (l.prune now entries).countP (first ≤ ·) = entries.countP (first ≤ ·) := by
  rw [prune, countP_filter]
  apply countP_congr
  intro t ht
  have hle := hpast t ht
  simp only [decide_eq_true_eq, Bool.and_eq_true]
  omega

/-- The failures that were judged since `first`. -/
def Logins.judgedSince (s : Logins) (ip : String) (first : Nat) : Nat :=
  s.judged.countP fun e => e.1 = ip ∧ first ≤ e.2

/-- The failures that were judged and are not yet recorded. -/
def Logins.unrecorded (s : Logins) (ip : String) : Nat :=
  s.attempts.countP fun a => a.ip = ip ∧ a.isFailed

/-- The failures that count are known or about to be recorded, and fewer than the bound. -/
structure Accounted (ip : String) (limit bound : Nat) (s : Logins) : Prop where
  config : s.limiter.maxFailures = limit
  room : (s.limiter.entries ip).length + s.inProgress ip < bound
  entries_past : ∀ t ∈ s.limiter.entries ip, t ≤ s.now
  judged_past : ∀ e ∈ s.judged, e.2 ≤ s.now
  known : ∀ first, s.now < first + s.limiter.window →
    s.judgedSince ip first ≤ (s.limiter.entries ip).countP (first ≤ ·) + s.unrecorded ip
  within : ∀ first, s.judgedIn ip first < bound

section Accounting

variable {ip : String} {limit bound : Nat} {s : Logins}

theorem unrecorded_le_inProgress (s : Logins) (ip : String) :
    s.unrecorded ip ≤ s.inProgress ip := by
  apply countP_mono_left
  intro a _ ha
  obtain ⟨hip, hfailed⟩ := of_decide_eq_true ha
  refine decide_eq_true ⟨hip, ?_⟩
  obtain ⟨_, _ | _ | _⟩ := a
  · rfl
  · rfl
  · cases hfailed

theorem judgedIn_le_judgedSince (s : Logins) (ip : String) (first : Nat) :
    s.judgedIn ip first ≤ s.judgedSince ip first := by
  apply countP_mono_left
  intro e _ he
  obtain ⟨hip, hfirst, -⟩ := of_decide_eq_true he
  exact decide_eq_true ⟨hip, hfirst⟩

theorem judgedSince_eq_zero (h : ∀ e ∈ s.judged, e.2 ≤ s.now) {first : Nat}
    (hfirst : s.now < first) : s.judgedSince ip first = 0 := by
  rw [Logins.judgedSince, countP_eq_zero]
  intro judged hjudged
  have hpast := h judged hjudged
  simp only [decide_eq_true_eq]
  omega

/-- The failures in an open window are known or in progress. -/
theorem judgedIn_lt_of_known
    (hroom : (s.limiter.entries ip).length + s.inProgress ip < bound) {first : Nat}
    (hknown : s.judgedSince ip first ≤
      (s.limiter.entries ip).countP (first ≤ ·) + s.unrecorded ip) :
    s.judgedIn ip first < bound := by
  have hentries : (s.limiter.entries ip).countP (first ≤ ·) ≤ (s.limiter.entries ip).length :=
    countP_le_length
  have hin := judgedIn_le_judgedSince s ip first
  have hopen := unrecorded_le_inProgress s ip
  omega

/-- The counts change with the phase of one attempt. -/
theorem counts_setPhase {index : Nat} {a : Attempt} (h : s.attempts[index]? = some a)
    (phase : Phase) (ip : String) :
    (s.setPhase index phase).inProgress ip + (if a.ip = ip ∧ a.open then 1 else 0) =
        s.inProgress ip + (if a.ip = ip ∧ Attempt.open ⟨a.ip, phase⟩ then 1 else 0) ∧
      (s.setPhase index phase).unrecorded ip + (if a.ip = ip ∧ a.isFailed then 1 else 0) =
        s.unrecorded ip + (if a.ip = ip ∧ Attempt.isFailed ⟨a.ip, phase⟩ then 1 else 0) := by
  have hopen := countP_modify h (fun a => a.ip = ip ∧ a.open) fun a => { a with phase := phase }
  have hfailed := countP_modify h (fun a => a.ip = ip ∧ a.isFailed)
    fun a => { a with phase := phase }
  simp only [decide_eq_true_eq] at hopen hfailed
  exact ⟨hopen, hfailed⟩

namespace Accounted

theorem start (limiter : RateLimiter) (hempty : limiter.entries ip = []) (hbound : 0 < bound) :
    Accounted ip limiter.maxFailures bound (.start limiter) where
  config := rfl
  room := by simpa [Logins.start, hempty, Logins.inProgress] using hbound
  entries_past := by simp [Logins.start, hempty]
  judged_past := by simp [Logins.start]
  known := by simp [Logins.start, Logins.judgedSince]
  within := by simpa [Logins.start, Logins.judgedIn] using hbound

theorem wait (h : Accounted ip limit bound s) (nanos : Nat) :
    Accounted ip limit bound (s.wait nanos) where
  config := h.config
  room := h.room
  entries_past t ht := Nat.le_trans (h.entries_past t ht) (Nat.le_add_right ..)
  judged_past e he := Nat.le_trans (h.judged_past e he) (Nat.le_add_right ..)
  known first hwindow := h.known first (Nat.lt_of_le_of_lt (Nat.le_add_right ..) hwindow)
  within := h.within

/-- The limiter forgets at most what has aged out. -/
theorem relimit (h : Accounted ip limit bound s) {limiter : RateLimiter}
    (hconfig : limiter.maxFailures = s.limiter.maxFailures)
    (hsecs : limiter.windowSecs = s.limiter.windowSecs)
    (hentries : limiter.entries ip = s.limiter.entries ip ∨
      limiter.entries ip = s.limiter.prune s.now (s.limiter.entries ip)) :
    Accounted ip limit bound { s with limiter := limiter } := by
  have hwindow : limiter.window = s.limiter.window := by
    rw [window, window, hsecs]
  have hsub : (limiter.entries ip).Sublist (s.limiter.entries ip) := by
    rcases hentries with hsame | hprune
    · rw [hsame]
    · rw [hprune]
      exact filter_sublist
  have hcount : ∀ first, s.now < first + s.limiter.window →
      (limiter.entries ip).countP (first ≤ ·) = (s.limiter.entries ip).countP (first ≤ ·) := by
    intro first hfirst
    rcases hentries with hsame | hprune
    · rw [hsame]
    · rw [hprune, countP_prune h.entries_past hfirst]
  refine ⟨hconfig.trans h.config, ?_, ?_, h.judged_past, ?_, ?_⟩
  · exact Nat.lt_of_le_of_lt (Nat.add_le_add_right hsub.length_le _) h.room
  · exact fun t ht => h.entries_past t (hsub.subset ht)
  · intro first hfirst
    rw [hwindow] at hfirst
    rw [hcount first hfirst]
    exact h.known first hfirst
  · intro first
    have hwithin := h.within first
    unfold Logins.judgedIn at hwithin ⊢
    rwa [hwindow]

/-- A request joins those of before. -/
theorem join (h : Accounted ip limit bound s) {a : Attempt} (hfailed : a.isFailed = false)
    (hroom : (s.limiter.entries ip).length +
      Logins.inProgress { s with attempts := s.attempts ++ [a] } ip < bound) :
    Accounted ip limit bound { s with attempts := s.attempts ++ [a] } := by
  refine ⟨h.config, hroom, h.entries_past, h.judged_past, ?_, h.within⟩
  intro first hfirst
  have hsame : Logins.unrecorded { s with attempts := s.attempts ++ [a] } ip = s.unrecorded ip := by
    simp [Logins.unrecorded, hfailed]
  rw [hsame]
  exact h.known first hfirst

theorem check (h : Accounted ip limit bound s) (other : String) :
    Accounted ip limit bound { s with limiter := (s.limiter.isRateLimited s.now other).2 } := by
  apply h.relimit
  · exact (isRateLimited_settings ..).1
  · exact (isRateLimited_settings ..).2
  · rw [entries_isRateLimited]
    by_cases hip : ip = other
    · subst hip
      exact Or.inr (if_pos rfl)
    · exact Or.inl (if_neg hip)

theorem arrive (h : Accounted ip limit bound s) {most : Nat} (hbound : bound = max limit 1 + most)
    (other : String) (header : Option String)
    (hmost : (s.arrive other header).inProgress ip ≤ most) :
    Accounted ip limit bound (s.arrive other header) := by
  have hpruned := h.check other
  have hentries := entries_isRateLimited s.limiter s.now other ip
  rcases hcheck : s.limiter.isRateLimited s.now other with ⟨limited, limiter⟩
  simp only [hcheck] at hpruned hentries
  simp only [Logins.arrive, hcheck] at hmost ⊢
  -- Only a request that has to be validated takes room.
  have hclosed : ∀ result, Accounted ip limit bound
      { s with limiter := limiter, attempts := s.attempts ++ [⟨other, .done result⟩] } := by
    intro result
    apply hpruned.join (a := ⟨other, .done result⟩) rfl
    have hroom := hpruned.room
    simpa [Logins.inProgress, Attempt.open] using hroom
  rcases limited with _ | retryAfter
  · rcases header with _ | header
    · exact hclosed _
    · apply hpruned.join (a := ⟨other, .validating header⟩) rfl
      by_cases hip : ip = other
      · subst hip
        have hlength := length_prune_of_isRateLimited s.limiter s.now ip (by rw [hcheck])
        rw [if_pos rfl] at hentries
        rw [h.config, ← hentries] at hlength
        dsimp only at hmost ⊢
        omega
      · have hroom := hpruned.room
        have hne : ¬ other = ip := fun heq => hip heq.symm
        simpa [Logins.inProgress, hne] using hroom
  · exact hclosed _

variable {index : Nat} {other : String}

/-- The provider accepts: the request is over. -/
theorem accept (h : Accounted ip limit bound s) {header : String}
    (hattempt : s.attempts[index]? = some ⟨other, .validating header⟩) (identity : AuthIdentity) :
    Accounted ip limit bound (s.setPhase index (.done (.ok identity))) := by
  obtain ⟨hopen, hfailed⟩ := counts_setPhase hattempt (.done (.ok identity)) ip
  simp only [Attempt.open, Attempt.isFailed, Bool.false_eq_true, and_false, if_false,
    Nat.add_zero] at hopen hfailed
  refine ⟨h.config, ?_, h.entries_past, h.judged_past, ?_, h.within⟩
  · have hroom := h.room
    change (s.limiter.entries ip).length + (s.setPhase index _).inProgress ip < bound
    omega
  · intro first hfirst
    rw [hfailed]
    exact h.known first hfirst

/-- The failure counts from now on, and is not yet recorded. -/
theorem reject (h : Accounted ip limit bound s) {header : String}
    (hattempt : s.attempts[index]? = some ⟨other, .validating header⟩) (e : RequestError) :
    Accounted ip limit bound
      { s.setPhase index (.failed e) with judged := s.judged ++ [(other, s.now)] } := by
  obtain ⟨hopen, hfailed⟩ := counts_setPhase hattempt (.failed e) ip
  simp only [Attempt.open, Attempt.isFailed, Bool.false_eq_true, and_true, and_false,
    if_false, Nat.add_zero, Nat.add_right_cancel_iff] at hopen hfailed
  have hroom : (s.limiter.entries ip).length + (s.setPhase index (.failed e)).inProgress ip <
      bound := by
    rw [hopen]
    exact h.room
  have hknown : ∀ first, s.now < first + s.limiter.window →
      Logins.judgedSince { s with judged := s.judged ++ [(other, s.now)] } ip first ≤
        (s.limiter.entries ip).countP (first ≤ ·) +
          (s.setPhase index (.failed e)).unrecorded ip := by
    intro first hfirst
    have hbefore := h.known first hfirst
    rw [hfailed]
    unfold Logins.judgedSince at hbefore ⊢
    rw [countP_append, countP_singleton]
    by_cases hip : other = ip
    · split <;> omega
    · simp only [hip, false_and, decide_false, Bool.false_eq_true]
      omega
  refine ⟨h.config, hroom, h.entries_past, ?_, hknown, ?_⟩
  · intro e he
    rcases mem_append.mp he with hold | hnew
    · exact h.judged_past e hold
    · rw [mem_singleton.mp hnew]
      exact Nat.le_refl s.now
  · intro first
    by_cases hfirst : s.now < first + s.limiter.window
    · exact judgedIn_lt_of_known hroom (hknown first hfirst)
    · -- The window has passed, so that the new failure is not in it.
      have hwithin := h.within first
      rw [Logins.judgedIn] at hwithin ⊢
      rw [countP_append, countP_singleton, if_neg (fun hin => hfirst (of_decide_eq_true hin).2.2)]
      exact hwithin

/-- The failure of another address is recorded. -/
theorem record_other (h : Accounted ip limit bound s) {e : RequestError}
    (hattempt : s.attempts[index]? = some ⟨other, .failed e⟩) (hip : ip ≠ other) :
    Accounted ip limit bound
      { s.setPhase index (.done (.error e)) with
        limiter := s.limiter.recordFailure s.now other } := by
  obtain ⟨hopen, hfailed⟩ := counts_setPhase hattempt (.done (.error e)) ip
  simp only [hip.symm, false_and, if_false, Nat.add_zero] at hopen hfailed
  have hentries : (s.limiter.recordFailure s.now other).entries ip = s.limiter.entries ip := by
    rw [entries_recordFailure, if_neg hip]
  refine ⟨h.config, ?_, ?_, h.judged_past, ?_, h.within⟩
  · change _ + (s.setPhase index _).inProgress ip < bound
    rw [hentries, hopen]
    exact h.room
  · rw [hentries]
    exact h.entries_past
  · intro first hfirst
    change _ ≤ _ + (s.setPhase index _).unrecorded ip
    rw [hentries, hfailed]
    exact h.known first hfirst

/-- The limiter knows one more, and one request less is in progress. -/
theorem record_own (h : Accounted ip limit bound s) {e : RequestError}
    (hattempt : s.attempts[index]? = some ⟨ip, .failed e⟩) :
    Accounted ip limit bound
      { s.setPhase index (.done (.error e)) with
        limiter := s.limiter.recordFailure s.now ip } := by
  obtain ⟨hopen, hfailed⟩ := counts_setPhase hattempt (.done (.error e)) ip
  simp only [Attempt.open, Attempt.isFailed, Bool.false_eq_true, and_true, and_false, if_false,
    if_true] at hopen hfailed
  have hentries : (s.limiter.recordFailure s.now ip).entries ip =
      s.limiter.entries ip ++ [s.now] := by
    rw [entries_recordFailure, if_pos rfl]
  refine ⟨h.config, ?_, ?_, h.judged_past, ?_, h.within⟩
  · have hroom := h.room
    change _ + (s.setPhase index _).inProgress ip < bound
    rw [hentries, length_append, length_singleton]
    omega
  · rw [hentries, forall_mem_append, forall_mem_singleton]
    exact ⟨h.entries_past, Nat.le_refl s.now⟩
  · intro first hfirst
    have hbefore := h.known first hfirst
    change s.judgedSince ip first ≤ _ + (s.setPhase index _).unrecorded ip
    by_cases hnow : first ≤ s.now
    · rw [hentries, countP_append, countP_singleton, if_pos (decide_eq_true hnow)]
      omega
    · rw [judgedSince_eq_zero h.judged_past (Nat.lt_of_not_le hnow)]
      exact Nat.zero_le _

theorem step (h : Accounted ip limit bound s) {most : Nat} (hbound : bound = max limit 1 + most)
    (event : LoginEvent) (hmost : (s.step event).inProgress ip ≤ most) :
    Accounted ip limit bound (s.step event) := by
  rcases event with ⟨nanos, other, header⟩ | ⟨nanos, index, provider⟩ | ⟨nanos, index⟩ | nanos
  · exact (h.wait nanos).arrive hbound other header hmost
  · have hwait := h.wait nanos
    simp only [Logins.step, Logins.finishValidation]
    split
    · next other header hattempt =>
      split
      · next identity _ => exact hwait.accept hattempt identity
      · next e _ => exact hwait.reject hattempt e
    · exact hwait
  · have hwait := h.wait nanos
    simp only [Logins.step, Logins.recordAttempt]
    split
    · next other e hattempt =>
      by_cases hip : ip = other
      · subst hip
        exact hwait.record_own hattempt
      · exact hwait.record_other hattempt hip
    · exact hwait
  · apply (h.wait nanos).relimit
    · rfl
    · rfl
    · exact Or.inr (entries_cleanup ..)

end Accounted

end Accounting

/-- With at most `most` requests of the address at once, fewer credentials than the limit and `most`
together are judged in a window. -/
theorem judgedIn_run_lt (maxFailures windowSecs most : Nat) (ip : String)
    (events : List LoginEvent)
    (hmost : Throughout Logins.step (fun s => s.inProgress ip ≤ most)
      (.start (.withConfig maxFailures windowSecs)) events) (first : Nat) :
    (run Logins.step (.start (.withConfig maxFailures windowSecs)) events).judgedIn ip first <
      max maxFailures 1 + most := by
  have hstart : Accounted ip maxFailures (max maxFailures 1 + most)
      (.start (.withConfig maxFailures windowSecs)) :=
    Accounted.start (.withConfig maxFailures windowSecs) rfl (by omega)
  exact (run_invariant_of_everyStep (fun s event hs hevent => hs.step rfl event hevent) hstart
    hmost.everyStep).within first

/-- One request at a time: no more failures than the limit. -/
theorem judgedIn_run_le (maxFailures windowSecs : Nat) (hpos : 0 < maxFailures) (ip : String)
    (events : List LoginEvent)
    (hserial : Throughout Logins.step (fun s => s.inProgress ip ≤ 1)
      (.start (.withConfig maxFailures windowSecs)) events) (first : Nat) :
    (run Logins.step (.start (.withConfig maxFailures windowSecs)) events).judgedIn ip first ≤
      maxFailures := by
  have hlt := judgedIn_run_lt maxFailures windowSecs 1 ip events hserial first
  omega

/-- A provider that knows no credential. -/
def AuthProvider.rejecting : AuthProvider :=
  ⟨fun _ => .error .tokenExpired, fun _ => .error .tokenExpired⟩

/-- With a limit of one, the second guess is refused unjudged. -/
theorem judgedIn_run_le_two_guesses :
    let events : List LoginEvent :=
      [.request 0 "10.0.0.1" (some "ApiKey a"), .validate 5 0 .rejecting, .record 0 0,
        .request 5 "10.0.0.1" (some "ApiKey b"), .validate 5 1 .rejecting]
    (run Logins.step (.start (.withConfig 1 60)) events).judged = [("10.0.0.1", 5)] ∧
      ∀ first, (run Logins.step (.start (.withConfig 1 60)) events).judgedIn "10.0.0.1" first ≤
        1 := by
  refine ⟨by decide, judgedIn_run_le 1 60 (by decide) "10.0.0.1" _ ?_⟩
  simp only [throughout_cons, throughout_nil]
  decide

/-- Six requests pass before the first failure is recorded. -/
theorem judgedIn_run_six_at_once :
    let events : List LoginEvent :=
      List.replicate 6 (.request 0 "10.0.0.1" (some "ApiKey guess")) ++
        (List.range 6).map (.validate 1 · .rejecting)
    new.maxFailures < (run Logins.step (.start .new) events).judgedIn "10.0.0.1" 0 := by
  decide

end LifeEngine.Auth
