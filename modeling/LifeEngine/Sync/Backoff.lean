import Mathlib.Algebra.Ring.Nat

/-!
# Exponential backoff

Connectors wait longer after each failure.  Both implementations double a base delay up to a
maximum, but stop the doubling after a fixed number of steps, whether the maximum is reached or
not.
-/

namespace LifeEngine.Sync

/-- `saturating_mul` of `u64`. -/
def saturatingMul (a b : Nat) : Nat :=
  min (a * b) (2 ^ 64 - 1)

/-- `<<` of `u64`. -/
def shiftLeft (a n : Nat) : Nat :=
  a * 2 ^ n % 2 ^ 64

/-- The delay with the given exponent, which is cut off at `cap`. -/
def backoff (base maximum : UInt64) (cap exponent : Nat) : Nat :=
  min (saturatingMul base.toNat (shiftLeft 1 (min exponent cap))) maximum.toNat

/-- Without jitter. -/
structure RetryState where
  failureCount : UInt32
  backoffMinSecs : UInt64
  backoffMaxSecs : UInt64

def RetryState.computeBackoff (s : RetryState) : Nat :=
  if s.failureCount = 0 then 0
  else backoff s.backoffMinSecs s.backoffMaxSecs 31 (s.failureCount.toNat - 1)

structure SyncBackoff where
  baseDelaySecs : UInt64
  maxDelaySecs : UInt64
  failureThreshold : UInt32
  consecutiveFailures : UInt32

/-- The delay, and the tracker with the failure counted. -/
def SyncBackoff.recordFailure (s : SyncBackoff) : Option Nat × SyncBackoff :=
  let failures := min (s.consecutiveFailures.toNat + 1) (2 ^ 32 - 1)
  (if failures < s.failureThreshold.toNat then none
    else some (backoff s.baseDelaySecs s.maxDelaySecs 10 (failures - s.failureThreshold.toNat)),
    { s with consecutiveFailures := UInt32.ofNat failures })

/-- Step by step the delays double, up to the maximum. -/
structure Doubles (base maximum first last : Nat) (delay : Nat → Nat) : Prop where
  exact : ∀ k, first ≤ k → k ≤ last → delay k = min (base * 2 ^ k) maximum
  grows : ∀ j k, first ≤ j → j ≤ k → k ≤ last → delay j ≤ delay k
  reaches : 1 ≤ base → ∃ n, first ≤ n ∧ n ≤ last ∧ ∀ k, n ≤ k → k ≤ last → delay k = maximum

/-- Nothing overflows. -/
theorem backoff_eq (base maximum : UInt64) {cap : Nat} (hcap : cap < 64) (k : Nat) :
    backoff base maximum cap k = min (base.toNat * 2 ^ min k cap) maximum.toNat := by
  have hpow : 2 ^ min k cap < 2 ^ 64 :=
    Nat.pow_lt_pow_right (by decide) (Nat.lt_of_le_of_lt (Nat.min_le_right k cap) hcap)
  have hmaximum := maximum.toNat_lt
  rw [backoff, saturatingMul, shiftLeft, Nat.one_mul, Nat.mod_eq_of_lt hpow]
  omega

theorem doubles_iff {base maximum first last cap : Nat} {delay : Nat → Nat} (hsteps : first ≤ last)
    (h : ∀ k, first ≤ k → k ≤ last → delay k = min (base * 2 ^ min k cap) maximum) :
    Doubles base maximum first last delay ↔ base = 0 ∨ maximum ≤ base * 2 ^ min last cap := by
  constructor
  · intro hdoubles
    by_cases hbase : base = 0
    · exact Or.inl hbase
    · obtain ⟨n, -, hn, hreached⟩ := hdoubles.reaches (Nat.pos_of_ne_zero hbase)
      have hlast := hreached last hn (Nat.le_refl last)
      rw [h last hsteps (Nat.le_refl last)] at hlast
      exact Or.inr (by omega)
  · intro hcond
    have hpow : ∀ i j, i ≤ j → base * 2 ^ i ≤ base * 2 ^ j := fun i j hij =>
      Nat.mul_le_mul_left base (Nat.pow_le_pow_right (by decide) hij)
    refine ⟨fun k hfirst hk => ?_, fun j k hj hjk hk => ?_, fun hbase => ?_⟩
    · rw [h k hfirst hk]
      -- beyond the cut both sides are the maximum
      by_cases hcut : k ≤ cap
      · rw [Nat.min_eq_left hcut]
      · rcases hcond with rfl | hcond
        · simp
        · have hle := hpow cap k (by omega)
          rw [show min last cap = cap by omega] at hcond
          rw [show min k cap = cap by omega]
          omega
    · rw [h j hj (by omega), h k (by omega) hk]
      have hle := hpow (min j cap) (min k cap) (by omega)
      omega
    · refine ⟨last, hsteps, Nat.le_refl last, fun k hn hk => ?_⟩
      rw [h k (by omega) hk, show k = last by omega]
      rcases hcond with rfl | hcond
      · exact absurd hbase (by decide)
      · exact Nat.min_eq_right hcond

/-- The delay of a retry state after `k` failures more than one. -/
def retryDelay (base maximum : UInt64) (k : Nat) : Nat :=
  (RetryState.mk (UInt32.ofNat (k + 1)) base maximum).computeBackoff

/-- The delay returned for the failure that brings the count to `k` above the threshold. -/
def syncDelay (base maximum : UInt64) (threshold : UInt32) (k : Nat) : Nat :=
  (SyncBackoff.mk base maximum threshold
    (UInt32.ofNat (threshold.toNat + k - 1))).recordFailure.1.getD 0

theorem retryDelay_eq (base maximum : UInt64) {k : Nat} (hk : k ≤ 2 ^ 32 - 2) :
    retryDelay base maximum k = min (base.toNat * 2 ^ min k 31) maximum.toNat := by
  have hcount : (UInt32.ofNat (k + 1)).toNat = k + 1 :=
    UInt32.toNat_ofNat_of_lt' (show _ < 2 ^ 32 by omega)
  have hne : UInt32.ofNat (k + 1) ≠ 0 := fun h => by
    rw [h] at hcount
    exact absurd hcount (by simp)
  rw [retryDelay, RetryState.computeBackoff, if_neg hne, hcount, backoff_eq _ _ (by decide)]
  rfl

theorem syncDelay_eq (base maximum : UInt64) (threshold : UInt32) {k : Nat}
    (hfirst : 1 - threshold.toNat ≤ k) (hk : k ≤ 2 ^ 32 - 1 - threshold.toNat) :
    syncDelay base maximum threshold k = min (base.toNat * 2 ^ min k 10) maximum.toNat := by
  have hthreshold := threshold.toNat_lt
  have hcount : (UInt32.ofNat (threshold.toNat + k - 1)).toNat = threshold.toNat + k - 1 :=
    UInt32.toNat_ofNat_of_lt' (show _ < 2 ^ 32 by omega)
  have hfailures : min (threshold.toNat + k - 1 + 1) (2 ^ 32 - 1) = threshold.toNat + k := by omega
  simp only [syncDelay, SyncBackoff.recordFailure, hcount, hfailures]
  rw [if_neg (by omega), Option.getD_some, Nat.add_sub_cancel_left, backoff_eq _ _ (by decide)]

/-- The delays double up to the maximum exactly when it is reached before the doubling stops. -/
theorem delays_double_iff (base maximum : UInt64) (threshold : UInt32) :
    (Doubles base.toNat maximum.toNat 0 (2 ^ 32 - 2) (retryDelay base maximum) ↔
      base = 0 ∨ maximum.toNat ≤ base.toNat * 2 ^ 31) ∧
    (Doubles base.toNat maximum.toNat (1 - threshold.toNat) (2 ^ 32 - 1 - threshold.toNat)
        (syncDelay base maximum threshold) ↔
      base = 0 ∨ maximum.toNat ≤ base.toNat * 2 ^ min (2 ^ 32 - 1 - threshold.toNat) 10) := by
  have hbase : base.toNat = 0 ↔ base = 0 := UInt64.toNat_inj (b := 0)
  rw [← hbase]
  exact ⟨doubles_iff (Nat.zero_le _) fun k _ hk => retryDelay_eq base maximum hk,
    doubles_iff (by omega) fun k hfirst hk => syncDelay_eq base maximum threshold hfirst hk⟩

/-- With a base of one second, ten steps stop short of an hour. -/
theorem not_doubles_hour :
    ¬ Doubles 1 3600 (1 - (3 : UInt32).toNat) (2 ^ 32 - 1 - (3 : UInt32).toNat)
      (syncDelay 1 3600 3) := by
  intro hdoubles
  have hstep := hdoubles.exact 12 (by decide) (by decide)
  revert hstep
  decide

end LifeEngine.Sync
