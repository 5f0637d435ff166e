import LifeEngine.Support.Machine
import Mathlib.Data.List.Perm.Basic

/-!
# Subscriptions to record changes

The global counter of `record_changes` in the GraphQL routes.  A call adds one to it before it
looks at the limit and takes the one back on each path that ends without a stream; the guard of
a stream takes it back when the stream is dropped.  Calls and drops interleave between their
operations on the counter.
-/

namespace LifeEngine.Records

open Support

/-- `MAX_SUBSCRIPTIONS`. -/
def maxSubscriptions : Nat := 100

/-- `ACTIVE_SUBSCRIPTIONS`, with the calls in progress and the streams that are alive.  Of a call,
`current` is kept: what the counter was before its `fetch_add`. -/
structure Subscriptions where
  active : Int
  calls : List Int
  streams : Nat

namespace Subscriptions

def start : Subscriptions := ⟨0, [], 0⟩

inductive Event where
  /-- A call begins with its `fetch_add`. -/
  | request
  /-- The call at this place goes on to its end; `bus` tells if the context has a message bus. -/
  | answer (call : Nat) (bus : Bool)
  /-- The guard of a stream is dropped. -/
  | dropStream

/-- The rest of `record_changes`. -/
def finish (s : Subscriptions) (current : Int) (bus : Bool) : Subscriptions :=
  if current ≥ maxSubscriptions then { s with active := s.active - 1 }
  else if bus then { s with streams := s.streams + 1 }
  else { s with active := s.active - 1 }

def step (s : Subscriptions) : Event → Subscriptions
  | .request => { s with active := s.active + 1, calls := s.active :: s.calls }
  | .answer call bus =>
    match s.calls[call]? with
    | some current => { s with calls := s.calls.eraseIdx call }.finish current bus
    | none => s
  | .dropStream =>
    if s.streams = 0 then s else { s with active := s.active - 1, streams := s.streams - 1 }

/-- The calls that will not be refused for the limit. -/
def admitted (s : Subscriptions) : Nat :=
  s.calls.countP fun current : Int => current < maxSubscriptions

/-- The counter counts streams and calls, and there is room for all that were let through. -/
structure Counted (s : Subscriptions) : Prop where
  active : s.active = s.streams + s.calls.length
  room : s.streams + s.admitted ≤ maxSubscriptions

variable {s : Subscriptions}

theorem Counted.request (h : s.Counted) : (s.step .request).Counted := by
  have hactive := h.active
  have hroom := h.room
  have hcount : s.admitted ≤ s.calls.length := List.countP_le_length
  constructor
  · simp only [step, List.length_cons]
    omega
  · simp only [step, admitted, List.countP_cons, decide_eq_true_eq] at hcount hroom ⊢
    split <;> omega

/-- The call that goes on is one of those that are counted. -/
theorem Counted.finish {current : Int} {calls : List Int} (h : s.Counted)
    (hcalls : (current :: calls).Perm s.calls) (bus : Bool) :
    ({ s with calls }.finish current bus).Counted := by
  have hactive := h.active
  have hroom := h.room
  have hlength := hcalls.length_eq
  have hcount : (current :: calls).countP (fun current : Int => current < maxSubscriptions) =
      s.admitted :=
    hcalls.countP_eq _
  rw [← hcount, List.countP_cons] at hroom
  rw [List.length_cons] at hlength
  unfold Subscriptions.finish
  by_cases hfull : current ≥ maxSubscriptions
  · rw [if_pos hfull]
    refine ⟨?_, Nat.le_trans (Nat.add_le_add_left (Nat.le_add_right _ _) _) hroom⟩
    dsimp only
    omega
  · rw [if_neg hfull]
    rw [if_pos (by simpa using hfull)] at hroom
    cases bus with
    | true =>
      constructor
      · simp only [↓reduceIte]
        omega
      · simp only [↓reduceIte, admitted]
        omega
    | false =>
      constructor
      · simp only [Bool.false_eq_true, ↓reduceIte]
        omega
      · simp only [Bool.false_eq_true, ↓reduceIte, admitted]
        omega

theorem Counted.step (h : s.Counted) (event : Event) : (s.step event).Counted := by
  cases event with
  | request => exact h.request
  | answer call bus =>
    simp only [Subscriptions.step]
    split
    next current hcall =>
      obtain ⟨hlt, rfl⟩ := List.getElem?_eq_some_iff.mp hcall
      exact h.finish (List.getElem_cons_eraseIdx_perm hlt) bus
    next => exact h
  | dropStream =>
    have hactive := h.active
    have hroom := h.room
    simp only [Subscriptions.step]
    split
    · exact h
    · constructor
      · dsimp only
        omega
      · simp only [admitted] at hroom ⊢
        omega

/-- After any interleaving, the streams stay within the limit, the counter is not below them, and
it is their number when no call is in progress. -/
theorem streams_counted (events : List Event) :
    let s := run step start events
    s.streams ≤ maxSubscriptions ∧ (s.streams : Int) ≤ s.active ∧ 0 ≤ s.active ∧
      (s.calls = [] → s.active = s.streams) := by
  intro s
  have h : s.Counted := run_invariant (fun _ event h => h.step event) ⟨rfl, by decide⟩ events
  have hactive := h.active
  have hroom := h.room
  refine ⟨by omega, by omega, by omega, ?_⟩
  intro hcalls
  simpa [hcalls] using hactive

end Subscriptions

end LifeEngine.Records
