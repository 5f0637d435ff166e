import Mathlib.Data.List.Basic

/-!
# Computations that leave a trace

A computation sees the events of before, adds events of its own, and ends with a value
or leaves early.  Whatever answers it from outside may depend on all events so far, so
that an arbitrary environment is a function of the trace.
-/

namespace LifeEngine.Support

variable {ω ε α β : Type}

/-- The added events and the end, given the events before. -/
def Traced (ω ε α : Type) : Type :=
  List ω → List ω × Except ε α

namespace Traced

def run (x : Traced ω ε α) (history : List ω) : List ω × Except ε α :=
  x history

instance : Monad (Traced ω ε) where
  pure a := fun _ => ([], .ok a)
  bind x f := fun history =>
    match run x history with
    | (events, .ok a) =>
      (events ++ (run (f a) (history ++ events)).1, (run (f a) (history ++ events)).2)
    | (events, .error e) => (events, .error e)

/-- The events so far. -/
def history : Traced ω ε (List ω) :=
  fun h => ([], .ok h)

def emit (event : ω) : Traced ω ε Unit :=
  fun _ => ([event], .ok ())

def leave (exit : ε) : Traced ω ε α :=
  fun _ => ([], .error exit)

def ofExcept (result : Except ε α) : Traced ω ε α :=
  fun _ => ([], result)

section Runs

variable (h : List ω)

@[simp] theorem run_pure (a : α) : run (pure a : Traced ω ε α) h = ([], .ok a) := rfl

@[simp] theorem run_history : run (history : Traced ω ε (List ω)) h = ([], .ok h) := rfl

@[simp] theorem run_emit (event : ω) :
    run (emit event : Traced ω ε Unit) h = ([event], .ok ()) := rfl

@[simp] theorem run_leave (exit : ε) : run (leave exit : Traced ω ε α) h = ([], .error exit) := rfl

@[simp] theorem run_ofExcept (result : Except ε α) :
    run (ofExcept result : Traced ω ε α) h = ([], result) := rfl

/-- Every end without events in one form. -/
theorem leave_eq_ofExcept (exit : ε) : (leave exit : Traced ω ε α) = ofExcept (.error exit) := rfl

theorem pure_eq_ofExcept (a : α) : (pure a : Traced ω ε α) = ofExcept (.ok a) := rfl

theorem run_bind (x : Traced ω ε α) (f : α → Traced ω ε β) :
    run (x >>= f) h =
      match run x h with
      | (events, .ok a) => (events ++ (run (f a) (h ++ events)).1, (run (f a) (h ++ events)).2)
      | (events, .error e) => (events, .error e) := rfl

end Runs

section Bind

variable {x : Traced ω ε α} {f : α → Traced ω ε β} {h events : List ω}

theorem run_bind_ok {a : α} (hx : run x h = (events, .ok a)) :
    run (x >>= f) h = (events ++ (run (f a) (h ++ events)).1, (run (f a) (h ++ events)).2) := by
  rw [run_bind, hx]

theorem run_bind_error {e : ε} (hx : run x h = (events, .error e)) :
    run (x >>= f) h = (events, .error e) := by
  rw [run_bind, hx]

end Bind

@[simp] theorem run_history_bind (f : List ω → Traced ω ε β) (h : List ω) :
    run (history >>= f) h = run (f h) h := by
  rw [run_bind_ok (run_history h), List.nil_append, List.append_nil]

@[simp] theorem run_emit_bind (event : ω) (f : Unit → Traced ω ε β) (h : List ω) :
    run (emit event >>= f) h =
      (event :: (run (f ()) (h ++ [event])).1, (run (f ()) (h ++ [event])).2) := by
  rw [run_bind_ok (run_emit h event), List.singleton_append]

end Traced

theorem append_eq_append_cons {first second before after : List ω} {event : ω}
    (h : first ++ second = before ++ event :: after) :
    (∃ rest, first = before ++ event :: rest ∧ after = rest ++ second) ∨
      ∃ rest, before = first ++ rest ∧ second = rest ++ event :: after := by
  rcases List.append_eq_append_iff.mp h with ⟨rest, hbefore, hsecond⟩ | ⟨rest, hfirst, hafter⟩
  · exact .inr ⟨rest, hbefore, hsecond⟩
  · rcases rest with _ | ⟨head, rest⟩
    · rw [List.append_nil] at hfirst
      exact .inr ⟨[], by rw [hfirst, List.append_nil], hafter.symm⟩
    · rw [List.cons_append, List.cons.injEq] at hafter
      obtain ⟨rfl, hafter⟩ := hafter
      exact .inl ⟨rest, hfirst, hafter⟩

theorem singleton_eq_append_cons {first event : ω} {before after : List ω}
    (h : [first] = before ++ event :: after) : before = [] ∧ event = first ∧ after = [] := by
  rcases List.append_eq_singleton_iff.mp h.symm with ⟨rfl, hcons⟩ | ⟨-, hnil⟩
  · obtain ⟨rfl, rfl⟩ := List.cons.inj hcons
    exact ⟨rfl, rfl, rfl⟩
  · exact nomatch hnil

/-- A point of a trace of three parts, the first of one event. -/
theorem cons_append_eq_append_cons {first event : ω} {middle last before after : List ω}
    (h : first :: (middle ++ last) = before ++ event :: after) :
    (before = [] ∧ event = first ∧ after = middle ++ last) ∨
    (∃ front rest, before = first :: front ∧ middle = front ++ event :: rest ∧
      after = rest ++ last) ∨
    ∃ front, before = first :: (middle ++ front) ∧ last = front ++ event :: after := by
  rcases before with _ | ⟨head, before⟩
  · obtain ⟨rfl, rfl⟩ := List.cons.inj h
    exact .inl ⟨rfl, rfl, rfl⟩
  · obtain ⟨rfl, htail⟩ := List.cons.inj h
    rcases append_eq_append_cons htail with ⟨rest, hmiddle, hafter⟩ | ⟨front, hbefore, hlast⟩
    · exact .inr (.inl ⟨before, rest, rfl, hmiddle, hafter⟩)
    · exact .inr (.inr ⟨front, by rw [hbefore], hlast⟩)

end LifeEngine.Support
