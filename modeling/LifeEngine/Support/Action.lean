import LifeEngine.Support.Fallible

/-!
# Fallible actions on a state

An action reads and changes a state and ends with a value or an error.  The state
reached by a failing action is kept: what it did before it failed is not undone.
`Respects` is the rule for what such actions preserve.
-/

namespace LifeEngine.Support

open List

variable {σ ε ε' α β : Type}

abbrev Action (σ ε α : Type) := ExceptT ε (StateM σ) α

namespace Action

/-- The result of an action and the state it leaves. -/
def exec (x : Action σ ε α) (s : σ) : Except ε α × σ :=
  (ExceptT.run x).run s

/-- The action with the given results and states. -/
def ofStep (f : σ → Except ε α × σ) : Action σ ε α :=
  ExceptT.mk fun s => f s

/-- The action with its errors translated. -/
def mapErr (f : ε → ε') (x : Action σ ε α) : Action σ ε' α :=
  ofStep fun s => ((exec x s).1.mapError f, (exec x s).2)

/-- The action with its result, be it an error, as its value. -/
def attempt (x : Action σ ε α) : Action σ ε' (Except ε α) :=
  ofStep fun s => (.ok (exec x s).1, (exec x s).2)

/-- The action that only has the given result. -/
def ofResult (r : Except ε α) : Action σ ε α :=
  ofStep fun s => (r, s)

@[simp] theorem exec_ofStep (f : σ → Except ε α × σ) (s : σ) : exec (ofStep f) s = f s := rfl

@[simp] theorem exec_mapErr (f : ε → ε') (x : Action σ ε α) (s : σ) :
    exec (mapErr f x) s = ((exec x s).1.mapError f, (exec x s).2) := rfl

@[simp] theorem exec_attempt (x : Action σ ε α) (s : σ) :
    exec (attempt x : Action σ ε' (Except ε α)) s = (.ok (exec x s).1, (exec x s).2) := rfl

@[simp] theorem exec_ofResult (r : Except ε α) (s : σ) :
    exec (ofResult r : Action σ ε α) s = (r, s) := rfl

@[simp] theorem exec_pure (a : α) (s : σ) : exec (pure a : Action σ ε α) s = (.ok a, s) := rfl

theorem exec_bind (x : Action σ ε α) (f : α → Action σ ε β) (s : σ) :
    exec (x >>= f) s =
      match exec x s with
      | (.ok a, s') => exec (f a) s'
      | (.error e, s') => (.error e, s') := by
  simp only [exec, ExceptT.run_bind, StateT.run_bind]
  rcases (StateT.run (ExceptT.run x) s : Except ε α × σ) with ⟨r, s'⟩
  cases r <;> rfl

variable {x : Action σ ε α} {s s' : σ} {f : α → Action σ ε β} {r : Except ε α}

theorem exec_bind_ok {a : α} (h : exec x s = (.ok a, s')) : exec (x >>= f) s = exec (f a) s' := by
  rw [exec_bind, h]

theorem exec_bind_error {e : ε} (h : exec x s = (.error e, s')) :
    exec (x >>= f) s = (.error e, s') := by
  rw [exec_bind, h]

theorem exec_mapErr_ok {a : α} (h : exec x s = (.ok a, s')) (f : ε → ε') :
    exec (mapErr f x) s = (.ok a, s') := by
  rw [exec_mapErr, h]
  rfl

/-- An attempt always succeeds. -/
theorem exec_attempt_bind {f : Except ε α → Action σ ε' β} (h : exec x s = (r, s')) :
    exec (attempt x >>= f) s = exec (f r) s' := by
  rw [exec_bind, exec_attempt, h]

/-- After a known result, only the value it holds matters. -/
theorem ofResult_bind_congr {g : α → Action σ ε β} (h : ∀ a, r = .ok a → f a = g a) :
    ofResult r >>= f = ofResult r >>= g := by
  rcases r with e | a
  · rfl
  · exact h a rfl

/-- An action in two parts succeeds through both. -/
theorem of_exec_bind_ok {b : β} (h : exec (x >>= f) s = (.ok b, s')) :
    ∃ a s₁, exec x s = (.ok a, s₁) ∧ exec (f a) s₁ = (.ok b, s') := by
  rw [exec_bind] at h
  rcases hx : exec x s with ⟨r, s₁⟩
  rw [hx] at h
  cases r with
  | ok a => exact ⟨a, s₁, rfl, h⟩
  | error e => simp at h

theorem of_exec_mapErr_ok {f : ε → ε'} {a : α} (h : exec (mapErr f x) s = (.ok a, s')) :
    exec x s = (.ok a, s') := by
  rw [exec_mapErr, Prod.mk.injEq, mapError_eq_ok_iff] at h
  exact Prod.ext h.1 h.2

/-! ## What an action preserves -/

/-- The action leaves a state that `P` relates to the one before. -/
def Respects (P : σ → σ → Prop) (x : Action σ ε α) : Prop :=
  ∀ s, P s (exec x s).2

namespace Respects

section Rules

variable {P : σ → σ → Prop}

variable {x : Action σ ε α} {f : α → Action σ ε β}

theorem of_exec (h : Respects P x) {s s' : σ} {r : Except ε α} (hexec : exec x s = (r, s')) :
    P s s' := by
  have hs := h s
  rwa [hexec] at hs

theorem mapErr (h : Respects P x) (f : ε → ε') : Respects P (mapErr f x) := h

theorem attempt (h : Respects P x) : Respects P (attempt x : Action σ ε' (Except ε α)) := h

variable [IsPreorder σ P]

theorem pure (a : α) : Respects P (pure a : Action σ ε α) := fun s => refl_of P s

theorem throw (e : ε) : Respects P (throw e : Action σ ε α) := fun s => refl_of P s

theorem ofResult (r : Except ε α) : Respects P (ofResult r : Action σ ε α) := fun s => refl_of P s

theorem bind (hx : Respects P x) (hf : ∀ a, Respects P (f a)) : Respects P (x >>= f) := by
  intro s
  have hfirst := hx s
  rw [exec_bind]
  rcases hr : exec x s with ⟨r, s'⟩
  rw [hr] at hfirst
  cases r with
  | ok a => exact trans_of P hfirst (hf a s')
  | error e => exact hfirst

/-- After a known result, only the value it holds matters. -/
theorem ofResult_bind {r : Except ε α} (hf : ∀ a, r = .ok a → Respects P (f a)) :
    Respects P (Action.ofResult r >>= f) := by
  intro s
  cases r with
  | ok a => exact hf a rfl s
  | error e => exact refl_of P s

theorem mapM {l : List α} (hf : ∀ a ∈ l, Respects P (f a)) : Respects P (l.mapM f) := by
  induction l with
  | nil =>
    exact pure []
  | cons a l ih =>
    rw [mapM_cons]
    refine bind (hf a mem_cons_self) ?_
    intro b
    refine bind (ih fun c hc => hf c (mem_cons_of_mem a hc)) ?_
    intro bs
    exact pure (b :: bs)

end Rules

end Respects

section Loops

variable {I : σ → Prop} {f g : α → Action σ ε β} {l : List α}

/-- Loops whose bodies agree on an invariant agree. -/
theorem exec_mapM_congr (hinv : ∀ a ∈ l, ∀ s, I s → I (exec (f a) s).2)
    (h : ∀ a ∈ l, ∀ s, I s → exec (f a) s = exec (g a) s) {s : σ} (hs : I s) :
    exec (l.mapM f) s = exec (l.mapM g) s := by
  induction l generalizing s with
  | nil => rw [mapM_nil, mapM_nil]
  | cons a l ih =>
    have hnext := hinv a mem_cons_self s hs
    rw [mapM_cons, mapM_cons, exec_bind, exec_bind, ← h a mem_cons_self s hs]
    rcases hr : exec (f a) s with ⟨r, s'⟩
    rw [hr] at hnext
    cases r with
    | error e => rfl
    | ok b =>
      have hrest := ih (fun c hc => hinv c (mem_cons_of_mem a hc))
        (fun c hc => h c (mem_cons_of_mem a hc)) hnext
      simp only [exec_bind, hrest]

/-- What holds of every value that the body yields holds of all. -/
theorem of_exec_mapM_ok {G : β → Prop} (hinv : ∀ a ∈ l, ∀ s, I s → I (exec (f a) s).2)
    (h : ∀ a ∈ l, ∀ s, I s → ∀ b s', exec (f a) s = (.ok b, s') → G b) {s s' : σ}
    (hs : I s) {bs : List β} (hexec : exec (l.mapM f) s = (.ok bs, s')) :
    ∀ b ∈ bs, G b := by
  induction l generalizing s s' bs with
  | nil =>
    rw [mapM_nil, exec_pure, Prod.mk.injEq, Except.ok.injEq] at hexec
    simp [← hexec.1]
  | cons a l ih =>
    rw [mapM_cons] at hexec
    obtain ⟨b, s₁, hfirst, hexec⟩ := of_exec_bind_ok hexec
    obtain ⟨cs, s₂, hrest, hexec⟩ := of_exec_bind_ok hexec
    rw [exec_pure, Prod.mk.injEq, Except.ok.injEq] at hexec
    have hnext : I s₁ := by
      have hafter := hinv a mem_cons_self s hs
      rwa [hfirst] at hafter
    have hcs := ih (fun c hc => hinv c (mem_cons_of_mem a hc))
      (fun c hc => h c (mem_cons_of_mem a hc)) hnext hrest
    rw [← hexec.1, forall_mem_cons]
    exact ⟨h a mem_cons_self s hs b s₁ hfirst, hcs⟩

end Loops

end Action

end LifeEngine.Support
