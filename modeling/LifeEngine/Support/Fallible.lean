import Mathlib.Data.List.Forall2

/-!
# Sequences of checks

Fallible code runs one check after another and stops at the first that fails.
These lemmas take a successful run of such code apart, one step at a time.
-/

namespace LifeEngine.Support

universe u v

variable {ε : Type u} {α β : Type v}

/-- Fails with the error unless the condition holds. -/
def ensure (condition : Prop) [Decidable condition] (e : ε) : Except ε Unit :=
  if condition then .ok () else .error e

/-- The value, or the given error if there is none. -/
def okOr (value : Option α) (e : ε) : Except ε α :=
  match value with
  | some a => .ok a
  | none => .error e

@[simp] theorem okOr_some (a : α) (e : ε) : okOr (some a) e = .ok a := rfl

theorem ensure_eq_ok_iff {condition : Prop} [Decidable condition] {e : ε} {u : Unit} :
    ensure condition e = .ok u ↔ condition := by
  unfold ensure
  by_cases h : condition <;> simp

theorem bind_eq_ok_iff {x : Except ε α} {f : α → Except ε β} {b : β} :
    (x >>= f) = .ok b ↔ ∃ a, x = .ok a ∧ f a = .ok b := by
  cases x <;> simp [bind, Except.bind]

theorem map_eq_ok_iff {x : Except ε α} {f : α → β} {b : β} :
    f <$> x = .ok b ↔ ∃ a, x = .ok a ∧ f a = b := by
  cases x <;> simp [Functor.map, Except.map]

/-- A loop of checks succeeds exactly when every check does. -/
theorem forM_eq_ok_iff {γ : Type*} {f : γ → Except ε PUnit} {l : List γ} {u : PUnit} :
    l.forM f = .ok u ↔ ∀ a ∈ l, f a = .ok ⟨⟩ := by
  induction l with
  | nil => simp [pure, Except.pure]
  | cons a l ih =>
    have hcons : (a :: l).forM f = f a >>= fun _ => l.forM f := rfl
    rw [hcons, bind_eq_ok_iff, List.forall_mem_cons]
    constructor
    · rintro ⟨_, hfirst, hrest⟩
      exact ⟨hfirst, ih.mp hrest⟩
    · rintro ⟨hfirst, hrest⟩
      exact ⟨⟨⟩, hfirst, ih.mpr hrest⟩

/-- A traversal succeeds with the results of its elements. -/
theorem forall₂_of_mapM_ok {γ : Type*} {f : γ → Except ε β} {l : List γ} {bs : List β}
    (h : l.mapM f = .ok bs) : List.Forall₂ (fun a b => f a = .ok b) l bs := by
  induction l generalizing bs with
  | nil =>
    obtain rfl : [] = bs := Except.ok.inj h
    exact .nil
  | cons a l ih =>
    rw [List.mapM_cons] at h
    obtain ⟨b, hfirst, h⟩ := bind_eq_ok_iff.mp h
    obtain ⟨bs', hrest, h⟩ := bind_eq_ok_iff.mp h
    obtain rfl : b :: bs' = bs := Except.ok.inj h
    exact .cons hfirst (ih hrest)

/-- What holds of the state and the elements so far. -/
theorem foldlM_ok_induction {γ : Type*} {f : β → γ → Except ε β} {P : List γ → β → Prop}
    (hstep : ∀ done b a b', P done b → f b a = .ok b' → P (done ++ [a]) b')
    {l done : List γ} {b b' : β} (hinit : P done b) (h : l.foldlM f b = .ok b') :
    P (done ++ l) b' := by
  induction l generalizing done b with
  | nil =>
    obtain rfl : b = b' := Except.ok.inj h
    rwa [List.append_nil]
  | cons a l ih =>
    obtain ⟨next, hfirst, hrest⟩ := bind_eq_ok_iff.mp h
    rw [List.append_cons]
    exact ih (hstep done b a next hinit hfirst) hrest

/-- What each round of a loop keeps. -/
theorem foldlM_ok_invariant {γ : Type*} {f : β → γ → Except ε β} {P : β → Prop}
    (hstep : ∀ b a b', P b → f b a = .ok b' → P b') {l : List γ} {b b' : β} (hinit : P b)
    (h : l.foldlM f b = .ok b') : P b' :=
  @foldlM_ok_induction ε β γ f (fun _ => P) (fun _ => hstep) l [] b b' hinit h

section MapError

variable {ε' : Type u} {f : ε → ε'}

@[simp] theorem mapError_ok (a : α) : (Except.ok a).mapError f = .ok a := rfl

@[simp] theorem mapError_error (e : ε) :
    (Except.error e : Except ε α).mapError f = .error (f e) := rfl

theorem mapError_eq_ok_iff {x : Except ε α} {a : α} : x.mapError f = .ok a ↔ x = .ok a := by
  cases x <;> simp

end MapError

end LifeEngine.Support
