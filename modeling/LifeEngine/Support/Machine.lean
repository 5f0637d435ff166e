import Mathlib.Data.List.Basic

/-!
# Runs of deterministic machines

A machine takes one input at a time and moves from state to state.  This file
collects what every safety argument about such machines uses: the state reached
by a run, a predicate that holds at every step of a run, and the rules which
derive facts about whole runs from facts about single steps.
-/

namespace LifeEngine.Support

variable {σ ι : Type*} (step : σ → ι → σ)

/-- The state reached from `s` after the given inputs. -/
def run (s : σ) (inputs : List ι) : σ :=
  inputs.foldl step s

@[simp] theorem run_nil (s : σ) : run step s [] = s := rfl

@[simp] theorem run_cons (s : σ) (i : ι) (is : List ι) :
    run step s (i :: is) = run step (step s i) is := rfl

theorem run_append (s : σ) (xs ys : List ι) :
    run step s (xs ++ ys) = run step (run step s xs) ys := by
  simp [run]

theorem run_concat (s : σ) (xs : List ι) (i : ι) :
    run step s (xs ++ [i]) = step (run step s xs) i := by
  simp [run_append]

/-- What a machine that replies to its inputs replies in the run from `s`. -/
def replies {ρ : Type*} (step : σ → ι → ρ × σ) : σ → List ι → List ρ
  | _, [] => []
  | s, i :: is => (step s i).1 :: replies step (step s i).2 is

/-- A simulation: machines whose related states reply alike and stay related reply alike. -/
theorem replies_eq {ρ τ : Type*} {step : σ → ι → ρ × σ} {next : τ → ι → ρ × τ}
    {R : σ → τ → Prop} {is : List ι}
    (hstep : ∀ i ∈ is, ∀ s t, R s t → (step s i).1 = (next t i).1 ∧ R (step s i).2 (next t i).2)
    {s : σ} {t : τ} (h : R s t) : replies step s is = replies next t is := by
  induction is generalizing s t with
  | nil => rfl
  | cons i is ih =>
    obtain ⟨hreply, hnext⟩ := hstep i List.mem_cons_self s t h
    rw [replies, replies, hreply, ih (fun j hj => hstep j (List.mem_cons_of_mem i hj)) hnext]

/-- Two machines that take the same inputs side by side. -/
theorem run_pair {τ : Type*} (next : τ → ι → τ) (s : σ) (t : τ) (inputs : List ι) :
    run (fun p i => (step p.1 i, next p.2 i)) (s, t) inputs =
      (run step s inputs, run next t inputs) := by
  induction inputs generalizing s t with
  | nil => rfl
  | cons i inputs ih => exact ih (step s i) (next t i)

/-- `P` holds of each input and the state before it. -/
def EveryStep (P : σ → ι → Prop) (s : σ) (inputs : List ι) : Prop :=
  ∀ pre i post, inputs = pre ++ i :: post → P (run step s pre) i

/-- The predicate holds at every moment of the run from `s`. -/
def Throughout (Inv : σ → Prop) (s : σ) (inputs : List ι) : Prop :=
  ∀ pre post, inputs = pre ++ post → Inv (run step s pre)

variable {step}

theorem everyStep_nil (P : σ → ι → Prop) (s : σ) : EveryStep step P s [] := by
  intro pre i post h
  simp at h

variable {s : σ} {P : σ → ι → Prop} {Inv : σ → Prop} {is : List ι}

theorem everyStep_cons {i : ι} :
    EveryStep step P s (i :: is) ↔ P s i ∧ EveryStep step P (step s i) is := by
  constructor
  · intro h
    refine ⟨h [] i is rfl, ?_⟩
    intro pre j post hsplit
    exact h (i :: pre) j post (by simp [hsplit])
  · rintro ⟨hhead, htail⟩ pre j post hsplit
    cases pre with
    | nil =>
      obtain ⟨rfl, -⟩ := List.cons.inj hsplit
      exact hhead
    | cons k pre =>
      obtain ⟨rfl, hrest⟩ := List.cons.inj hsplit
      exact htail pre j post hrest

/-- A predicate preserved by every step holds after every run. -/
theorem run_invariant (hstep : ∀ s i, Inv s → Inv (step s i)) (hs : Inv s) (is : List ι) :
    Inv (run step s is) := by
  induction is generalizing s with
  | nil => exact hs
  | cons i is ih => exact ih (hstep s i hs)

/-- Steps that satisfy `P` keep the predicate. -/
theorem run_invariant_of_everyStep (hstep : ∀ s i, Inv s → P s i → Inv (step s i)) (hs : Inv s)
    (his : EveryStep step P s is) : Inv (run step s is) := by
  induction is generalizing s with
  | nil => exact hs
  | cons i is ih =>
    obtain ⟨hfirst, hrest⟩ := everyStep_cons.mp his
    exact ih (hstep s i hs hfirst) hrest

/-- A run keeps the predicate exactly when all of its steps satisfy `P`. -/
theorem run_iff_everyStep (hstep : ∀ s i, Inv (step s i) ↔ Inv s ∧ P s i) (s : σ) (is : List ι) :
    Inv (run step s is) ↔ Inv s ∧ EveryStep step P s is := by
  induction is generalizing s with
  | nil => exact ⟨fun h => ⟨h, everyStep_nil P s⟩, fun h => h.1⟩
  | cons i is ih =>
    rw [run_cons, ih, hstep, everyStep_cons, and_assoc]

theorem everyStep_congr {Q : σ → ι → Prop} (hPQ : ∀ s i, P s i ↔ Q s i) (s : σ) (is : List ι) :
    EveryStep step P s is ↔ EveryStep step Q s is := by
  constructor
  · intro h pre i post hsplit
    exact (hPQ _ _).mp (h pre i post hsplit)
  · intro h pre i post hsplit
    exact (hPQ _ _).mpr (h pre i post hsplit)

/-- Two step predicates agree along a run if they do under an invariant that the second keeps. -/
theorem everyStep_congr_of_invariant {Q : σ → ι → Prop}
    (hstep : ∀ s i, Inv s → Q s i → Inv (step s i)) (hPQ : ∀ s i, Inv s → (P s i ↔ Q s i))
    (hs : Inv s) (is : List ι) :
    EveryStep step P s is ↔ EveryStep step Q s is := by
  induction is generalizing s with
  | nil => exact ⟨fun _ => everyStep_nil Q s, fun _ => everyStep_nil P s⟩
  | cons i is ih =>
    rw [everyStep_cons, everyStep_cons, hPQ s i hs]
    constructor
    · rintro ⟨hfirst, hrest⟩
      exact ⟨hfirst, (ih (hstep s i hs hfirst)).mp hrest⟩
    · rintro ⟨hfirst, hrest⟩
      exact ⟨hfirst, (ih (hstep s i hs hfirst)).mpr hrest⟩

theorem throughout_nil : Throughout step Inv s [] ↔ Inv s := by
  constructor
  · intro h
    exact h [] [] rfl
  · intro h pre post hsplit
    rw [(List.append_eq_nil_iff.mp hsplit.symm).1]
    exact h

theorem throughout_cons {i : ι} :
    Throughout step Inv s (i :: is) ↔ Inv s ∧ Throughout step Inv (step s i) is := by
  constructor
  · intro h
    refine ⟨h [] (i :: is) rfl, ?_⟩
    intro pre post hsplit
    exact h (i :: pre) post (by simp [hsplit])
  · rintro ⟨hhead, htail⟩ pre post hsplit
    rcases pre with _ | ⟨j, pre⟩
    · exact hhead
    · obtain ⟨rfl, hrest⟩ := List.cons.inj hsplit
      exact htail pre post hrest

/-- All that is seen is right exactly if every step satisfies `P`: such steps keep an invariant, and
any other step shows. -/
theorem throughout_iff_everyStep {Obs : σ → Prop} (hobs : ∀ s, Inv s → Obs s)
    (hkeep : ∀ s i, Inv s → P s i → Inv (step s i))
    (hneed : ∀ s i, Inv s → Obs (step s i) → P s i) (hs : Inv s) (is : List ι) :
    Throughout step Obs s is ↔ EveryStep step P s is := by
  induction is generalizing s with
  | nil => exact iff_of_true (throughout_nil.mpr (hobs s hs)) (everyStep_nil P s)
  | cons i is ih =>
    rw [throughout_cons, everyStep_cons]
    constructor
    · rintro ⟨-, hrest⟩
      have hfirst := hneed s i hs (hrest [] is rfl)
      exact ⟨hfirst, (ih (hkeep s i hs hfirst)).mp hrest⟩
    · rintro ⟨hfirst, hrest⟩
      exact ⟨hobs s hs, (ih (hkeep s i hs hfirst)).mpr hrest⟩

/-- What holds at every moment holds after every step. -/
theorem Throughout.everyStep (h : Throughout step Inv s is) :
    EveryStep step (fun s i => Inv (step s i)) s is := by
  intro pre i post hsplit
  have hafter := h (pre ++ [i]) post (by simp [hsplit])
  rwa [run_concat] at hafter

theorem EveryStep.of_append_left {xs ys : List ι} (h : EveryStep step P s (xs ++ ys)) :
    EveryStep step P s xs := by
  intro pre i post hsplit
  exact h pre i (post ++ ys) (by simp [hsplit])

theorem EveryStep.of_append_right {xs ys : List ι} (h : EveryStep step P s (xs ++ ys)) :
    EveryStep step P (run step s xs) ys := by
  intro pre i post hsplit
  have hP := h (xs ++ pre) i post (by simp [hsplit])
  rwa [run_append] at hP

end LifeEngine.Support
