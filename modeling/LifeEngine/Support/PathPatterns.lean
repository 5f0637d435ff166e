import Mathlib.Data.List.Basic

/-!
# Patterns of paths

A pattern of a path is a sequence of fixed symbols and of parameters, which stand for what
comes before the next separator; at its end, it may leave the rest of the path open.  Of
the patterns that match a path, a router selects the one that is fixed at the first place
where it differs from the others.  Two patterns conflict if they differ at no such place.
-/

namespace LifeEngine.Support

/-- A part of a pattern. -/
inductive PathToken (α : Type*) where
  | lit (a : α)
  | param
  | rest
  deriving DecidableEq, Repr

abbrev PathPattern (α : Type*) := List (PathToken α)

variable {α : Type*}

/-- One is fixed, or at its end, where the other has its first parameter more. -/
def moreSpecific : PathPattern α → PathPattern α → Bool
  | [], .param :: _ => true
  | .lit _ :: _, .param :: _ => true
  | .lit _ :: _, .rest :: _ => true
  | .lit _ :: p, .lit _ :: q => moreSpecific p q
  | .param :: p, .param :: q => moreSpecific p q
  | _, _ => false

theorem moreSpecific_self (p : PathPattern α) : moreSpecific p p = false := by
  induction p with
  | nil => rfl
  | cons t p ih => cases t <;> simp [moreSpecific, ih]

theorem moreSpecific_trans {p q r : PathPattern α} (hpq : moreSpecific p q = true)
    (hqr : moreSpecific q r = true) : moreSpecific p r = true := by
  induction p generalizing q r with
  | nil =>
    rcases q with _ | ⟨_ | _ | _, q⟩ <;> simp [moreSpecific] at hpq
    rcases r with _ | ⟨_ | _ | _, r⟩ <;> simp [moreSpecific] at hqr ⊢
  | cons t p ih =>
    rcases t with _ | _ | _ <;> rcases q with _ | ⟨_ | _ | _, q⟩ <;>
      simp only [moreSpecific, Bool.false_eq_true] at hpq
    -- the second pattern is fixed where the first is, or has a parameter there
    · rcases r with _ | ⟨_ | _ | _, r⟩ <;> simp only [moreSpecific, Bool.false_eq_true] at hqr ⊢
      exact ih hpq hqr
    · rcases r with _ | ⟨_ | _ | _, r⟩ <;> simp only [moreSpecific, Bool.false_eq_true] at hqr ⊢
    · rcases r with _ | ⟨_ | _ | _, r⟩ <;> simp [moreSpecific] at hqr
    · rcases r with _ | ⟨_ | _ | _, r⟩ <;> simp only [moreSpecific, Bool.false_eq_true] at hqr ⊢
      exact ih hpq hqr

section Conflicts

variable [DecidableEq α]

/-- The patterns are the same, or open in two ways at the first place where they differ. -/
def conflicts : PathPattern α → PathPattern α → Bool
  | [], [] => true
  | .lit a :: p, .lit b :: q => decide (a = b) && conflicts p q
  | .param :: p, .param :: q => conflicts p q
  | .param :: _, .rest :: _ => true
  | .rest :: _, .param :: _ => true
  | .rest :: _, .rest :: _ => true
  | _, _ => false

theorem conflicts_self (p : PathPattern α) : conflicts p p = true := by
  induction p with
  | nil => rfl
  | cons t p ih => cases t <;> simp [conflicts, ih]

theorem conflicts_comm (p q : PathPattern α) : conflicts p q = conflicts q p := by
  induction p generalizing q with
  | nil => rcases q with _ | ⟨_ | _ | _, q⟩ <;> rfl
  | cons t p ih =>
    rcases t with _ | _ | _ <;> rcases q with _ | ⟨_ | _ | _, q⟩ <;> simp [conflicts, ih, eq_comm]

end Conflicts

section Selection

-- `fills` tells what a parameter may stand for, given what follows.
variable [DecidableEq α] (sep : α) (fills : List α → List α → Bool)

def patternMatches : PathPattern α → List α → Bool
  | [], path => path.isEmpty
  | .lit _ :: _, [] => false
  | .lit a :: p, b :: path => decide (a = b) && patternMatches p path
  | .param :: p, path =>
    fills (path.takeWhile (· ≠ sep)) (path.dropWhile (· ≠ sep)) &&
      patternMatches p (path.dropWhile (· ≠ sep))
  | .rest :: _, path => !path.isEmpty

/-- The pattern that a router selects for the path. -/
def selectPattern (path : List α) : List (PathPattern α) → Option (PathPattern α)
  | [] => none
  | p :: rest =>
    match selectPattern path rest with
    | some q => if patternMatches sep fills p path && moreSpecific p q then some p else some q
    | none => if patternMatches sep fills p path then some p else none

variable {sep fills} {path : List α} {p : PathPattern α} {patterns : List (PathPattern α)}

/-- Patterns of one path conflict, or one is more specific. -/
theorem conflicts_or_moreSpecific {q : PathPattern α} (hp : patternMatches sep fills p path = true)
    (hq : patternMatches sep fills q path = true) :
    conflicts p q = true ∨ moreSpecific p q = true ∨ moreSpecific q p = true := by
  induction p generalizing q path with
  | nil =>
    rcases q with _ | ⟨_ | _ | _, q⟩
    · exact .inl rfl
    · rcases path with _ | ⟨a, path⟩ <;> simp [patternMatches] at hp hq
    · exact .inr (.inl rfl)
    · rcases path with _ | ⟨a, path⟩ <;> simp [patternMatches] at hp hq
  | cons t p ih =>
    rcases t with a | _ | _
    · rcases path with _ | ⟨b, path⟩
      · simp [patternMatches] at hp
      rcases q with _ | ⟨c | _ | _, q⟩
      · simp [patternMatches] at hq
      · -- both have the first symbol of the path
        simp only [patternMatches, Bool.and_eq_true, decide_eq_true_eq] at hp hq
        obtain ⟨rfl, hp⟩ := hp
        obtain ⟨rfl, hq⟩ := hq
        simpa [conflicts, moreSpecific] using ih hp hq
      · exact .inr (.inl rfl)
      · exact .inr (.inl rfl)
    · rcases q with _ | ⟨c | _ | _, q⟩
      · exact .inr (.inr rfl)
      · exact .inr (.inr rfl)
      · simp only [patternMatches, Bool.and_eq_true] at hp hq
        simpa [conflicts, moreSpecific] using ih hp.2 hq.2
      · exact .inl rfl
    · rcases q with _ | ⟨c | _ | _, q⟩
      · rcases path with _ | ⟨a, path⟩ <;> simp [patternMatches] at hp hq
      · exact .inr (.inr rfl)
      · exact .inl rfl
      · exact .inl rfl

theorem not_matches_of_selectPattern (h : selectPattern sep fills path patterns = none) :
    ∀ p ∈ patterns, patternMatches sep fills p path = false := by
  induction patterns with
  | nil => simp
  | cons p rest ih =>
    rcases hrest : selectPattern sep fills path rest with _ | q
    · by_cases hp : patternMatches sep fills p path = true
      · simp [selectPattern, hrest, hp] at h
      · simpa [hp] using ih hrest
    · simp only [selectPattern, hrest] at h
      split_ifs at h

/-- The selected one matches, and none that matches is more specific. -/
theorem selectPattern_spec (h : selectPattern sep fills path patterns = some p) :
    p ∈ patterns ∧ patternMatches sep fills p path = true ∧
      ∀ q ∈ patterns, patternMatches sep fills q path = true → moreSpecific q p = false := by
  induction patterns generalizing p with
  | nil => exact nomatch h
  | cons first rest ih =>
    rcases hrest : selectPattern sep fills path rest with _ | q
    · simp only [selectPattern, hrest, Option.ite_none_right_eq_some, Option.some.injEq] at h
      obtain ⟨hfirst, rfl⟩ := h
      refine ⟨List.mem_cons_self, hfirst, ?_⟩
      rw [List.forall_mem_cons]
      refine ⟨fun _ => moreSpecific_self first, fun r hr hmatches => ?_⟩
      exact absurd hmatches (by simp [not_matches_of_selectPattern hrest r hr])
    · obtain ⟨hmem, hmatches, hbest⟩ := ih hrest
      simp only [selectPattern, hrest] at h
      split_ifs at h with hfirst
      · obtain rfl := Option.some.inj h
        rw [Bool.and_eq_true] at hfirst
        refine ⟨List.mem_cons_self, hfirst.1, ?_⟩
        rw [List.forall_mem_cons]
        refine ⟨fun _ => moreSpecific_self first, fun r hr hr' => ?_⟩
        rw [← Bool.not_eq_true]
        intro hspecific
        have hmore := moreSpecific_trans hspecific hfirst.2
        rw [hbest r hr hr'] at hmore
        exact nomatch hmore
      · obtain rfl := Option.some.inj h
        refine ⟨List.mem_cons_of_mem first hmem, hmatches, ?_⟩
        rw [List.forall_mem_cons]
        refine ⟨fun hfirst' => ?_, hbest⟩
        simpa [hfirst'] using hfirst

theorem exists_selectPattern (hmem : p ∈ patterns)
    (hmatches : patternMatches sep fills p path = true) :
    ∃ q, selectPattern sep fills path patterns = some q := by
  rcases hselect : selectPattern sep fills path patterns with _ | q
  · rw [not_matches_of_selectPattern hselect p hmem] at hmatches
    exact nomatch hmatches
  · exact ⟨q, rfl⟩

/-- Selection, if patterns that conflict are the same. -/
theorem selectPattern_eq_some_iff
    (hsame : ∀ p ∈ patterns, ∀ q ∈ patterns, conflicts p q = true → p = q) :
    selectPattern sep fills path patterns = some p ↔
      p ∈ patterns ∧ patternMatches sep fills p path = true ∧
        ∀ q ∈ patterns, patternMatches sep fills q path = true → moreSpecific q p = false := by
  refine ⟨selectPattern_spec, ?_⟩
  rintro ⟨hmem, hmatches, hbest⟩
  obtain ⟨q, hselect⟩ := exists_selectPattern hmem hmatches
  obtain ⟨hqmem, hqmatches, hqbest⟩ := selectPattern_spec hselect
  rcases conflicts_or_moreSpecific hmatches hqmatches with hconflict | hpq | hqp
  · rw [hselect, hsame p hmem q hqmem hconflict]
  · rw [hqbest p hmem hmatches] at hpq
    exact nomatch hpq
  · rw [hbest q hqmem hqmatches] at hqp
    exact nomatch hqp

end Selection

end LifeEngine.Support
