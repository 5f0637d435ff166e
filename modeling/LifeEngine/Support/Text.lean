import Mathlib.Data.List.Chain
import Mathlib.Data.List.Infix
import Mathlib.Data.List.TakeWhile

/-!
# Fields of separated sequences

Facts about sequences that are cut into fields at a separator, as paths and
dotted names are.  The fields of a sequence are those of `List.splitOn`.
-/

namespace LifeEngine.Support

open List

variable {α : Type*}

/-! ## Adjacent pairs -/

theorem not_pair_infix_iff_isChain (a b : α) (xs : List α) :
    ¬ [a, b] <:+: xs ↔ xs.IsChain (fun x y => ¬ (x = a ∧ y = b)) := by
  induction xs with
  | nil => simp
  | cons x xs ih =>
    rw [infix_cons_iff, not_or, ih]
    cases xs with
    | nil => simp
    | cons y ys =>
      rw [isChain_cons_cons]
      have hhead : [a, b] <+: x :: y :: ys ↔ x = a ∧ y = b := by
        simp [eq_comm]
      rw [hhead]

/-! ## Fields -/

variable [DecidableEq α]

theorem splitOn_cons_self (sep : α) (xs : List α) :
    (sep :: xs).splitOn sep = [] :: xs.splitOn sep := by
  simp [splitOn_eq_splitOnP, splitOnP_cons_eq_if_modifyHead]

variable {sep : α} {xs piece pattern : List α} {pieces : List (List α)}

theorem splitOn_cons_of_ne {x : α} (hne : x ≠ sep) (xs : List α) :
    (x :: xs).splitOn sep = (xs.splitOn sep).modifyHead (List.cons x) := by
  simp [splitOn_eq_splitOnP, splitOnP_cons_eq_if_modifyHead, hne]

/-- There is one field more than there are separators. -/
theorem length_splitOn (sep : α) (xs : List α) : (xs.splitOn sep).length = xs.count sep + 1 := by
  induction xs with
  | nil => rfl
  | cons x xs ih =>
    by_cases hx : x = sep
    · subst hx
      rw [splitOn_cons_self, length_cons, ih, count_cons_self]
    · rw [splitOn_cons_of_ne hx, length_modifyHead, ih, count_cons_of_ne hx]

/-- The fields after the first are nonempty exactly when something follows every separator. -/
theorem tail_fields_nonempty_and (sep : α) (xs : List α) :
    ((∀ f ∈ (xs.splitOn sep).tail, f ≠ []) ↔
      xs.getLast? ≠ some sep ∧ xs.IsChain (fun x y => ¬ (x = sep ∧ y = sep))) ∧
    ((∀ f ∈ xs.splitOn sep, f ≠ []) ↔
      xs ≠ [] ∧ xs.head? ≠ some sep ∧ xs.getLast? ≠ some sep ∧
        xs.IsChain (fun x y => ¬ (x = sep ∧ y = sep))) := by
  induction xs with
  | nil => simp
  | cons x xs ih =>
    obtain ⟨htail, hall⟩ := ih
    by_cases hx : x = sep
    · subst hx
      rw [splitOn_cons_self, tail_cons, hall]
      constructor
      · cases xs with
        | nil => simp
        | cons y ys => simp [and_left_comm]
      · simp
    · have htail' : ((x :: xs).splitOn sep).tail = (xs.splitOn sep).tail := by
        rw [splitOn_cons_of_ne hx]
        cases xs.splitOn sep <;> rfl
      have hall' : (∀ f ∈ (x :: xs).splitOn sep, f ≠ []) ↔ ∀ f ∈ (xs.splitOn sep).tail, f ≠ [] := by
        rw [splitOn_cons_of_ne hx]
        cases hfields : xs.splitOn sep <;> simp
      have hchain : (x :: xs).IsChain (fun x y => ¬ (x = sep ∧ y = sep)) ↔
          xs.IsChain (fun x y => ¬ (x = sep ∧ y = sep)) := by
        cases xs with
        | nil => simp
        | cons y ys => simp [hx]
      have hlast : (x :: xs).getLast? ≠ some sep ↔ xs.getLast? ≠ some sep := by
        cases xs with
        | nil => simp [hx]
        | cons y ys => simp
      rw [hall', htail', htail, hchain, hlast]
      simp [hx]

/-- All fields are nonempty exactly when no separator stands at an end or next to another. -/
theorem fields_nonempty_iff (sep : α) (xs : List α) :
    (∀ f ∈ xs.splitOn sep, f ≠ []) ↔
      xs ≠ [] ∧ xs.head? ≠ some sep ∧ xs.getLast? ≠ some sep ∧
        xs.IsChain (fun x y => ¬ (x = sep ∧ y = sep)) :=
  (tail_fields_nonempty_and sep xs).2

omit [DecidableEq α] in
theorem infix_intercalate_of_mem {s : List α} (h : piece ∈ pieces) :
    piece <:+: s.intercalate pieces := by
  induction pieces with
  | nil => simp at h
  | cons first rest ih =>
    rcases rest with _ | ⟨second, rest⟩
    · obtain rfl : piece = first := by simpa using h
      simp
    · rw [intercalate_cons_cons]
      rcases mem_cons.mp h with rfl | hrest
      · exact ((prefix_append piece s).trans (prefix_append _ _)).isInfix
      · exact (ih hrest).trans (suffix_append _ _).isInfix

omit [DecidableEq α] in
/-- A pair without the separator stands in one of the pieces. -/
theorem not_pair_infix_intercalate {a b : α} (ha : sep ≠ a) (hb : sep ≠ b)
    (h : ∀ piece ∈ pieces, ¬ [a, b] <:+: piece) :
    ¬ [a, b] <:+: [sep].intercalate pieces := by
  induction pieces with
  | nil => simp [intercalate]
  | cons first rest ih =>
    have hfirst := h first mem_cons_self
    rcases rest with _ | ⟨second, rest⟩
    · simpa using hfirst
    · have hrest := ih fun piece hmem => h piece (mem_cons_of_mem first hmem)
      rw [not_pair_infix_iff_isChain] at hfirst hrest ⊢
      rw [intercalate_cons_cons, append_assoc, isChain_append, isChain_append]
      refine ⟨hfirst, ⟨isChain_singleton sep, hrest, ?_⟩, ?_⟩
      · intro x hx y _ hpair
        simp only [getLast?_singleton, Option.mem_some_iff] at hx
        exact ha (hx.trans hpair.1)
      · intro x _ y hy hpair
        simp only [singleton_append, List.head?_cons, Option.mem_some_iff] at hy
        exact hb (hy.trans hpair.2)

omit [DecidableEq α] in
theorem mem_intercalate {x : α} (h : x ∈ [sep].intercalate pieces) :
    x = sep ∨ ∃ piece ∈ pieces, x ∈ piece := by
  induction pieces with
  | nil => simp at h
  | cons first rest ih =>
    rcases rest with _ | ⟨second, rest⟩
    · exact Or.inr ⟨first, mem_singleton_self first, by simpa using h⟩
    · rw [intercalate_cons_cons, append_assoc, mem_append, mem_append, mem_singleton] at h
      rcases h with h | rfl | h
      · exact Or.inr ⟨first, mem_cons_self, h⟩
      · exact Or.inl rfl
      · rcases ih h with rfl | ⟨piece, hpiece, hx⟩
        · exact Or.inl rfl
        · exact Or.inr ⟨piece, mem_cons_of_mem _ hpiece, hx⟩

omit [DecidableEq α] in
theorem intercalate_append_head (s front piece : List α) (pieces : List (List α)) :
    s.intercalate ((front ++ piece) :: pieces) = front ++ s.intercalate (piece :: pieces) := by
  cases pieces <;> simp

omit [DecidableEq α] in
theorem intercalate_append {s : List α} {pieces' : List (List α)} (h : pieces ≠ [])
    (h' : pieces' ≠ []) :
    s.intercalate (pieces ++ pieces') = s.intercalate pieces ++ s ++ s.intercalate pieces' := by
  induction pieces with
  | nil => exact absurd rfl h
  | cons first rest ih =>
    rcases rest with _ | ⟨second, rest⟩
    · obtain ⟨next, pieces', rfl⟩ := exists_cons_of_ne_nil h'
      simp
    · rw [cons_append, cons_append, intercalate_cons_cons, ← cons_append,
        ih (by simp), intercalate_cons_cons]
      simp only [append_assoc]

omit [DecidableEq α] in
/-- Pieces that are joined themselves are joined all at once. -/
theorem intercalate_map_intercalate {β : Type*} {s : List α} {f : β → List (List α)}
    {xs : List β} (h : ∀ x ∈ xs, f x ≠ []) :
    s.intercalate (xs.map fun x => s.intercalate (f x)) = s.intercalate (xs.flatMap f) := by
  induction xs with
  | nil => rfl
  | cons x xs ih =>
    rw [forall_mem_cons] at h
    rcases xs with _ | ⟨y, ys⟩
    · simp
    · have hrest : (y :: ys).flatMap f ≠ [] := by
        rw [flatMap_cons]
        exact append_ne_nil_of_left_ne_nil (h.2 y mem_cons_self) _
      rw [flatMap_cons, intercalate_append h.1 hrest, ← ih h.2, map_cons,
        map_cons, intercalate_cons_cons]

theorem infix_of_mem_splitOn (h : piece ∈ xs.splitOn sep) : piece <:+: xs := by
  have hstands := infix_intercalate_of_mem (s := [sep]) h
  rwa [intercalate_splitOn] at hstands

theorem sep_not_mem_of_mem_splitOn (h : piece ∈ xs.splitOn sep) : sep ∉ piece := by
  induction xs generalizing piece with
  | nil =>
    obtain rfl : piece = [] := by simpa using h
    simp
  | cons x xs ih =>
    by_cases hx : x = sep
    · subst hx
      rw [splitOn_cons_self] at h
      rcases mem_cons.mp h with rfl | hrest
      · simp
      · exact ih hrest
    · rw [splitOn_cons_of_ne hx] at h
      cases hfields : xs.splitOn sep with
      | nil => simp [hfields] at h
      | cons first rest =>
        rw [hfields] at h
        rcases mem_cons.mp h with rfl | hrest
        · have hfirst : sep ∉ first := ih (by simp [hfields])
          simp [hfirst, Ne.symm hx]
        · exact ih (by simp [hfields, hrest])

/-! ## The first field -/

/-- What stands before the first separator. -/
def firstField (sep : α) (xs : List α) : List α :=
  xs.takeWhile (fun x => x ≠ sep)

theorem firstField_append_of_mem (h : sep ∈ xs) (ys : List α) :
    firstField sep (xs ++ ys) = firstField sep xs := by
  induction xs with
  | nil => simp at h
  | cons x xs ih =>
    by_cases hx : x = sep
    · simp [firstField, hx]
    · have hmem : sep ∈ xs := by simpa [Ne.symm hx] using h
      simpa [firstField, hx] using ih hmem

theorem firstField_append_of_not_mem (h : sep ∉ xs) (ys : List α) :
    firstField sep (xs ++ ys) = xs ++ firstField sep ys := by
  refine takeWhile_append_of_pos ?_
  intro x hx
  have hne : x ≠ sep := fun he => h (he ▸ hx)
  simpa using hne

theorem firstField_append_cons (h : sep ∉ xs) (ys : List α) :
    firstField sep (xs ++ sep :: ys) = xs := by
  rw [firstField_append_of_not_mem h]
  simp [firstField]

/-! ## Joined fields -/

theorem splitOn_append_cons (sep : α) (xs ys : List α) :
    (xs ++ sep :: ys).splitOn sep = xs.splitOn sep ++ ys.splitOn sep := by
  exact splitOnP_append_cons xs ys (beq_self_eq_true sep)

theorem splitOn_append_cons_of_not_mem (h : sep ∉ xs) (ys : List α) :
    (xs ++ sep :: ys).splitOn sep = xs :: ys.splitOn sep := by
  rw [splitOn_append_cons, splitOn_eq_singleton h, singleton_append]

theorem splitOn_intercalate_eq_flatMap (h : pieces ≠ []) :
    ([sep].intercalate pieces).splitOn sep = pieces.flatMap (·.splitOn sep) := by
  induction pieces with
  | nil => exact absurd rfl h
  | cons first rest ih =>
    rcases rest with _ | ⟨second, rest⟩
    · simp
    · rw [intercalate_cons_cons, append_assoc, singleton_append, splitOn_append_cons, ih (by simp)]
      simp

/-- Joined pieces are read back exactly if each is free of separators and reads back by itself,
provided none is read back from its first field only. -/
theorem map_getD_fields_iff {β γ : Type*} {enc : γ → List α} {read : List α → β} {want : γ → β}
    {xs : List γ}
    (hread : ∀ x ∈ xs, ∀ front back, enc x = front ++ sep :: back → sep ∉ front →
      read front ≠ want x) :
    ((List.range xs.length).map fun i =>
        read ((xs.flatMap fun x => (enc x).splitOn sep).getD i [])) = xs.map want ↔
      ∀ x ∈ xs, sep ∉ enc x ∧ read (enc x) = want x := by
  induction xs with
  | nil => simp
  | cons x xs ih =>
    rw [forall_mem_cons] at hread ⊢
    rw [← ih hread.2, length_cons, range_succ_eq_map, flatMap_cons]
    by_cases hx : sep ∈ enc x
    · obtain ⟨front, back, henc, hfront⟩ := eq_append_cons_of_mem hx
      have hne := hread.1 front back henc hfront
      rw [henc, splitOn_append_cons_of_not_mem hfront]
      simp [hne]
    · rw [splitOn_eq_singleton hx]
      simp [hx, Function.comp_def]

/-! ## Cutting at a pattern -/

/-- What stands before and after a pattern. -/
def cut (pattern : List α) : List α → Option (List α × List α)
  | [] => if pattern = [] then some ([], []) else none
  | x :: xs =>
    if pattern.isPrefixOf (x :: xs) then some ([], (x :: xs).drop pattern.length)
    else (cut pattern xs).map fun parts => (x :: parts.1, parts.2)

/-- Before the first occurrence, or all if there is none. -/
def firstPiece (pattern xs : List α) : List α :=
  match cut pattern xs with
  | some (before, _) => before
  | none => xs

/-- Between the first occurrence and the next. -/
def secondPiece (pattern xs : List α) : Option (List α) :=
  (cut pattern xs).map fun parts => firstPiece pattern parts.2

theorem eq_append_of_cut {before after : List α} (h : cut pattern xs = some (before, after)) :
    xs = before ++ pattern ++ after := by
  induction xs generalizing before with
  | nil =>
    by_cases hp : pattern = []
    · simp only [cut, if_pos hp, Option.some.injEq, Prod.mk.injEq] at h
      simp [hp, ← h.1, ← h.2]
    · simp [cut, hp] at h
  | cons x xs ih =>
    by_cases hp : pattern.isPrefixOf (x :: xs) = true
    · simp only [cut, if_pos hp, Option.some.injEq, Prod.mk.injEq] at h
      obtain ⟨rest, hrest⟩ := isPrefixOf_iff_prefix.mp hp
      rw [← h.1, ← h.2, ← hrest, drop_left]
      rfl
    · simp only [cut, if_neg hp, Option.map_eq_some_iff] at h
      obtain ⟨⟨front, back⟩, hcut, rfl, rfl⟩ := h
      simpa using ih hcut

theorem cut_append {p : α} {before : List α} (hp : p ∉ before) (after : List α) :
    cut (p :: pattern) (before ++ p :: pattern ++ after) = some (before, after) := by
  induction before with
  | nil => simp [cut]
  | cons x xs ih =>
    simp only [mem_cons, not_or] at hp
    have hne : ¬ (p :: pattern).isPrefixOf (x :: (xs ++ p :: pattern ++ after)) = true := by
      rw [ isPrefixOf_iff_prefix, cons_prefix_cons]
      exact fun h => hp.1 h.1
    rw [cons_append, cons_append, cut, if_neg hne, ih hp.2]
    rfl

/-! ## Replacing -/

/-- Put `new` in the place of every `old`. -/
def replaceChar (old : α) (new : List α) (xs : List α) : List α :=
  xs.flatMap fun x => if x = old then new else [x]

theorem replaceChar_of_not_mem {old : α} {new : List α} (h : old ∉ xs) :
    replaceChar old new xs = xs := by
  induction xs with
  | nil => rfl
  | cons x xs ih =>
    rw [mem_cons, not_or] at h
    rw [replaceChar, flatMap_cons, if_neg (Ne.symm h.1), ← replaceChar, ih h.2, singleton_append]

/-! ## Initial segments -/

omit [DecidableEq α] in
theorem takeWhile_append_cons {p : α → Bool} {x : α} (hx : p x = false)
    (xs ys : List α) : (xs ++ x :: ys).takeWhile p = xs.takeWhile p := by
  induction xs with
  | nil => simp [hx]
  | cons y ys ih =>
    by_cases hy : p y = true
    · simp [hy, ih]
    · simp [hy]

theorem takeWhile_firstPiece {p : α → Bool} {x : α} (hx : p x = false) (xs : List α) :
    (firstPiece (x :: pattern) xs).takeWhile p = xs.takeWhile p := by
  unfold firstPiece
  split
  · next before after hcut =>
    rw [eq_append_of_cut hcut, append_assoc, cons_append, takeWhile_append_cons hx]
  · rfl

end LifeEngine.Support
