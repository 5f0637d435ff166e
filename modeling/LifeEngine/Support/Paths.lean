import Mathlib.Data.List.Infix

/-!
# Lexical paths

An absolute path is the sequence of its components, each a name or a step to the
parent directory.  Resolving it lexically gives the names from the root of the
file system down to the place it denotes.  One place lies inside another when the
names of the second start those of the first.
-/

namespace LifeEngine.Support

variable {ν : Type*}

inductive Component (ν : Type*) where
  | name (n : ν)
  | up
  deriving DecidableEq

namespace Component

/-- Where a component leads from a given place. -/
def follow (place : List ν) : Component ν → List ν
  | name n => place ++ [n]
  | up => place.dropLast

end Component

abbrev AbsPath (ν : Type*) := List (Component ν)

namespace AbsPath

/-- The place of the path without symbolic links. -/
def resolve (path : AbsPath ν) : List ν :=
  path.foldl Component.follow []

/-- The last component, if it is a name. -/
def fileName (path : AbsPath ν) : Option ν :=
  match path.getLast? with
  | some (.name n) => some n
  | _ => none

/-- The path without its last component, if it has one. -/
def parent (path : AbsPath ν) : Option (AbsPath ν) :=
  if path.isEmpty then none else some path.dropLast

/-- Replaces the file name, or appends it if there is none. -/
def setFileName (path : AbsPath ν) (n : ν) : AbsPath ν :=
  (if path.fileName.isSome then path.dropLast else path) ++ [.name n]

/-- The path that consists of the given names. -/
def ofNames (names : List ν) : AbsPath ν :=
  names.map .name

@[simp] theorem resolve_nil : resolve ([] : AbsPath ν) = [] := rfl

@[simp] theorem resolve_concat (path : AbsPath ν) (c : Component ν) :
    resolve (path ++ [c]) = c.follow path.resolve := by
  simp [resolve]

theorem resolve_append_ofNames (path : AbsPath ν) (names : List ν) :
    resolve (path ++ ofNames names) = path.resolve ++ names := by
  induction names using List.reverseRecOn with
  | nil => simp [ofNames]
  | append_singleton names n ih =>
    have hsplit : path ++ ofNames (names ++ [n]) =
        (path ++ ofNames names) ++ [Component.name n] := by
      simp [ofNames]
    rw [hsplit, resolve_concat, ih, Component.follow, List.append_assoc]

variable (names : List ν)

@[simp] theorem resolve_ofNames : resolve (ofNames names) = names := by
  simpa using resolve_append_ofNames [] names

@[simp] theorem ofNames_nil : ofNames ([] : List ν) = [] := rfl

theorem ofNames_append (xs ys : List ν) : ofNames (xs ++ ys) = ofNames xs ++ ofNames ys := by
  simp [ofNames]

theorem fileName_ofNames : (ofNames names).fileName = names.getLast? := by
  simp only [fileName, ofNames, List.getLast?_map]
  cases names.getLast? <;> rfl

theorem parent_ofNames {names : List ν} (h : names ≠ []) :
    (ofNames names).parent = some (ofNames names.dropLast) := by
  simp [parent, ofNames, h]

theorem setFileName_ofNames (n : ν) :
    (ofNames names).setFileName n = ofNames (names.dropLast ++ [n]) := by
  rw [setFileName, fileName_ofNames]
  cases names with
  | nil => rfl
  | cons m names => simp [ofNames]

end AbsPath

/-! ## Above and below -/

/-- One place is a proper ancestor of another. -/
def Above (upper lower : List ν) : Prop :=
  upper <+: lower ∧ upper ≠ lower

instance [DecidableEq ν] (upper lower : List ν) : Decidable (Above upper lower) :=
  inferInstanceAs (Decidable (_ ∧ _))

theorem above_concat_iff {upper lower : List ν} {n : ν} :
    Above upper (lower ++ [n]) ↔ upper <+: lower := by
  constructor
  · rintro ⟨hpre, hne⟩
    rcases List.prefix_concat_iff.mp hpre with heq | hle
    · exact absurd heq hne
    · exact hle
  · intro hle
    refine ⟨hle.trans (List.prefix_append lower [n]), ?_⟩
    rintro rfl
    have hlen := hle.length_le
    rw [List.length_append, List.length_singleton] at hlen
    omega

theorem above_iff_prefix_dropLast {upper lower : List ν} :
    Above upper lower ↔ lower ≠ [] ∧ upper <+: lower.dropLast := by
  induction lower using List.reverseRecOn with
  | nil => simp [Above]
  | append_singleton lower n _ =>
    rw [above_concat_iff]
    simp

theorem Above.length_lt {upper lower : List ν} (h : Above upper lower) :
    upper.length < lower.length := by
  refine Nat.lt_of_le_of_ne h.1.length_le ?_
  intro hlen
  exact h.2 (h.1.eq_of_length hlen)

theorem Above.extend {upper middle lower : List ν} (h : Above upper middle)
    (hle : middle <+: lower) : Above upper lower := by
  refine ⟨h.1.trans hle, ?_⟩
  rintro rfl
  exact absurd hle.length_le (Nat.not_le_of_lt h.length_lt)

end LifeEngine.Support
