import Mathlib.Data.List.Nodup
import Mathlib.Data.List.Perm.Subperm

/-!
# Counting semaphores

A semaphore has a number of free permits.  The list of those who own a permit is
kept beside it; permits and owners balance when nobody owns two permits and
every permit is either free or owned.
-/

namespace LifeEngine.Support

/-- `free` permits are free, and each of the others has one owner. -/
structure Balanced {τ : Type*} (total free : Nat) (owners : List τ) : Prop where
  nodup : owners.Nodup
  count : free + owners.length = total

namespace Balanced

variable {τ : Type*} {total free : Nat} {owners : List τ} {x : τ}

theorem start (total : Nat) : Balanced total total ([] : List τ) := ⟨List.nodup_nil, rfl⟩

theorem take (h : Balanced total (free + 1) owners) (hx : x ∉ owners) :
    Balanced total free (x :: owners) := by
  refine ⟨List.nodup_cons.mpr ⟨hx, h.nodup⟩, ?_⟩
  have hcount := h.count
  rw [List.length_cons]
  omega

theorem give [DecidableEq τ] (h : Balanced total free owners) (hx : x ∈ owners) :
    Balanced total (free + 1) (owners.erase x) := by
  refine ⟨h.nodup.erase x, ?_⟩
  have hcount := h.count
  have hlength := List.length_erase_of_mem hx
  have hpos := List.length_pos_of_mem hx
  omega

/-- No more tasks own a permit than there are permits. -/
theorem length_le (h : Balanced total free owners) {tasks : List τ}
    (hnodup : tasks.Nodup) (howners : ∀ x ∈ tasks, x ∈ owners) :
    tasks.length ≤ total := by
  have hsub : tasks.length ≤ owners.length := (List.subperm_of_subset hnodup howners).length_le
  have hcount := h.count
  omega

theorem owners_eq_nil (h : Balanced 0 free owners) : owners = [] := by
  apply List.eq_nil_of_length_eq_zero
  have hcount := h.count
  omega

end Balanced

end LifeEngine.Support
