import LifeEngine.Support.Machine
import Mathlib.Data.Finset.Card

/-!
# Registers with limited writes

A register takes a write if all writes before it were to the same place and there were
fewer of them than the limit of the write.  It remembers the writes that it took, the
last one first.  When the same writes arrive in different orders and numbers, different
ones can be the last: the main result says which.
-/

namespace LifeEngine.Support.Register

open List

variable {α κ : Type*} [DecidableEq κ] (key : α → κ) (limit : α → ℕ)

/-- The register with the writes `log` takes the write. -/
def Takes (log : List α) (w : α) : Prop :=
  (∀ e ∈ log, key e = key w) ∧ log.length < limit w

instance (log : List α) (w : α) : Decidable (Takes key limit log w) :=
  inferInstanceAs (Decidable (_ ∧ _))

def write (log : List α) (w : α) : List α :=
  if Takes key limit log w then w :: log else log

variable {key limit} {log : List α} {w x : α}

theorem write_of_takes (h : Takes key limit log w) : write key limit log w = w :: log := if_pos h

theorem write_of_not_takes (h : ¬ Takes key limit log w) : write key limit log w = log := if_neg h

omit [DecidableEq κ] in
theorem takes_nil_iff : Takes key limit [] w ↔ 0 < limit w := by
  constructor
  · exact fun h => h.2
  · exact fun h => ⟨fun e he => absurd he not_mem_nil, h⟩

omit [DecidableEq κ] in
theorem takes_cons (hsame : key x = key w) (h : ∀ e ∈ log, key e = key w)
    (hlength : log.length + 1 < limit w) : Takes key limit (x :: log) w := by
  refine ⟨?_, hlength⟩
  intro e he
  rcases mem_cons.mp he with rfl | he
  · exact hsame
  · exact h e he

theorem suffix_write (log : List α) (w : α) : log <:+ write key limit log w := by
  by_cases h : Takes key limit log w
  · rw [write_of_takes h]
    exact suffix_cons w log
  · rw [write_of_not_takes h]

/-- Writes are never forgotten. -/
theorem suffix_run (log : List α) (ws : List α) : log <:+ run (write key limit) log ws := by
  induction ws generalizing log with
  | nil => exact suffix_refl log
  | cons w ws ih => exact (suffix_write log w).trans (ih (write key limit log w))

variable {ws : List α} {S : Finset α}

theorem run_of_not_takes (h : ∀ w ∈ ws, ¬ Takes key limit log w) :
    run (write key limit) log ws = log := by
  induction ws with
  | nil => rfl
  | cons w ws ih =>
    rw [run_cons, write_of_not_takes (h w mem_cons_self)]
    exact ih fun v hv => h v (mem_cons_of_mem w hv)

theorem run_of_room {k : κ} (hlog : ∀ e ∈ log, key e = k) (hkey : ∀ w ∈ ws, key w = k)
    (hroom : ∀ w ∈ ws, log.length + ws.length ≤ limit w) :
    run (write key limit) log ws = ws.reverse ++ log := by
  induction ws generalizing log with
  | nil => rfl
  | cons w ws ih =>
    have hw := hroom w mem_cons_self
    have htakes : Takes key limit log w := by
      refine ⟨fun e he => (hlog e he).trans (hkey w mem_cons_self).symm, ?_⟩
      rw [length_cons] at hw
      omega
    rw [run_cons, write_of_takes htakes, ih]
    · simp
    · intro e he
      rcases mem_cons.mp he with rfl | he
      · exact hkey e mem_cons_self
      · exact hlog e he
    · exact fun v hv => hkey v (mem_cons_of_mem w hv)
    · intro v hv
      have hlimit := hroom v (mem_cons_of_mem w hv)
      simp only [length_cons] at hlimit ⊢
      omega

/-- The last write that was taken. -/
theorem split_of_run_eq_cons (h : run (write key limit) [] ws = x :: log) :
    ∃ before after, ws = before ++ x :: after ∧ run (write key limit) [] before = log ∧
      Takes key limit log x ∧ ∀ w ∈ after, ¬ Takes key limit (x :: log) w := by
  induction ws using reverseRecOn with
  | nil => cases h
  | append_singleton ws w ih =>
    rw [run_concat] at h
    by_cases htakes : Takes key limit (run (write key limit) [] ws) w
    · rw [write_of_takes htakes] at h
      obtain ⟨rfl, rfl⟩ := List.cons.inj h
      exact ⟨ws, [], rfl, rfl, htakes, fun v hv => absurd hv not_mem_nil⟩
    · rw [write_of_not_takes htakes] at h
      obtain ⟨before, after, rfl, hbefore, hx, hafter⟩ := ih h
      refine ⟨before, after ++ [w], by simp, hbefore, hx, ?_⟩
      intro v hv
      rcases mem_append.mp hv with hv | hv
      · exact hafter v hv
      · obtain rfl := mem_singleton.mp hv
        rwa [h] at htakes

/-- A write that would still be taken in the end has been taken. -/
theorem mem_run_of_mem (hw : w ∈ ws) (htakes : Takes key limit (run (write key limit) log ws) w) :
    w ∈ run (write key limit) log ws := by
  obtain ⟨before, after, rfl⟩ := append_of_mem hw
  rw [run_append, run_cons] at htakes ⊢
  set earlier := run (write key limit) log before
  have hsuffix : write key limit earlier w <:+
      run (write key limit) (write key limit earlier w) after := suffix_run _ after
  have hearlier : Takes key limit earlier w := by
    have hall : earlier <:+ run (write key limit) (write key limit earlier w) after :=
      (suffix_write earlier w).trans hsuffix
    refine ⟨fun e he => htakes.1 e (hall.subset he), ?_⟩
    exact hall.length_le.trans_lt htakes.2
  rw [write_of_takes hearlier] at hsuffix ⊢
  exact hsuffix.subset mem_cons_self

variable [DecidableEq α]

variable (key limit) in
/-- The writes to the same place with a higher limit. -/
def above (S : Finset α) (x : α) : Finset α :=
  S.filter fun y => key y = key x ∧ limit x < limit y

theorem card_above_lt_of_last (hws : ∀ w, w ∈ ws ↔ w ∈ S)
    (h : run (write key limit) [] ws = x :: log) : (above key limit S x).card < limit x := by
  obtain ⟨before, after, rfl, rfl, hx, hafter⟩ := split_of_run_eq_cons h
  set log := run (write key limit) [] before with hlog
  -- All of them came before `x` and were taken.
  have hsub : above key limit S x ⊆ log.toFinset := by
    intro y hy
    obtain ⟨hyS, hkey, hlimit⟩ := Finset.mem_filter.mp hy
    have hkeys : ∀ e ∈ log, key e = key y := fun e he => (hx.1 e he).trans hkey.symm
    have hlater : Takes key limit (x :: log) y := by
      apply takes_cons hkey.symm hkeys
      have hlength := hx.2
      omega
    have hmem : y ∈ before := by
      rcases mem_append.mp ((hws y).mpr hyS) with hbefore | hrest
      · exact hbefore
      · rcases mem_cons.mp hrest with rfl | hrest
        · exact absurd hlimit (lt_irrefl _)
        · exact absurd hlater (hafter y hrest)
    rw [mem_toFinset]
    exact mem_run_of_mem hmem ⟨hkeys, hx.2.trans hlimit⟩
  calc (above key limit S x).card ≤ log.toFinset.card := Finset.card_le_card hsub
    _ ≤ log.length := toFinset_card_le log
    _ < limit x := hx.2

variable (key limit) in
/-- First what has a higher limit, then `x` up to its own, then the rest. -/
noncomputable def endingWith (S : Finset α) (x : α) : List α :=
  (above key limit S x).toList ++
    List.replicate (limit x - (above key limit S x).card) x ++
    (S \ above key limit S x).toList

theorem mem_endingWith (hxS : x ∈ S) (w : α) : w ∈ endingWith key limit S x ↔ w ∈ S := by
  simp only [endingWith, mem_append, Finset.mem_toList, Finset.mem_sdiff, mem_replicate]
  constructor
  · rintro ((hw | ⟨-, rfl⟩) | hw)
    · exact (Finset.mem_filter.mp hw).1
    · exact hxS
    · exact hw.1
  · intro hw
    by_cases habove : w ∈ above key limit S x
    · exact Or.inl (Or.inl habove)
    · exact Or.inr ⟨hw, habove⟩

omit [DecidableEq α] in
theorem run_upTo_limit (h : (above key limit S x).card < limit x) :
    run (write key limit) [] ((above key limit S x).toList ++
        List.replicate (limit x - (above key limit S x).card) x) =
      List.replicate (limit x - (above key limit S x).card) x ++
        (above key limit S x).toList.reverse := by
  have hmem : ∀ w ∈ (above key limit S x).toList ++
      List.replicate (limit x - (above key limit S x).card) x,
      key w = key x ∧ limit x ≤ limit w := by
    intro w hw
    rcases mem_append.mp hw with hw | hw
    · obtain ⟨-, hkey, hlimit⟩ := Finset.mem_filter.mp (Finset.mem_toList.mp hw)
      exact ⟨hkey, hlimit.le⟩
    · rw [eq_of_mem_replicate hw]
      exact ⟨rfl, le_rfl⟩
  rw [run_of_room (k := key x) (fun e he => absurd he not_mem_nil) (fun w hw => (hmem w hw).1)]
  · rw [append_nil, reverse_append, reverse_replicate]
  · intro w hw
    have hlimit := (hmem w hw).2
    simp only [length_nil, length_append, Finset.length_toList, length_replicate]
    omega

theorem run_endingWith (h : (above key limit S x).card < limit x) :
    ∃ log, run (write key limit) [] (endingWith key limit S x) = x :: log := by
  obtain ⟨m, hm⟩ : ∃ m, limit x - (above key limit S x).card = m + 1 :=
    ⟨limit x - (above key limit S x).card - 1, by omega⟩
  refine ⟨List.replicate m x ++ (above key limit S x).toList.reverse, ?_⟩
  rw [endingWith, run_append, run_upTo_limit h, hm, replicate_succ]
  -- The limit of `x` is reached, and the rest go no further.
  apply run_of_not_takes
  intro w hw htakes
  obtain ⟨hwS, hnot⟩ := Finset.mem_sdiff.mp (Finset.mem_toList.mp hw)
  apply hnot
  rw [above, Finset.mem_filter]
  refine ⟨hwS, (htakes.1 x mem_cons_self).symm, ?_⟩
  have hlimit := htakes.2
  simp only [length_cons, length_append, length_reverse, Finset.length_toList,
    length_replicate] at hlimit
  omega

/-- Some order ends with `x` exactly if the writes that go further do not use up its limit. -/
theorem exists_last_iff (hxS : x ∈ S) :
    (∃ ws log, (∀ w, w ∈ ws ↔ w ∈ S) ∧ run (write key limit) [] ws = x :: log) ↔
      (above key limit S x).card < limit x := by
  constructor
  · rintro ⟨ws, log, hws, hrun⟩
    exact card_above_lt_of_last hws hrun
  · intro h
    obtain ⟨log, hrun⟩ := run_endingWith h
    exact ⟨endingWith key limit S x, log, mem_endingWith hxS, hrun⟩

end LifeEngine.Support.Register
