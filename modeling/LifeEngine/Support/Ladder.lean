import Mathlib.Data.Finset.Card
import Mathlib.Data.List.Chain
import Mathlib.Data.List.Sort

/-!
# Ladders

A ladder is a list of rungs that lead from one position to the next, each rung
from where the one before it ends.  A climber goes through the rungs in order and
takes every rung that starts at the climber's position.

The rungs of one ladder are often found in a longer sorted list, mixed with the
rungs of other ladders; `filter_insertionSort` says that sorting and picking may
be exchanged.
-/

namespace LifeEngine.Support

open List

variable {α : Type*}

/-! ## Sorting and picking -/

section Sorting

variable (r : α → α → Prop) [DecidableRel r]

/-- What is inserted stands before all that it is related to, whether or not some elements are left
out. -/
theorem filter_orderedInsert [IsTrans α r] (p : α → Bool) (a : α) {l : List α}
    (hl : l.Pairwise r) :
    (l.orderedInsert r a).filter p =
      if p a then (l.filter p).orderedInsert r a else l.filter p := by
  induction l with
  | nil =>
    by_cases hp : p a = true <;> simp [hp]
  | cons b l ih =>
    obtain ⟨hb, hsorted⟩ := pairwise_cons.mp hl
    by_cases hab : r a b
    · rw [orderedInsert_cons_of_le r l hab]
      by_cases hp : p a = true
      · have hbefore : ∀ c ∈ (b :: l).filter p, r a c := by
          intro c hc
          rcases mem_cons.mp (mem_of_mem_filter hc) with rfl | hmem
          · exact hab
          · exact IsTrans.trans a b c hab (hb c hmem)
        rw [filter_cons_of_pos hp, if_pos hp]
        cases hrest : (b :: l).filter p with
        | nil => rfl
        | cons c rest =>
          have hac : r a c := hbefore c (by simp [hrest])
          rw [orderedInsert_cons_of_le r rest hac]
      · rw [filter_cons_of_neg hp, if_neg hp]
    · have hcons : (b :: l).orderedInsert r a = b :: l.orderedInsert r a := by
        simp [hab]
      rw [hcons]
      by_cases hpb : p b = true
      · rw [filter_cons_of_pos hpb, filter_cons_of_pos hpb, ih hsorted]
        by_cases hp : p a = true
        · simp [hp, hab]
        · simp [hp]
      · rw [filter_cons_of_neg hpb, filter_cons_of_neg hpb, ih hsorted]

/-- Insertion sort is stable, so it commutes with filters. -/
theorem filter_insertionSort [Std.Total r] [IsTrans α r] (p : α → Bool) (l : List α) :
    (l.insertionSort r).filter p = (l.filter p).insertionSort r := by
  induction l with
  | nil => rfl
  | cons a l ih =>
    rw [insertionSort_cons, filter_orderedInsert r p a (pairwise_insertionSort r l), ih]
    by_cases hp : p a = true
    · rw [if_pos hp, filter_cons_of_pos hp, insertionSort_cons]
    · rw [if_neg hp, filter_cons_of_neg hp]

end Sorting

/-! ## Climbing -/

section Climbing

variable [DecidableEq α]

/-- One rung moves a climber who stands at its start. -/
def stepUp (position : α) (rung : α × α) : α :=
  if position = rung.1 then rung.2 else position

def climb (rungs : List (α × α)) (position : α) : α :=
  rungs.foldl stepUp position

/-- Each rung starts where the one before it ends. -/
def IsLadder (rungs : List (α × α)) : Prop :=
  rungs.IsChain fun a b => a.2 = b.1

theorem climb_cons (rung : α × α) (rungs : List (α × α)) (position : α) :
    climb (rung :: rungs) position = climb rungs (stepUp position rung) := rfl

/-- Whoever gets onto a ladder climbs to its end. -/
theorem climb_of_mem {rungs : List (α × α)} (hladder : IsLadder rungs) {position : α}
    {rung : α × α} (hmem : rung ∈ rungs) (hposition : rung.1 = position) {last : α × α}
    (hlast : rungs.getLast? = some last) : climb rungs position = last.2 := by
  induction rungs generalizing position rung with
  | nil => cases hmem
  | cons first rest ih =>
    rw [climb_cons]
    cases rest with
    | nil =>
      have hfirst : first = last := by simpa using hlast
      have hrung : rung = first := by simpa using hmem
      rw [← hfirst, ← hposition, hrung]
      simp [climb, stepUp]
    | cons second rest =>
      obtain ⟨hlink, htail⟩ := isChain_cons_cons.mp hladder
      have hlast' : (second :: rest).getLast? = some last := by simpa using hlast
      by_cases hstart : position = first.1
      · rw [stepUp, if_pos hstart]
        exact ih htail mem_cons_self hlink.symm hlast'
      · have hmem' : rung ∈ second :: rest := by
          rcases mem_cons.mp hmem with rfl | hmem'
          · exact absurd hposition.symm hstart
          · exact hmem'
        rw [stepUp, if_neg hstart]
        exact ih htail hmem' hposition hlast'

omit [DecidableEq α] in
/-- The last rung of a ladder that never leads down starts highest. -/
theorem IsLadder.start_le_last [Preorder α] {rungs : List (α × α)}
    (hladder : IsLadder rungs) (hup : rungs.IsChain fun a _ => a.1 ≤ a.2)
    {rung last : α × α} (hmem : rung ∈ rungs) (hlast : rungs.getLast? = some last) :
    rung.1 ≤ last.1 := by
  induction rungs generalizing rung with
  | nil => cases hmem
  | cons first rest ih =>
    cases rest with
    | nil =>
      have hfirst : first = last := by simpa using hlast
      have hrung : rung = first := by simpa using hmem
      rw [hrung, hfirst]
    | cons second rest =>
      obtain ⟨hlink, htail⟩ := isChain_cons_cons.mp hladder
      obtain ⟨hfirst, hrest⟩ := isChain_cons_cons.mp hup
      have hlast' : (second :: rest).getLast? = some last := by simpa using hlast
      rcases mem_cons.mp hmem with rfl | hmem'
      · have hsecond := ih htail hrest mem_cons_self hlast'
        exact hfirst.trans (hlink ▸ hsecond)
      · exact ih htail hrest hmem' hlast'

end Climbing

/-! ## Repeated steps -/

section Repeated

/-- A partial step, repeated at most `n` times. -/
def repeatStep (next : α → Option α) : Nat → α → α
  | 0, a => a
  | n + 1, a =>
    match next a with
    | none => a
    | some b => repeatStep next n b

/-- A step upwards in a finite set comes to an end. -/
theorem exists_repeatStep_stops [DecidableEq α] {next : α → Option α} {r : α → α → Prop}
    [DecidableRel r] {places : List α} (hplaces : ∀ a b, next a = some b → b ∈ places)
    (hlt : ∀ a b, next a = some b → r a b) (htrans : ∀ a b c, r a b → r b c → r a c)
    (hirrefl : ∀ a, ¬r a a) (a : α) : ∃ n, next (repeatStep next n a) = none := by
  -- by induction on the number of places above
  induction hcount : (places.toFinset.filter (r a)).card using Nat.strong_induction_on
    generalizing a with
  | _ count ih =>
    rcases hnext : next a with _ | b
    · exact ⟨0, hnext⟩
    · have hab := hlt a b hnext
      have hfewer : (places.toFinset.filter (r b)).card < count := by
        rw [← hcount]
        refine Finset.card_lt_card (Finset.ssubset_iff_subset_ne.mpr ⟨?_, fun heq => ?_⟩)
        · intro c hc
          rw [Finset.mem_filter] at hc ⊢
          exact ⟨hc.1, htrans a b c hab hc.2⟩
        · have hb : b ∈ places.toFinset.filter (r a) :=
            Finset.mem_filter.mpr ⟨mem_toFinset.mpr (hplaces a b hnext), hab⟩
          rw [← heq, Finset.mem_filter] at hb
          exact hirrefl b hb.2
      obtain ⟨n, hn⟩ := ih _ hfewer b rfl
      refine ⟨n + 1, ?_⟩
      rwa [repeatStep, hnext]

end Repeated

/-! ## Guarded steps -/

section Guarded

variable {β : Type*} {takes : β → α → Bool} {step : α → β → α}

/-- The steps taken, each from where those before it lead. -/
def stepsTaken (takes : β → α → Bool) (step : α → β → α) : List β → α → List β
  | [], _ => []
  | b :: rest, a =>
    if takes b a then b :: stepsTaken takes step rest (step a b)
    else stepsTaken takes step rest a

theorem stepsTaken_cons_of_takes {b : β} {a : α} (h : takes b a = true) (rest : List β) :
    stepsTaken takes step (b :: rest) a = b :: stepsTaken takes step rest (step a b) :=
  if_pos h

theorem stepsTaken_cons_of_not_takes {b : β} {a : α} (h : ¬takes b a = true)
    (rest : List β) : stepsTaken takes step (b :: rest) a = stepsTaken takes step rest a :=
  if_neg h

theorem stepsTaken_eq_nil_iff {l : List β} {a : α} :
    stepsTaken takes step l a = [] ↔ ∀ b ∈ l, ¬takes b a = true := by
  induction l with
  | nil => simp [stepsTaken]
  | cons b rest ih =>
    by_cases h : takes b a = true
    · simp [stepsTaken_cons_of_takes h, h]
    · rw [stepsTaken_cons_of_not_takes h, ih]
      simp [h]

theorem stepsTaken_sublist (l : List β) (a : α) : (stepsTaken takes step l a).Sublist l := by
  induction l generalizing a with
  | nil => exact List.Sublist.slnil
  | cons b rest ih =>
    by_cases h : takes b a = true
    · rw [stepsTaken_cons_of_takes h]
      exact (ih _).cons_cons b
    · rw [stepsTaken_cons_of_not_takes h]
      exact (ih a).cons b

/-- The first step that can be taken from the start is taken. -/
theorem exists_mem_stepsTaken {l : List β} {a : α} (h : ∃ b ∈ l, takes b a = true) :
    ∃ b ∈ stepsTaken takes step l a, takes b a = true := by
  induction l with
  | nil => simp at h
  | cons b rest ih =>
    by_cases hb : takes b a = true
    · rw [stepsTaken_cons_of_takes hb]
      exact ⟨b, mem_cons_self, hb⟩
    · rw [stepsTaken_cons_of_not_takes hb]
      obtain ⟨c, hc, htakes⟩ := h
      rcases mem_cons.mp hc with rfl | hc
      · exact absurd htakes hb
      · exact ih ⟨c, hc, htakes⟩

end Guarded

end LifeEngine.Support
