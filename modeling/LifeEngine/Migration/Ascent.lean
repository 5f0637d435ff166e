import LifeEngine.Migration.Ranges

/-!
# Repeated migration

From a version, the matching entry of a collection leads to its target, and so on.  The
climb should go up and come to an end.  It does so exactly if no target lies in the range
of its own entry, which the manifest does not check: `1.x` may lead to `1.5.0`.
-/

namespace LifeEngine.Migration

open Support Version

/-- Where the entry that matches the version leads. -/
def nextVersion (env : SemverEnv) (entries : List MigrationEntry) (collection : String)
    (version : Version) : Option Version :=
  (matchingEntries env entries collection version).head?.map MigrationEntry.target

/-- Every matching version is below the target, so that every climb goes up and ends. -/
structure Ascends (env : SemverEnv) (entries : List MigrationEntry) : Prop where
  below : ∀ entry ∈ entries, ∀ v, versionMatchesRange env v entry.fromRange = true →
    le env entry.target v = false
  increases : ∀ collection v w, nextVersion env entries collection v = some w →
    le env w v = false
  stops : ∀ collection v, ∃ n, matchingEntries env entries collection
    (repeatStep (nextVersion env entries collection) n v) = []

section Climbing

variable {env : SemverEnv} {entries : List MigrationEntry}

theorem exists_of_nextVersion {collection : String} {v w : Version}
    (h : nextVersion env entries collection v = some w) :
    ∃ entry ∈ entries, versionMatchesRange env v entry.fromRange = true ∧ entry.target = w := by
  obtain ⟨entry, hhead, htarget⟩ := Option.map_eq_some_iff.mp h
  obtain ⟨hmem, hmatches⟩ := List.mem_filter.mp (List.mem_of_mem_head? hhead)
  exact ⟨entry, List.mem_of_mem_filter hmem, hmatches, htarget⟩

theorem ascends_of_below (hsemver : LawfulSemver env)
    (hbelow : ∀ entry ∈ entries, ∀ v, versionMatchesRange env v entry.fromRange = true →
      le env entry.target v = false) : Ascends env entries := by
  have hincreases : ∀ collection v w, nextVersion env entries collection v = some w →
      le env w v = false := by
    intro collection v w h
    obtain ⟨entry, hentry, hmatches, rfl⟩ := exists_of_nextVersion h
    exact hbelow entry hentry v hmatches
  refine ⟨hbelow, hincreases, fun collection v => ?_⟩
  have hplaces : ∀ v w, nextVersion env entries collection v = some w →
      w ∈ entries.map MigrationEntry.target := by
    intro v w h
    obtain ⟨entry, hentry, -, rfl⟩ := exists_of_nextVersion h
    exact List.mem_map_of_mem hentry
  have htrans : ∀ a b c, le env b a = false → le env c b = false → le env c a = false := by
    intro a b c hab hbc
    by_contra hca
    rw [Bool.not_eq_false] at hca
    have hle := (hsemver.le_total b c).resolve_right (by simp [hbc])
    rw [hsemver.le_trans hle hca] at hab
    exact nomatch hab
  have hirrefl : ∀ a, ¬le env a a = false := by
    intro a hfalse
    have htrue := (hsemver.le_total a a).elim id id
    rw [hfalse] at htrue
    exact nomatch htrue
  obtain ⟨n, hn⟩ := exists_repeatStep_stops (r := fun a b => le env b a = false) hplaces
    (hincreases collection) htrans hirrefl v
  rw [nextVersion, Option.map_eq_none_iff, List.head?_eq_none_iff] at hn
  exact ⟨n, hn⟩

/-- The least version of a range. -/
def VersionRange.least : VersionRange → Version
  | majorWildcard m => new m 0 0
  | minorWildcard m n => new m n 0
  | exact m n p => new m n p

theorem fromRangeMinVersion_eq (range : String) :
    fromRangeMinVersion range = (VersionRange.parse range).least := by
  rw [fromRangeMinVersion, VersionRange.parse]
  split
  · rfl
  · split <;> rfl
  · rfl

/-- A target above the least version of a range and outside of it is above all of it. -/
theorem VersionRange.le_eq_false_of_contains {range : VersionRange} {target v : Version}
    (hleast : le env target range.least = false) (htarget : ¬range.Contains target)
    (hv : range.Contains v) : le env target v = false := by
  rw [← Bool.not_eq_true, le_iff] at hleast ⊢
  rcases range with m | ⟨m, n⟩ | ⟨m, n, p⟩
  · simp only [VersionRange.Contains] at htarget hv
    simp only [VersionRange.least, new] at hleast
    omega
  · simp only [VersionRange.Contains] at htarget hv
    simp only [VersionRange.least, new] at hleast
    omega
  · rwa [hv]

end Climbing

/-- Versions are below their targets, and climbs end, exactly if no target lies in its own range. -/
theorem ascends_iff (env : SemverEnv) (hsemver : LawfulSemver env)
    (hrelease : ReleaseSemver env) (entries : List MigrationEntry)
    (haccepted : Accepted env entries) :
    Ascends env entries ↔
      ∀ entry ∈ entries, versionMatchesRange env entry.target entry.fromRange = false := by
  constructor
  · intro hascends entry hentry
    by_contra hmatches
    rw [Bool.not_eq_false] at hmatches
    have hself := hascends.below entry hentry entry.target hmatches
    rw [(hsemver.le_total entry.target entry.target).elim id id] at hself
    exact nomatch hself
  · intro houtside
    refine ascends_of_below hsemver fun entry hentry v hv => ?_
    have hentry' := haccepted.entry entry hentry
    obtain ⟨m, hrange⟩ := hentry'.range
    obtain ⟨hreadable, hcontains⟩ := (hrange.matches_iff hrelease v).mp hv
    refine VersionRange.le_eq_false_of_contains ?_ (fun htarget => ?_) hcontains
    · rw [← fromRangeMinVersion_eq]
      exact hentry'.below
    · have hmatches := (hrange.matches_iff hrelease entry.target).mpr ⟨hreadable, htarget⟩
      rw [houtside entry hentry] at hmatches
      exact nomatch hmatches

/-- An entry for the events. -/
def ascentEntry (fromRange : String) (target : Version) : MigrationEntry :=
  ⟨fromRange, target, "migrate", "", "events"⟩

/-- Two steps, from `1.x` and from `2.0.x`. -/
theorem ascends_two_steps :
    Ascends strictSemver [ascentEntry "1.x" (new 2 0 0), ascentEntry "2.0.x" (new 2 1 0)] := by
  refine (ascends_iff strictSemver strictSemver_lawful strictSemver_release _ ⟨.ok (some
    [⟨some "1.x", some "2.0.0", some "migrate", some "", some "events"⟩,
     ⟨some "2.0.x", some "2.1.0", some "migrate", some "", some "events"⟩]), ?_⟩).mpr ?_
  · decide +kernel
  · decide +kernel

/-- The target `1.5.0` is in the range `1.x`: the climb goes on for ever. -/
theorem not_ascends_within_major :
    Accepted strictSemver [ascentEntry "1.x" (new 1 5 0)] ∧
    ¬Ascends strictSemver [ascentEntry "1.x" (new 1 5 0)] := by
  refine ⟨⟨.ok (some [⟨some "1.x", some "1.5.0", some "migrate", some "", some "events"⟩]), ?_⟩,
    fun hascends => ?_⟩
  · decide +kernel
  · have hbelow := hascends.below _ List.mem_cons_self (new 1 7 0) (by decide +kernel)
    exact absurd hbelow (by decide +kernel)

end LifeEngine.Migration
