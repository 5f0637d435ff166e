import LifeEngine.Migration.Manifest

/-!
# Ranges of versions

The manifest reads a range in three ways: the validation of an entry, the comparison of
two ranges, and the matching of a version.  The first two read numbers as Rust does, with
a plus sign or leading zeros; matching an exact range goes through `Version::parse`, which
refuses these.  So a range may be accepted and match nothing.
-/

namespace LifeEngine.Migration

open Support List Version

/-! ## Numerals of versions -/

/-- A numeral without a sign and without a leading zero. -/
def isCanonical (text : String) : Bool :=
  match text.toList with
  | '+' :: _ => false
  | '0' :: _ :: _ => false
  | _ => true

/-- `Version::parse` accepts exactly the canonical numerals. -/
structure ReleaseSemver (env : SemverEnv) : Prop where
  parse_ok_iff : ∀ text major minor patch m n p, segments text = [major, minor, patch] →
    readU64 major = some m → readU64 minor = some n → readU64 patch = some p → ∀ v,
      env.parse text = .ok v ↔ (isCanonical major ∧ isCanonical minor ∧ isCanonical patch) ∧
        v = new m n p

/-- An exact range can be read as a version. -/
def Readable (range : String) : Prop :=
  match segments range with
  | [major, minor, patch] =>
    patch = "x" ∨ (isCanonical major ∧ isCanonical minor ∧ isCanonical patch)
  | _ => True

/-! ## Ranges as sets of versions -/

namespace VersionRange

def Contains : VersionRange → Version → Prop
  | majorWildcard m, v => v.major = m
  | minorWildcard m n, v => v.major = m ∧ v.minor = n
  | exact m n p, v => v = new m n p

/-- The numbers of the range are of type `u64`. -/
def Bounded : VersionRange → Prop
  | majorWildcard m => m < 2 ^ 64
  | minorWildcard m n => m < 2 ^ 64 ∧ n < 2 ^ 64
  | exact m n p => m < 2 ^ 64 ∧ n < 2 ^ 64 ∧ p < 2 ^ 64

end VersionRange

open VersionRange

/-- A version without pre-release and build metadata. -/
structure Release (v : Version) : Prop where
  pre : v.pre = ""
  build : v.build = ""
  major : v.major < 2 ^ 64
  minor : v.minor < 2 ^ 64
  patch : v.patch < 2 ^ 64

theorem release_new {m n p : Nat} (hm : m < 2 ^ 64) (hn : n < 2 ^ 64) (hp : p < 2 ^ 64) :
    Release (new m n p) :=
  ⟨rfl, rfl, hm, hn, hp⟩

theorem overlaps_of_contains {a b : VersionRange} {v : Version} (ha : a.Contains v)
    (hb : b.Contains v) : a.overlaps b = true := by
  rcases a with m | ⟨m, n⟩ | ⟨m, n, p⟩ <;> rcases b with m' | ⟨m', n'⟩ | ⟨m', n', p'⟩ <;>
    simp_all [VersionRange.Contains, overlaps, new]

/-- Overlapping ranges share the least version of the narrower one. -/
theorem exists_release_of_overlaps {a b : VersionRange} (ha : a.Bounded) (hb : b.Bounded)
    (h : a.overlaps b = true) : ∃ v, Release v ∧ a.Contains v ∧ b.Contains v := by
  have hzero : 0 < 2 ^ 64 := Nat.two_pow_pos 64
  rcases a with m | ⟨m, n⟩ | ⟨m, n, p⟩
  · rcases b with m' | ⟨m', n'⟩ | ⟨m', n', p'⟩ <;>
      simp [overlaps] at h
    · exact ⟨new m 0 0, release_new ha hzero hzero, rfl, h⟩
    · exact ⟨new m' n' 0, release_new hb.1 hb.2 hzero, h.symm, rfl, rfl⟩
    · exact ⟨new m' n' p', release_new hb.1 hb.2.1 hb.2.2, h.symm, rfl⟩
  · rcases b with m' | ⟨m', n'⟩ | ⟨m', n', p'⟩ <;>
      simp [overlaps] at h
    · exact ⟨new m n 0, release_new ha.1 ha.2 hzero, ⟨rfl, rfl⟩, h.symm⟩
    · exact ⟨new m n 0, release_new ha.1 ha.2 hzero, ⟨rfl, rfl⟩, h⟩
    · exact ⟨new m' n' p', release_new hb.1 hb.2.1 hb.2.2, ⟨h.1.symm, h.2.symm⟩, rfl⟩
  · refine ⟨new m n p, release_new ha.1 ha.2.1 ha.2.2, rfl, ?_⟩
    rcases b with m' | ⟨m', n'⟩ | ⟨m', n', p'⟩ <;>
      simp [overlaps] at h
    · exact h.symm
    · exact ⟨h.1.symm, h.2.symm⟩
    · rw [VersionRange.Contains, h.1, h.2.1, h.2.2]

/-! ## The ranges of a manifest -/

section Matching

variable {env : SemverEnv} {range : String} {m : Nat}

theorem readU64_lt {text : String} {n : Nat} (h : readU64 text = some n) : n < 2 ^ 64 := by
  unfold readU64 at h
  exact parseUnsigned_lt h

theorem ValidRange.bounded (h : ValidRange range m) : (parse range).Bounded := by
  rw [parse]
  rcases h with ⟨text, hsegments, hmajor⟩ | ⟨text, minor, n, hsegments, hmajor, hminor⟩ |
    ⟨text, minor, patch, n, p, hsegments, hpatch, hmajor, hminor, hvalue⟩
  · simp only [hsegments, hmajor]
    exact readU64_lt hmajor
  · simp only [hsegments, hmajor, hminor]
    exact ⟨readU64_lt hmajor, readU64_lt hminor⟩
  · simp only [hsegments, hpatch, hmajor, hminor, hvalue]
    exact ⟨readU64_lt hmajor, readU64_lt hminor, readU64_lt hvalue⟩

/-- A version matches a range that contains it and can be read. -/
theorem ValidRange.matches_iff (hsemver : ReleaseSemver env) (h : ValidRange range m)
    (v : Version) :
    versionMatchesRange env v range = true ↔ Readable range ∧ (parse range).Contains v := by
  rw [versionMatchesRange, Readable, parse]
  rcases h with ⟨text, hsegments, hmajor⟩ | ⟨text, minor, n, hsegments, hmajor, hminor⟩ |
    ⟨text, minor, patch, n, p, hsegments, hpatch, hmajor, hminor, hvalue⟩
  · simp [hsegments, hmajor, VersionRange.Contains]
  · simp [hsegments, hmajor, hminor, VersionRange.Contains]
  · have hparse := hsemver.parse_ok_iff range text minor patch m n p hsegments hmajor hminor hvalue
    simp only [hsegments, hpatch, hmajor, hminor, hvalue, Option.getD_some, ↓reduceIte, false_or,
      VersionRange.Contains]
    rw [← hparse v]
    rcases env.parse range with e | w
    · simp
    · simp [eq_comm]

end Matching

variable {env : SemverEnv} {entries : List MigrationEntry}

/-- A common release shows an overlap; the converse needs readable ranges. -/
theorem ValidRange.overlaps_iff (hsemver : ReleaseSemver env) {a b : String} {m m' : Nat}
    (ha : ValidRange a m) (hb : ValidRange b m') :
    ((parse a).overlaps (parse b) = true ↔
      ∃ v, Release v ∧ versionMatchesRange env v a = true ∧ versionMatchesRange env v b = true) ↔
    ((parse a).overlaps (parse b) = true → Readable a ∧ Readable b) := by
  constructor
  · intro hiff hoverlaps
    obtain ⟨v, -, hva, hvb⟩ := hiff.mp hoverlaps
    exact ⟨((ha.matches_iff hsemver v).mp hva).1, ((hb.matches_iff hsemver v).mp hvb).1⟩
  · intro hreadable
    constructor
    · intro hoverlaps
      obtain ⟨hra, hrb⟩ := hreadable hoverlaps
      obtain ⟨v, hv, hva, hvb⟩ := exists_release_of_overlaps ha.bounded hb.bounded hoverlaps
      exact ⟨v, hv, (ha.matches_iff hsemver v).mpr ⟨hra, hva⟩,
        (hb.matches_iff hsemver v).mpr ⟨hrb, hvb⟩⟩
    · rintro ⟨v, -, hva, hvb⟩
      exact overlaps_of_contains ((ha.matches_iff hsemver v).mp hva).2
        ((hb.matches_iff hsemver v).mp hvb).2

theorem checkOverlaps_ok {collection : String} {chain : List MigrationEntry}
    (h : checkOverlaps collection chain = .ok ()) :
    chain.Pairwise fun a b =>
      (parse a.fromRange).overlaps (parse b.fromRange) = false := by
  induction chain with
  | nil => exact List.Pairwise.nil
  | cons entry rest ih =>
    obtain ⟨_, hfirst, hrest⟩ := bind_eq_ok_iff.mp h
    refine pairwise_cons.mpr ⟨fun other hother => ?_, ih hrest⟩
    have hcheck := forM_eq_ok_iff.mp hfirst other hother
    by_contra hoverlaps
    simp [checkOverlap, hoverlaps] at hcheck

theorem Accepted.pairwise (h : Accepted env entries) (collection : String) :
    (ofCollection collection entries).Pairwise fun a b =>
      (parse a.fromRange).overlaps (parse b.fromRange) = false := by
  obtain ⟨raw, hraw⟩ := h
  obtain ⟨migrations, -, hrest⟩ := bind_eq_ok_iff.mp hraw
  rcases migrations with _ | raws
  · obtain rfl := Except.ok.inj hrest
    exact List.Pairwise.nil
  · obtain ⟨parsed, -, hchecks⟩ := bind_eq_ok_iff.mp hrest
    obtain ⟨_, hoverlaps, hchecks⟩ := bind_eq_ok_iff.mp hchecks
    obtain ⟨_, -, hentries⟩ := bind_eq_ok_iff.mp hchecks
    obtain rfl := Except.ok.inj hentries
    by_cases hmem : collection ∈ collections parsed
    · exact checkOverlaps_ok (forM_eq_ok_iff.mp hoverlaps collection hmem)
    · have hnil : ofCollection collection parsed = [] := by
        rw [eq_nil_iff_forall_not_mem]
        intro entry hentry
        obtain ⟨hparsed, hcollection⟩ := mem_filter.mp hentry
        refine hmem (mem_dedup.mpr (mem_map.mpr ⟨entry, hparsed, ?_⟩))
        simpa using hcollection
      rw [hnil]
      exact List.Pairwise.nil

/-- The entries of a collection that a version matches. -/
def matchingEntries (env : SemverEnv) (entries : List MigrationEntry) (collection : String)
    (version : Version) : List MigrationEntry :=
  (ofCollection collection entries).filter fun entry =>
    versionMatchesRange env version entry.fromRange

theorem Accepted.length_matchingEntries_le (hsemver : ReleaseSemver env)
    (h : Accepted env entries) (collection : String) (version : Version) :
    (matchingEntries env entries collection version).length ≤ 1 := by
  have hpairwise : (matchingEntries env entries collection version).Pairwise fun a b =>
      (parse a.fromRange).overlaps (parse b.fromRange) = false :=
    (h.pairwise collection).sublist filter_sublist
  have hmatches : ∀ entry ∈ matchingEntries env entries collection version,
      (parse entry.fromRange).Contains version := by
    intro entry hentry
    obtain ⟨hmem, hmatches⟩ := mem_filter.mp hentry
    obtain ⟨m, hrange⟩ := (h.entry entry (mem_of_mem_filter hmem)).range
    exact ((hrange.matches_iff hsemver version).mp hmatches).2
  rcases hlist : matchingEntries env entries collection version with _ | ⟨a, _ | ⟨b, rest⟩⟩
  · exact Nat.zero_le 1
  · rw [length_singleton]
  · rw [hlist] at hpairwise hmatches
    have hdisjoint := (pairwise_cons.mp hpairwise).1 b mem_cons_self
    have hoverlaps := overlaps_of_contains (hmatches a mem_cons_self)
      (hmatches b (mem_cons_of_mem a mem_cons_self))
    rw [hdisjoint] at hoverlaps
    exact nomatch hoverlaps

/-- Two accepted ranges overlap exactly if a release matches both, as long as overlapping exact
ranges can be read; and a version matches at most one entry of a collection. -/
theorem overlaps_iff_common_release_iff (env : SemverEnv) (hsemver : ReleaseSemver env) :
    (∀ a b i j, validateFromRange a i = .ok () → validateFromRange b j = .ok () →
      (((parse a).overlaps (parse b) = true ↔
          ∃ v, Release v ∧ versionMatchesRange env v a = true ∧
            versionMatchesRange env v b = true) ↔
        ((parse a).overlaps (parse b) = true → Readable a ∧ Readable b))) ∧
    ∀ entries, Accepted env entries → ∀ collection version,
      (matchingEntries env entries collection version).length ≤ 1 := by
  constructor
  · intro a b i j ha hb
    obtain ⟨m, hma⟩ := validateFromRange_ok ha
    obtain ⟨m', hmb⟩ := validateFromRange_ok hb
    exact hma.overlaps_iff hsemver hmb
  · intro entries haccepted collection version
    exact haccepted.length_matchingEntries_le hsemver collection version

/-! ### Strict numerals -/

/-- Plain versions whose numerals are canonical. -/
def strictSemver : SemverEnv :=
  { plainSemver with
    parse := fun text =>
      if (segments text).all isCanonical then plainSemver.parse text
      else .error "unexpected sign or leading zero" }

theorem strictSemver_parse_ok {text : String} {v : Version}
    (h : strictSemver.parse text = .ok v) : plainSemver.parse text = .ok v := by
  simp only [strictSemver] at h
  split at h
  · exact h
  · exact nomatch h

theorem strictSemver_lawful : LawfulSemver strictSemver where
  tail_total := plainSemver_lawful.tail_total
  tail_trans := plainSemver_lawful.tail_trans
  major_lt text v h := plainSemver_lawful.major_lt text v (strictSemver_parse_ok h)
  major_eq text v major minor patch m n p h :=
    plainSemver_lawful.major_eq text v major minor patch m n p (strictSemver_parse_ok h)

theorem strictSemver_release : ReleaseSemver strictSemver where
  parse_ok_iff text major minor patch m n p hsegments hmajor hminor hpatch v := by
    have hplain : plainSemver.parse text = .ok (new m n p) := by
      simp [plainSemver, hsegments, hmajor, hminor, hpatch]
    simp only [strictSemver, hsegments, hplain, all_cons, all_nil, Bool.and_true, Bool.and_eq_true]
    split
    · rename_i hcanonical
      simp [hcanonical, eq_comm]
    · rename_i hcanonical
      simp [hcanonical]

/-- A wildcard and an exact range in it. -/
theorem overlaps_iff_common_release_wildcard :
    (parse "1.x").overlaps (parse "1.2.3") = true ↔
      ∃ v, Release v ∧ versionMatchesRange strictSemver v "1.x" = true ∧
        versionMatchesRange strictSemver v "1.2.3" = true :=
  ((overlaps_iff_common_release_iff strictSemver strictSemver_release).1 "1.x" "1.2.3" 0 1
    (by decide +kernel) (by decide +kernel)).mpr fun _ => ⟨trivial, .inr (by decide +kernel)⟩

/-- A range with a leading zero overlaps itself, but matches nothing. -/
theorem not_overlaps_iff_common_release_leading_zero :
    validateFromRange "01.2.3" 0 = .ok () ∧
    ¬((parse "01.2.3").overlaps (parse "01.2.3") = true ↔
      ∃ v, Release v ∧ versionMatchesRange strictSemver v "01.2.3" = true ∧
        versionMatchesRange strictSemver v "01.2.3" = true) := by
  refine ⟨by decide +kernel, fun hiff => ?_⟩
  obtain ⟨v, -, hv, -⟩ := hiff.mp (by decide +kernel)
  obtain ⟨m, hrange⟩ := validateFromRange_ok
    (show validateFromRange "01.2.3" 0 = .ok () by decide +kernel)
  have hreadable := ((hrange.matches_iff strictSemver_release v).mp hv).1
  have hsegments : segments "01.2.3" = ["01", "2", "3"] := by decide +kernel
  rw [Readable, hsegments] at hreadable
  exact absurd hreadable (by decide +kernel)

end LifeEngine.Migration
