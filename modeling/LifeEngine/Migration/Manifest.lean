import LifeEngine.Support.Fallible
import LifeEngine.Support.Ladder
import LifeEngine.Support.Numeral
import Mathlib.Algebra.Group.Nat.Defs

/-!
# Migration manifests

The `[[migrations]]` entries of a plugin's manifest: each one moves the records of
a collection from a range of versions to a target version with a named transform.
Parsing checks every entry, that no two ranges of a collection overlap, and that
the entries of a collection form a chain.  TOML and the `semver` crate are
parameters.

The checks over collections iterate over a hash map in the source; here they go
through the collections in a fixed order.  The order decides only which of several
errors is reported.
-/

namespace LifeEngine.Migration

open Support

inductive MigrationError where
  | manifestParse (message : String)
  | manifestValidation (message : String)
  | transformFailed (function cause : String)
  | transformCrashed (function cause : String)
  deriving DecidableEq, Repr

def MigrationError.display : MigrationError → String
  | manifestParse message => "migration manifest parse error: " ++ message
  | manifestValidation message => "migration manifest validation error: " ++ message
  | transformFailed function cause =>
    "migration transform failed for '" ++ function ++ "': " ++ cause
  | transformCrashed function cause =>
    "migration transform crashed for '" ++ function ++ "': " ++ cause

/-! ## Versions -/

/-- `semver::Version`. -/
structure Version where
  major : Nat
  minor : Nat
  patch : Nat
  pre : String
  build : String
  deriving DecidableEq, Repr

open Version

def Version.new (major minor patch : Nat) : Version :=
  ⟨major, minor, patch, "", ""⟩

/-- The `semver` crate. -/
structure SemverEnv where
  /-- `Version::parse`. -/
  parse : String → Except String Version
  /-- The order by pre-release and build metadata. -/
  tailLe : String × String → String × String → Bool
  display : Version → String

/-- `Ord` for `Version`: the numbers first, from the left. -/
def Version.le (env : SemverEnv) (a b : Version) : Bool :=
  if a.major ≠ b.major then a.major < b.major
  else if a.minor ≠ b.minor then a.minor < b.minor
  else if a.patch ≠ b.patch then a.patch < b.patch
  else env.tailLe (a.pre, a.build) (b.pre, b.build)

/-! ## Entries -/

/-- `RawMigrationEntry`: an entry as TOML gives it. -/
structure RawMigrationEntry where
  fromRange : Option String
  target : Option String
  transform : Option String
  description : Option String
  collection : Option String

/-- `fromRange` and `target` are the fields `from` and `to`. -/
structure MigrationEntry where
  fromRange : String
  target : Version
  transform : String
  description : String
  collection : String
  deriving DecidableEq, Repr

/-- The parts of a dotted text. -/
def segments (text : String) : List String :=
  (text.toList.splitOn '.').map String.ofList

/-- `str::parse::<u64>`. -/
@[irreducible] def readU64 (text : String) : Option Nat :=
  parseUnsigned (2 ^ 64) text.toList

/-- `str::parse::<i64>`. -/
@[irreducible] def readI64 (text : String) : Option Int :=
  parseSigned (2 ^ 63) text.toList

def invalidEntry (i : Nat) (message : String) : MigrationError :=
  .manifestValidation ("migration entry " ++ toString i ++ ": " ++ message)

def parseU64 (s partName fromRange : String) (i : Nat) : Except MigrationError Nat :=
  match readU64 s with
  | some n => .ok n
  | none => .error (invalidEntry i ("invalid 'from' range '" ++ fromRange ++ "': '" ++ s ++
      "' is not a valid " ++ partName ++ " version number"))

/-- `major.x`, `major.minor.x` or `major.minor.patch`. -/
def validateFromRange (fromRange : String) (i : Nat) : Except MigrationError Unit :=
  match segments fromRange with
  | [major, minor] => do
      let _ ← parseU64 major "major" fromRange i
      if minor ≠ "x" then
        .error (invalidEntry i ("invalid 'from' range '" ++ fromRange ++
          "': two-part range must be 'major.x'"))
      else .ok ()
  | [major, minor, patch] => do
      let _ ← parseU64 major "major" fromRange i
      let _ ← parseU64 minor "minor" fromRange i
      if patch ≠ "x" then
        let _ ← parseU64 patch "patch" fromRange i
        .ok ()
      else .ok ()
  | _ => .error (invalidEntry i ("invalid 'from' range '" ++ fromRange ++
      "': expected 'major.x', 'major.minor.x', or 'major.minor.patch'"))

/-- `from_range_min_version`: the least version of a range. -/
def fromRangeMinVersion (fromRange : String) : Version :=
  match segments fromRange with
  | [major, _] => new ((readU64 major).getD 0) 0 0
  | [major, minor, patch] =>
    if patch = "x" then new ((readU64 major).getD 0) ((readU64 minor).getD 0) 0
    else new ((readU64 major).getD 0) ((readU64 minor).getD 0)
      ((readU64 patch).getD 0)
  | _ => new 0 0 0

def validateFromLessThanTo (env : SemverEnv) (fromRange : String) (target : Version) (i : Nat) :
    Except MigrationError Unit :=
  let minVersion := fromRangeMinVersion fromRange
  if le env target minVersion then
    .error (invalidEntry i ("'from' range '" ++ fromRange ++ "' minimum version (" ++
      env.display minVersion ++ ") must be strictly less than 'to' version (" ++
      env.display target ++ ")"))
  else .ok ()

def validateTransformName (name : String) (i : Nat) : Except MigrationError Unit :=
  match name.toList with
  | [] => .error (invalidEntry i "transform name must not be empty")
  | first :: rest =>
    if ¬ first.isAlpha ∧ first ≠ '_' then
      .error (invalidEntry i ("transform name '" ++ name ++
        "' is not a valid identifier: must start with a letter or underscore"))
    else if ¬ rest.all (fun c => c.isAlphanum || c == '_') then
      .error (invalidEntry i ("transform name '" ++ name ++
        "' is not a valid identifier: must contain only letters, digits, and underscores"))
    else .ok ()

def validateCollectionName (name : String) (i : Nat) : Except MigrationError Unit :=
  if name.isEmpty then .error (invalidEntry i "collection name must not be empty")
  else if ¬ name.toList.all
      (fun c => c.isAlphanum || c == '-' || c == '_' || c == ':') then
    .error (invalidEntry i ("collection name '" ++ name ++
      "' contains invalid characters: must contain only letters, digits, hyphens, " ++
      "underscores, and colons"))
  else .ok ()

def requireField (i : Nat) (name : String) : Option String → Except MigrationError String
  | some value => .ok value
  | none => .error (invalidEntry i ("missing '" ++ name ++ "' field"))

/-- One round of the loop of `parse_migration_entries_from_str`. -/
def parseEntry (env : SemverEnv) (i : Nat) (raw : RawMigrationEntry) :
    Except MigrationError MigrationEntry := do
  let fromRange ← requireField i "from" raw.fromRange
  let targetText ← requireField i "to" raw.target
  let transform ← requireField i "transform" raw.transform
  let description ← requireField i "description" raw.description
  let collection ← requireField i "collection" raw.collection
  validateFromRange fromRange i
  let target ← (env.parse targetText).mapError fun e =>
    invalidEntry i ("invalid 'to' version '" ++ targetText ++ "': " ++ e)
  validateFromLessThanTo env fromRange target i
  validateTransformName transform i
  validateCollectionName collection i
  pure { fromRange, target, transform, description, collection }

def parseEntriesFrom (env : SemverEnv) :
    Nat → List RawMigrationEntry → Except MigrationError (List MigrationEntry)
  | _, [] => .ok []
  | i, raw :: rest => do
      let entry ← parseEntry env i raw
      let entries ← parseEntriesFrom env (i + 1) rest
      pure (entry :: entries)

/-! ## Ranges of one collection -/

inductive VersionRange where
  | majorWildcard (major : Nat)
  | minorWildcard (major minor : Nat)
  | exact (major minor patch : Nat)
  deriving DecidableEq, Repr

namespace VersionRange

def parse (fromRange : String) : VersionRange :=
  match segments fromRange with
  | [major, _] => majorWildcard ((readU64 major).getD 0)
  | [major, minor, patch] =>
    if patch = "x" then minorWildcard ((readU64 major).getD 0) ((readU64 minor).getD 0)
    else exact ((readU64 major).getD 0) ((readU64 minor).getD 0) ((readU64 patch).getD 0)
  | _ => exact 0 0 0

def overlaps : VersionRange → VersionRange → Bool
  | majorWildcard m₁, majorWildcard m₂ => m₁ = m₂
  | majorWildcard m₁, minorWildcard m₂ _ => m₁ = m₂
  | minorWildcard m₂ _, majorWildcard m₁ => m₁ = m₂
  | majorWildcard m₁, exact m₂ _ _ => m₁ = m₂
  | exact m₂ _ _, majorWildcard m₁ => m₁ = m₂
  | minorWildcard m₁ n₁, minorWildcard m₂ n₂ => m₁ = m₂ ∧ n₁ = n₂
  | minorWildcard m₁ n₁, exact m₂ n₂ _ => m₁ = m₂ ∧ n₁ = n₂
  | exact m₂ n₂ _, minorWildcard m₁ n₁ => m₁ = m₂ ∧ n₁ = n₂
  | exact m₁ n₁ p₁, exact m₂ n₂ p₂ => m₁ = m₂ ∧ n₁ = n₂ ∧ p₁ = p₂

def exampleVersion : VersionRange → String
  | majorWildcard m => toString m ++ ".0.0"
  | minorWildcard m n => toString m ++ "." ++ toString n ++ ".0"
  | exact m n p => toString m ++ "." ++ toString n ++ "." ++ toString p

end VersionRange

/-- The example of the more specific range. -/
def findOverlapExample (a b : VersionRange) : String :=
  match a, b with
  | .exact .., _ => a.exampleVersion
  | _, .exact .. => b.exampleVersion
  | .minorWildcard .., _ => a.exampleVersion
  | _, .minorWildcard .. => b.exampleVersion
  | _, _ => a.exampleVersion

/-- The collections that the entries name. -/
def collections (entries : List MigrationEntry) : List String :=
  (entries.map MigrationEntry.collection).dedup

/-- The entries of one collection, in the order of the manifest. -/
def ofCollection (collection : String) (entries : List MigrationEntry) :
    List MigrationEntry :=
  entries.filter fun entry => entry.collection = collection

def checkOverlap (collection : String) (a b : MigrationEntry) : Except MigrationError Unit :=
  let rangeA := VersionRange.parse a.fromRange
  let rangeB := VersionRange.parse b.fromRange
  if rangeA.overlaps rangeB then
    .error (.manifestValidation ("overlapping 'from' ranges in collection '" ++ collection ++
      "': '" ++ a.fromRange ++ "' and '" ++ b.fromRange ++ "' both match version " ++
      findOverlapExample rangeA rangeB))
  else .ok ()

/-- Every entry against all that follow it. -/
def checkOverlaps (collection : String) : List MigrationEntry → Except MigrationError Unit
  | [] => .ok ()
  | entry :: rest => do
      rest.forM (checkOverlap collection entry)
      checkOverlaps collection rest

def validateNoOverlappingRanges (entries : List MigrationEntry) :
    Except MigrationError Unit :=
  (collections entries).forM fun collection =>
    checkOverlaps collection (ofCollection collection entries)

def versionMatchesRange (env : SemverEnv) (version : Version) (range : String) : Bool :=
  match segments range with
  | [major, minor] =>
    if minor = "x" then version.major = (readU64 major).getD (2 ^ 64 - 1) else false
  | [major, minor, patch] =>
    if patch = "x" then version.major = (readU64 major).getD (2 ^ 64 - 1) ∧
      version.minor = (readU64 minor).getD (2 ^ 64 - 1)
    else match env.parse range with
      | .ok v => version = v
      | .error _ => false
  | _ => false

/-- `a.to.cmp(&b.to)` is not `Greater`. -/
def targetLe (env : SemverEnv) (a b : MigrationEntry) : Prop :=
  le env a.target b.target = true

instance (env : SemverEnv) : DecidableRel (targetLe env) :=
  fun a b => inferInstanceAs (Decidable (le env a.target b.target = true))

/-- `sort_by(|a, b| a.to.cmp(&b.to))`, which is stable. -/
def sortByTarget (env : SemverEnv) (entries : List MigrationEntry) : List MigrationEntry :=
  entries.insertionSort (targetLe env)

/-- The loop over neighbours in a sorted chain. -/
def checkContiguity (env : SemverEnv) (collection : String) :
    List MigrationEntry → Except MigrationError Unit
  | prev :: next :: rest =>
    if ¬ versionMatchesRange env prev.target next.fromRange then
      .error (.manifestValidation ("migration chain gap in collection '" ++ collection ++
        "': entry targeting " ++ env.display prev.target ++
        " is not followed by an entry whose 'from' range matches " ++
        env.display prev.target ++ ". Next entry has 'from' range '" ++ next.fromRange ++ "'"))
    else checkContiguity env collection (next :: rest)
  | _ => .ok ()

def validateChainContiguity (env : SemverEnv) (entries : List MigrationEntry) :
    Except MigrationError Unit :=
  (collections entries).forM fun collection =>
    let chain := ofCollection collection entries
    if chain.length ≤ 1 then .ok ()
    else checkContiguity env collection (sortByTarget env chain)

/-- On what TOML reads from the text. -/
def parseMigrationEntriesFromStr (env : SemverEnv)
    (raw : Except String (Option (List RawMigrationEntry))) :
    Except MigrationError (List MigrationEntry) := do
  let migrations ← raw.mapError fun e =>
    .manifestParse ("failed to parse manifest TOML: " ++ e)
  match migrations with
  | none => pure []
  | some raws => do
      let entries ← parseEntriesFrom env 0 raws
      validateNoOverlappingRanges entries
      validateChainContiguity env entries
      pure entries

/-! ## What acceptance means -/

/-- Documented behaviour of the `semver` crate. -/
structure LawfulSemver (env : SemverEnv) : Prop where
  tail_total : ∀ a b, env.tailLe a b = true ∨ env.tailLe b a = true
  tail_trans : ∀ a b c, env.tailLe a b = true → env.tailLe b c = true →
    env.tailLe a c = true
  /-- The numbers of a version are of type `u64`. -/
  major_lt : ∀ text v, env.parse text = .ok v → v.major < 2 ^ 64
  /-- The first of three plain numbers is the major one. -/
  major_eq : ∀ text v major minor patch m n p, env.parse text = .ok v →
    segments text = [major, minor, patch] → readU64 major = some m →
    readU64 minor = some n → readU64 patch = some p → v.major = m

/-- The entries come from a manifest that the parser accepts. -/
def Accepted (env : SemverEnv) (entries : List MigrationEntry) : Prop :=
  ∃ raw, parseMigrationEntriesFromStr env raw = .ok entries

/-- The three forms of a range, with its major number. -/
inductive ValidRange (range : String) (m : Nat) : Prop where
  | major (text : String) (hsegments : segments range = [text, "x"])
      (hmajor : readU64 text = some m)
  | minor (text minor : String) (n : Nat) (hsegments : segments range = [text, minor, "x"])
      (hmajor : readU64 text = some m) (hminor : readU64 minor = some n)
  | exact (text minor patch : String) (n p : Nat)
      (hsegments : segments range = [text, minor, patch]) (hpatch : patch ≠ "x")
      (hmajor : readU64 text = some m) (hminor : readU64 minor = some n)
      (hvalue : readU64 patch = some p)

variable {range : String} {env : SemverEnv} {entries : List MigrationEntry}

theorem parseU64_ok {s partName : String} {i n : Nat} (h : parseU64 s partName range i = .ok n) :
    readU64 s = some n := by
  unfold parseU64 at h
  split at h
  · rename_i m hm
    cases h
    exact hm
  · cases h

theorem validateFromRange_ok {i : Nat} (h : validateFromRange range i = .ok ()) :
    ∃ m, ValidRange range m := by
  unfold validateFromRange at h
  split at h
  · rename_i major minor hsegments
    obtain ⟨m, hm, hrest⟩ := bind_eq_ok_iff.mp h
    by_cases hx : minor = "x"
    · subst hx
      exact ⟨m, .major major hsegments (parseU64_ok hm)⟩
    · simp [hx] at hrest
  · rename_i major minor patch hsegments
    obtain ⟨m, hm, hrest⟩ := bind_eq_ok_iff.mp h
    obtain ⟨n, hn, hlast⟩ := bind_eq_ok_iff.mp hrest
    by_cases hx : patch = "x"
    · subst hx
      exact ⟨m, .minor major minor n hsegments (parseU64_ok hm) (parseU64_ok hn)⟩
    · rw [if_pos hx] at hlast
      obtain ⟨p, hp, -⟩ := bind_eq_ok_iff.mp hlast
      exact ⟨m, .exact major minor patch n p hsegments hx (parseU64_ok hm)
        (parseU64_ok hn) (parseU64_ok hp)⟩
  · cases h

theorem ValidRange.minVersion_major {m : Nat} (h : ValidRange range m) :
    (fromRangeMinVersion range).major = m := by
  unfold fromRangeMinVersion
  cases h with
  | major text hsegments hmajor => simp [hsegments, new, hmajor]
  | minor text minor n hsegments hmajor hminor => simp [hsegments, new, hmajor]
  | exact text minor patch n p hsegments hpatch hmajor hminor hvalue =>
    simp [hsegments, hpatch, new, hmajor]

/-- A version in a range has the major number of the range. -/
theorem ValidRange.major_of_matches (hsemver : LawfulSemver env) {m : Nat}
    (h : ValidRange range m) {version : Version}
    (hmatches : versionMatchesRange env version range = true) : version.major = m := by
  unfold versionMatchesRange at hmatches
  cases h with
  | major text hsegments hmajor =>
    simpa [hsegments, hmajor] using hmatches
  | minor text minor n hsegments hmajor hminor =>
    have hboth : version.major = m ∧ version.minor = n := by
      simpa [hsegments, hmajor, hminor] using hmatches
    exact hboth.1
  | exact text minor patch n p hsegments hpatch hmajor hminor hvalue =>
    simp only [hsegments, hpatch, ↓reduceIte] at hmatches
    split at hmatches
    · rename_i v hv
      have hversion : version = v := by simpa using hmatches
      rw [hversion]
      exact hsemver.major_eq range v text minor patch m n p hv hsegments hmajor hminor hvalue
    · cases hmatches

theorem Version.le_iff {a b : Version} :
    le env a b = true ↔ a.major < b.major ∨ a.major = b.major ∧
      (a.minor < b.minor ∨ a.minor = b.minor ∧
        (a.patch < b.patch ∨ a.patch = b.patch ∧
          env.tailLe (a.pre, a.build) (b.pre, b.build) = true)) := by
  unfold le
  by_cases hmajor : a.major = b.major
  · by_cases hminor : a.minor = b.minor
    · by_cases hpatch : a.patch = b.patch <;> simp [hmajor, hminor, hpatch]
    · simp [hmajor, hminor]
  · simp [hmajor]

section Order

variable {env : SemverEnv} (hsemver : LawfulSemver env)

include hsemver

theorem LawfulSemver.le_total (a b : Version) : le env a b = true ∨ le env b a = true := by
  have htail := hsemver.tail_total (a.pre, a.build) (b.pre, b.build)
  rw [le_iff, le_iff]
  grind

theorem LawfulSemver.le_trans {a b c : Version} (hab : le env a b = true)
    (hbc : le env b c = true) : le env a c = true := by
  have htail := hsemver.tail_trans (a.pre, a.build) (b.pre, b.build) (c.pre, c.build)
  rw [le_iff] at hab hbc ⊢
  grind

/-- Sorting the manifest sorts the entries of every collection. -/
theorem ofCollection_sortByTarget (collection : String) (entries : List MigrationEntry) :
    ofCollection collection (sortByTarget env entries) =
      sortByTarget env (ofCollection collection entries) := by
  have htotal : Std.Total (targetLe env) := ⟨fun a b => hsemver.le_total a.target b.target⟩
  have htrans : IsTrans MigrationEntry (targetLe env) :=
    ⟨fun a b c hab hbc => hsemver.le_trans hab hbc⟩
  exact filter_insertionSort (targetLe env) _ entries

end Order

/-- What the checks of a single entry establish. -/
structure EntryAccepted (env : SemverEnv) (entry : MigrationEntry) : Prop where
  range : ∃ m, ValidRange entry.fromRange m
  parsed : ∃ text, env.parse text = .ok entry.target
  below : le env entry.target (fromRangeMinVersion entry.fromRange) = false

theorem parseEntry_ok {i : Nat} {raw : RawMigrationEntry} {entry : MigrationEntry}
    (h : parseEntry env i raw = .ok entry) :
    EntryAccepted env entry := by
  unfold parseEntry at h
  simp only [bind_eq_ok_iff, mapError_eq_ok_iff] at h
  obtain ⟨range, -, text, -, transform, -, description, -, collection, -, _, hrange,
    target, hparsed, _, hbelow, -, -, -, -, hentry⟩ := h
  cases hentry
  refine ⟨validateFromRange_ok hrange, ⟨text, hparsed⟩, ?_⟩
  unfold validateFromLessThanTo at hbelow
  by_cases hle : le env target (fromRangeMinVersion range) = true
  · simp [hle] at hbelow
  · simpa using hle

theorem parseEntriesFrom_ok {i : Nat} {raws : List RawMigrationEntry}
    (h : parseEntriesFrom env i raws = .ok entries) :
    ∀ entry ∈ entries, EntryAccepted env entry := by
  induction raws generalizing i entries with
  | nil =>
    cases h
    simp
  | cons raw rest ih =>
    obtain ⟨first, hfirst, hrest⟩ := bind_eq_ok_iff.mp h
    obtain ⟨others, hothers, hentries⟩ := bind_eq_ok_iff.mp hrest
    cases hentries
    intro entry hmem
    rcases List.mem_cons.mp hmem with rfl | hmem
    · exact parseEntry_ok hfirst
    · exact ih hothers entry hmem

theorem Accepted.entry (h : Accepted env entries) : ∀ entry ∈ entries, EntryAccepted env entry := by
  obtain ⟨raw, hraw⟩ := h
  obtain ⟨migrations, -, hrest⟩ := bind_eq_ok_iff.mp hraw
  cases migrations with
  | none =>
    cases hrest
    simp
  | some raws =>
    obtain ⟨parsed, hparsed, hchecks⟩ := bind_eq_ok_iff.mp hrest
    simp only [bind_eq_ok_iff] at hchecks
    obtain ⟨_, -, _, -, hentries⟩ := hchecks
    cases hentries
    exact parseEntriesFrom_ok hparsed

theorem checkContiguity_ok {collection : String} {chain : List MigrationEntry}
    (h : checkContiguity env collection chain = .ok ()) :
    chain.IsChain fun prev next =>
      versionMatchesRange env prev.target next.fromRange = true := by
  induction chain with
  | nil => simp
  | cons prev rest ih =>
    cases rest with
    | nil => simp
    | cons next rest =>
      rw [List.isChain_cons_cons]
      by_cases hmatches : versionMatchesRange env prev.target next.fromRange = true
      · have hrest : checkContiguity env collection (next :: rest) = .ok () := by
          simpa [checkContiguity, hmatches] using h
        exact ⟨hmatches, ih hrest⟩
      · simp [checkContiguity, hmatches] at h

/-- The sorted entries of a collection lead from each target into the next range. -/
theorem Accepted.chain (h : Accepted env entries) (collection : String) :
    (sortByTarget env (ofCollection collection entries)).IsChain fun prev next =>
      versionMatchesRange env prev.target next.fromRange = true := by
  obtain ⟨raw, hraw⟩ := h
  obtain ⟨migrations, -, hrest⟩ := bind_eq_ok_iff.mp hraw
  cases migrations with
  | none =>
    cases hrest
    simp [ofCollection, sortByTarget]
  | some raws =>
    obtain ⟨parsed, hparsed, hchecks⟩ := bind_eq_ok_iff.mp hrest
    simp only [bind_eq_ok_iff] at hchecks
    obtain ⟨_, -, _, hcontiguity, hentries⟩ := hchecks
    cases hentries
    by_cases hlength : (ofCollection collection entries).length ≤ 1
    · have hsorted : (sortByTarget env (ofCollection collection entries)).length ≤ 1 := by
        rw [sortByTarget, List.length_insertionSort]
        exact hlength
      match hchain : sortByTarget env (ofCollection collection entries) with
      | [] => simp
      | [entry] => simp
      | first :: second :: rest =>
        rw [hchain] at hsorted
        simp at hsorted
    · have hmem : collection ∈ collections entries := by
        have hne : ofCollection collection entries ≠ [] := by
          intro hnil
          simp [hnil] at hlength
        obtain ⟨entry, hentry⟩ := List.exists_mem_of_ne_nil _ hne
        have hpair := List.mem_filter.mp hentry
        rw [collections, List.mem_dedup]
        exact List.mem_map.mpr ⟨entry, hpair.1, by simpa using hpair.2⟩
      have hcheck := forM_eq_ok_iff.mp hcontiguity collection hmem
      simp only [hlength] at hcheck
      exact checkContiguity_ok hcheck

/-! ## Plain versions -/

/-- Versions of three numbers. -/
def plainSemver : SemverEnv where
  parse text :=
    match (segments text).map readU64 with
    | [some major, some minor, some patch] => .ok (new major minor patch)
    | _ => .error "expected three numbers"
  tailLe _ _ := true
  display v := toString v.major ++ "." ++ toString v.minor ++ "." ++ toString v.patch

theorem plainSemver_parse_ok {text : String} {v : Version}
    (h : plainSemver.parse text = .ok v) :
    ∃ major minor patch, (segments text).map readU64 =
      [some major, some minor, some patch] ∧ v = new major minor patch := by
  simp only [plainSemver] at h
  split at h
  · rename_i major minor patch hparts
    cases h
    exact ⟨major, minor, patch, hparts, rfl⟩
  · cases h

theorem plainSemver_lawful : LawfulSemver plainSemver where
  tail_total _ _ := .inl rfl
  tail_trans _ _ _ _ _ := rfl
  major_lt text v h := by
    obtain ⟨major, minor, patch, hparts, rfl⟩ := plainSemver_parse_ok h
    have hmem : some major ∈ (segments text).map readU64 := by simp [hparts]
    obtain ⟨s, -, hs⟩ := List.mem_map.mp hmem
    unfold readU64 at hs
    exact parseUnsigned_lt hs
  major_eq text v major minor patch m n p h hsegments hmajor _ _ := by
    obtain ⟨major', minor', patch', hparts, rfl⟩ := plainSemver_parse_ok h
    rw [hsegments, List.map_cons, hmajor] at hparts
    exact (Option.some.inj (List.cons.inj hparts).1).symm

end LifeEngine.Migration
