import LifeEngine.Migration.Calls
import Mathlib.Data.List.TakeWhile

/-!
# Running migrations twice

A second run of the same migrations finds nothing to do exactly when no record
that the first run migrated is selected again.  A record of a collection climbs the
chain of the collection's entries to the target of the last one, so all depends on
that entry: it selects the records it has just written when its range and its
target have the same major number.
-/

namespace LifeEngine.Migration

open Support SqliteDocument List

/-- A second run, at another time, changes nothing. -/
def Idempotent (env : MigrationEnv) (later : MigrationEntry → String → String)
    (pluginId : String) (entries : List MigrationEntry) (table : Documents)
    (quarantine : List QuarantinedRecord) : Prop :=
  let first := (runMigrations env pluginId entries table quarantine).1
  let second := (runMigrations { env with clock := later } pluginId entries first.table
    first.quarantine).1
  second.migrated = 0 ∧ second.table.rows = first.table.rows

/-- In every collection with records to migrate, the last effective entry writes another version
than it selects. -/
def Leaves (env : MigrationEnv) (pluginId : String) (entries : List MigrationEntry)
    (rows : List DocumentRow) : Prop :=
  ∀ r ∈ rows, ∀ last, (∃ entry ∈ effective pluginId rows (sortByTarget env.semver entries),
      selects pluginId entry r = true) →
    (ofCollection r.collection
      (effective pluginId rows (sortByTarget env.semver entries))).getLast? = some last →
    parseFromVersion last.fromRange ≠ .ok (toVersion last)

/-! ## Versions as positions on a ladder -/

/-- The versions that an entry selects and writes. -/
def rung (entry : MigrationEntry) : Int × Int :=
  (((parseFromVersion entry.fromRange).toOption).getD 0, toVersion entry)

variable {entry : MigrationEntry}

theorem rung_fst {version : Int} (h : parseFromVersion entry.fromRange = .ok version) :
    (rung entry).1 = version := by
  simp [rung, h, Except.toOption]

theorem rung_snd (entry : MigrationEntry) : (rung entry).2 = toVersion entry := rfl

theorem parseFromVersion_of_validRange {range : String} {m : Nat} (h : ValidRange range m) :
    parseFromVersion range = if m < 2 ^ 63 then .ok (m : Int)
      else .error (.manifestValidation ("cannot parse major version from '" ++ range ++ "'")) := by
  obtain ⟨text, rest, hsegments, hmajor⟩ : ∃ text rest, segments range = text :: rest ∧
      readU64 text = some m := by
    cases h with
    | major text hsegments hmajor => exact ⟨text, _, hsegments, hmajor⟩
    | minor text minor n hsegments hmajor hminor => exact ⟨text, _, hsegments, hmajor⟩
    | exact text minor patch n p hsegments hpatch hmajor hminor hvalue =>
      exact ⟨text, _, hsegments, hmajor⟩
  have hread : readI64 text = if m < 2 ^ 63 then some (m : Int) else none := by
    unfold readU64 at hmajor
    unfold readI64
    exact parseSigned_of_parseUnsigned hmajor
  unfold parseFromVersion
  rw [hsegments, headD_cons, hread]
  by_cases hm : m < 2 ^ 63
  · rw [if_pos hm, if_pos hm]
  · rw [if_neg hm, if_neg hm]

theorem toVersion_of_lt (h : entry.target.major < 2 ^ 63) :
    toVersion entry = entry.target.major := by
  unfold toVersion
  rw [Int.bmod_def]
  omega

theorem toVersion_neg (h : 2 ^ 63 ≤ entry.target.major) (hlt : entry.target.major < 2 ^ 64) :
    toVersion entry < 0 := by
  unfold toVersion
  rw [Int.bmod_def]
  omega

/-- The target of an accepted entry is not below its range. -/
theorem EntryAccepted.le_target {env : SemverEnv} (h : EntryAccepted env entry) {m : Nat}
    (hrange : ValidRange entry.fromRange m) :
    m ≤ entry.target.major := by
  have hbelow := h.below
  by_contra hlt
  have hle : Version.le env entry.target (fromRangeMinVersion entry.fromRange) = true := by
    rw [Version.le_iff, hrange.minVersion_major]
    omega
  rw [hle] at hbelow
  cases hbelow

/-- An accepted entry with an `i64` major number. -/
structure Runnable (env : SemverEnv) (entry : MigrationEntry) (m : Nat) : Prop where
  accepted : EntryAccepted env entry
  range : ValidRange entry.fromRange m
  small : m < 2 ^ 63

namespace Runnable

variable {env : SemverEnv} {entry : MigrationEntry} {m : Nat}

theorem parsed (h : Runnable env entry m) : parseFromVersion entry.fromRange = .ok (m : Int) := by
  rw [parseFromVersion_of_validRange h.range, if_pos h.small]

theorem start_eq (h : Runnable env entry m) : (rung entry).1 = m := rung_fst h.parsed

/-- The last rung can only lead back onto its own start. -/
theorem end_eq_start (hsemver : LawfulSemver env) (h : Runnable env entry m)
    (hnonneg : 0 ≤ toVersion entry) (hle : toVersion entry ≤ (rung entry).1) :
    toVersion entry = (rung entry).1 := by
  obtain ⟨text, hparsed⟩ := h.accepted.parsed
  have hlt := hsemver.major_lt text entry.target hparsed
  have hsmall : entry.target.major < 2 ^ 63 := by
    by_contra hbig
    have hneg := toVersion_neg (by omega) hlt
    omega
  have htarget := toVersion_of_lt hsmall
  have hstart := h.start_eq
  have hup := h.accepted.le_target h.range
  omega

end Runnable

/-! ## The chain of one collection -/

section Chain

variable {semver : SemverEnv} {pluginId : String} {entries : List MigrationEntry}
  {rows : List DocumentRow}

theorem mem_effective {entry : MigrationEntry}
    (h : entry ∈ effective pluginId rows (sortByTarget semver entries)) :
    entry ∈ entries ∧ blocked pluginId rows entry = false := by
  have hmem := (takeWhile_sublist _).subset h
  have hnot := mem_takeWhile_imp h
  refine ⟨(mem_insertionSort _).mp hmem, ?_⟩
  simpa using hnot

theorem runnable_of_mem_effective (haccepted : Accepted semver entries)
    {entry : MigrationEntry}
    (h : entry ∈ effective pluginId rows (sortByTarget semver entries)) :
    ∃ m, Runnable semver entry m := by
  obtain ⟨hmem, hblocked⟩ := mem_effective h
  cases hversion : parseFromVersion entry.fromRange with
  | error e => simp [blocked, hversion] at hblocked
  | ok version =>
    have hentry := haccepted.entry entry hmem
    obtain ⟨m, hrange⟩ := hentry.range
    refine ⟨m, hentry, hrange, ?_⟩
    by_contra hm
    rw [parseFromVersion_of_validRange hrange, if_neg hm] at hversion
    cases hversion

/-- The entries of each collection are a ladder, and none leads down before the last. -/
structure Climbing (semver : SemverEnv) (steps : List MigrationEntry) : Prop where
  lawful : LawfulSemver semver
  runnable : ∀ entry ∈ steps, ∃ m, Runnable semver entry m
  linked : ∀ collection, (ofCollection collection steps).IsChain fun prev next =>
    (rung prev).2 = (rung next).1 ∧ (rung prev).1 ≤ (rung prev).2

theorem effective_climbing (hsemver : LawfulSemver semver)
    (haccepted : Accepted semver entries) :
    Climbing semver (effective pluginId rows (sortByTarget semver entries)) := by
  refine ⟨hsemver, fun entry => runnable_of_mem_effective haccepted, fun collection => ?_⟩
  have hsorted : (ofCollection collection (sortByTarget semver entries)).IsChain
      fun prev next =>
        versionMatchesRange semver prev.target next.fromRange = true := by
    rw [ofCollection_sortByTarget hsemver]
    exact haccepted.chain collection
  have hchain := hsorted.prefix (List.IsPrefix.filter _ ( takeWhile_prefix
    (fun entry => !blocked pluginId rows entry)))
  refine List.IsChain.imp_of_mem_imp ?_ hchain
  intro prev next hprev hnext hmatches
  obtain ⟨m, hrunPrev⟩ := runnable_of_mem_effective haccepted (mem_of_mem_filter hprev)
  obtain ⟨n, hrunNext⟩ := runnable_of_mem_effective haccepted (mem_of_mem_filter hnext)
  have htarget : prev.target.major = n := hrunNext.range.major_of_matches hsemver hmatches
  have hlink : toVersion prev = n := by
    have hsmall := hrunNext.small
    rw [toVersion_of_lt (by omega), htarget]
  rw [rung_snd, hlink, hrunNext.start_eq, hrunPrev.start_eq]
  have hup := hrunPrev.accepted.le_target hrunPrev.range
  exact ⟨rfl, by omega⟩

namespace Climbing

variable {steps : List MigrationEntry} (h : Climbing semver steps)

include h

theorem isLadder (collection : String) : IsLadder ((ofCollection collection steps).map rung) := by
  rw [IsLadder, isChain_map]
  exact (h.linked collection).imp fun _ _ hlink => hlink.1

/-- The entries that select a row are the rungs at its version. -/
theorem exists_selects_iff {r : DocumentRow} (hplugin : r.pluginId = pluginId) :
    (∃ entry ∈ steps, selects pluginId entry r = true) ↔
      ∃ step ∈ (ofCollection r.collection steps).map rung, step.1 = r.version := by
  constructor
  · rintro ⟨entry, hmem, hselects⟩
    obtain ⟨-, hcollection, hversion⟩ := selects_eq_true_iff.mp hselects
    refine ⟨rung entry, mem_map_of_mem (mem_filter.mpr ⟨hmem, ?_⟩), rung_fst hversion⟩
    simp [hcollection]
  · rintro ⟨step, hstep, hversion⟩
    obtain ⟨entry, hentry, rfl⟩ := mem_map.mp hstep
    obtain ⟨hmem, hcollection⟩ := mem_filter.mp hentry
    obtain ⟨m, hrun⟩ := h.runnable entry hmem
    refine ⟨entry, hmem, selects_eq_true_iff.mpr ⟨hplugin, ?_, ?_⟩⟩
    · exact (of_decide_eq_true hcollection).symm
    · rw [hrun.parsed, ← hversion, hrun.start_eq]

/-- The last target is a start exactly when it is that of the last entry. -/
theorem comes_back_iff {collection : String} {last : MigrationEntry}
    (hlast : (ofCollection collection steps).getLast? = some last) :
    (∃ step ∈ (ofCollection collection steps).map rung, step.1 = toVersion last) ↔
      parseFromVersion last.fromRange = .ok (toVersion last) := by
  have hmem := mem_of_getLast? hlast
  obtain ⟨m, hrun⟩ := h.runnable last (mem_of_mem_filter hmem)
  constructor
  · rintro ⟨step, hstep, hback⟩
    have hlastRung : ((ofCollection collection steps).map rung).getLast? = some (rung last) := by
      rw [getLast?_map, hlast]
      rfl
    have hle : toVersion last ≤ (rung last).1 := by
      rw [← hback]
      refine (h.isLadder collection).start_le_last ?_ hstep hlastRung
      rw [isChain_map]
      exact (h.linked collection).imp fun _ _ hlink => hlink.2
    have hnonneg : 0 ≤ toVersion last := by
      obtain ⟨other, hother, rfl⟩ := mem_map.mp hstep
      obtain ⟨n, hn⟩ := h.runnable other (mem_of_mem_filter hother)
      rw [← hback, hn.start_eq]
      exact Int.natCast_nonneg n
    rw [hrun.end_eq_start h.lawful hnonneg hle, hrun.start_eq, hrun.parsed]
  · intro hsame
    exact ⟨rung last, mem_map_of_mem hmem, rung_fst hsame⟩

end Climbing

end Chain

/-! ## One row in one run -/

section Row

variable {env : MigrationEnv} {pluginId : String}

theorem applyEntry_version (htotal : env.Total) {r : DocumentRow}
    (hjson : DocumentRow.corrupt r = false) (hplugin : r.pluginId = pluginId)
    {entry : MigrationEntry} {version : Int}
    (hversion : parseFromVersion entry.fromRange = .ok version) :
    (env.calls.applyEntry pluginId r entry).version =
      if entry.collection = r.collection then stepUp r.version (rung entry)
      else r.version := by
  obtain ⟨input, hdata⟩ : ∃ input, r.data = .ok input := by
    cases hdata : r.data with
    | error e => simp [DocumentRow.corrupt, hdata] at hjson
    | ok input => exact ⟨input, rfl⟩
  obtain ⟨output, houtput⟩ := htotal entry.transform input
  by_cases hcollection : entry.collection = r.collection
  · rw [if_pos hcollection, stepUp, rung_fst hversion]
    by_cases hselected : r.version = version
    · have hselects : selects pluginId entry r = true :=
        selects_eq_true_iff.mpr ⟨hplugin, hcollection.symm, hselected ▸ hversion⟩
      rw [if_pos hselected, Calls.applyEntry,
        if_pos hselects, Calls.migrateRow_of_ok hdata houtput]
      rfl
    · have hselects : ¬ selects pluginId entry r = true := by
        intro hselects
        have hsame := (selects_eq_true_iff.mp hselects).2.2
        rw [hversion] at hsame
        cases hsame
        exact hselected rfl
      rw [if_neg hselected, Calls.applyEntry_of_not_selects hselects]
  · have hselects : ¬ selects pluginId entry r = true := fun hselects =>
      hcollection (selects_eq_true_iff.mp hselects).2.1.symm
    rw [if_neg hcollection, Calls.applyEntry_of_not_selects hselects]

/-- A record climbs the ladder of its collection. -/
theorem runRow_version (htotal : env.Total) {entries : List MigrationEntry}
    (hparsed : ∀ entry ∈ entries, ∃ version, parseFromVersion entry.fromRange = .ok version)
    {r : DocumentRow} (hjson : DocumentRow.corrupt r = false)
    (hplugin : r.pluginId = pluginId) :
    (env.calls.runRow pluginId entries r).version =
      climb ((ofCollection r.collection entries).map rung) r.version := by
  induction entries generalizing r with
  | nil => rfl
  | cons entry rest ih =>
    obtain ⟨version, hversion⟩ := hparsed entry mem_cons_self
    have hsame : SameRecord r (env.calls.applyEntry pluginId r entry) :=
      Calls.applyEntry_same r entry
    have hrest := ih (fun other hother => hparsed other (mem_cons_of_mem _ hother))
      (r := env.calls.applyEntry pluginId r entry) (hsame.corrupt.trans hjson)
      (hsame.pluginId.trans hplugin)
    rw [Calls.runRow_cons, hrest, hsame.collection,
      applyEntry_version htotal hjson hplugin hversion]
    by_cases hcollection : entry.collection = r.collection
    · simp [ofCollection, hcollection, climb_cons]
    · simp [ofCollection, hcollection]

theorem effective_map_runRow (rows : List DocumentRow) (steps entries : List MigrationEntry) :
    effective pluginId (rows.map (env.calls.runRow pluginId steps)) entries =
      effective pluginId rows entries := by
  simp only [effective, blocked_map (Calls.runRow_same steps)]

end Row

/-! ## Two runs -/

/-- A run that never fails migrates nothing exactly when no entry selects a row. -/
theorem migrated_eq_zero_iff {env : MigrationEnv} {pluginId : String} (htotal : env.Total)
    {entries : List MigrationEntry} {table : Documents}
    {quarantine : List QuarantinedRecord} {s : LoggedState}
    (h : env.calls.Ran env.semver pluginId entries (.start table quarantine) s) :
    s.state.migrated = 0 ↔
      ∀ r ∈ table.rows, ∀ entry ∈ entries, ¬ selects pluginId entry r = true := by
  have hquarantined : s.state.quarantined = 0 := h.total htotal.calls
  have hcounted : s.state.migrated + s.state.quarantined + 0 = 0 + 0 + s.state.calls.length :=
    h.counted
  have hcalls : s.state.migrated = 0 ↔ s.state.calls = [] := by
    rw [← length_eq_zero_iff]
    omega
  rw [hcalls]
  constructor
  · intro hnil r hr
    have hrow := h.filter_calls hr
    rw [hnil] at hrow
    have hattempts : env.calls.attempts pluginId entries r = [] := by
      simpa [LoggedState.start, MigrationState.start] using hrow
    exact stepsTaken_eq_nil_iff.mp hattempts
  · intro hnone
    rw [eq_nil_iff_forall_not_mem]
    intro call hcall
    have hid : call.2 ∈ table.keys := by
      rcases h.known hcall with hold | hnew
      · cases hold
      · exact hnew
    obtain ⟨r, hr, hkey⟩ := Table.mem_keys.mp hid
    have hrow := h.filter_calls hr
    rw [Calls.attempts, stepsTaken_eq_nil_iff.mpr (hnone r hr)] at hrow
    have hempty : s.state.calls.filter (fun other => other.2 = r.id) = [] := hrow
    have hfiltered := filter_eq_nil_iff.mp hempty call hcall
    simp [hkey] at hfiltered

section TwoRuns

variable {env : MigrationEnv} {pluginId : String} {entries : List MigrationEntry}
  {rows : List DocumentRow}

/-- A corrupt row blocks the entries that select it. -/
theorem not_corrupt_of_selects {entry : MigrationEntry} {r : DocumentRow} (hr : r ∈ rows)
    (hentry : entry ∈ effective pluginId rows (sortByTarget env.semver entries))
    (hselects : selects pluginId entry r = true) : DocumentRow.corrupt r = false := by
  obtain ⟨-, hblocked⟩ := mem_effective hentry
  have hversion := (selects_eq_true_iff.mp hselects).2.2
  simp only [blocked, hversion, any_eq_false, Bool.and_eq_true, not_and] at hblocked
  by_contra hcorrupt
  have hcorrupt' : DocumentRow.corrupt r = true := by simpa using hcorrupt
  exact hblocked r hr hcorrupt' hselects

variable {steps : List MigrationEntry} {r : DocumentRow}

/-- A selected row ends at the target of the last entry. -/
theorem Climbing.version_runRow (h : Climbing env.semver steps) (htotal : env.Total)
    (hjson : DocumentRow.corrupt r = false) {entry : MigrationEntry} (hentry : entry ∈ steps)
    (hselects : selects pluginId entry r = true) :
    ∃ last, (ofCollection r.collection steps).getLast? = some last ∧
      (env.calls.runRow pluginId steps r).version = toVersion last := by
  have hplugin : r.pluginId = pluginId := (selects_eq_true_iff.mp hselects).1
  have hparsed : ∀ other ∈ steps, ∃ version, parseFromVersion other.fromRange = .ok version := by
    intro other hother
    obtain ⟨m, hrun⟩ := h.runnable other hother
    exact ⟨m, hrun.parsed⟩
  obtain ⟨start, hstart, hversion⟩ := (h.exists_selects_iff hplugin).mp ⟨entry, hentry, hselects⟩
  obtain ⟨last, hlast⟩ : ∃ last, (ofCollection r.collection steps).getLast? = some last := by
    rcases hlist : ofCollection r.collection steps with _ | ⟨first, rest⟩
    · simp [hlist] at hstart
    · exact ⟨_, getLast?_cons⟩
  have hlastRung : ((ofCollection r.collection steps).map rung).getLast? = some (rung last) := by
    rw [getLast?_map, hlast]
    rfl
  refine ⟨last, hlast, ?_⟩
  rw [runRow_version htotal hparsed hjson hplugin,
    climb_of_mem (h.isLadder r.collection) hstart hversion hlastRung, rung_snd]

/-- A row is selected again exactly when it was, and the last entry writes the version that it
selects. -/
theorem Climbing.selected_again_iff (h : Climbing env.semver steps) (htotal : env.Total)
    (hjson : ∀ entry ∈ steps, selects pluginId entry r = true → DocumentRow.corrupt r = false) :
    (∃ entry ∈ steps, selects pluginId entry (env.calls.runRow pluginId steps r) = true) ↔
      (∃ entry ∈ steps, selects pluginId entry r = true) ∧
      ∃ last, (ofCollection r.collection steps).getLast? = some last ∧
        parseFromVersion last.fromRange = .ok (toVersion last) := by
  by_cases hselected : ∃ entry ∈ steps, selects pluginId entry r = true
  · obtain ⟨entry, hentry, hselects⟩ := hselected
    have hplugin : r.pluginId = pluginId := (selects_eq_true_iff.mp hselects).1
    obtain ⟨last, hlast, hend⟩ := h.version_runRow htotal (hjson entry hentry hselects) hentry
      hselects
    have hsame : SameRecord r (env.calls.runRow pluginId steps r) := Calls.runRow_same steps r
    rw [h.exists_selects_iff (hsame.pluginId.trans hplugin), hsame.collection, hend,
      h.comes_back_iff hlast]
    constructor
    · intro hback
      exact ⟨⟨entry, hentry, hselects⟩, last, hlast, hback⟩
    · rintro ⟨-, last', hlast', hback⟩
      rw [hlast] at hlast'
      cases hlast'
      exact hback
  · have hstay : env.calls.runRow pluginId steps r = r := by
      apply Calls.runRow_of_not_selects
      intro entry hentry hselects
      exact hselected ⟨entry, hentry, hselects⟩
    rw [hstay]
    simp [hselected]

/-- With transforms that never fail, an accepted manifest migrates once exactly when the last
effective entries leave the major number that they select. -/
theorem idempotent_iff_leaves (hsemver : LawfulSemver env.semver)
    (haccepted : Accepted env.semver entries) (htotal : env.Total)
    (later : MigrationEntry → String → String) (table : Documents)
    (quarantine : List QuarantinedRecord) :
    Idempotent env later pluginId entries table quarantine ↔
      Leaves env pluginId entries table.rows := by
  set first := (runMigrations env pluginId entries table quarantine).1 with hfirst
  set steps := effective pluginId table.rows (sortByTarget env.semver entries)
  have hrows : first.table.rows = table.rows.map (env.calls.runRow pluginId steps) :=
    (Calls.runEntries_ran _ (.start table quarantine)).1.rows
  set again : MigrationEnv := { env with clock := later }
  have hsecond : again.calls.Ran env.semver pluginId steps (.start first.table first.quarantine)
      (again.calls.runMigrations env.semver pluginId entries
        (.start first.table first.quarantine)).1 := by
    have heffective : steps = effective pluginId first.table.rows
        (sortByTarget env.semver entries) := by rw [hrows, effective_map_runRow]
    rw [heffective]
    exact (Calls.runEntries_ran (sortByTarget env.semver entries)
      (.start first.table first.quarantine)).1
  have htotal' : again.Total := htotal
  have hagain := fun r (hr : r ∈ table.rows) =>
    (effective_climbing hsemver haccepted : Climbing env.semver steps).selected_again_iff htotal
      fun _ hentry => not_corrupt_of_selects hr hentry
  have hzero := migrated_eq_zero_iff htotal' hsecond
  have hidempotent : Idempotent env later pluginId entries table quarantine ↔
      ∀ r ∈ first.table.rows, ∀ entry ∈ steps, ¬ selects pluginId entry r = true := by
    constructor
    · rintro ⟨hmigrated, -⟩
      exact hzero.mp hmigrated
    · intro hnone
      refine ⟨hzero.mpr hnone, ?_⟩
      refine hsecond.rows.trans ?_
      have hsame : ∀ r ∈ first.table.rows,
          again.calls.runRow pluginId steps r = r :=
        fun r hr => Calls.runRow_of_not_selects (hnone r hr)
      exact (map_congr_left hsame).trans (map_id _)
  rw [hidempotent, hrows]
  constructor
  · intro hnone r hr last hselected hlast hsame
    obtain ⟨entry, hentry, hselects⟩ := (hagain r hr).mpr ⟨hselected, last, hlast, hsame⟩
    exact hnone _ (mem_map_of_mem hr) entry hentry hselects
  · intro hleaves row hrow entry hentry hselects
    obtain ⟨r, hr, rfl⟩ := mem_map.mp hrow
    obtain ⟨hselected, last, hlast, hsame⟩ := (hagain r hr).mp ⟨entry, hentry, hselects⟩
    exact hleaves r hr last hselected hlast hsame

/-- From `1.x` to `2.0.0` the record is migrated once. -/
theorem idempotent_iff_leaves_major :
    LawfulSemver identityEnv.semver ∧ Accepted identityEnv.semver [majorEntry] ∧
      identityEnv.Total ∧
      (Idempotent identityEnv identityEnv.clock "p" [majorEntry] oneEvent [] ↔
        Leaves identityEnv "p" [majorEntry] oneEvent.rows) := by
  have hsemver : LawfulSemver identityEnv.semver := plainSemver_lawful
  have haccepted : Accepted identityEnv.semver [majorEntry] := majorEntry_accepted
  exact ⟨hsemver, haccepted, identityEnv_total,
    idempotent_iff_leaves hsemver haccepted identityEnv_total identityEnv.clock oneEvent []⟩

/-- From `1.0.x` to `1.1.0` every run migrates the record again. -/
theorem not_idempotent_minor :
    LawfulSemver identityEnv.semver ∧ Accepted identityEnv.semver [minorEntry] ∧
      identityEnv.Total ∧
      ¬ Idempotent identityEnv identityEnv.clock "p" [minorEntry] oneEvent [] := by
  refine ⟨plainSemver_lawful, minorEntry_accepted, identityEnv_total, ?_⟩
  rintro ⟨hmigrated, -⟩
  exact absurd hmigrated (by decide +kernel)

end TwoRuns

end LifeEngine.Migration
