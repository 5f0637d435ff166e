import LifeEngine.Migration.Idempotence

/-!
# Major numbers as versions

The parser reads the numbers of a manifest as `u64`, the engine works on `i64`: it reads the
major number of a range again, and casts the one of the target.  Both keep their values
exactly if they are below `2 ^ 63`.
-/

namespace LifeEngine.Migration

open SqliteDocument

/-- No run fails on a range, and every updated record gets the major number of the target. -/
structure WritesMajors (semver : SemverEnv) (entries : List MigrationEntry) : Prop where
  accepted : ∀ (calls : Calls) (pluginId : String) (s : LoggedState) (message : String),
    (calls.runMigrations semver pluginId entries s).2 ≠ .error (.manifestValidation message)
  written : ∀ (calls : Calls) (pluginId : String), ∀ entry ∈ entries,
    ∀ (record : DocumentRow) (s s' : LoggedState),
      calls.migrateRecord semver pluginId entry record s = .ok s' →
      s'.log = s.log ++ [⟨entry, record.id, .updated⟩] →
      ∀ row ∈ s'.state.table.rows, row.id = record.id → row.version = entry.target.major

namespace Calls

variable {calls : Calls} {semver : SemverEnv} {pluginId : String} {entry : MigrationEntry}
  {s s' : LoggedState}

theorem migrateRecord_ne_manifestValidation {record : DocumentRow} (message : String) :
    calls.migrateRecord semver pluginId entry record s ≠ .error (.manifestValidation message) := by
  rcases hdata : record.data with e | input
  · simp [migrateRecord, hdata]
  · rcases houtput : calls.runTransform entry record.id input with e | output
    · by_cases hstored : calls.storesRecord entry record.id = true
      · simp [migrateRecord, hdata, houtput, hstored]
      · simp [migrateRecord, hdata, houtput, hstored]
    · simp [migrateRecord, hdata, houtput]

theorem migrateRecords_ne_manifestValidation (records : List DocumentRow) (s : LoggedState)
    (message : String) : calls.migrateRecords semver pluginId entry records s ≠
      .error (.manifestValidation message) := by
  induction records generalizing s with
  | nil => exact nofun
  | cons record rest ih =>
    rw [migrateRecords]
    rcases hfirst : calls.migrateRecord semver pluginId entry record s with e | s₁
    · have hne := hfirst ▸ migrateRecord_ne_manifestValidation message
      exact hne
    · exact ih s₁

/-- Only an unreadable range is a validation error. -/
theorem runEntries_ne_manifestValidation {entries : List MigrationEntry}
    (hparsed : ∀ entry ∈ entries, ∃ version, parseFromVersion entry.fromRange = .ok version)
    (s : LoggedState) (message : String) :
    (calls.runEntries semver pluginId entries s).2 ≠ .error (.manifestValidation message) := by
  induction entries generalizing s with
  | nil => exact nofun
  | cons entry rest ih =>
    obtain ⟨⟨version, hversion⟩, hrest⟩ := List.forall_mem_cons.mp hparsed
    rw [runEntries_cons_of_parsed hversion]
    set records := s.state.table.rows.filter (selects pluginId entry)
    by_cases hempty : records.isEmpty = true
    · rw [if_pos hempty]
      exact ih hrest s
    · rw [if_neg hempty]
      rcases hrecords : calls.migrateRecords semver pluginId entry records s with e | s₁
      · have hne := hrecords ▸ migrateRecords_ne_manifestValidation records s message
        exact fun h => hne (congrArg Except.error (Except.error.inj h))
      · exact ih hrest _

theorem version_of_updated {record : DocumentRow}
    (h : calls.migrateRecord semver pluginId entry record s = .ok s')
    (hlog : s'.log = s.log ++ [⟨entry, record.id, .updated⟩]) {row : DocumentRow}
    (hrow : row ∈ s'.state.table.rows) (hid : row.id = record.id) :
    row.version = toVersion entry := by
  rcases hdata : record.data with e | input
  · simp [migrateRecord, hdata] at h
  · rcases houtput : calls.runTransform entry record.id input with e | output
    · by_cases hstored : calls.storesRecord entry record.id = true
      · simp only [migrateRecord, hdata, houtput, if_pos hstored, Except.ok.injEq] at h
        simp [← h] at hlog
      · simp only [migrateRecord, hdata, houtput, if_neg hstored, Except.ok.injEq] at h
        simp [← h] at hlog
    · simp only [migrateRecord, hdata, houtput, Except.ok.injEq] at h
      rw [← h] at hrow
      obtain ⟨old, -, rfl⟩ := List.mem_map.mp hrow
      by_cases hold : old.id = record.id
      · simp [hold]
      · simp [hold] at hid

end Calls

/-- An accepted manifest runs without validation errors and writes the major numbers of its targets
exactly if all are below `2 ^ 63`. -/
theorem writesMajors_iff {semver : SemverEnv} (hsemver : LawfulSemver semver)
    {entries : List MigrationEntry} (haccepted : Accepted semver entries) :
    WritesMajors semver entries ↔ ∀ entry ∈ entries, entry.target.major < 2 ^ 63 := by
  constructor
  · intro h entry hentry
    by_contra hbig
    -- one record, whose transform succeeds
    let record : DocumentRow := ⟨"r", "p", entry.collection, .ok .null, 0, "", ""⟩
    let calls : Calls := ⟨fun _ _ input => .ok input, fun _ _ => true, fun _ _ => ""⟩
    have hversion := h.written calls "p" entry hentry record
      (.start ⟨[record], List.nodup_singleton _⟩ []) _ rfl rfl _ List.mem_cons_self rfl
    obtain ⟨text, hparsed⟩ := (haccepted.entry entry hentry).parsed
    have hneg := toVersion_neg (by omega) (hsemver.major_lt text entry.target hparsed)
    have hsame : toVersion entry = entry.target.major := hversion
    omega
  · intro h
    refine ⟨fun calls pluginId s message => ?_, ?_⟩
    · refine Calls.runEntries_ne_manifestValidation (fun entry hentry => ?_) _ message
      have hentry := (List.mem_insertionSort _).mp hentry
      obtain ⟨m, hrange⟩ := (haccepted.entry entry hentry).range
      have hle := (haccepted.entry entry hentry).le_target hrange
      have hlt := h entry hentry
      exact ⟨m, by rw [parseFromVersion_of_validRange hrange, if_pos (by omega)]⟩
    · intro calls pluginId entry hentry record s s' hstep hlog row hrow hid
      rw [Calls.version_of_updated hstep hlog hrow hid, toVersion_of_lt (h entry hentry)]

theorem writesMajors_iff_major :
    LawfulSemver plainSemver ∧ Accepted plainSemver [majorEntry] ∧
      (WritesMajors plainSemver [majorEntry] ↔
        ∀ entry ∈ [majorEntry], entry.target.major < 2 ^ 63) :=
  ⟨plainSemver_lawful, majorEntry_accepted, writesMajors_iff plainSemver_lawful majorEntry_accepted⟩

/-- Two entries with numbers of 64 bits. -/
def hugeEntries : List MigrationEntry :=
  [eventsEntry "1.x" (Version.new (2 ^ 63) 0 0),
    ⟨"9223372036854775808.x", Version.new (2 ^ 63 + 1) 0 0, "migrate", "", "tasks"⟩]

/-- The first entry writes a negative version; the second fails the run. -/
theorem not_writesMajors_huge :
    Accepted plainSemver hugeEntries ∧ ¬ WritesMajors plainSemver hugeEntries ∧
      (runMigrations identityEnv "p" hugeEntries oneEvent []).1.table.rows.map
        DocumentRow.version = [-9223372036854775808] ∧
      (runMigrations identityEnv "p" hugeEntries oneEvent []).2 = .error (.manifestValidation
        "cannot parse major version from '9223372036854775808.x'") := by
  have haccepted : Accepted plainSemver hugeEntries := by
    refine ⟨.ok (some [⟨some "1.x", some "9223372036854775808.0.0", some "migrate", some "",
      some "events"⟩, ⟨some "9223372036854775808.x", some "9223372036854775809.0.0",
      some "migrate", some "", some "tasks"⟩]), ?_⟩
    decide +kernel
  refine (fun hfails => ⟨haccepted, fun h => ?_, by decide +kernel, hfails⟩) (by decide +kernel)
  exact h.accepted identityEnv.calls "p" (.start oneEvent []) _ hfails

end LifeEngine.Migration
