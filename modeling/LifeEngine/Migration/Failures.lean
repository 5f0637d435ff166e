import LifeEngine.Migration.Ascent
import LifeEngine.Migration.Idempotence

/-!
# Failed records and repeated runs

A record whose transform fails goes to quarantine and does not keep the others from being
migrated.  Two things are different.  A record that is not JSON is an error of the whole
run: its entry is rolled back and the later entries are not applied.  And a failed record
stays in the table with the version it had, so a later run selects it again and adds
another row to the quarantine table.

In an accepted manifest the entries of a collection form a chain, so a record that is
selected after a run was selected by the same entry in that run
(`mem_attempts_of_selects`).  The partition of the records therefore survives later runs
exactly if these find nothing to do.
-/

namespace LifeEngine.Migration

open Support SqliteDocument List LoggedState

/-- Several runs of `run_migrations`, and whether all returned `Ok`. -/
def runHistory (semver : SemverEnv) (pluginId : String) (entries : List MigrationEntry) :
    List Calls → LoggedState → LoggedState × Bool
  | [], s => (s, true)
  | calls :: rest, s =>
    let run := calls.runMigrations semver pluginId entries s
    let later := runHistory semver pluginId entries rest run.1
    (later.1, run.2.isOk && later.2)

/-- What the runs leave of a database. -/
def afterRuns (semver : SemverEnv) (pluginId : String) (entries : List MigrationEntry)
    (table : Documents) (quarantine : List QuarantinedRecord) (runs : List Calls) :
    LoggedState :=
  (runHistory semver pluginId entries runs (start table quarantine)).1

def onlyRow (r : DocumentRow) : Documents where
  rows := [r]
  keys_nodup := nodup_singleton r.id

/-- All runs return `Ok`, and every record that an entry selects in one of them is either
migrated to the entry's target or put into quarantine, once in all runs.  The database
shows what is logged: a record has the version of its last update, and the new rows in
quarantine are the logged ones.  Every record ends as it would without the others. -/
structure Partitioned (semver : SemverEnv) (pluginId : String) (entries : List MigrationEntry)
    (table : Documents) (quarantine : List QuarantinedRecord) (runs : List Calls) : Prop where
  succeeded : (runHistory semver pluginId entries runs
    (start table quarantine)).2 = true
  once : ∀ e ∈ (afterRuns semver pluginId entries table quarantine runs).log,
    (afterRuns semver pluginId entries table quarantine runs).log.countP
      (fun other => other.key = e.key && other.settled) = 1
  migrated : ∀ r ∈ table.rows,
    ∃ r' ∈ (afterRuns semver pluginId entries table quarantine runs).state.table.rows,
      r'.id = r.id ∧ r'.version =
        ((afterRuns semver pluginId entries table quarantine runs).log.filter
          fun e => e.id = r.id).foldl LogEntry.reached r.version
  quarantined : (afterRuns semver pluginId entries table quarantine runs).state.quarantine =
    quarantine ++
      (afterRuns semver pluginId entries table quarantine runs).log.filterMap LogEntry.row
  described : ∀ e ∈ (afterRuns semver pluginId entries table quarantine runs).log,
    e.Described semver pluginId
  isolated : ∀ r ∈ table.rows,
    ∃ r' ∈ (afterRuns semver pluginId entries table quarantine runs).state.table.rows,
      (afterRuns semver pluginId entries (onlyRow r) quarantine runs).state.table.rows = [r']

/-! ## Selected again -/

theorem Accepted.nodup {env : SemverEnv} {entries : List MigrationEntry}
    (h : Accepted env entries) : entries.Nodup := by
  rw [nodup_iff_count_le_one]
  intro entry
  have hnodup : (ofCollection entry.collection entries).Nodup :=
    (h.pairwise entry.collection).imp fun {a b} hdisjoint heq => by
      subst heq
      rcases hrange : VersionRange.parse a.fromRange with _ | _ | _
      all_goals simp [hrange, VersionRange.overlaps] at hdisjoint
  have hcount : (ofCollection entry.collection entries).count entry = entries.count entry :=
    count_filter (by simp)
  rw [← hcount]
  exact nodup_iff_count_le_one.mp hnodup entry

section Again

variable {calls : Calls} {semver : SemverEnv} {pluginId : String}

variable {steps : List MigrationEntry}

theorem runRow_version_ne (hsemver : LawfulSemver semver)
    (hrun : ∀ entry ∈ steps, ∃ m, Runnable semver entry m) {version : Int}
    (hversion : 0 ≤ version) {r : DocumentRow}
    (hstarts : ∀ entry ∈ steps, entry.collection = r.collection → version ≤ (rung entry).1)
    (hne : r.version ≠ version) :
    (calls.runRow pluginId steps r).version ≠ version := by
  induction steps generalizing r with
  | nil => exact hne
  | cons entry rest ih =>
    obtain ⟨hentry, hrest⟩ := forall_mem_cons.mp hrun
    obtain ⟨hstart, hstarts⟩ := forall_mem_cons.mp hstarts
    have hsame : SameRecord r (calls.applyEntry pluginId r entry) :=
      Calls.applyEntry_same r entry
    refine ih hrest (fun other hother hcollection =>
      hstarts other hother (hcollection.trans hsame.collection)) ?_
    by_cases hselects : selects pluginId entry r = true
    · obtain ⟨-, hcollection, hparsed⟩ := selects_eq_true_iff.mp hselects
      have hfrom := rung_fst hparsed
      have hle := hstart hcollection.symm
      obtain ⟨m, hm⟩ := hentry
      have hend : (calls.applyEntry pluginId r entry).version =
          (calls.event semver pluginId entry r).reached r.version :=
        Calls.applyEntry_version hselects
      rw [hend]
      rcases (calls.event semver pluginId entry r).reached_cases r.version with hto | hstay
      · have hto' : (calls.event semver pluginId entry r).reached r.version = toVersion entry := hto
        by_contra hsame
        have hclimb := hm.end_eq_start hsemver (by omega) (by omega)
        omega
      · rw [hstay]
        exact hne
    · rw [Calls.applyEntry_of_not_selects hselects]
      exact hne

/-- If the starts go up, an entry that selects the record after the run did so in it. -/
theorem mem_attempts_of_selects (hsemver : LawfulSemver semver)
    (hrun : ∀ entry ∈ steps, ∃ m, Runnable semver entry m) {r : DocumentRow}
    (hsorted : steps.Pairwise fun a b => a.collection = r.collection →
      b.collection = r.collection → (rung a).1 ≤ (rung b).1)
    {entry : MigrationEntry} (hmem : entry ∈ steps)
    (hselects : selects pluginId entry (calls.runRow pluginId steps r) = true) :
    entry ∈ calls.attempts pluginId steps r := by
  induction steps generalizing r with
  | nil => exact nomatch hmem
  | cons first rest ih =>
    obtain ⟨hfirst, hrest⟩ := forall_mem_cons.mp hrun
    obtain ⟨hstarts, hsorted⟩ := pairwise_cons.mp hsorted
    have hsame : SameRecord r (calls.applyEntry pluginId r first) :=
      Calls.applyEntry_same r first
    rcases mem_cons.mp hmem with rfl | hmem
    · by_cases hnow : selects pluginId entry r = true
      · rw [Calls.attempts, stepsTaken_cons_of_takes hnow]
        exact mem_cons_self
      · -- the later entries start at or above this one and cannot bring the record there
        have hstay : calls.runRow pluginId (entry :: rest) r =
            calls.runRow pluginId rest r :=
          congrArg (calls.runRow pluginId rest) (Calls.applyEntry_of_not_selects hnow)
        rw [hstay] at hselects
        have hend : SameRecord r (calls.runRow pluginId rest r) := Calls.runRow_same rest r
        obtain ⟨hplugin, hcollection, hparsed⟩ := selects_eq_true_iff.mp hselects
        rw [hend.pluginId] at hplugin
        rw [hend.collection] at hcollection
        obtain ⟨m, hm⟩ := hfirst
        have hstart := rung_fst hparsed
        have hne : r.version ≠ (calls.runRow pluginId rest r).version := fun heq =>
          hnow (selects_eq_true_iff.mpr ⟨hplugin, hcollection, heq ▸ hparsed⟩)
        have haway : (calls.runRow pluginId rest r).version ≠
            (calls.runRow pluginId rest r).version := by
          refine runRow_version_ne hsemver hrest ?_ (fun other hother hother' => ?_) hne
          · rw [← hstart, hm.start_eq]
            exact Int.natCast_nonneg m
          · rw [← hstart]
            exact hstarts other hother hcollection.symm hother'
        exact absurd rfl haway
    · have hsorted' : rest.Pairwise fun a b =>
          a.collection = (calls.applyEntry pluginId r first).collection →
            b.collection = (calls.applyEntry pluginId r first).collection →
              (rung a).1 ≤ (rung b).1 := by
        rw [hsame.collection]
        exact hsorted
      have hlater := ih hrest hsorted' hmem hselects
      by_cases hnow : selects pluginId first r = true
      · rw [Calls.attempts, stepsTaken_cons_of_takes hnow]
        exact mem_cons_of_mem first hlater
      · rw [Calls.attempts, stepsTaken_cons_of_not_takes hnow]
        rw [Calls.applyEntry_of_not_selects hnow] at hlater
        exact hlater

variable {entries : List MigrationEntry} {rows : List DocumentRow}

theorem mem_sorted_iff {entry : MigrationEntry} :
    entry ∈ sortByTarget semver entries ↔ entry ∈ entries :=
  mem_insertionSort _

theorem effective_sorted
    (hblocked : ∀ entry ∈ entries, blocked pluginId rows entry = false) :
    effective pluginId rows (sortByTarget semver entries) = sortByTarget semver entries := by
  rw [effective, takeWhile_eq_self_iff]
  intro entry hentry
  rw [hblocked entry (mem_sorted_iff.mp hentry)]
  rfl

theorem climbing_sorted (hsemver : LawfulSemver semver) (haccepted : Accepted semver entries)
    (hblocked : ∀ entry ∈ entries, blocked pluginId rows entry = false) :
    Climbing semver (sortByTarget semver entries) := by
  rw [← effective_sorted hblocked]
  exact effective_climbing hsemver haccepted

/-- On a ladder the starts of a collection's entries go up. -/
theorem Climbing.starts (h : Climbing semver steps) (collection : String) :
    steps.Pairwise fun a b => a.collection = collection → b.collection = collection →
      (rung a).1 ≤ (rung b).1 := by
  have hchain : ((ofCollection collection steps).map
      fun entry => (rung entry).1).IsChain (· ≤ ·) := by
    rw [isChain_map]
    exact (h.linked collection).imp fun _ _ hlink => hlink.2.trans hlink.1.le
  have hpairwise := hchain.pairwise
  rw [pairwise_map, ofCollection, pairwise_filter] at hpairwise
  exact hpairwise.imp fun h ha hb => h (decide_eq_true ha) (decide_eq_true hb)

end Again

/-! ## Histories -/

section History

variable {semver : SemverEnv} {pluginId : String} {entries : List MigrationEntry}
  {s : LoggedState}

theorem blocked_of_subset {rows rows' : List DocumentRow} (hsub : ∀ r ∈ rows', r ∈ rows)
    {entry : MigrationEntry} (h : blocked pluginId rows entry = false) :
    blocked pluginId rows' entry = false := by
  rcases hversion : parseFromVersion entry.fromRange with e | version
  · rw [blocked_of_unparsed hversion] at h
    exact nomatch h
  · rw [Bool.eq_false_iff, ne_eq, blocked_iff_of_parsed hversion] at h ⊢
    rintro ⟨record, hrecord, hcorrupt⟩
    obtain ⟨hmem, hselects⟩ := mem_filter.mp hrecord
    exact h ⟨record, mem_filter.mpr ⟨hsub record hmem, hselects⟩, hcorrupt⟩

/-- A run of `run_migrations` without blocked entries. -/
theorem runMigrations_ran (semver : SemverEnv) (calls : Calls)
    (hblocked : ∀ entry ∈ entries, blocked pluginId s.state.table.rows entry = false) :
    calls.Ran semver pluginId (sortByTarget semver entries) s.restart
      (calls.runMigrations semver pluginId entries s).1 := by
  have hran : calls.Ran semver pluginId
      (effective pluginId s.state.table.rows (sortByTarget semver entries)) s.restart
      (calls.runMigrations semver pluginId entries s).1 :=
    (Calls.runEntries_ran _ s.restart).1
  rwa [effective_sorted hblocked] at hran

theorem runMigrations_eq_ok_iff (semver : SemverEnv) (calls : Calls) :
    (calls.runMigrations semver pluginId entries s).2 = .ok () ↔
      ∀ entry ∈ entries, blocked pluginId s.state.table.rows entry = false := by
  refine (Calls.runEntries_ran _ s.restart).2.trans ?_
  simp only [mem_sorted_iff]
  rfl

theorem blocked_after_run (semver : SemverEnv) (calls : Calls)
    (hblocked : ∀ entry ∈ entries, blocked pluginId s.state.table.rows entry = false) :
    ∀ entry ∈ entries, blocked pluginId
      (calls.runMigrations semver pluginId entries s).1.state.table.rows entry = false :=
  fun entry hentry => ((runMigrations_ran semver calls hblocked).blocked_eq entry).trans
    (hblocked entry hentry)

/-- What a run logs. -/
theorem logged_of_run (semver : SemverEnv) (calls : Calls)
    (hblocked : ∀ entry ∈ entries, blocked pluginId s.state.table.rows entry = false) :
    ∃ new, (calls.runMigrations semver pluginId entries s).1.log = s.log ++ new ∧
      ∀ e ∈ new, e.Described semver pluginId ∧ (calls.Stores → e.settled = true) := by
  obtain ⟨new, hlog, -, -, hknown, hfilter⟩ := (runMigrations_ran semver calls hblocked).logged
  refine ⟨new, hlog, fun e he => ?_⟩
  obtain ⟨r, hr, hid⟩ := Table.mem_keys.mp (hknown e he)
  have htrace : e ∈ calls.trace semver pluginId (sortByTarget semver entries) r := by
    rw [← hfilter r hr]
    exact mem_filter.mpr ⟨he, decide_eq_true hid.symm⟩
  obtain ⟨entry, hentry, r', hsame, hselects, rfl⟩ := Calls.exists_of_mem_trace htrace
  refine ⟨Calls.event_described entry r', fun hstores => Calls.event_settled hstores entry ?_⟩
  -- a record that is not JSON is never changed and would block the entry
  by_contra hcorrupt
  rw [Bool.not_eq_false, hsame.corrupt] at hcorrupt
  rw [hsame.kept hcorrupt] at hselects
  have hblocks : blocked pluginId s.state.table.rows entry = true :=
    (blocked_iff_of_parsed (selects_eq_true_iff.mp hselects).2.2).mpr
      ⟨r, mem_filter.mpr ⟨hr, hselects⟩, hcorrupt⟩
  rw [hblocked entry (mem_sorted_iff.mp hentry)] at hblocks
  exact absurd hblocks Bool.false_ne_true

/-- Where every row is stored, all that is logged is settled. -/
theorem runHistory_settled (semver : SemverEnv) {runs : List Calls}
    (hblocked : ∀ entry ∈ entries, blocked pluginId s.state.table.rows entry = false)
    (hstores : ∀ calls ∈ runs, calls.Stores) :
    ∃ new, (runHistory semver pluginId entries runs s).1.log = s.log ++ new ∧
      ∀ e ∈ new, e.settled = true := by
  induction runs generalizing s with
  | nil => exact ⟨[], (append_nil s.log).symm, by simp⟩
  | cons calls rest ih =>
    obtain ⟨hfirst, hrest⟩ := forall_mem_cons.mp hstores
    obtain ⟨new, hlog, hnew⟩ := logged_of_run semver calls hblocked
    obtain ⟨more, hmore, hsettled⟩ := ih (blocked_after_run semver calls hblocked) hrest
    refine ⟨new ++ more, ?_, forall_mem_append.mpr ⟨fun e he => (hnew e he).2 hfirst, hsettled⟩⟩
    simp only [runHistory]
    rw [hmore, hlog, append_assoc]

/-- Runs that find nothing to do leave the database and the log. -/
theorem runHistory_of_not_selects (runs : List Calls)
    (hblocked : ∀ entry ∈ entries, blocked pluginId s.state.table.rows entry = false)
    (hnone : ∀ r ∈ s.state.table.rows, ∀ entry ∈ entries, ¬selects pluginId entry r = true) :
    ∃ state, runHistory semver pluginId entries runs s = ({ s with state }, true) ∧
      state.table = s.state.table ∧ state.quarantine = s.state.quarantine := by
  induction runs generalizing s with
  | nil => exact ⟨s.state, rfl, rfl, rfl⟩
  | cons calls rest ih =>
    have hrun : calls.runMigrations semver pluginId entries s =
        (s.restart, .ok ()) :=
      Calls.runEntries_of_not_selects
        (fun entry hentry => hblocked entry (mem_sorted_iff.mp hentry))
        (fun r hr entry hentry => hnone r hr entry (mem_sorted_iff.mp hentry))
    obtain ⟨state, hlater, htable, hquarantine⟩ := ih (s := s.restart) hblocked hnone
    refine ⟨state, ?_, htable, hquarantine⟩
    simp only [runHistory, hrun, hlater]
    rfl

theorem selected_nodup (haccepted : Accepted semver entries)
    (hblocked : ∀ entry ∈ entries, blocked pluginId s.state.table.rows entry = false)
    (hnone : s.log = []) (calls : Calls) :
    ((calls.runMigrations semver pluginId entries s).1.log.map LogEntry.key).Nodup := by
  obtain ⟨new, hlog, -, -, hknown, hfilter⟩ := (runMigrations_ran semver calls hblocked).logged
  have hnew : (calls.runMigrations semver pluginId entries s).1.log = new := by
    rw [hlog]
    exact congrArg (· ++ new) hnone
  rw [hnew, nodup_iff_count_le_one]
  intro call
  by_cases hmem : call ∈ new.map LogEntry.key
  · obtain ⟨e, he, rfl⟩ := mem_map.mp hmem
    obtain ⟨r, hr, hid⟩ := Table.mem_keys.mp (hknown e he)
    have hcount : ((new.map LogEntry.key).filter fun call => call.2 = r.id).count e.key =
        (new.map LogEntry.key).count e.key :=
      count_filter (decide_eq_true hid.symm)
    have hsteps : (sortByTarget semver entries).Nodup :=
      (perm_insertionSort _ entries).nodup_iff.mpr haccepted.nodup
    rw [← hcount, Calls.filter_keys (hfilter r hr)]
    refine nodup_iff_count_le_one.mp (List.Nodup.map ?_ ?_) e.key
    · exact fun _ _ heq => (Prod.mk.inj heq).1
    · exact (stepsTaken_sublist _ r).nodup hsteps
  · rw [count_eq_zero_of_not_mem hmem]
    exact Nat.zero_le 1

/-- A record that is selected after a run was selected in it, by the entry that is first in the
next. -/
theorem selected_twice (hsemver : LawfulSemver semver) (haccepted : Accepted semver entries)
    (hblocked : ∀ entry ∈ entries, blocked pluginId s.state.table.rows entry = false)
    (first second : Calls) {r' : DocumentRow}
    (hr' : r' ∈ (first.runMigrations semver pluginId entries s).1.state.table.rows)
    {entry : MigrationEntry} (hentry : entry ∈ entries)
    (hselects : selects pluginId entry r' = true) :
    ¬((second.runMigrations semver pluginId entries
      (first.runMigrations semver pluginId entries s).1).1.log.map LogEntry.key).Nodup := by
  have hfirst := runMigrations_ran semver first hblocked
  have hsecond := runMigrations_ran semver second (blocked_after_run semver first hblocked)
  obtain ⟨chosen, hchosen, hagain⟩ : ∃ chosen ∈ second.attempts pluginId
      (sortByTarget semver entries) r', selects pluginId chosen r' = true :=
    exists_mem_stepsTaken ⟨entry, mem_sorted_iff.mpr hentry, hselects⟩
  obtain ⟨new₂, hlog₂, hmem₂⟩ := hsecond.mem_log hr' hchosen
  rw [hfirst.rows] at hr'
  obtain ⟨r, hr, rfl⟩ := mem_map.mp hr'
  have hclimbing := climbing_sorted hsemver haccepted hblocked
  have hbefore : chosen ∈ first.attempts pluginId (sortByTarget semver entries) r :=
    mem_attempts_of_selects hsemver hclimbing.runnable (hclimbing.starts r.collection)
      ((stepsTaken_sublist _ _).subset hchosen) hagain
  obtain ⟨new₁, hlog₁, hmem₁⟩ := hfirst.mem_log hr hbefore
  rw [(Calls.runRow_same _ r).id] at hmem₂
  intro hnodup
  rw [hlog₂, map_append] at hnodup
  refine disjoint_of_nodup_append hnodup ?_ hmem₂
  have hearlier : (first.runMigrations semver pluginId entries s).1.restart.log =
      s.restart.log ++ new₁ := hlog₁
  rw [hearlier, map_append]
  exact mem_append_right _ hmem₁

/-- No entry is blocked, and later runs find nothing to do. -/
structure Settles (semver : SemverEnv) (pluginId : String) (entries : List MigrationEntry)
    (s : LoggedState) (first : Calls) (later : List Calls) : Prop where
  unblocked : ∀ entry ∈ entries, blocked pluginId s.state.table.rows entry = false
  idle : later = [] ∨
    ∀ r ∈ (first.runMigrations semver pluginId entries s).1.state.table.rows,
      ∀ entry ∈ entries, ¬selects pluginId entry r = true

variable {first : Calls} {later : List Calls}

/-- Then the first run does everything. -/
theorem Settles.runHistory_eq (h : Settles semver pluginId entries s first later) :
    ∃ state, runHistory semver pluginId entries (first :: later) s =
      ({ (first.runMigrations semver pluginId entries s).1 with state }, true) ∧
      state.table = (first.runMigrations semver pluginId entries s).1.state.table ∧
      state.quarantine = (first.runMigrations semver pluginId entries s).1.state.quarantine := by
  have hresult := (runMigrations_eq_ok_iff semver first).mpr h.unblocked
  obtain ⟨run, hrun⟩ : ∃ run, first.runMigrations semver pluginId entries s = run := ⟨_, rfl⟩
  rw [hrun] at hresult ⊢
  obtain ⟨state, hlater, htable, hquarantine⟩ : ∃ state,
      runHistory semver pluginId entries later run.1 = ({ run.1 with state }, true) ∧
        state.table = run.1.state.table ∧ state.quarantine = run.1.state.quarantine := by
    rcases h.idle with rfl | hnone
    · exact ⟨_, rfl, rfl, rfl⟩
    · rw [hrun] at hnone
      exact runHistory_of_not_selects later
        (hrun ▸ blocked_after_run semver first h.unblocked) hnone
  refine ⟨state, ?_, htable, hquarantine⟩
  simp only [runHistory, hrun, hlater, hresult]
  rfl

variable {table : Documents} {quarantine : List QuarantinedRecord}

/-- And every record goes its way alone. -/
theorem Settles.onlyRow
    (h : Settles semver pluginId entries (start table quarantine) first later)
    {r : DocumentRow} (hr : r ∈ table.rows) :
    Settles semver pluginId entries (start (onlyRow r) quarantine) first later := by
  have hblocked : ∀ entry ∈ entries, blocked pluginId (Migration.onlyRow r).rows entry = false := by
    intro entry hentry
    refine blocked_of_subset (fun other hother => ?_) (h.unblocked entry hentry)
    rw [mem_singleton.mp hother]
    exact hr
  refine ⟨hblocked, h.idle.imp_right fun hnone r' hr' => hnone r' ?_⟩
  rw [(runMigrations_ran semver first hblocked).rows] at hr'
  rw [(runMigrations_ran semver first h.unblocked).rows, mem_singleton.mp hr']
  exact mem_map_of_mem hr

theorem Settles.partitioned (haccepted : Accepted semver entries) (hstores : first.Stores)
    (h : Settles semver pluginId entries (start table quarantine) first later) :
    Partitioned semver pluginId entries table quarantine (first :: later) := by
  have hran := runMigrations_ran semver first h.unblocked
  obtain ⟨state, hhistory, htable, hquarantine⟩ := h.runHistory_eq
  have hafter : afterRuns semver pluginId entries table quarantine (first :: later) =
      { (first.runMigrations semver pluginId entries (start table quarantine)).1 with state } := by
    rw [afterRuns, hhistory]
  have hmem : ∀ r ∈ table.rows,
      first.runRow pluginId (sortByTarget semver entries) r ∈ state.table.rows := by
    intro r hr
    rw [htable, hran.rows]
    exact mem_map_of_mem hr
  obtain ⟨new, hlog, hnew⟩ := logged_of_run semver first h.unblocked
  obtain ⟨new', hlog', -, hrows, -, hfilter⟩ := hran.logged
  obtain rfl : new' = new := append_cancel_left (hlog'.symm.trans hlog)
  constructor
  · rw [hhistory]
  · rw [hafter, LogEntry.once_iff_nodup]
    · exact selected_nodup haccepted h.unblocked rfl first
    · rw [hlog]
      exact fun e he => (hnew e he).2 hstores
  · rw [hafter, hlog]
    intro r hr
    refine ⟨_, hmem r hr, (Calls.runRow_same _ r).id, ?_⟩
    rw [Calls.runRow_version, ← hfilter r hr]
    rfl
  · rw [hafter, hlog, hquarantine, hrows]
    rfl
  · rw [hafter, hlog]
    exact fun e he => (hnew e he).1
  · rw [hafter]
    intro r hr
    obtain ⟨alone, hhistory', htable', -⟩ := (h.onlyRow hr).runHistory_eq
    refine ⟨_, hmem r hr, ?_⟩
    rw [afterRuns, hhistory', htable', (runMigrations_ran semver first
      (h.onlyRow hr).unblocked).rows]
    rfl

theorem Partitioned.settles (hsemver : LawfulSemver semver)
    (haccepted : Accepted semver entries)
    (hstores : ∀ calls ∈ first :: later, calls.Stores)
    (h : Partitioned semver pluginId entries table quarantine (first :: later)) :
    Settles semver pluginId entries (start table quarantine) first later := by
  have hresult : (first.runMigrations semver pluginId entries
      (start table quarantine)).2 = .ok () := by
    have hok := h.succeeded
    simp only [runHistory] at hok
    rcases hfirst : (first.runMigrations semver pluginId entries
      (start table quarantine)).2 with e | _
    · simp [hfirst, Except.toBool] at hok
    · rfl
  have hblocked := (runMigrations_eq_ok_iff semver first).mp hresult
  refine ⟨hblocked, ?_⟩
  rcases later with _ | ⟨second, rest⟩
  · exact .inl rfl
  · right
    intro r' hr' entry hentry hselects
    have htwice := selected_twice hsemver haccepted hblocked first second hr' hentry hselects
    -- the other runs only add to the log, so the record stands in it twice at the end
    have hrest : ∀ calls ∈ rest, calls.Stores := fun calls hcalls =>
      hstores calls (mem_cons_of_mem first (mem_cons_of_mem second hcalls))
    obtain ⟨more, hmore, -⟩ := runHistory_settled semver (blocked_after_run semver second
      (blocked_after_run semver first hblocked)) hrest
    obtain ⟨all, hall, hsettled⟩ := runHistory_settled semver hblocked hstores
    have hnodup := (LogEntry.once_iff_nodup (hall ▸ hsettled)).mp h.once
    have hafter : (afterRuns semver pluginId entries table quarantine
        (first :: second :: rest)).log = _ ++ more := hmore
    rw [hafter, map_append] at hnodup
    exact htwice hnodup.of_append_left

end History

/-- Where every row is stored, the partition of an accepted manifest holds through all runs exactly
if no entry is blocked, and the first run leaves nothing to select. -/
theorem partitioned_iff_settles {semver : SemverEnv} {entries : List MigrationEntry}
    (hsemver : LawfulSemver semver) (haccepted : Accepted semver entries)
    (pluginId : String) (table : Documents) (quarantine : List QuarantinedRecord)
    (first : Calls) (later : List Calls)
    (hstores : ∀ calls ∈ first :: later, calls.Stores) :
    Partitioned semver pluginId entries table quarantine (first :: later) ↔
      Settles semver pluginId entries (start table quarantine) first later :=
  ⟨Partitioned.settles hsemver haccepted hstores,
    Settles.partitioned haccepted (hstores first mem_cons_self)⟩

/-! ## A failed record, and one that is not JSON -/

/-- Two records of version 1. -/
def twoEvents (second : Except String Json) : Documents where
  rows := [⟨"r1", "p", "events", .ok (.obj []), 1, "2025-01-01T00:00:00Z",
      "2025-01-01T00:00:00Z"⟩,
    ⟨"r2", "p", "events", second, 1, "2025-01-01T00:00:00Z", "2025-01-01T00:00:00Z"⟩]
  keys_nodup := by simp

/-- The transforms fail for one record. -/
def failingFor (id : String) : Calls where
  runTransform entry recordId input :=
    if recordId = id then .error (.transformFailed entry.transform "trap") else .ok input
  storesRecord _ _ := true
  clock _ _ := "2026-01-01T00:00:00Z"

/-- One record fails in a single run; or none, and a second run finds nothing. -/
theorem partitioned_iff_settles_major :
    Partitioned plainSemver "p" [majorEntry] (twoEvents (.ok (.obj []))) []
        [failingFor "r2"] ∧
      Partitioned plainSemver "p" [majorEntry] (twoEvents (.ok (.obj []))) []
        [failingFor "", failingFor "r2"] := by
  have hstores : ∀ id, (failingFor id).Stores := fun _ _ _ => rfl
  constructor
  · exact (partitioned_iff_settles plainSemver_lawful majorEntry_accepted "p"
      (twoEvents (.ok (.obj []))) [] (failingFor "r2") [] (by simp [hstores])).mpr
      ⟨by decide +kernel, .inl rfl⟩
  · exact (partitioned_iff_settles plainSemver_lawful majorEntry_accepted "p"
      (twoEvents (.ok (.obj []))) [] (failingFor "") [failingFor "r2"]
      (by simp [hstores])).mpr ⟨by decide +kernel, .inr (by decide +kernel)⟩

/-- A record that is not JSON fails the run, and a failed one is quarantined by every run. -/
theorem not_partitioned_corrupt_or_rerun :
    ¬Partitioned plainSemver "p" [majorEntry] (twoEvents (.error "expected value")) []
        [failingFor ""] ∧
      ¬Partitioned plainSemver "p" [majorEntry] (twoEvents (.ok (.obj []))) []
        [failingFor "r2", failingFor "r2"] := by
  constructor
  · intro h
    exact absurd h.succeeded (by decide +kernel)
  · intro h
    have hlogged : ∃ e ∈ (afterRuns plainSemver "p" [majorEntry]
        (twoEvents (.ok (.obj []))) [] [failingFor "r2", failingFor "r2"]).log,
        e.key = (majorEntry, "r2") := by
      decide +kernel
    obtain ⟨e, he, hkey⟩ := hlogged
    have honce := h.once e he
    rw [hkey] at honce
    exact absurd honce (by decide +kernel)

end LifeEngine.Migration
