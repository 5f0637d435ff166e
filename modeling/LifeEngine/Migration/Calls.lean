import LifeEngine.Migration.Engine

/-!
# Runs of the engine

Every call of a run has its own outcome: the same transform may succeed for one record and
fail for the next with the same data, and `quarantine_record`, whose result the engine
ignores, may fail.  A log says what became of each record that an entry selected.  At the
end are runs whose transforms are functions of their input.

A run is read row by row: every row goes through the entries on its own.
-/

namespace LifeEngine.Migration

open Support SqliteDocument List

/-! ## The engine -/

/-- What became of a record that an entry selected. -/
inductive Outcome where
  | updated
  | quarantined (row : QuarantinedRecord)
  /-- The transform failed, and so did `quarantine_record`. -/
  | dropped

structure LogEntry where
  entry : MigrationEntry
  id : String
  outcome : Outcome

namespace LogEntry

def key (e : LogEntry) : MigrationEntry × String :=
  (e.entry, e.id)

def row (e : LogEntry) : Option QuarantinedRecord :=
  match e.outcome with
  | .quarantined row => some row
  | .updated | .dropped => none

/-- The record was migrated or put into quarantine. -/
def settled (e : LogEntry) : Bool :=
  match e.outcome with
  | .updated | .quarantined _ => true
  | .dropped => false

/-- The version of the record after the entry. -/
def reached (version : Int) (e : LogEntry) : Int :=
  match e.outcome with
  | .updated => toVersion e.entry
  | .quarantined _ | .dropped => version

theorem reached_cases (e : LogEntry) (version : Int) :
    e.reached version = toVersion e.entry ∨ e.reached version = version := by
  rcases houtcome : e.outcome with _ | row | _
  · exact .inl (by rw [reached, houtcome])
  · exact .inr (by rw [reached, houtcome])
  · exact .inr (by rw [reached, houtcome])

/-- The quarantined row names the plugin and the entry. -/
def Described (semver : SemverEnv) (pluginId : String) (e : LogEntry) : Prop :=
  ∀ row, e.outcome = .quarantined row → row.pluginId = pluginId ∧
    row.collection = e.entry.collection ∧ row.fromVersion = e.entry.fromRange ∧
    row.toVersion = semver.display e.entry.target

/-- Where all is settled, all is logged once exactly if nothing is logged twice. -/
theorem once_iff_nodup {log : List LogEntry} (hsettled : ∀ e ∈ log, e.settled = true) :
    (∀ e ∈ log, log.countP (fun other => other.key = e.key && other.settled) = 1) ↔
      (log.map key).Nodup := by
  have hcount : ∀ e : LogEntry, log.countP (fun other => other.key = e.key && other.settled) =
      (log.map key).count e.key := by
    intro e
    rw [List.count, List.countP_map]
    refine countP_congr fun other hother => ?_
    simp [hsettled other hother]
  simp only [hcount]
  constructor
  · intro hone
    refine nodup_iff_count_le_one.mpr fun call => ?_
    by_cases hmem : call ∈ log.map key
    · obtain ⟨e, he, rfl⟩ := mem_map.mp hmem
      exact (hone e he).le
    · rw [count_eq_zero_of_not_mem hmem]
      exact Nat.zero_le 1
  · intro hnodup e he
    exact count_eq_one_of_mem hnodup (mem_map_of_mem he)

end LogEntry

open LogEntry

/-- The state of a run, and the log of committed entries. -/
structure LoggedState where
  state : MigrationState
  log : List LogEntry

namespace LoggedState

def start (table : Documents) (quarantine : List QuarantinedRecord) : LoggedState :=
  ⟨MigrationState.start table quarantine, []⟩

/-- A new run counts from zero. -/
def restart (s : LoggedState) : LoggedState :=
  { s with state := MigrationState.start s.state.table s.state.quarantine }

/-- The entry is done. -/
def applied (s : LoggedState) (label : String) : LoggedState :=
  { s with state := { s.state with entriesApplied := s.state.entriesApplied ++ [label] } }

end LoggedState

namespace Calls

section Engine

variable (calls : Calls) (semver : SemverEnv) (pluginId : String)

/-- One round of the loop over the records of an entry. -/
def migrateRecord (entry : MigrationEntry) (record : DocumentRow) (s : LoggedState) :
    Except MigrationError LoggedState :=
  match record.data with
  | .error e => .error (.transformFailed entry.transform
      ("failed to parse record " ++ record.id ++ " data as JSON: " ++ e))
  | .ok input =>
    let tried := { s.state with calls := s.state.calls ++ [(entry, record.id)] }
    match calls.runTransform entry record.id input with
    | .ok output => .ok
        { state := { tried with
            table := updateRecord s.state.table record.id output (toVersion entry)
              (calls.clock entry record.id)
            migrated := s.state.migrated + 1 }
          log := s.log ++ [⟨entry, record.id, .updated⟩] }
    | .error e =>
      let failed := { tried with quarantined := s.state.quarantined + 1 }
      let row : QuarantinedRecord := ⟨record.data, pluginId, entry.collection,
        entry.fromRange, semver.display entry.target, e.display⟩
      -- `let _ = quarantine_record(..)`: the record counts as quarantined either way
      if calls.storesRecord entry record.id then .ok
        { state := { failed with quarantine := s.state.quarantine ++ [row] }
          log := s.log ++ [⟨entry, record.id, .quarantined row⟩] }
      else .ok { state := failed, log := s.log ++ [⟨entry, record.id, .dropped⟩] }

def migrateRecords (entry : MigrationEntry) :
    List DocumentRow → LoggedState → Except MigrationError LoggedState
  | [], s => .ok s
  | record :: rest, s => do
      let s₁ ← migrateRecord calls semver pluginId entry record s
      migrateRecords entry rest s₁

/-- The loop over the entries. An error rolls the entry back. -/
def runEntries : List MigrationEntry → LoggedState → LoggedState × Except MigrationError Unit
  | [], s => (s, .ok ())
  | entry :: rest, s =>
    match parseFromVersion entry.fromRange with
    | .error e => (s, .error e)
    | .ok fromVersion =>
      let records := queryRecords s.state.table pluginId entry.collection fromVersion
      if records.isEmpty then runEntries rest s
      else
        match migrateRecords calls semver pluginId entry records s with
        | .error e => (s, .error e)
        | .ok s₁ => runEntries rest
            (s₁.applied (entry.fromRange ++ " -> " ++ semver.display entry.target))

/-- `run_migrations` on what an earlier run left; the log goes on. -/
def runMigrations (entries : List MigrationEntry) (s : LoggedState) :
    LoggedState × Except MigrationError Unit :=
  runEntries calls semver pluginId (sortByTarget semver entries) s.restart

end Engine

/-! ## One row -/

section Definitions

variable (calls : Calls) (semver : SemverEnv) (pluginId : String)

def outcome (entry : MigrationEntry) (r : DocumentRow) : Outcome :=
  match r.data with
  | .error _ => .dropped
  | .ok input =>
    match calls.runTransform entry r.id input with
    | .ok _ => .updated
    | .error e =>
      if calls.storesRecord entry r.id then .quarantined ⟨r.data, pluginId,
        entry.collection, entry.fromRange, semver.display entry.target, e.display⟩
      else .dropped

def event (entry : MigrationEntry) (r : DocumentRow) : LogEntry :=
  ⟨entry, r.id, calls.outcome semver pluginId entry r⟩

/-- What is logged of the row. -/
def trace : List MigrationEntry → DocumentRow → List LogEntry
  | [], _ => []
  | entry :: rest, r =>
    if selects pluginId entry r then
      calls.event semver pluginId entry r ::
        trace rest (calls.applyEntry pluginId r entry)
    else trace rest r

/-- No transform ever fails. -/
def Total : Prop :=
  ∀ entry id input, (calls.runTransform entry id input).isOk = true

/-- The quarantine table takes every row. -/
def Stores : Prop :=
  ∀ entry id, calls.storesRecord entry id = true

end Definitions

end Calls

namespace Calls

section Row

variable {calls : Calls} {semver : SemverEnv} {pluginId : String}

variable {r : DocumentRow} {entry : MigrationEntry}

theorem applyEntry_version (h : selects pluginId entry r = true) :
    (calls.applyEntry pluginId r entry).version =
      (calls.event semver pluginId entry r).reached r.version := by
  rw [applyEntry, if_pos h]
  rcases hdata : r.data with e | input
  · simp [migrateRow, event, outcome, reached, hdata]
  · rcases houtput : calls.runTransform entry r.id input with e | output
    · by_cases hstored : calls.storesRecord entry r.id = true
      · simp [migrateRow, event, outcome, reached, hdata, houtput, hstored]
      · simp [migrateRow, event, outcome, reached, hdata, houtput, hstored]
    · simp [migrateRow, event, outcome, reached, hdata, houtput]

variable (entries : List MigrationEntry)

theorem trace_cons_of_selects (h : selects pluginId entry r = true) (rest : List MigrationEntry) :
    calls.trace semver pluginId (entry :: rest) r = calls.event semver pluginId entry r ::
      calls.trace semver pluginId rest (calls.applyEntry pluginId r entry) :=
  if_pos h

theorem trace_cons_of_not_selects (h : ¬selects pluginId entry r = true)
    (rest : List MigrationEntry) :
    calls.trace semver pluginId (entry :: rest) r = calls.trace semver pluginId rest r :=
  if_neg h

theorem trace_append (first second : List MigrationEntry) (r : DocumentRow) :
    calls.trace semver pluginId (first ++ second) r =
      calls.trace semver pluginId first r ++
        calls.trace semver pluginId second (calls.runRow pluginId first r) := by
  induction first generalizing r with
  | nil => rfl
  | cons entry rest ih =>
    rw [cons_append, runRow, foldl_cons, ← runRow]
    by_cases h : selects pluginId entry r = true
    · rw [trace_cons_of_selects h, trace_cons_of_selects h, ih, cons_append]
    · rw [trace_cons_of_not_selects h, trace_cons_of_not_selects h, ih, applyEntry_of_not_selects h]

theorem map_key_trace (r : DocumentRow) :
    (calls.trace semver pluginId entries r).map key =
      (calls.attempts pluginId entries r).map fun entry => (entry, r.id) := by
  induction entries generalizing r with
  | nil => rfl
  | cons entry rest ih =>
    by_cases h : selects pluginId entry r = true
    · rw [trace_cons_of_selects h, attempts, stepsTaken_cons_of_takes h, map_cons, ih,
        (applyEntry_same r entry).id]
      rfl
    · rw [trace_cons_of_not_selects h, attempts, stepsTaken_cons_of_not_takes h, ih]
      rfl

theorem event_described (entry : MigrationEntry) (r : DocumentRow) :
    (calls.event semver pluginId entry r).Described semver pluginId := by
  intro row hrow
  rw [event, outcome] at hrow
  rcases hdata : r.data with e | input
  · simp [hdata] at hrow
  · rcases houtput : calls.runTransform entry r.id input with e | output
    · by_cases hstored : calls.storesRecord entry r.id = true
      · simp only [hdata, houtput, if_pos hstored, Outcome.quarantined.injEq] at hrow
        rw [← hrow]
        exact ⟨rfl, rfl, rfl, rfl⟩
      · simp [hdata, houtput, hstored] at hrow
    · simp [hdata, houtput] at hrow

theorem event_settled (hstores : calls.Stores) (entry : MigrationEntry)
    (hjson : DocumentRow.corrupt r = false) :
    (calls.event semver pluginId entry r).settled = true := by
  rcases hdata : r.data with e | input
  · simp [DocumentRow.corrupt, hdata] at hjson
  · rcases houtput : calls.runTransform entry r.id input with e | output
    · simp [event, outcome, settled, hdata, houtput, hstores entry r.id]
    · simp [event, outcome, settled, hdata, houtput]

theorem exists_of_mem_trace {entries : List MigrationEntry} {e : LogEntry}
    (h : e ∈ calls.trace semver pluginId entries r) :
    ∃ entry ∈ entries, ∃ r', SameRecord r r' ∧ selects pluginId entry r' = true ∧
      e = calls.event semver pluginId entry r' := by
  induction entries generalizing r with
  | nil => exact nomatch h
  | cons entry rest ih =>
    by_cases hselects : selects pluginId entry r = true
    · rw [trace_cons_of_selects hselects] at h
      rcases mem_cons.mp h with rfl | h
      · exact ⟨entry, mem_cons_self, r, SameRecord.refl r, hselects, rfl⟩
      · obtain ⟨other, hother, r', hsame, hrest⟩ := ih h
        exact ⟨other, mem_cons_of_mem entry hother, r',
          (applyEntry_same r entry).trans hsame, hrest⟩
    · rw [trace_cons_of_not_selects hselects] at h
      obtain ⟨other, hother, hrest⟩ := ih h
      exact ⟨other, mem_cons_of_mem entry hother, hrest⟩

theorem runRow_version (r : DocumentRow) :
    (calls.runRow pluginId entries r).version =
      (calls.trace semver pluginId entries r).foldl reached r.version := by
  induction entries generalizing r with
  | nil => rfl
  | cons entry rest ih =>
    rw [runRow, foldl_cons, ← runRow, ih]
    by_cases h : selects pluginId entry r = true
    · rw [trace_cons_of_selects h, foldl_cons, applyEntry_version h]
    · rw [trace_cons_of_not_selects h, applyEntry_of_not_selects h]

end Row

/-! ## The records of one entry -/

/-- The loop over the records of an entry leads from `s` to `s'`. -/
structure Migrated (calls : Calls) (semver : SemverEnv) (pluginId : String)
    (entry : MigrationEntry) (records : List DocumentRow) (s s' : LoggedState) : Prop where
  rows : s'.state.table.rows = s.state.table.rows.map fun r =>
    if r.id ∈ records.map DocumentRow.id then calls.migrateRow entry r
    else r
  log : s'.log = s.log ++ records.map (calls.event semver pluginId entry)
  called : s'.state.calls = s.state.calls ++
    (records.map (calls.event semver pluginId entry)).map key
  quarantine : s'.state.quarantine = s.state.quarantine ++
    (records.map (calls.event semver pluginId entry)).filterMap row
  counted : s'.state.migrated + s'.state.quarantined =
    s.state.migrated + s.state.quarantined + records.length
  total : calls.Total → s'.state.quarantined = s.state.quarantined

section Entry

variable {calls : Calls} {semver : SemverEnv} {pluginId : String} {entry : MigrationEntry}

variable {s : LoggedState}

theorem migrateRecord_migrated {record : DocumentRow} (hrecord : record ∈ s.state.table.rows)
    (hjson : DocumentRow.corrupt record = false) :
    ∃ s', calls.migrateRecord semver pluginId entry record s = .ok s' ∧
      Migrated calls semver pluginId entry [record] s s' := by
  rcases hdata : record.data with e | input
  · simp [DocumentRow.corrupt, hdata] at hjson
  · rcases houtput : calls.runTransform entry record.id input with e | output
    · have hpartial : ∀ P : Prop, calls.Total → P := by
        intro P htotal
        have hok := htotal entry record.id input
        simp [houtput, Except.toBool] at hok
      have hrows : s.state.table.rows = s.state.table.rows.map fun r =>
          if r.id ∈ [record.id] then calls.migrateRow entry r else r :=
        rows_of_failed hrecord hdata houtput
      by_cases hstored : calls.storesRecord entry record.id = true
      · have hevent : calls.event semver pluginId entry record =
            ⟨entry, record.id, .quarantined ⟨.ok input, pluginId, entry.collection,
              entry.fromRange, semver.display entry.target, e.display⟩⟩ := by
          simp only [event, outcome, hdata, houtput, if_pos hstored]
        simp only [migrateRecord, hdata, houtput, if_pos hstored]
        refine ⟨_, rfl, hrows, ?_, ?_, ?_, (Nat.add_assoc _ _ _).symm, hpartial _⟩
        · rw [map_singleton, hevent]
        · rfl
        · rw [map_singleton, hevent]
          rfl
      · have hevent : calls.event semver pluginId entry record = ⟨entry, record.id, .dropped⟩ := by
          simp only [event, outcome, hdata, houtput, if_neg hstored]
        simp only [migrateRecord, hdata, houtput, if_neg hstored]
        refine ⟨_, rfl, hrows, ?_, ?_, ?_, (Nat.add_assoc _ _ _).symm, hpartial _⟩
        · rw [map_singleton, hevent]
        · rfl
        · rw [map_singleton, hevent]
          exact (append_nil _).symm
    · have hevent : calls.event semver pluginId entry record = ⟨entry, record.id, .updated⟩ := by
        simp only [event, outcome, hdata, houtput]
      simp only [migrateRecord, hdata, houtput]
      refine ⟨_, rfl, ?_, ?_, ?_, ?_, Nat.add_right_comm _ _ _, fun _ => rfl⟩
      · apply map_congr_left
        intro r hr
        by_cases hid : r.id = record.id
        · obtain rfl : r = record := s.state.table.eq_of_key_eq hr hrecord hid
          simp [migrateRow_of_ok hdata houtput]
        · simp [hid]
      · rw [map_singleton, hevent]
      · rfl
      · rw [map_singleton, hevent]
        exact (append_nil _).symm

theorem Migrated.cons {record : DocumentRow} {rest : List DocumentRow} {s₁ s₂ : LoggedState}
    (hfirst : Migrated calls semver pluginId entry [record] s s₁)
    (hrest : Migrated calls semver pluginId entry rest s₁ s₂)
    (hnotin : record.id ∉ rest.map DocumentRow.id) :
    Migrated calls semver pluginId entry (record :: rest) s s₂ where
  rows := by
    rw [hrest.rows, hfirst.rows, map_map]
    apply map_congr_left
    intro r _
    by_cases hr : r.id = record.id
    · simp [hr, (migrateRow_same entry r).id, hnotin, -mem_map]
    · simp [hr]
  log := by
    rw [hrest.log, hfirst.log, append_assoc]
    rfl
  called := by
    rw [hrest.called, hfirst.called, append_assoc]
    rfl
  quarantine := by
    rw [hrest.quarantine, hfirst.quarantine, append_assoc, ← filterMap_append]
    rfl
  counted := by
    rw [hrest.counted, hfirst.counted, length_singleton, length_cons]
    omega
  total htotal := (hrest.total htotal).trans (hfirst.total htotal)

theorem migrateRecords_migrated {records : List DocumentRow}
    (hrecords : ∀ record ∈ records, record ∈ s.state.table.rows)
    (hnodup : (records.map DocumentRow.id).Nodup)
    (hjson : ∀ record ∈ records, DocumentRow.corrupt record = false) :
    ∃ s', calls.migrateRecords semver pluginId entry records s = .ok s' ∧
      Migrated calls semver pluginId entry records s s' := by
  induction records generalizing s with
  | nil => exact ⟨s, rfl, by simp, by simp, by simp, by simp, rfl, fun _ => rfl⟩
  | cons record rest ih =>
    obtain ⟨hnotin, hnodup⟩ := nodup_cons.mp hnodup
    obtain ⟨hrecord, hrest⟩ := forall_mem_cons.mp hrecords
    obtain ⟨hone, hothers⟩ := forall_mem_cons.mp hjson
    obtain ⟨s₁, hs₁, hfirst⟩ : ∃ s₁,
        calls.migrateRecord semver pluginId entry record s = .ok s₁ ∧
          Migrated calls semver pluginId entry [record] s s₁ :=
      migrateRecord_migrated hrecord hone
    have hstill : ∀ other ∈ rest, other ∈ s₁.state.table.rows := by
      intro other hother
      have hne : other.id ≠ record.id := fun heq => hnotin (heq ▸ mem_map_of_mem hother)
      rw [hfirst.rows]
      exact mem_map.mpr ⟨other, hrest other hother, by simp [hne]⟩
    obtain ⟨s₂, hs₂, hmore⟩ := ih hstill hnodup hothers
    exact ⟨s₂, bind_eq_ok_iff.mpr ⟨s₁, hs₁, hs₂⟩, hfirst.cons hmore hnotin⟩

/-- A record that is not JSON fails the loop. -/
theorem migrateRecords_error {records : List DocumentRow}
    (h : ∃ record ∈ records, DocumentRow.corrupt record = true) :
    ∃ e, calls.migrateRecords semver pluginId entry records s = .error e := by
  induction records generalizing s with
  | nil => simp at h
  | cons record rest ih =>
    rcases hfirst : calls.migrateRecord semver pluginId entry record s with e | s₁
    · exact ⟨e, by simp [migrateRecords, hfirst, bind, Except.bind]⟩
    · have hrest : ∃ other ∈ rest, DocumentRow.corrupt other = true := by
        obtain ⟨other, hmem, hcorrupt⟩ := h
        rcases mem_cons.mp hmem with rfl | hmem
        · rcases hdata : other.data with e | input
          · simp [migrateRecord, hdata] at hfirst
          · simp [DocumentRow.corrupt, hdata] at hcorrupt
        · exact ⟨other, hmem, hcorrupt⟩
      obtain ⟨e, he⟩ := ih (s := s₁) hrest
      exact ⟨e, by simp [migrateRecords, hfirst, bind, Except.bind, he]⟩

end Entry

/-! ## Whole runs -/

/-- A run over entries that are not blocked: each row goes through them on its own, and its trace is
logged. -/
structure Ran (calls : Calls) (semver : SemverEnv) (pluginId : String)
    (entries : List MigrationEntry) (s s' : LoggedState) : Prop where
  rows : s'.state.table.rows = s.state.table.rows.map (calls.runRow pluginId entries)
  logged : ∃ new, s'.log = s.log ++ new ∧
    s'.state.calls = s.state.calls ++ new.map key ∧
    s'.state.quarantine = s.state.quarantine ++ new.filterMap row ∧
    (∀ e ∈ new, e.id ∈ s.state.table.keys) ∧
    ∀ r ∈ s.state.table.rows, new.filter (fun e => e.id = r.id) =
      calls.trace semver pluginId entries r
  counted : s'.state.migrated + s'.state.quarantined + s.state.calls.length =
    s.state.migrated + s.state.quarantined + s'.state.calls.length
  total : calls.Total → s'.state.quarantined = s.state.quarantined

section Run

variable {calls : Calls} {semver : SemverEnv} {pluginId : String}

theorem Ran.refl (s : LoggedState) : Ran calls semver pluginId [] s s where
  rows := (map_id s.state.table.rows).symm
  logged := ⟨[], by simp, by simp, by simp, by simp, fun _ _ => rfl⟩
  counted := rfl
  total := fun _ => rfl

variable {entries : List MigrationEntry} {s s' : LoggedState} {entry : MigrationEntry}

theorem Ran.keys (h : Ran calls semver pluginId entries s s') :
    s'.state.table.keys = s.state.table.keys := by
  have hid : DocumentRow.id ∘ calls.runRow pluginId entries = DocumentRow.id :=
    funext fun r => (runRow_same entries r).id
  rw [Table.keys, h.rows, map_map, hid, Table.keys]

theorem Ran.trans {first second : List MigrationEntry} {s₁ s₂ : LoggedState}
    (h₁ : Ran calls semver pluginId first s s₁) (h₂ : Ran calls semver pluginId second s₁ s₂) :
    Ran calls semver pluginId (first ++ second) s s₂ where
  rows := by
    rw [h₂.rows, h₁.rows, map_map]
    apply map_congr_left
    intro r _
    exact foldl_append.symm
  logged := by
    obtain ⟨new₁, hlog₁, hcalls₁, hquarantine₁, hknown₁, hfilter₁⟩ := h₁.logged
    obtain ⟨new₂, hlog₂, hcalls₂, hquarantine₂, hknown₂, hfilter₂⟩ := h₂.logged
    rw [h₁.keys] at hknown₂
    refine ⟨new₁ ++ new₂, ?_, ?_, ?_, forall_mem_append.mpr ⟨hknown₁, hknown₂⟩, ?_⟩
    · rw [hlog₂, hlog₁, append_assoc]
    · rw [hcalls₂, hcalls₁, append_assoc, map_append]
    · rw [hquarantine₂, hquarantine₁, append_assoc, filterMap_append]
    · intro r hr
      have hsecond := hfilter₂ _ (h₁.rows ▸ mem_map_of_mem hr)
      rw [(runRow_same first r).id] at hsecond
      rw [filter_append, hfilter₁ r hr, hsecond, trace_append]
  counted := by
    have hfirst := h₁.counted
    have hsecond := h₂.counted
    omega
  total htotal := (h₂.total htotal).trans (h₁.total htotal)

/-- The transaction of one entry. -/
theorem Ran.of_migrated
    (h : Migrated calls semver pluginId entry
      (s.state.table.rows.filter (selects pluginId entry)) s s') :
    Ran calls semver pluginId [entry] s s' where
  rows := by
    refine h.rows.trans (map_congr_left fun r hr => ?_)
    by_cases hselects : selects pluginId entry r = true
    · rw [if_pos ((mem_ids_selected_iff hr).mpr hselects)]
      exact (if_pos hselects).symm
    · rw [if_neg (mt (mem_ids_selected_iff hr).mp hselects)]
      exact (if_neg hselects).symm
  logged := by
    refine ⟨_, h.log, h.called, h.quarantine, ?_, fun r hr => ?_⟩
    · intro e he
      obtain ⟨r, hr, rfl⟩ := mem_map.mp he
      exact mem_map_of_mem (mem_of_mem_filter hr)
    · exact filter_log_eq (calls.event semver pluginId entry) id (fun _ => rfl) hr
  counted := by
    have hcounted := h.counted
    rw [h.called, length_append, length_map, length_map]
    omega
  total := h.total

/-- An entry works on the rows that it selects. -/
theorem runEntries_cons_of_parsed {rest : List MigrationEntry} {version : Int}
    (h : parseFromVersion entry.fromRange = .ok version) :
    calls.runEntries semver pluginId (entry :: rest) s =
      if (s.state.table.rows.filter (selects pluginId entry)).isEmpty then
        calls.runEntries semver pluginId rest s
      else
        match calls.migrateRecords semver pluginId entry
          (s.state.table.rows.filter (selects pluginId entry)) s with
        | .error e => (s, .error e)
        | .ok s₁ => calls.runEntries semver pluginId rest
            (s₁.applied (entry.fromRange ++ " -> " ++ semver.display entry.target)) := by
  have hselects : selects pluginId entry = hasVersion pluginId entry.collection version := by
    funext r
    simp only [selects, h]
  rw [hselects, runEntries, h]
  rfl

theorem runEntries_cons_of_blocked (rest : List MigrationEntry)
    (h : blocked pluginId s.state.table.rows entry = true) :
    ∃ e, calls.runEntries semver pluginId (entry :: rest) s = (s, .error e) := by
  rcases hversion : parseFromVersion entry.fromRange with e | version
  · exact ⟨e, by rw [runEntries, hversion]⟩
  · obtain ⟨record, hmem, hcorrupt⟩ := (blocked_iff_of_parsed hversion).mp h
    have hne : ¬(s.state.table.rows.filter (selects pluginId entry)).isEmpty = true := by
      rw [List.isEmpty_iff]
      exact ne_nil_of_mem hmem
    obtain ⟨e, he⟩ : ∃ e, calls.migrateRecords semver pluginId entry
        (s.state.table.rows.filter (selects pluginId entry)) s = .error e :=
      migrateRecords_error ⟨record, hmem, hcorrupt⟩
    exact ⟨e, by rw [runEntries_cons_of_parsed hversion, if_neg hne, he]⟩

/-- Another one is applied to the rows that it selects. -/
theorem runEntries_cons_of_not_blocked (rest : List MigrationEntry)
    (h : blocked pluginId s.state.table.rows entry = false) :
    ∃ s₁, Ran calls semver pluginId [entry] s s₁ ∧
      calls.runEntries semver pluginId (entry :: rest) s =
        calls.runEntries semver pluginId rest s₁ := by
  rcases hversion : parseFromVersion entry.fromRange with e | version
  · rw [blocked_of_unparsed hversion] at h
    exact nomatch h
  · rw [runEntries_cons_of_parsed hversion]
    set records := s.state.table.rows.filter (selects pluginId entry) with hrecords
    have hjson : ∀ record ∈ records, DocumentRow.corrupt record = false := by
      intro record hmem
      by_contra hrecord
      rw [Bool.not_eq_false] at hrecord
      rw [(blocked_iff_of_parsed hversion).mpr ⟨record, hmem, hrecord⟩] at h
      exact nomatch h
    have hnodup : (records.map DocumentRow.id).Nodup :=
      (filter_sublist.map DocumentRow.id).nodup s.state.table.keys_nodup
    obtain ⟨s₁, hs₁, hmigrated⟩ : ∃ s₁,
        calls.migrateRecords semver pluginId entry records s = .ok s₁ ∧
          Migrated calls semver pluginId entry records s s₁ :=
      migrateRecords_migrated (fun record hmem => mem_of_mem_filter hmem) hnodup hjson
    by_cases hempty : records.isEmpty = true
    · refine ⟨s₁, Ran.of_migrated hmigrated, ?_⟩
      rw [isEmpty_iff.mp hempty] at hs₁
      obtain rfl := Except.ok.inj hs₁
      rw [if_pos hempty]
    · rw [if_neg hempty, hs₁]
      refine ⟨s₁.applied (entry.fromRange ++ " -> " ++ semver.display entry.target),
        Ran.of_migrated ?_, rfl⟩
      exact ⟨hmigrated.rows, hmigrated.log, hmigrated.called, hmigrated.quarantine,
        hmigrated.counted, hmigrated.total⟩

theorem Ran.blocked_eq (h : Ran calls semver pluginId entries s s') (entry : MigrationEntry) :
    blocked pluginId s'.state.table.rows entry = blocked pluginId s.state.table.rows entry := by
  rw [h.rows]
  exact blocked_map (runRow_same entries) pluginId s.state.table.rows entry

/-- The log of one row, by its entries. -/
theorem filter_keys {r : DocumentRow} {new : List LogEntry}
    (h : new.filter (fun e => e.id = r.id) = calls.trace semver pluginId entries r) :
    (new.map key).filter (fun call => call.2 = r.id) =
      (calls.attempts pluginId entries r).map fun entry => (entry, r.id) := by
  have hcomp : (fun call : MigrationEntry × String => decide (call.2 = r.id)) ∘
      key = fun e => decide (e.id = r.id) := rfl
  rw [filter_map, hcomp, h, map_key_trace]

theorem Ran.mem_log (h : Ran calls semver pluginId entries s s') {r : DocumentRow}
    (hr : r ∈ s.state.table.rows) (hentry : entry ∈ calls.attempts pluginId entries r) :
    ∃ new, s'.log = s.log ++ new ∧ (entry, r.id) ∈ new.map key := by
  obtain ⟨new, hlog, -, -, -, hfilter⟩ := h.logged
  refine ⟨new, hlog, ?_⟩
  have hmem : (entry, r.id) ∈ (new.map key).filter fun call => call.2 = r.id := by
    rw [filter_keys (hfilter r hr)]
    exact mem_map_of_mem hentry
  exact mem_of_mem_filter hmem

theorem Ran.filter_calls (h : Ran calls semver pluginId entries s s') {r : DocumentRow}
    (hr : r ∈ s.state.table.rows) :
    s'.state.calls.filter (fun call => call.2 = r.id) =
      s.state.calls.filter (fun call => call.2 = r.id) ++
        (calls.attempts pluginId entries r).map fun entry => (entry, r.id) := by
  obtain ⟨new, -, hcalls, -, -, hfilter⟩ := h.logged
  rw [hcalls, filter_append, filter_keys (hfilter r hr)]

/-- Calls are made for rows of the table. -/
theorem Ran.known (h : Ran calls semver pluginId entries s s') {call : MigrationEntry × String}
    (hcall : call ∈ s'.state.calls) : call ∈ s.state.calls ∨ call.2 ∈ s.state.table.keys := by
  obtain ⟨new, -, hcalls, -, hknown, -⟩ := h.logged
  rw [hcalls] at hcall
  refine (mem_append.mp hcall).imp_right fun hnew => ?_
  obtain ⟨e, he, rfl⟩ := mem_map.mp hnew
  exact hknown e he

/-- A run applies the entries before the first blocked one, and succeeds exactly if there is none.
-/
theorem runEntries_ran (entries : List MigrationEntry) (s : LoggedState) :
    Ran calls semver pluginId (effective pluginId s.state.table.rows entries) s
        (calls.runEntries semver pluginId entries s).1 ∧
      ((calls.runEntries semver pluginId entries s).2 = .ok () ↔
        ∀ entry ∈ entries, blocked pluginId s.state.table.rows entry = false) := by
  induction entries generalizing s with
  | nil => exact ⟨Ran.refl s, by simp [runEntries]⟩
  | cons entry rest ih =>
    rw [forall_mem_cons]
    rcases hblocked : blocked pluginId s.state.table.rows entry with _ | _
    · obtain ⟨s₁, hstep, hrun⟩ : ∃ s₁, Ran calls semver pluginId [entry] s s₁ ∧
          calls.runEntries semver pluginId (entry :: rest) s =
            calls.runEntries semver pluginId rest s₁ :=
        runEntries_cons_of_not_blocked rest hblocked
      obtain ⟨hrest, hok⟩ := ih s₁
      simp only [effective, hstep.blocked_eq] at hrest hok
      rw [effective, takeWhile_cons_of_pos (by rw [hblocked]; rfl), hrun, hok]
      exact ⟨hstep.trans hrest, by simp⟩
    · obtain ⟨e, he⟩ : ∃ e,
          calls.runEntries semver pluginId (entry :: rest) s = (s, .error e) :=
        runEntries_cons_of_blocked rest hblocked
      rw [effective, takeWhile_cons_of_neg (by simp [hblocked]), he]
      exact ⟨Ran.refl s, by simp⟩

/-- A run that finds no record does nothing. -/
theorem runEntries_of_not_selects
    (hblocked : ∀ entry ∈ entries, blocked pluginId s.state.table.rows entry = false)
    (h : ∀ r ∈ s.state.table.rows, ∀ entry ∈ entries, ¬selects pluginId entry r = true) :
    calls.runEntries semver pluginId entries s = (s, .ok ()) := by
  induction entries with
  | nil => rfl
  | cons entry rest ih =>
    obtain ⟨hentry, hrest⟩ := forall_mem_cons.mp hblocked
    rcases hversion : parseFromVersion entry.fromRange with e | version
    · rw [blocked_of_unparsed hversion] at hentry
      exact nomatch hentry
    · have hnone : s.state.table.rows.filter (selects pluginId entry) = [] :=
        filter_eq_nil_iff.mpr fun r hr => h r hr entry mem_cons_self
      rw [runEntries_cons_of_parsed hversion, hnone]
      exact ih hrest fun r hr other hother => h r hr other (mem_cons_of_mem entry hother)

end Run

end Calls

/-! ## Transforms that are functions -/

/-- `run_migrations`: the database after it, and whether it returned `Ok`. -/
def runMigrations (env : MigrationEnv) (pluginId : String) (entries : List MigrationEntry)
    (table : Documents) (quarantine : List QuarantinedRecord) :
    MigrationState × Except MigrationError Unit :=
  let (s, result) :=
    env.calls.runMigrations env.semver pluginId entries (.start table quarantine)
  (s.state, result)

theorem MigrationEnv.Total.calls {env : MigrationEnv} (h : env.Total) : env.calls.Total := by
  intro entry _ input
  obtain ⟨output, houtput⟩ := h entry.transform input
  simp only [MigrationEnv.calls, houtput]
  rfl

end LifeEngine.Migration
