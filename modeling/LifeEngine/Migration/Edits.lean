import LifeEngine.Migration.Calls
import LifeEngine.Support.Machine

/-!
# Edits and migrations

The column `version` of `plugin_data` is written from two sides.  The document
adapter adds one to it with every edit; the migration engine reads it as the major
number of the schema under which a record was written.  This file follows a record
through a sequence of edits and compares the migrations that apply to it before
and after.
-/

namespace LifeEngine.Migration

open Support SqliteDocument
open LifeEngine.StorageContext (StorageError)

/-! ## Edits -/

/-- The calls of the adapter that change documents in place. -/
inductive Edit where
  | update (now collection id : String) (document : Json)
  | partialUpdate (now collection id : String) (patch : Json)
  | batchUpdate (now collection : String) (updates : List (String × Json))

namespace Edit

def collection : Edit → String
  | update _ collection _ _ => collection
  | partialUpdate _ collection _ _ => collection
  | batchUpdate _ collection _ => collection

/-- The identifiers that the call names, in order. -/
def ids : Edit → List String
  | update _ _ id _ => [id]
  | partialUpdate _ _ id _ => [id]
  | batchUpdate _ _ updates => updates.map Prod.fst

def result (t : Documents) : Edit → Except StorageError Documents
  | update now collection id document =>
    Prod.snd <$> SqliteDocument.update now t collection id document
  | partialUpdate now collection id patch =>
    Prod.snd <$> SqliteDocument.partialUpdate now t collection id patch
  | batchUpdate now collection updates =>
    Prod.snd <$> SqliteDocument.batchUpdate now t collection updates

/-- The table after the call. -/
def step (t : Documents) (e : Edit) : Documents :=
  match e.result t with
  | .ok t' => t'
  | .error _ => t

/-- How often a successful call names the document. -/
def named (e : Edit) (collection id : String) : Nat :=
  if e.collection = collection then e.ids.count id else 0

/-- How often the call writes the document. -/
def hits (t : Documents) (e : Edit) (collection id : String) : Nat :=
  match e.result t with
  | .ok _ => e.named collection id
  | .error _ => 0

end Edit

/-- How often a sequence of calls writes the document. -/
def editCount (collection id : String) : Documents → List Edit → Nat
  | _, [] => 0
  | t, e :: rest => e.hits t collection id + editCount collection id (e.step t) rest

/-! ## What edits do to rows -/

/-- Every row of `t` is in `t'`, its version raised by the number of writes. -/
structure Edited (writes : String → String → Nat) (t t' : Documents) : Prop where
  row : ∀ r ∈ t.rows, ∃ r' ∈ t'.rows, r'.id = r.id ∧ r'.pluginId = r.pluginId ∧
    r'.collection = r.collection ∧ r'.version = r.version + writes r.collection r.id ∧
    (writes r.collection r.id = 0 → r' = r)
  json : (∀ r ∈ t.rows, DocumentRow.corrupt r = false) →
    ∀ r ∈ t'.rows, DocumentRow.corrupt r = false

namespace Edited

theorem refl (t : Documents) : Edited (fun _ _ => 0) t t where
  row r hr := ⟨r, hr, rfl, rfl, rfl, by simp, fun _ => rfl⟩
  json h := h

theorem trans {writes₁ writes₂ : String → String → Nat} {t t₁ t₂ : Documents}
    (h₁ : Edited writes₁ t t₁) (h₂ : Edited writes₂ t₁ t₂) :
    Edited (fun collection id => writes₁ collection id + writes₂ collection id) t t₂ where
  row r hr := by
    obtain ⟨r₁, hr₁, hid₁, hplugin₁, hcollection₁, hversion₁, hsame₁⟩ := h₁.row r hr
    obtain ⟨r₂, hr₂, hid₂, hplugin₂, hcollection₂, hversion₂, hsame₂⟩ := h₂.row r₁ hr₁
    rw [hid₁, hcollection₁] at hversion₂ hsame₂
    refine ⟨r₂, hr₂, hid₂.trans hid₁, hplugin₂.trans hplugin₁,
      hcollection₂.trans hcollection₁, ?_, ?_⟩
    · omega
    · intro hzero
      rw [hsame₂ (by omega), hsame₁ (by omega)]
  json h := h₂.json (h₁.json h)

theorem congr {writes writes' : String → String → Nat} {t t' : Documents}
    (h : Edited writes t t') (hwrites : ∀ collection id,
      writes collection id = writes' collection id) : Edited writes' t t' := by
  have heq : writes = writes' := funext fun collection => funext fun id =>
    hwrites collection id
  exact heq ▸ h

end Edited

theorem overwrite_edited (now : String) (data : Json) (collection id : String)
    (t : Documents) :
    Edited (fun c i => if collection = c then [id].count i else 0) t
      (overwrite now data collection id t) where
  row r hr := by
    by_cases hat : isAt collection id r = true
    · obtain ⟨hcollection, hid⟩ : r.collection = collection ∧ r.id = id := by
        simpa [isAt] using hat
      refine ⟨{ r with data := .ok data, version := r.version + 1, updatedAt := now },
        List.mem_map.mpr ⟨r, hr, if_pos hat⟩, rfl, rfl, rfl, ?_, ?_⟩
      · simp [hcollection, hid]
      · simp [hcollection, hid]
    · refine ⟨r, List.mem_map.mpr ⟨r, hr, if_neg hat⟩, rfl, rfl, rfl, ?_, fun _ => rfl⟩
      have hnone : (if collection = r.collection then [id].count r.id else 0) = 0 := by
        by_cases hcollection : collection = r.collection
        · have hid : id ≠ r.id := by
            intro hid
            exact hat (by simp [isAt, hcollection, hid])
          simp [hid]
        · simp [hcollection]
      rw [hnone]
      simp
  json hjson row hrow := by
    obtain ⟨r, hr, rfl⟩ := List.mem_map.mp hrow
    by_cases hat : isAt collection id r = true
    · rw [if_pos hat]
      rfl
    · rw [if_neg hat]
      exact hjson r hr

theorem updateRow_edited {now collection id : String} {t t' : Documents}
    {document doc : Json} (h : updateRow now t collection id document = .ok (doc, t')) :
    Edited (fun c i => if collection = c then [id].count i else 0) t t' := by
  unfold updateRow at h
  split at h
  · cases h
  · obtain ⟨written, -, hresult⟩ := bind_eq_ok_iff.mp h
    cases hresult
    exact overwrite_edited _ _ _ _ _

theorem updateAll_edited {now collection : String} {updates : List (String × Json)}
    {t t' : Documents} {docs : List Json}
    (h : updateAll now collection updates t = .ok (docs, t')) :
    Edited (fun c i => if collection = c then (updates.map Prod.fst).count i else 0) t t' := by
  induction updates generalizing t docs with
  | nil =>
    cases h
    exact (Edited.refl _).congr (by simp)
  | cons update rest ih =>
    obtain ⟨⟨doc, t₁⟩, hfirst, hrest⟩ := bind_eq_ok_iff.mp h
    obtain ⟨⟨others, t₂⟩, hothers, hresult⟩ := bind_eq_ok_iff.mp hrest
    cases hresult
    refine ((updateRow_edited hfirst).trans (ih hothers)).congr ?_
    intro c i
    by_cases hc : collection = c
    · simp only [hc, ↓reduceIte, List.map_cons, List.count_cons, List.count_nil]
      omega
    · simp [hc]

theorem Edit.result_edited {e : Edit} {t t' : Documents} (h : e.result t = .ok t') :
    Edited e.named t t' := by
  cases e with
  | update now collection id document =>
    obtain ⟨⟨doc, t₁⟩, hcall, rfl⟩ := map_eq_ok_iff.mp h
    obtain ⟨_, -, hrow⟩ := bind_eq_ok_iff.mp hcall
    exact updateRow_edited hrow
  | partialUpdate now collection id patch =>
    obtain ⟨⟨doc, t₁⟩, hcall, rfl⟩ := map_eq_ok_iff.mp h
    obtain ⟨_, -, hbody⟩ := bind_eq_ok_iff.mp hcall
    split at hbody
    · cases hbody
    · split at hbody
      · cases hbody
      · obtain ⟨written, -, hresult⟩ := bind_eq_ok_iff.mp hbody
        cases hresult
        exact overwrite_edited _ _ _ _ _
  | batchUpdate now collection updates =>
    obtain ⟨⟨docs, t₁⟩, hcall, rfl⟩ := map_eq_ok_iff.mp h
    obtain ⟨_, -, hbatch⟩ := bind_eq_ok_iff.mp hcall
    exact updateAll_edited hbatch

theorem Edit.step_edited (e : Edit) (t : Documents) : Edited (e.hits t) t (e.step t) := by
  unfold Edit.step Edit.hits
  cases hresult : e.result t with
  | error err => exact Edited.refl t
  | ok t' => exact Edit.result_edited hresult

theorem run_edited (t : Documents) (edits : List Edit) :
    Edited (fun collection id => editCount collection id t edits) t (run Edit.step t edits) := by
  induction edits generalizing t with
  | nil => exact Edited.refl t
  | cons e rest ih => exact (e.step_edited t).trans (ih (e.step t))

/-! ## Which migrations apply -/

/-- The entries whose transform a run calls on the record. -/
def appliedEntries (env : MigrationEnv) (pluginId : String) (entries : List MigrationEntry)
    (quarantine : List QuarantinedRecord) (t : Documents) (id : String) :
    List MigrationEntry :=
  ((runMigrations env pluginId entries t quarantine).1.calls.filter
    fun call => call.2 = id).map Prod.fst

/-- The entries before the first with an unreadable range. -/
def parsable (env : MigrationEnv) (entries : List MigrationEntry) : List MigrationEntry :=
  (sortByTarget env.semver entries).takeWhile fun entry =>
    (parseFromVersion entry.fromRange).isOk

section Applied

variable {env : MigrationEnv} {pluginId : String} {entries : List MigrationEntry}

theorem effective_of_json {rows : List DocumentRow}
    (hjson : ∀ r ∈ rows, DocumentRow.corrupt r = false) :
    effective pluginId rows (sortByTarget env.semver entries) = parsable env entries := by
  unfold effective parsable
  congr 1
  funext entry
  unfold blocked
  cases parseFromVersion entry.fromRange with
  | error e => rfl
  | ok version =>
    have hnone : rows.any (fun r => DocumentRow.corrupt r && selects pluginId entry r) = false := by
      rw [List.any_eq_false]
      intro r hr
      simp [hjson r hr]
    simp only [hnone]
    rfl

variable {r : DocumentRow} {steps : List MigrationEntry}

theorem appliedEntries_eq {t : Documents} (hjson : ∀ r ∈ t.rows, DocumentRow.corrupt r = false)
    (quarantine : List QuarantinedRecord) (hr : r ∈ t.rows) :
    appliedEntries env pluginId entries quarantine t r.id =
      env.calls.attempts pluginId (parsable env entries) r := by
  have hran : env.calls.Ran env.semver pluginId
      (effective pluginId t.rows (sortByTarget env.semver entries)) (.start t quarantine)
      (env.calls.runMigrations env.semver pluginId entries (.start t quarantine)).1 :=
    (Calls.runEntries_ran _ (.start t quarantine)).1
  have hcalls := hran.filter_calls hr
  unfold appliedEntries
  refine (congrArg (List.map Prod.fst) hcalls).trans ?_
  rw [effective_of_json hjson]
  simp [LoggedState.start, MigrationState.start, Function.comp_def]

theorem selects_of_mem_head {entry : MigrationEntry} {rest : List MigrationEntry}
    (h : env.calls.attempts pluginId steps r = entry :: rest) :
    selects pluginId entry r = true := by
  induction steps with
  | nil => cases h
  | cons step steps ih =>
    by_cases hselects : selects pluginId step r = true
    · rw [Calls.attempts, stepsTaken_cons_of_takes hselects] at h
      cases h
      exact hselects
    · rw [Calls.attempts, stepsTaken_cons_of_not_takes hselects] at h
      exact ih h

/-- Records of two versions are migrated alike only if neither is. -/
theorem attempts_eq_iff_of_version_ne {r' : DocumentRow} (hne : r'.version ≠ r.version) :
    env.calls.attempts pluginId steps r' = env.calls.attempts pluginId steps r ↔
      env.calls.attempts pluginId steps r' = [] ∧ env.calls.attempts pluginId steps r = [] := by
  constructor
  · intro heq
    cases hattempts : env.calls.attempts pluginId steps r with
    | nil => exact ⟨heq.trans hattempts, rfl⟩
    | cons entry rest =>
      -- the first entry would select both versions
      have hversion := (selects_eq_true_iff.mp (selects_of_mem_head hattempts)).2.2
      have hversion' := (selects_eq_true_iff.mp (selects_of_mem_head (heq.trans hattempts))).2.2
      rw [hversion] at hversion'
      exact absurd (Except.ok.inj hversion').symm hne
  · rintro ⟨h', h⟩
    rw [h', h]

theorem attempts_eq_nil_iff_version (hplugin : r.pluginId = pluginId) :
    env.calls.attempts pluginId steps r = [] ↔ ∀ entry ∈ steps, entry.collection = r.collection →
      parseFromVersion entry.fromRange ≠ .ok r.version := by
  rw [Calls.attempts, stepsTaken_eq_nil_iff]
  constructor
  · intro hnone entry hentry hcollection hversion
    exact hnone entry hentry (selects_eq_true_iff.mpr ⟨hplugin, hcollection.symm, hversion⟩)
  · intro hnone entry hentry hselects
    obtain ⟨-, hcollection, hversion⟩ := selects_eq_true_iff.mp hselects
    exact hnone entry hentry hcollection.symm hversion

end Applied

/-- The same entries apply before and after the edits. -/
def SameMigrations (env : MigrationEnv) (pluginId : String) (entries : List MigrationEntry)
    (quarantine : List QuarantinedRecord) (t : Documents) (edits : List Edit) (id : String) :
    Prop :=
  appliedEntries env pluginId entries quarantine (run Edit.step t edits) id =
    appliedEntries env pluginId entries quarantine t id

/-- Edits leave the migrations of a record alone exactly when none writes it, or it belongs to
another plugin, or no entry selects its version before or after. -/
theorem sameMigrations_iff (env : MigrationEnv) (pluginId : String)
    (entries : List MigrationEntry) (quarantine : List QuarantinedRecord) (t : Documents)
    (hjson : ∀ r ∈ t.rows, DocumentRow.corrupt r = false) (edits : List Edit)
    (r : DocumentRow) (hr : r ∈ t.rows) :
    SameMigrations env pluginId entries quarantine t edits r.id ↔
      r.pluginId ≠ pluginId ∨ editCount r.collection r.id t edits = 0 ∨
      ∀ entry ∈ parsable env entries, entry.collection = r.collection →
        parseFromVersion entry.fromRange ≠ .ok r.version ∧
        parseFromVersion entry.fromRange ≠
          .ok (r.version + editCount r.collection r.id t edits) := by
  have hedited := run_edited t edits
  obtain ⟨r', hr', hid, hplugin, hcollection, hversion, hsame⟩ := hedited.row r hr
  unfold SameMigrations
  rw [appliedEntries_eq hjson quarantine hr, ← hid,
    appliedEntries_eq (hedited.json hjson) quarantine hr']
  by_cases howner : r.pluginId = pluginId
  · by_cases hwritten : editCount r.collection r.id t edits = 0
    · rw [hsame hwritten]
      simp [hwritten]
    · have hne : r'.version ≠ r.version := by
        omega
      rw [attempts_eq_iff_of_version_ne hne,
        attempts_eq_nil_iff_version (hplugin.trans howner),
        attempts_eq_nil_iff_version howner, hcollection, hversion, hid]
      constructor
      · rintro ⟨hafter, hbefore⟩
        refine .inr (.inr fun entry hentry hentryCollection => ?_)
        exact ⟨hbefore entry hentry hentryCollection, hafter entry hentry hentryCollection⟩
      · rintro (hother | hzero | hnone)
        · exact absurd howner hother
        · exact absurd hzero hwritten
        · exact ⟨fun entry hentry hentryCollection =>
              (hnone entry hentry hentryCollection).2,
            fun entry hentry hentryCollection => (hnone entry hentry hentryCollection).1⟩
  · have hnone : ∀ row : DocumentRow, row.pluginId ≠ pluginId →
        env.calls.attempts pluginId (parsable env entries) row = [] := by
      intro row hrow
      rw [Calls.attempts, stepsTaken_eq_nil_iff]
      intro entry _ hselects
      exact hrow (selects_eq_true_iff.mp hselects).1
    rw [hnone r howner, hnone r' (by rwa [hplugin])]
    simp [howner]

/-- The edit that replaces the one event by an empty document. -/
def emptyUpdate : Edit :=
  .update "2026-01-01T00:00:00Z" "events" "r1" (.obj [])

/-- An edit of a record that no entry selects changes nothing. -/
theorem sameMigrations_iff_oneEvent :
    (∀ r ∈ oneEvent.rows, DocumentRow.corrupt r = false) ∧
      ∀ r ∈ oneEvent.rows,
        (SameMigrations identityEnv "p" [majorEntry] [] oneEvent [emptyUpdate] r.id ↔
          r.pluginId ≠ "p" ∨ editCount r.collection r.id oneEvent [emptyUpdate] = 0 ∨
          ∀ entry ∈ parsable identityEnv [majorEntry], entry.collection = r.collection →
            parseFromVersion entry.fromRange ≠ .ok r.version ∧
            parseFromVersion entry.fromRange ≠
              .ok (r.version + editCount r.collection r.id oneEvent [emptyUpdate])) := by
  have hjson : ∀ r ∈ oneEvent.rows, DocumentRow.corrupt r = false := by
    simp [oneEvent, DocumentRow.corrupt]
  exact ⟨hjson, fun r hr =>
    sameMigrations_iff identityEnv "p" [majorEntry] [] oneEvent hjson [emptyUpdate] r hr⟩

/-- The record is due for the migration from `1.x`; after one edit it counts as version 2. -/
theorem not_sameMigrations_update :
    Accepted identityEnv.semver [majorEntry] ∧
      (∀ r ∈ oneEvent.rows, DocumentRow.corrupt r = false) ∧
      ¬ SameMigrations identityEnv "p" [majorEntry] [] oneEvent [emptyUpdate] "r1" := by
  refine ⟨majorEntry_accepted, by simp [oneEvent, DocumentRow.corrupt], ?_⟩
  unfold SameMigrations
  decide +kernel

end LifeEngine.Migration
