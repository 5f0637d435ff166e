import LifeEngine.Federation.Sync

/-!
# Namespaces of peers

The records of a peer are kept under a namespace of its own.  The identifiers of records
are the primary key of the whole table, however, so a record of another namespace can
use up the identifier that a change of the peer needs.  The main result compares the
records of the namespace with those of a database that has no other namespaces: they
are the same exactly as long as no change is blocked that way.
-/

namespace LifeEngine.Federation

open Support Storage Records Sync List

def namespaceRows (ns : String) (rows : Rows) : List (DataRow String) :=
  rows.rows.filter fun r => r.pluginId = ns

def foreignRows (ns : String) (rows : Rows) : List (DataRow String) :=
  rows.rows.filter fun r => ¬ r.pluginId = ns

/-- The database without the records of other namespaces. -/
def onlyNamespace (ns : String) (db : LocalDb) : LocalDb :=
  { db with rows := db.rows.deleteWhere fun r => ¬ r.pluginId = ns }

/-- At every moment, the records are those that the changes leave without other namespaces, and
those of the others have not changed. -/
def Undisturbed (ns : String) (db : LocalDb) (changes : List ChangeRecord) : Prop :=
  ∀ pre post, changes = pre ++ post →
    namespaceRows ns (run (applyStep sqliteAdapter ns) db pre).rows =
        namespaceRows ns (run (applyStep sqliteAdapter ns) (onlyNamespace ns db) pre).rows ∧
      foreignRows ns (run (applyStep sqliteAdapter ns) db pre).rows =
        foreignRows ns db.rows

/-- A record of another namespace uses the id of the change. -/
def Blocked (ns : String) (db : LocalDb) (change : ChangeRecord) : Prop :=
  change.operation ≠ .delete ∧ change.data.isSome ∧
    ∃ r ∈ db.rows.rows, r.id = change.id ∧ r.pluginId ≠ ns

/-! ## The rows of a namespace -/

section Rows

variable {ns : String} {change : ChangeRecord} {rows : Rows} {now : Timestamp}

theorem find_hits_eq (ns collection id : String) (rows : Rows) :
    rows.rows.find? (hits ns collection id) =
      (namespaceRows ns rows).find? (hits ns collection id) := by
  rw [namespaceRows, find?_filter]
  congr 1
  funext r
  by_cases hns : r.pluginId = ns
  · simp [hns]
  · simp [hits, hns]

theorem mem_keys_iff (ns id : String) (rows : Rows) :
    id ∈ rows.keys ↔ (∃ r ∈ namespaceRows ns rows, r.id = id) ∨
      ∃ r ∈ foreignRows ns rows, r.id = id := by
  rw [Table.mem_keys]
  constructor
  · rintro ⟨r, hr, hid⟩
    by_cases hns : r.pluginId = ns
    · exact Or.inl ⟨r, mem_filter.mpr ⟨hr, decide_eq_true hns⟩, hid⟩
    · exact Or.inr ⟨r, mem_filter.mpr ⟨hr, decide_eq_true hns⟩, hid⟩
  · rintro (⟨r, hr, hid⟩ | ⟨r, hr, hid⟩) <;> exact ⟨r, (mem_filter.mp hr).1, hid⟩

/-- The namespace after an effect, from the namespace before. -/
def ownAfter (ns : String) (change : ChangeRecord) (now : Timestamp)
    (own : List (DataRow String)) : Effect → List (DataRow String)
  | .nothing => own
  | .insert data => own ++ [⟨change.id, ns, change.collection, data, 1, now, now⟩]
  | .rewrite data version => own.map fun r =>
    if versionHits ns change.collection change.id version r then
      rewriteRow data version now r
    else r
  | .remove => own.filter fun r => !hits ns change.collection change.id r

theorem namespaceRows_applyTo {effect : Effect}
    (hfree : ∀ data, effect = .insert data → change.id ∉ rows.keys) :
    namespaceRows ns (effect.applyTo ns change now rows) =
      ownAfter ns change now (namespaceRows ns rows) effect := by
  rcases effect with _ | data | ⟨data, version⟩ | _
  · rfl
  · rw [namespaceRows, rows_applyTo_insert data (hfree data rfl)]
    simp [ownAfter, namespaceRows]
  · simp only [Effect.applyTo, namespaceRows, Table.updateWhere, filter_map]
    congr 1
    apply filter_congr
    intro r _
    dsimp only [Function.comp_apply]
    split <;> rfl
  · simp only [Effect.applyTo, ownAfter, namespaceRows, Table.deleteWhere, filter_filter]
    apply filter_congr
    intro r _
    exact Bool.and_comm _ _

/-- Rows of other namespaces are not what a change names. -/
theorem not_hits_of_foreign {r : DataRow String} (h : ¬ r.pluginId = ns)
    (collection id : String) : hits ns collection id r = false := by
  simp [hits, h]

theorem foreignRows_applyTo {effect : Effect}
    (hfree : ∀ data, effect = .insert data → change.id ∉ rows.keys) :
    foreignRows ns (effect.applyTo ns change now rows) = foreignRows ns rows := by
  rcases effect with _ | data | ⟨data, version⟩ | _
  · rfl
  · rw [foreignRows, rows_applyTo_insert data (hfree data rfl)]
    simp [foreignRows]
  · have hsame : ∀ r ∈ rows.rows.filter (fun r => ¬ r.pluginId = ns),
        (if versionHits ns change.collection change.id version r then
          rewriteRow data version now r else r) = r := by
      intro r hr
      have hns : ¬ r.pluginId = ns := of_decide_eq_true (mem_filter.mp hr).2
      rw [versionHits, not_hits_of_foreign hns]
      rfl
    simp only [Effect.applyTo, foreignRows, Table.updateWhere, filter_map]
    rw [filter_congr (q := fun r => decide (¬ r.pluginId = ns))]
    · exact (map_congr_left hsame).trans (map_id _)
    · intro r _
      dsimp only [Function.comp_apply]
      split <;> rfl
  · simp only [Effect.applyTo, foreignRows, Table.deleteWhere, filter_filter]
    apply filter_congr
    intro r _
    by_cases hns : r.pluginId = ns
    · simp [hns]
    · simp [not_hits_of_foreign hns]

end Rows

/-! ## Two databases -/

/-- The databases agree on the namespace, and the second has nothing else. -/
structure Alike (ns : String) (db own : LocalDb) : Prop where
  rows : namespaceRows ns db.rows = namespaceRows ns own.rows
  clock : db.clock = own.clock
  alone : foreignRows ns own.rows = []

section Alike

variable {ns : String} {db own : LocalDb}

theorem alike_onlyNamespace (ns : String) (db : LocalDb) :
    Alike ns db (onlyNamespace ns db) where
  rows := by
    simp only [namespaceRows, onlyNamespace, Table.deleteWhere, filter_filter]
    apply filter_congr
    intro r _
    by_cases hns : r.pluginId = ns <;> simp
  clock := rfl
  alone := by
    simp only [foreignRows, onlyNamespace, Table.deleteWhere, filter_filter]
    rw [filter_eq_nil_iff]
    intro r _
    by_cases hns : r.pluginId = ns <;> simp

variable {change : ChangeRecord}

theorem Alike.find_eq (h : Alike ns db own) (collection id : String) :
    db.rows.rows.find? (hits ns collection id) = own.rows.rows.find? (hits ns collection id) := by
  rw [find_hits_eq, find_hits_eq, h.rows]

theorem Alike.mem_keys (h : Alike ns db own) {id : String} (hused : id ∈ own.rows.keys) :
    id ∈ db.rows.keys := by
  rw [mem_keys_iff ns] at hused ⊢
  rcases hused with hown | ⟨r, hr, -⟩
  · rw [h.rows]
    exact Or.inl hown
  · rw [h.alone] at hr
    cases hr

theorem Alike.foreign_of_free (h : Alike ns db own) {id : String} (hused : id ∈ db.rows.keys)
    (hfree : id ∉ own.rows.keys) : ∃ r ∈ db.rows.rows, r.id = id ∧ r.pluginId ≠ ns := by
  rw [mem_keys_iff ns] at hused hfree
  rcases hused with hown | ⟨r, hr, hid⟩
  · rw [h.rows] at hown
    exact absurd (Or.inl hown) hfree
  · obtain ⟨hmem, hns⟩ := mem_filter.mp hr
    exact ⟨r, hmem, hid, of_decide_eq_true hns⟩

theorem Alike.free_of_foreign (h : Alike ns db own) {r : DataRow String}
    (hr : r ∈ db.rows.rows) (hns : r.pluginId ≠ ns) :
    r.id ∉ own.rows.keys ∧ ∀ collection, db.rows.rows.find? (hits ns collection r.id) = none := by
  have hunique : ∀ r' ∈ db.rows.rows, r'.id = r.id → r'.pluginId ≠ ns := by
    intro r' hr' hid
    rwa [Table.eq_of_key_eq hr' hr hid]
  constructor
  · rw [mem_keys_iff ns, h.alone, ← h.rows]
    rintro (⟨r', hr', hid⟩ | ⟨r', hr', -⟩)
    · obtain ⟨hmem, hown⟩ := mem_filter.mp hr'
      exact hunique r' hmem hid (of_decide_eq_true hown)
    · cases hr'
  · intro collection
    rw [find?_eq_none]
    intro r' hr' hhits
    obtain ⟨hid, hown, -⟩ := hits_iff.mp hhits
    exact hunique r' hr' hid hown

/-- A change that is not blocked has the same effect in both. -/
theorem Alike.effect_eq (h : Alike ns db own) (hblocked : ¬ Blocked ns db change) :
    effect ns change db.rows = effect ns change own.rows := by
  obtain ⟨id, collection, operation, data, version, timestamp⟩ := change
  have hused : operation ≠ .delete → data.isSome → (id ∈ db.rows.keys ↔ id ∈ own.rows.keys) := by
    intro hoperation hdata
    refine ⟨fun hin => ?_, h.mem_keys⟩
    by_contra hfree
    exact hblocked ⟨hoperation, hdata, h.foreign_of_free hin hfree⟩
  have hinsert : operation ≠ .delete → data.isSome → ∀ d : Json,
      (if id ∈ db.rows.keys then Effect.nothing else .insert d) =
        if id ∈ own.rows.keys then .nothing else .insert d := by
    intro hoperation hdata d
    by_cases hin : id ∈ own.rows.keys
    · rw [if_pos hin, if_pos ((hused hoperation hdata).mpr hin)]
    · rw [if_neg hin, if_neg fun h => hin ((hused hoperation hdata).mp h)]
  unfold effect
  rw [h.find_eq]
  rcases operation with _ | _ | _
  · rcases data with _ | data
    · rfl
    · exact hinsert nofun rfl data
  · rcases data with _ | data
    · rfl
    · rcases own.rows.rows.find? (hits ns collection id) with _ | r
      · exact hinsert nofun rfl data
      · rfl
  · rfl

theorem Alike.draws_eq (h : Alike ns db own) (change : ChangeRecord) :
    draws ns change db.rows = draws ns change own.rows := by
  unfold draws
  rw [h.find_eq]

theorem namespaceRows_applyStep (ns : String) (db : LocalDb) (change : ChangeRecord) :
    namespaceRows ns (applyStep sqliteAdapter ns db change).rows =
      ownAfter ns change (db.clock 0) (namespaceRows ns db.rows) (effect ns change db.rows) := by
  rw [rows_applyStep]
  exact namespaceRows_applyTo fun data => not_mem_keys_of_effect

theorem foreignRows_applyStep (ns : String) (db : LocalDb) (change : ChangeRecord) :
    foreignRows ns (applyStep sqliteAdapter ns db change).rows = foreignRows ns db.rows := by
  rw [rows_applyStep]
  exact foreignRows_applyTo fun data => not_mem_keys_of_effect

theorem Alike.applyStep (h : Alike ns db own) (hblocked : ¬ Blocked ns db change) :
    Alike ns (applyStep sqliteAdapter ns db change) (applyStep sqliteAdapter ns own change) where
  rows := by
    rw [namespaceRows_applyStep, namespaceRows_applyStep, h.effect_eq hblocked, h.rows, h.clock]
  clock := by
    have htick : db.tick = own.tick := by
      unfold LocalDb.tick
      rw [h.clock]
    rw [clock_applyStep, clock_applyStep, h.draws_eq, h.clock, htick]
  alone := by
    rw [foreignRows_applyStep, h.alone]

/-- A blocked change does nothing here, and is stored without other namespaces. -/
theorem Alike.effect_of_blocked (h : Alike ns db own) (hblocked : Blocked ns db change) :
    effect ns change db.rows = .nothing ∧ ∃ data, effect ns change own.rows = .insert data := by
  obtain ⟨id, collection, operation, data, version, timestamp⟩ := change
  obtain ⟨hoperation, hdata, r, hr, hid, hns⟩ := hblocked
  obtain rfl : r.id = id := hid
  obtain ⟨data, rfl⟩ := Option.isSome_iff_exists.mp hdata
  obtain ⟨hfree, hfind⟩ := h.free_of_foreign hr hns
  have hused : r.id ∈ db.rows.keys := Table.mem_keys.mpr ⟨r, hr, rfl⟩
  rcases operation with _ | _ | _
  · simp only [effect, if_pos hused, if_neg hfree]
    exact ⟨trivial, data, rfl⟩
  · simp only [effect, ← h.find_eq, hfind, if_pos hused, if_neg hfree]
    exact ⟨trivial, data, rfl⟩
  · exact absurd rfl hoperation

end Alike

/-- A peer is undisturbed exactly as long as no other namespace uses an id that its changes need. -/
theorem undisturbed_iff (peerId : String) (db : LocalDb) (changes : List ChangeRecord) :
    Undisturbed (federationNamespace peerId) db changes ↔
      EveryStep (federationStep sqliteAdapter peerId)
        (fun db change => ¬ Blocked (federationNamespace peerId) db change) db changes := by
  set ns := federationNamespace peerId
  -- Both databases take the changes side by side.
  let both : LocalDb × LocalDb → ChangeRecord → LocalDb × LocalDb := fun p change =>
    (applyStep sqliteAdapter ns p.1 change, applyStep sqliteAdapter ns p.2 change)
  have hrun : ∀ pre, run both (db, onlyNamespace ns db) pre =
      (run (applyStep sqliteAdapter ns) db pre,
        run (applyStep sqliteAdapter ns) (onlyNamespace ns db) pre) :=
    fun pre => run_pair (applyStep sqliteAdapter ns) (applyStep sqliteAdapter ns) db _ pre
  have hthroughout : Throughout both (fun p =>
        namespaceRows ns p.1.rows = namespaceRows ns p.2.rows ∧
          foreignRows ns p.1.rows = foreignRows ns db.rows) (db, onlyNamespace ns db) changes ↔
      EveryStep both (fun p change => ¬ Blocked ns p.1 change) (db, onlyNamespace ns db)
        changes := by
    refine throughout_iff_everyStep (fun p (h : Alike ns p.1 p.2 ∧
      foreignRows ns p.1.rows = foreignRows ns db.rows) => ⟨h.1.rows, h.2⟩) ?_ ?_ ?_ changes
    · intro p change h hblocked
      exact ⟨h.1.applyStep hblocked, (foreignRows_applyStep ns p.1 change).trans h.2⟩
    · intro p change h hsame hblocked
      obtain ⟨hnothing, data, hinsert⟩ := h.1.effect_of_blocked hblocked
      have hrows := hsame.1
      rw [namespaceRows_applyStep, namespaceRows_applyStep, hnothing, hinsert, h.1.rows] at hrows
      have hlength := congrArg List.length hrows
      simp [ownAfter] at hlength
    · exact ⟨alike_onlyNamespace ns db, rfl⟩
  constructor
  · intro h pre change post hsplit
    have hstep := hthroughout.mp ?_ pre change post hsplit
    · rwa [hrun] at hstep
    · intro pre post hsplit
      rw [hrun]
      exact h pre post hsplit
  · intro h pre post hsplit
    have hmoment := hthroughout.mpr ?_ pre post hsplit
    · rwa [hrun] at hmoment
    · intro pre change post hsplit
      rw [hrun]
      exact h pre change post hsplit

/-- A database with one local note. -/
def oneLocalNote : LocalDb :=
  ⟨⟨[⟨"n1", "core", "notes", .str "mine", 1, 0, 0⟩], nodup_singleton _⟩, fun _ => 0⟩

theorem not_undisturbed_oneLocalNote :
    ¬ Undisturbed (federationNamespace "home") oneLocalNote
      [⟨"n1", "notes", .create, some (.str "theirs"), 1, 0⟩] := by
  intro h
  have hrows := (h [_] [] rfl).1
  have hlength := congrArg List.length hrows
  revert hlength
  decide +kernel

end LifeEngine.Federation
