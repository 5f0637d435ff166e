import LifeEngine.Records.Storage
import LifeEngine.Support.Action

/-!
# Sync primitives

Change records, the cursors of the sources they come from, and `apply_change`, which
brings a change into a local storage.  `apply_change` is written for every storage;
for SQLite this file says in one lemma what it does to the rows.
-/

namespace LifeEngine.Sync

open Support Storage Records

/-! ## Changes and cursors -/

inductive ChangeOperation where
  | create
  | update
  | delete
  deriving DecidableEq, Repr

structure ChangeRecord where
  id : String
  collection : String
  operation : ChangeOperation
  data : Option Json
  version : Int
  timestamp : Timestamp
  deriving DecidableEq

structure PullResponse where
  changes : List ChangeRecord
  cursor : String

/-- The cursor of each source in each collection. -/
structure SyncCursors where
  cursors : String → String → Option String

namespace SyncCursors

def new : SyncCursors := ⟨fun _ _ => none⟩

def get (c : SyncCursors) (sourceId collection : String) : Option String :=
  c.cursors sourceId collection

def set (c : SyncCursors) (sourceId collection cursor : String) : SyncCursors :=
  ⟨Function.update c.cursors sourceId
    (Function.update (c.cursors sourceId) collection (some cursor))⟩

theorem get_set (c : SyncCursors) (sourceId collection cursor source other : String) :
    (c.set sourceId collection cursor).get source other =
      if source = sourceId ∧ other = collection then some cursor else c.get source other := by
  by_cases hsource : source = sourceId
  · subst hsource
    by_cases hother : other = collection <;> simp [set, get, hother]
  · simp [set, get, hsource]

end SyncCursors

/-! ## Applying a change -/

/-- What changes are applied with. Errors are their messages. -/
structure StorageAdapter (σ : Type) where
  get : String → String → String → Action σ String (Option Record)
  createWithId : String → String → String → Json → Action σ String Record
  update : String → String → String → Json → Int → Action σ StorageError Record
  delete : String → String → String → Action σ String Bool

def applyChange {σ : Type} (storage : StorageAdapter σ) (ns : String) (change : ChangeRecord) :
    Action σ String Unit :=
  match change.operation with
  | .create =>
    match change.data with
    | some data => do
        let _ ← storage.createWithId ns change.collection change.id data
    | none => pure ()
  | .update =>
    match change.data with
    | some data => do
        match ← storage.get ns change.collection change.id with
        | some existing =>
          if change.version > existing.version then
            let _ ← Action.mapErr StorageError.display
              (storage.update ns change.collection change.id data existing.version)
        | none =>
          let _ ← storage.createWithId ns change.collection change.id data
    | none => pure ()
  | .delete => do
      let existing ← storage.get ns change.collection change.id
      if existing.any fun r => change.version ≤ r.version then pure ()
      else
        let _ ← storage.delete ns change.collection change.id

/-- The storage after a change was applied, successfully or not. -/
def applyStep {σ : Type} (storage : StorageAdapter σ) (ns : String) (s : σ)
    (change : ChangeRecord) : σ :=
  (Action.exec (applyChange storage ns change) s).2

/-! ## The SQLite storage -/

/-- The rows, and the times that the next calls draw. -/
structure LocalDb where
  rows : Rows
  clock : Nat → Timestamp

namespace LocalDb

def tick (db : LocalDb) : Nat → Timestamp :=
  fun n => db.clock (n + 1)

end LocalDb

def sqliteAdapter : StorageAdapter LocalDb where
  get pluginId collection id := .ofStep fun db =>
    (.ok (Records.get db.rows pluginId collection id), db)
  createWithId pluginId collection id data := .ofStep fun db =>
    let (result, rows) :=
      Records.createWithId (db.clock 0) db.rows pluginId collection id data
    (result.mapError StorageError.display, ⟨rows, db.tick⟩)
  update pluginId collection id data version := .ofStep fun db =>
    let (result, rows) :=
      Records.update (db.clock 0) db.rows pluginId collection id data version
    (result, ⟨rows, db.tick⟩)
  delete pluginId collection id := .ofStep fun db =>
    let (deleted, rows) := Records.delete db.rows pluginId collection id
    (.ok deleted, { db with rows := rows })

/-- What a change does to the rows. -/
inductive Effect where
  | nothing
  | insert (data : Json)
  | rewrite (data : Json) (version : Int)
  | remove
  deriving DecidableEq

/-- The id is used up by any record, also of another namespace or collection. -/
def effect (ns : String) (change : ChangeRecord) (rows : Rows) : Effect :=
  match change.operation, change.data with
  | .create, some data => if change.id ∈ rows.keys then .nothing else .insert data
  | .update, some data =>
    match rows.rows.find? (hits ns change.collection change.id) with
    | some r => if r.version < change.version then .rewrite data r.version else .nothing
    | none => if change.id ∈ rows.keys then .nothing else .insert data
  | .create, none | .update, none => .nothing
  | .delete, _ =>
    match rows.rows.find? (hits ns change.collection change.id) with
    | some r => if r.version < change.version then .remove else .nothing
    | none => .nothing

/-- The row as an update leaves it. -/
def rewriteRow (data : Json) (version : Int) (now : Timestamp) (r : DataRow String) :
    DataRow String :=
  { r with data := data, version := version + 1, updatedAt := now }

theorem id_rewriteRow (data : Json) (version : Int) (now : Timestamp) (r : DataRow String) :
    (rewriteRow data version now r).id = r.id := rfl

def Effect.applyTo (ns : String) (change : ChangeRecord) (now : Timestamp) (rows : Rows) :
    Effect → Rows
  | nothing => rows
  | insert data =>
    (rows.insert ⟨change.id, ns, change.collection, data, 1, now, now⟩).getD rows
  | rewrite data version =>
    rows.updateWhere (versionHits ns change.collection change.id version)
      (rewriteRow data version now) (id_rewriteRow data version now)
  | remove => rows.deleteWhere (hits ns change.collection change.id)

variable {change : ChangeRecord} {rows : Rows}

theorem mem_applyTo_rewrite {ns : String} {now : Timestamp} {data : Json} {version : Int}
    {r' : DataRow String} :
    r' ∈ ((Effect.rewrite data version).applyTo ns change now rows).rows ↔
      ∃ r ∈ rows.rows,
        (versionHits ns change.collection change.id version r = true ∧
          r' = rewriteRow data version now r) ∨
        (versionHits ns change.collection change.id version r = false ∧ r' = r) := by
  rw [Effect.applyTo, Table.mem_updateWhere]

/-- The effects, with a free id or an older row. -/
theorem effect_cases (ns : String) (change : ChangeRecord) (rows : Rows) :
    effect ns change rows = .nothing ∨
    (∃ data, effect ns change rows = .insert data ∧ change.id ∉ rows.keys) ∨
    (∃ data r, effect ns change rows = .rewrite data r.version ∧ r ∈ rows.rows ∧
      hits ns change.collection change.id r = true) ∨
    (∃ r, effect ns change rows = .remove ∧ r ∈ rows.rows ∧
      hits ns change.collection change.id r = true) := by
  obtain ⟨id, collection, operation, data, version, timestamp⟩ := change
  have hinsert : ∀ data, (if id ∈ rows.keys then Effect.nothing else .insert data) = .nothing ∨
      (∃ d, (if id ∈ rows.keys then Effect.nothing else .insert data) = .insert d ∧
        id ∉ rows.keys) := by
    intro data
    by_cases hused : id ∈ rows.keys
    · exact Or.inl (if_pos hused)
    · exact Or.inr ⟨data, if_neg hused, hused⟩
  rcases operation with _ | _ | _
  · rcases data with _ | data
    · exact Or.inl rfl
    · rcases hinsert data with h | h
      · exact Or.inl h
      · exact Or.inr (Or.inl h)
  · rcases data with _ | data
    · exact Or.inl rfl
    · simp only [effect]
      rcases hfind : rows.rows.find? (hits ns collection id) with _ | r
      · rcases hinsert data with h | h
        · exact Or.inl h
        · exact Or.inr (Or.inl h)
      · dsimp only
        split
        · exact Or.inr (Or.inr (Or.inl ⟨data, r, rfl, List.mem_of_find?_eq_some hfind,
            List.find?_some hfind⟩))
        · exact Or.inl rfl
  · simp only [effect]
    rcases hfind : rows.rows.find? (hits ns collection id) with _ | r
    · exact Or.inl rfl
    · dsimp only
      split
      · exact Or.inr (Or.inr (Or.inr ⟨r, rfl, List.mem_of_find?_eq_some hfind,
          List.find?_some hfind⟩))
      · exact Or.inl rfl

theorem not_mem_keys_of_effect {ns : String} {data : Json}
    (h : effect ns change rows = .insert data) : change.id ∉ rows.keys := by
  rcases effect_cases ns change rows with heq | ⟨_, -, hfree⟩ | ⟨_, _, heq, -⟩ | ⟨_, heq, -⟩
  · rw [h] at heq
    cases heq
  · exact hfree
  · rw [h] at heq
    cases heq
  · rw [h] at heq
    cases heq

theorem rows_createWithId (db : LocalDb) (ns collection id : String) (data : Json) :
    (Action.exec (sqliteAdapter.createWithId ns collection id data) db).2.rows =
      (db.rows.insert ⟨id, ns, collection, data, 1, db.clock 0, db.clock 0⟩).getD db.rows := by
  change (Records.createWithId (db.clock 0) db.rows ns collection id data).2 = _
  rw [Records.createWithId]
  rcases db.rows.insert ⟨id, ns, collection, data, 1, db.clock 0, db.clock 0⟩ with _ | rows <;> rfl

theorem rows_insert_getD {row : DataRow String} (h : row.id ∉ rows.keys) :
    ((rows.insert row).getD rows).rows = rows.rows ++ [row] := by
  rw [Table.insert, dif_neg h]
  rfl

theorem rows_applyTo_insert {ns : String} {now : Timestamp} (data : Json)
    (h : change.id ∉ rows.keys) :
    ((Effect.insert data).applyTo ns change now rows).rows =
      rows.rows ++ [⟨change.id, ns, change.collection, data, 1, now, now⟩] :=
  rows_insert_getD h

theorem exec_bind_unit {σ α : Type} (x : Action σ String α) (s : σ) :
    (Action.exec (do let _ ← x) s).2 = (Action.exec x s).2 := by
  rw [Action.exec_bind]
  rcases Action.exec x s with ⟨result, s'⟩
  rcases result with e | a <;> rfl

theorem exec_get_bind {α : Type} (ns collection id : String) (db : LocalDb)
    (f : Option Record → Action LocalDb String α) :
    Action.exec (sqliteAdapter.get ns collection id >>= f) db =
      Action.exec (f ((db.rows.rows.find? (hits ns collection id)).map rowToRecord)) db :=
  Action.exec_bind_ok rfl

/-- `apply_change` on SQLite has the effect of the change. -/
theorem rows_applyStep (ns : String) (db : LocalDb) (change : ChangeRecord) :
    (applyStep sqliteAdapter ns db change).rows =
      (effect ns change db.rows).applyTo ns change (db.clock 0) db.rows := by
  unfold applyStep
  obtain ⟨id, collection, operation, data, version, timestamp⟩ := change
  -- A new row, if its id is free.
  have hcreate : ∀ data,
      (Action.exec (do let _ ← sqliteAdapter.createWithId ns collection id data) db).2.rows =
        Effect.applyTo ns ⟨id, collection, operation, some data, version, timestamp⟩
          (db.clock 0) db.rows (if id ∈ db.rows.keys then .nothing else .insert data) := by
    intro data
    rw [exec_bind_unit, rows_createWithId]
    split
    · next hmem =>
      rw [Table.insert, dif_pos hmem]
      rfl
    · rfl
  rcases operation with _ | _ | _
  · rcases data with _ | data
    · rfl
    · exact hcreate data
  · rcases data with _ | data
    · rfl
    · simp only [applyChange, effect, exec_get_bind]
      rcases db.rows.rows.find? (hits ns collection id) with _ | r
      · exact hcreate data
      · simp only [Option.map_some]
        by_cases hnewer : r.version < version
        · have hstored : version > (rowToRecord r).version := hnewer
          rw [if_pos hnewer, if_pos hstored, exec_bind_unit]
          exact snd_update
        · have hstored : ¬ version > (rowToRecord r).version := hnewer
          rw [if_neg hnewer, if_neg hstored]
          rfl
  · simp only [applyChange, effect, exec_get_bind]
    rcases hfind : db.rows.rows.find? (hits ns collection id) with _ | r
    · -- There is no row to delete.
      have hmiss : ∀ r ∈ db.rows.rows, hits ns collection id r = false := by
        intro r hr
        simpa using List.find?_eq_none.mp hfind r hr
      exact Table.deleteWhere_eq_self hmiss
    · simp only [Option.map_some, Option.any_some]
      by_cases hnewer : r.version < version
      · have hstored : ¬ decide (version ≤ (rowToRecord r).version) = true :=
          fun h => absurd hnewer (Int.not_lt.mpr (of_decide_eq_true h))
        rw [if_pos hnewer, if_neg hstored]
        rfl
      · have hstored : decide (version ≤ (rowToRecord r).version) = true :=
          decide_eq_true (Int.not_lt.mp hnewer)
        rw [if_neg hnewer, if_pos hstored]
        rfl

/-- Whether the change makes the storage draw a time. -/
def draws (ns : String) (change : ChangeRecord) (rows : Rows) : Bool :=
  match change.operation, change.data with
  | .create, some _ => true
  | .update, some _ =>
    match rows.rows.find? (hits ns change.collection change.id) with
    | some r => r.version < change.version
    | none => true
  | .create, none | .update, none | .delete, _ => false

theorem clock_applyStep (ns : String) (db : LocalDb) (change : ChangeRecord) :
    (applyStep sqliteAdapter ns db change).clock =
      bif draws ns change db.rows then db.tick else db.clock := by
  unfold applyStep
  obtain ⟨id, collection, operation, data, version, timestamp⟩ := change
  rcases operation with _ | _ | _
  · rcases data with _ | data
    · rfl
    · simp only [applyChange, exec_bind_unit]
      rfl
  · rcases data with _ | data
    · rfl
    · simp only [applyChange, draws, exec_get_bind]
      rcases db.rows.rows.find? (hits ns collection id) with _ | r
      · simp only [Option.map_none, exec_bind_unit]
        rfl
      · simp only [Option.map_some]
        by_cases hnewer : r.version < version
        · have hstored : version > (rowToRecord r).version := hnewer
          rw [if_pos hstored, exec_bind_unit, decide_eq_true hnewer]
          rfl
        · have hstored : ¬ version > (rowToRecord r).version := hnewer
          rw [if_neg hstored, decide_eq_false hnewer]
          rfl
  · simp only [applyChange, exec_get_bind]
    by_cases hold : ((db.rows.rows.find? (hits ns collection id)).map rowToRecord).any
        fun r => decide (version ≤ r.version)
    · rw [if_pos hold]
      rcases data with _ | data <;> rfl
    · rw [if_neg hold]
      rcases data with _ | data <;> rfl

end LifeEngine.Sync
