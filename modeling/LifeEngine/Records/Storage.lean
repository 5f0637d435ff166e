import LifeEngine.Storage.Sqlite

/-!
# The record storage of the core

`SqliteStorage` of the core application keeps the records of the API in the table
`plugin_data`, with texts as ids.  The evaluation of filters and the order of rows
are left to SQLite: whatever the order, it is one of the selected rows.
-/

namespace LifeEngine.Records

open Support Storage

inductive StorageError where
  | notFound
  | versionMismatch
  | other (message : String)
  deriving DecidableEq, Repr

def StorageError.display : StorageError → String
  | notFound => "record not found"
  | versionMismatch => "version mismatch"
  | other message => message

structure Record where
  id : String
  pluginId : String
  collection : String
  data : Json
  version : Int
  userId : Option String
  householdId : Option String
  createdAt : Timestamp
  updatedAt : Timestamp
  deriving DecidableEq

structure FieldFilter where
  field : String
  value : Json

inductive ComparisonOp where
  | gte
  | lte
  | gt
  | lt
  deriving DecidableEq, Repr

structure ComparisonFilter where
  field : String
  operator : ComparisonOp
  value : Json

structure TextFilter where
  field : String
  contains : String

/-- Conditions on fields, and groups of conditions. -/
inductive QueryFilters where
  | mk (equality : List FieldFilter) (comparison : List ComparisonFilter)
      (textSearch : List TextFilter) (and or : List QueryFilters)

def QueryFilters.default : QueryFilters := ⟨[], [], [], [], []⟩

structure SortOptions where
  sortBy : String
  sortDir : SortDirection

structure Pagination where
  limit : Nat
  offset : Nat

def Pagination.clamped (p : Pagination) : Pagination :=
  ⟨min p.limit 1000, p.offset⟩

structure QueryResult where
  records : List Record
  total : Nat
  limit : Nat
  offset : Nat

abbrev Rows := PluginData String

/-- Which rows meet the filters, and their order. -/
structure SqlEnv where
  meets : QueryFilters → Except String (DataRow String → Bool)
  order : Option SortOptions → (rows : List (DataRow String)) →
    { sorted : List (DataRow String) // sorted.Perm rows }

/-- No statement writes the columns of user and household. -/
def rowToRecord (r : DataRow String) : Record :=
  ⟨r.id, r.pluginId, r.collection, r.data, r.version, none, none, r.createdAt, r.updatedAt⟩

/-- The rows of a plugin's collection under an id. -/
def hits (pluginId collection id : String) (r : DataRow String) : Bool :=
  r.id = id ∧ r.pluginId = pluginId ∧ r.collection = collection

def get (rows : Rows) (pluginId collection id : String) : Option Record :=
  (rows.rows.find? (hits pluginId collection id)).map rowToRecord

/-- `create_with_id`, at the time that it draws. -/
def createWithId (now : Timestamp) (rows : Rows) (pluginId collection id : String)
    (data : Json) : Except StorageError Record × Rows :=
  let row : DataRow String := ⟨id, pluginId, collection, data, 1, now, now⟩
  match rows.insert row with
  | none => (.error (.other "UNIQUE constraint failed: plugin_data.id"), rows)
  | some rows' => (.ok (rowToRecord row), rows')

def create (draw : Draw) (rows : Rows) (pluginId collection : String) (data : Json) :
    Except StorageError Record × Rows :=
  createWithId draw.now rows pluginId collection (uuidText draw.uuid) data

def versionHits (pluginId collection id : String) (version : Int) (r : DataRow String) :
    Bool :=
  hits pluginId collection id r && r.version = version

def update (now : Timestamp) (rows : Rows) (pluginId collection id : String) (data : Json)
    (version : Int) : Except StorageError Record × Rows :=
  match rows.rows.find? (versionHits pluginId collection id version) with
  | none =>
    if rows.rows.any (hits pluginId collection id) then (.error .versionMismatch, rows)
    else (.error .notFound, rows)
  | some old =>
    let rewrite (r : DataRow String) : DataRow String :=
      { r with data := data, version := version + 1, updatedAt := now }
    (.ok (rowToRecord (rewrite old)),
      rows.updateWhere (versionHits pluginId collection id version) rewrite (fun _ => rfl))

/-- Whether there was a record, and the rows that are left. -/
def delete (rows : Rows) (pluginId collection id : String) : Bool × Rows :=
  (rows.rows.any (hits pluginId collection id),
    rows.deleteWhere (hits pluginId collection id))

def validSortField (sort : Option SortOptions) : Except String Unit :=
  match sort with
  | some opts =>
    ensure (opts.sortBy.toList.all (fun c => c.isAlphanum || c = '_'))
      ("invalid sort_by field name: " ++ opts.sortBy)
  | none => .ok ()

/-- The rows of a page, and how many there are in all. -/
def page (env : SqlEnv) (rows : Rows) (pluginId collection : String)
    (filters : QueryFilters) (sort : Option SortOptions) (pagination : Pagination) :
    Except String (List (DataRow String) × Nat) := do
  let meets ← env.meets filters
  let selected := rows.rows.filter fun r =>
    r.pluginId = pluginId ∧ r.collection = collection ∧ meets r
  validSortField sort
  let sorted := (env.order sort selected).1
  return ((sorted.drop pagination.offset).take pagination.limit, selected.length)

def query (env : SqlEnv) (rows : Rows) (pluginId collection : String)
    (filters : QueryFilters) (sort : Option SortOptions) (pagination : Pagination) :
    Except String QueryResult := do
  let pagination := pagination.clamped
  let (pageRows, total) ← page env rows pluginId collection filters sort pagination
  return ⟨pageRows.map rowToRecord, total, pagination.limit, pagination.offset⟩

def list (env : SqlEnv) (rows : Rows) (pluginId collection : String)
    (sort : Option SortOptions) (pagination : Pagination) : Except String QueryResult :=
  query env rows pluginId collection .default sort pagination

theorem query_eq (env : SqlEnv) (rows : Rows) (pluginId collection : String)
    (filters : QueryFilters) (sort : Option SortOptions) (pagination : Pagination) :
    query env rows pluginId collection filters sort pagination =
      (page env rows pluginId collection filters sort pagination.clamped).map fun found =>
        ⟨found.1.map rowToRecord, found.2, pagination.clamped.limit,
          pagination.clamped.offset⟩ := by
  simp only [query]
  cases page env rows pluginId collection filters sort pagination.clamped <;> rfl

theorem hits_iff {pluginId collection id : String} {r : DataRow String} :
    hits pluginId collection id r = true ↔
      r.id = id ∧ r.pluginId = pluginId ∧ r.collection = collection := by
  simp [hits]

/-! ## What the statements do -/

section Statements

variable {now : Timestamp} {rows : Rows} {pluginId collection id : String} {data : Json}
  {version : Int}

theorem createWithId_of_mem (h : id ∈ rows.keys) :
    createWithId now rows pluginId collection id data =
      (.error (.other "UNIQUE constraint failed: plugin_data.id"), rows) := by
  simp only [createWithId, Table.insert]
  rw [dif_pos h]

theorem createWithId_of_not_mem (h : id ∉ rows.keys) :
    ∃ rows' : Rows, rows'.rows =
        rows.rows ++ [⟨id, pluginId, collection, data, 1, now, now⟩] ∧
      createWithId now rows pluginId collection id data =
        (.ok ⟨id, pluginId, collection, data, 1, none, none, now, now⟩, rows') := by
  simp only [createWithId, Table.insert]
  rw [dif_neg h]
  exact ⟨_, rfl, rfl⟩

/-- The rows after an update, whether or not it hits one. -/
theorem snd_update :
    (update now rows pluginId collection id data version).2 =
      rows.updateWhere (versionHits pluginId collection id version)
        (fun r => { r with data := data, version := version + 1, updatedAt := now })
        (fun _ => rfl) := by
  unfold update
  cases hfind : rows.rows.find? (versionHits pluginId collection id version) with
  | some old => rfl
  | none =>
    rw [Table.updateWhere_eq_self]
    · dsimp only
      split <;> rfl
    · intro r hr
      simpa using List.find?_eq_none.mp hfind r hr

theorem mem_update {r' : DataRow String} :
    r' ∈ (update now rows pluginId collection id data version).2.rows ↔
      ∃ r ∈ rows.rows, (versionHits pluginId collection id version r = true ∧
          r' = { r with data := data, version := version + 1, updatedAt := now }) ∨
        (versionHits pluginId collection id version r = false ∧ r' = r) := by
  rw [snd_update, Table.mem_updateWhere]

end Statements

/-- A page holds only rows of the collection that is asked for. -/
theorem mem_page {env : SqlEnv} {rows : Rows} {pluginId collection : String}
    {filters : QueryFilters} {sort : Option SortOptions} {pagination : Pagination}
    {pageRows : List (DataRow String)} {total : Nat}
    (h : page env rows pluginId collection filters sort pagination = .ok (pageRows, total))
    {r : DataRow String} (hr : r ∈ pageRows) :
    r ∈ rows.rows ∧ r.pluginId = pluginId ∧ r.collection = collection := by
  obtain ⟨meets, -, h⟩ := bind_eq_ok_iff.mp h
  obtain ⟨_, -, h⟩ := bind_eq_ok_iff.mp h
  obtain ⟨rfl, -⟩ := Prod.mk.inj (Except.ok.inj h)
  have hsorted := List.mem_of_mem_drop (List.mem_of_mem_take hr)
  have hselected := (env.order sort _).2.mem_iff.mp hsorted
  rw [List.mem_filter] at hselected
  have hscope : r.pluginId = pluginId ∧ r.collection = collection ∧ meets r = true := by
    simpa using hselected.2
  exact ⟨hselected.1, hscope.1, hscope.2.1⟩

end LifeEngine.Records
