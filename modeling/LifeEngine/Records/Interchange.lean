import LifeEngine.Records.Placeholders
import LifeEngine.Support.Parameters

/-!
# One storage in place of the other

Both storages run a statement for the total and another for a page.  The PostgreSQL
storage binds all values as texts, the limit and the offset among them, where PostgreSQL
expects an `int8`: the driver refuses the second statement, whatever the filters are.
-/

namespace LifeEngine.Records

open Support Storage

/-! ## Queries of the PostgreSQL storage -/

/-- The type of the parameter of a test; `->>` makes a text. -/
def PgTest.paramType : PgTest → PgType
  | equals _ => .text
  | compares _ _ => .numeric
  | .matches _ => .text

/-- The types of the parameters of `SELECT COUNT(*)`. -/
def countTypes (s : Statement PgTest String) : List PgType :=
  .text :: .text :: (Clause.testsOf s.parts).map fun t => t.1.paramType

/-- The same for a page, which ends in `LIMIT` and `OFFSET`. -/
def dataTypes (s : Statement PgTest String) : List PgType :=
  countTypes s ++ [.int8, .int8]

/-- Every value of `string_params` is a `String`. -/
def sendTexts (types : List PgType) : Except String Unit :=
  checkParams (types.map fun type => (.string, type))

variable {ν : Type} [LinearOrder ν] {env : PgEnv ν} {texts : SqliteTexts}

/-- `query` of the PostgreSQL storage. -/
def pgQuery (db : Database (postgres env)) (rows : Rows) (pluginId collection : String)
    (filters : QueryFilters) (sort : Option SortOptions) (pagination : Pagination) :
    Except String QueryResult := do
  let pagination := pagination.clamped
  let statement := (postgres env).statement pluginId collection filters
  sendTexts (countTypes statement)
  db.executes statement (rows.rows.map DataRow.data)
  let selected := selection rows pluginId collection (postgres env) filters
  validSortField sort
  sendTexts (dataTypes statement)
  let sorted := (db.order sort selected).1
  return ⟨((sorted.drop pagination.offset).take pagination.limit).map rowToRecord,
    selected.length, pagination.limit, pagination.offset⟩

theorem sendTexts_eq_ok_iff {types : List PgType} :
    sendTexts types = .ok () ↔ ∀ type ∈ types, type = .text := by
  rw [sendTexts, checkParams_eq_ok_iff, List.forall_mem_map]
  refine forall₂_congr fun type _ => ?_
  cases type <;> decide

/-! ## Both storages -/

/-- Both storages answer, with the same total, and a page of one returns a record if and only if
some page of the other does. -/
structure Interchangeable (sqliteDb : Database (sqlite texts)) (pgDb : Database (postgres env))
    (rows : Rows) (pluginId collection : String) (filters : QueryFilters)
    (pagination : Pagination) : Prop where
  total : ∃ result result',
    query (sqliteDb.env rows pluginId collection) rows pluginId collection filters none
      pagination = .ok result ∧
    pgQuery pgDb rows pluginId collection filters none pagination = .ok result' ∧
    result.total = result'.total
  returned : ∀ record, sqliteDb.Returns rows pluginId collection filters record ↔
    ∃ sort page result, pgQuery pgDb rows pluginId collection filters sort page = .ok result ∧
      record ∈ result.records

/-- PostgreSQL with integers for its numbers. -/
def integerEnv : PgEnv Int where
  jsonText _ := ""
  jsonbText _ := ""
  numeric s := okOr s.toInt? "invalid input syntax for type numeric"
  lower := List.map Char.toLower

/-- An open task and one that is done. -/
def twoTasks : Rows where
  rows := [⟨"t1", corePluginId, "tasks", .obj [("status", .str "open")], 1, 0, 0⟩,
    ⟨"t2", corePluginId, "tasks", .obj [("status", .str "done")], 1, 0, 0⟩]
  keys_nodup := by decide

end LifeEngine.Records
