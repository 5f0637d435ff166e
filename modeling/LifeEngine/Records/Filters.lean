import LifeEngine.Records.Routes
import LifeEngine.Support.Like
import LifeEngine.Support.SqlLogic
import LifeEngine.Support.Text

/-!
# Filters as conditions of a statement

`build_filter_sql` of the SQLite storage and `build_pg_filter_clauses` of the PostgreSQL
storage walk through the same tree in the same order, and differ in how they word a
condition and in the value that they bind to it.  Both pass over a condition whose field
name they do not like.
-/

namespace LifeEngine.Records

open Support Storage

inductive Condition where
  | equality (f : FieldFilter)
  | comparison (f : ComparisonFilter)
  | text (f : TextFilter)

def Condition.field : Condition → String
  | equality f => f.field
  | comparison f => f.field
  | text f => f.field

/-- The names that `validate_field_name` lets through. -/
def validFieldName (field : String) : Bool :=
  !field.isEmpty && field.toList.all fun c => c.isAlphanum || c = '_' || c = '.'

/-- Whether the builders word a condition. -/
def Condition.named (c : Condition) : Bool :=
  validFieldName c.field

/-! ## Search terms -/

/-- `escape_like`. -/
def escapeLike (value : List Char) : List Char :=
  replaceChar '_' ['\\', '_'] (replaceChar '%' ['\\', '%'] (replaceChar '\\' ['\\', '\\'] value))

/-- The pattern of a text search. -/
def searchPattern (contains : String) : List Char :=
  '%' :: (escapeLike contains.toList ++ ['%'])

/-! ## Statements -/

/-- A language of tests: how a condition is worded, the value that is bound to it, and what it says
about a document. -/
structure Dialect (σ β : Type) where
  test : Condition → σ
  bind : Condition → β
  text : String → β
  holds : σ → β → Json → Except String (Option Bool)

/-- The condition and its parameters. SQLite numbers them from left to right, PostgreSQL as they are
written. -/
structure Statement (σ β : Type) where
  parts : List (Clause (σ × Nat))
  binds : List β
  paramIdx : Nat

section Build

variable {σ β : Type} (d : Dialect σ β)

def pushCondition (s : Statement σ β) (c : Condition) : Statement σ β :=
  if c.named then
    ⟨s.parts ++ [.test (d.test c, s.paramIdx)], s.binds ++ [d.bind c], s.paramIdx + 1⟩
  else s

def conditions (equality : List FieldFilter) (comparison : List ComparisonFilter)
    (textSearch : List TextFilter) : List Condition :=
  equality.map .equality ++ comparison.map .comparison ++ textSearch.map .text

mutual

/-- `build_filter_sql` and `build_pg_filter_clauses`. -/
def buildFilterSql : QueryFilters → Statement σ β → Statement σ β
  | ⟨equality, comparison, textSearch, and, or⟩, s =>
    let s := (conditions equality comparison textSearch).foldl (pushCondition d) s
    let s := buildGroups .and and s
    buildGroups .or or s

/-- The groups of one kind, each joined by its own connective. -/
def buildGroups (join : Connective) : List QueryFilters → Statement σ β → Statement σ β
  | [], s => s
  | group :: groups, s =>
    let inner := buildFilterSql group { s with parts := [] }
    if inner.parts.isEmpty then buildGroups join groups { inner with parts := s.parts }
    else
      buildGroups join groups { inner with parts := s.parts ++ [.group join inner.parts] }

end

/-- The statement of a query, after its first two parameters. -/
def Dialect.statement (pluginId collection : String) (filters : QueryFilters) :
    Statement σ β :=
  buildFilterSql d filters ⟨[], [d.text pluginId, d.text collection], 3⟩

end Build

/-- A failed test is unknown: it selects no row. -/
def settle : Except String (Option Bool) → Option Bool
  | .ok value => value
  | .error _ => none

namespace Statement

variable {σ β : Type}

/-- What a test says, with the parameter that it names. -/
def testOn (d : Dialect σ β) (s : Statement σ β) (doc : Json) (t : σ × Nat) :
    Except String (Option Bool) :=
  match s.binds[t.2 - 1]? with
  | some value => d.holds t.1 value doc
  | none => .error "missing parameter"

def meets (d : Dialect σ β) (s : Statement σ β) (doc : Json) : Bool :=
  Clause.evalGroup (fun t => settle (s.testOn d doc t)) .and s.parts = some true

end Statement

open Statement

/-! ## Meaning of the filters -/

mutual

/-- The conditions of the filters that make it into a statement. -/
def clauses : QueryFilters → List (Clause Condition)
  | ⟨equality, comparison, textSearch, and, or⟩ =>
    ((conditions equality comparison textSearch).filter Condition.named).map .test ++
      (groupClauses .and and ++ groupClauses .or or)

def groupClauses (join : Connective) : List QueryFilters → List (Clause Condition)
  | [] => []
  | group :: groups =>
    (if (clauses group).isEmpty then [] else [.group join (clauses group)]) ++
      groupClauses join groups

end

/-- The statement with further conditions. -/
def Statement.extend {σ β : Type} (d : Dialect σ β) (s : Statement σ β)
    (parts : List (Clause Condition)) : Statement σ β :=
  ⟨s.parts ++ Clause.numberAll d.test s.paramIdx parts,
    s.binds ++ (Clause.testsOf parts).map d.bind,
    s.paramIdx + (Clause.testsOf parts).length⟩

section Correctness

variable {σ β : Type} {d : Dialect σ β}

theorem Statement.extend_nil (s : Statement σ β) : s.extend d [] = s := by
  simp [extend, Clause.numberAll, Clause.testsOf]

theorem Statement.extend_append (s : Statement σ β) (parts parts' : List (Clause Condition)) :
    s.extend d (parts ++ parts') = (s.extend d parts).extend d parts' := by
  simp [extend, Clause.numberAll_append, Clause.testsOf_append, Nat.add_assoc]

theorem foldl_pushCondition (conds : List Condition) (s : Statement σ β) :
    conds.foldl (pushCondition d) s = s.extend d ((conds.filter Condition.named).map .test) := by
  induction conds generalizing s with
  | nil => exact s.extend_nil.symm
  | cons c conds ih =>
    rw [List.foldl_cons, ih]
    by_cases hc : c.named = true
    · rw [List.filter_cons_of_pos hc, List.map_cons, ← List.singleton_append, extend_append]
      rw [pushCondition, if_pos hc]
      rfl
    · rw [List.filter_cons_of_neg hc, pushCondition, if_neg hc]

mutual

theorem buildFilterSql_eq (filters : QueryFilters) (s : Statement σ β) :
    buildFilterSql d filters s = s.extend d (clauses filters) := by
  obtain ⟨equality, comparison, textSearch, and, or⟩ := filters
  rw [buildFilterSql, clauses, extend_append, extend_append,
    foldl_pushCondition, buildGroups_eq .and and, buildGroups_eq .or or]

theorem buildGroups_eq (join : Connective) (groups : List QueryFilters)
    (s : Statement σ β) :
    buildGroups d join groups s = s.extend d (groupClauses join groups) := by
  cases groups with
  | nil => rw [buildGroups, groupClauses, extend_nil]
  | cons group groups =>
    rw [buildGroups, groupClauses, extend_append, ← buildGroups_eq join groups]
    have hparts : (extend d { s with parts := [] } (clauses group)).parts =
        Clause.numberAll d.test s.paramIdx (clauses group) := List.nil_append _
    simp only [buildFilterSql_eq group, hparts, Clause.isEmpty_numberAll]
    by_cases hempty : (clauses group).isEmpty = true
    · rw [if_pos hempty, if_pos hempty, List.isEmpty_iff.mp hempty]
      simp only [extend_nil]
    · rw [if_neg hempty, if_neg hempty]
      simp [extend, Clause.numberAll, Clause.number, Clause.testsOf, Clause.tests]

end

end Correctness

/-! ## What a statement selects -/

namespace Dialect

variable {σ β : Type} (d : Dialect σ β)

/-- What a condition says about a document. -/
def holdsOn (doc : Json) (c : Condition) : Except String (Option Bool) :=
  d.holds (d.test c) (d.bind c) doc

/-- The documents that the filters select. -/
def Selects (filters : QueryFilters) (doc : Json) : Prop :=
  Clause.evalGroup (fun c => settle (d.holdsOn doc c)) .and (clauses filters) = some true

theorem statement_eq (pluginId collection : String) (filters : QueryFilters) :
    d.statement pluginId collection filters =
      ⟨Clause.numberAll d.test 3 (clauses filters),
        d.text pluginId :: d.text collection :: (Clause.testsOf (clauses filters)).map d.bind,
        3 + (Clause.testsOf (clauses filters)).length⟩ := by
  rw [statement, buildFilterSql_eq]
  rfl

variable {d}

variable {pluginId collection : String} {filters : QueryFilters}

theorem meets_statement_iff {doc : Json} :
    (d.statement pluginId collection filters).meets d doc = true ↔ d.Selects filters doc := by
  have hparts : (d.statement pluginId collection filters).parts =
      Clause.numberAll d.test 3 (clauses filters) := by
    rw [statement_eq]
  rw [meets, decide_eq_true_iff, Selects, hparts, Clause.evalGroup_numberAll]
  -- every test finds the value of its own condition
  intro i c hc
  have hnumber : 3 + i - 1 = i + 1 + 1 := by omega
  refine congrArg settle ?_
  rw [testOn, statement_eq]
  simp only [hnumber, List.getElem?_cons_succ, List.getElem?_map, hc]
  rfl

end Dialect

/-! ## Databases -/

/-- A database: whether a statement fails on some document, and the order of the rows. -/
structure Database {σ β : Type} (d : Dialect σ β) where
  executes : Statement σ β → List Json → Except String Unit
  order : Option SortOptions → (rows : List (DataRow String)) →
    { sorted : List (DataRow String) // sorted.Perm rows }

theorem perm_self_rows (rows : List (DataRow String)) : rows.Perm rows := List.Perm.refl rows

/-- Executes every statement that reaches it, and keeps the order of rows. -/
def Database.lenient {σ β : Type} (d : Dialect σ β) : Database d where
  executes _ _ := .ok ()
  order _ rows := ⟨rows, perm_self_rows rows⟩

/-- The database behind the records of a plugin's collection. -/
def Database.env {σ β : Type} {d : Dialect σ β} (db : Database d) (rows : Rows)
    (pluginId collection : String) : SqlEnv where
  meets filters := do
    let s := d.statement pluginId collection filters
    db.executes s (rows.rows.map DataRow.data)
    return fun r => s.meets d r.data
  order := db.order

/-! ## Answers -/

section Answers

variable {σ β : Type} {d : Dialect σ β} (db : Database d) (rows : Rows)
  (pluginId collection : String)

/-- The records of a collection that the filters select. -/
def Matched (d : Dialect σ β) (filters : QueryFilters) (record : Record) : Prop :=
  ∃ r ∈ rows.rows, (r.pluginId = pluginId ∧ r.collection = collection) ∧
    d.Selects filters r.data ∧ rowToRecord r = record

/-- The database executes the statement of the filters. -/
def Database.Runs (filters : QueryFilters) : Prop :=
  db.executes (d.statement pluginId collection filters) (rows.rows.map DataRow.data) = .ok ()

/-- The rows behind an answer. -/
def selection (d : Dialect σ β) (filters : QueryFilters) : List (DataRow String) :=
  rows.rows.filter fun r => r.pluginId = pluginId ∧ r.collection = collection ∧
    (d.statement pluginId collection filters).meets d r.data

variable {db rows pluginId collection} {filters : QueryFilters}
  {sort : Option SortOptions} {pagination : Pagination}

theorem mem_selection {r : DataRow String} :
    r ∈ selection rows pluginId collection d filters ↔
      r ∈ rows.rows ∧ (r.pluginId = pluginId ∧ r.collection = collection) ∧
        d.Selects filters r.data := by
  simp [selection, Dialect.meets_statement_iff, and_assoc]

theorem query_of_runs (hruns : db.Runs rows pluginId collection filters) :
    query (db.env rows pluginId collection) rows pluginId collection filters sort pagination =
      (validSortField sort).map fun _ =>
        ⟨(((db.order sort (selection rows pluginId collection d filters)).1.drop
            pagination.offset).take pagination.clamped.limit).map rowToRecord,
          (selection rows pluginId collection d filters).length, pagination.clamped.limit,
          pagination.offset⟩ := by
  have hmeets : (db.env rows pluginId collection).meets filters =
      .ok fun r => (d.statement pluginId collection filters).meets d r.data := by
    simp only [Database.env]
    rw [hruns]
    rfl
  rw [query_eq, page, hmeets]
  rcases validSortField sort with e | _ <;> rfl

variable {record : Record}

theorem matched_of_mem_query {result : QueryResult}
    (h : query (db.env rows pluginId collection) rows pluginId collection filters sort
      pagination = .ok result)
    (hrecord : record ∈ result.records) :
    db.Runs rows pluginId collection filters ∧
      Matched rows pluginId collection d filters record := by
  obtain ⟨found, hfound, -⟩ := bind_eq_ok_iff.mp h
  obtain ⟨meets, hmeets, -⟩ := bind_eq_ok_iff.mp hfound
  obtain ⟨_, hruns : db.Runs rows pluginId collection filters, -⟩ := bind_eq_ok_iff.mp hmeets
  rw [query_of_runs hruns] at h
  obtain ⟨_, -, rfl⟩ := map_eq_ok_iff.mp h
  obtain ⟨r, hr, rfl⟩ := List.mem_map.mp hrecord
  have hsorted := List.mem_of_mem_drop (List.mem_of_mem_take hr)
  obtain ⟨hrow, hscope, hselects⟩ := mem_selection.mp ((db.order sort _).2.mem_iff.mp hsorted)
  exact ⟨hruns, r, hrow, hscope, hselects, rfl⟩

/-- Every selected record is on a page of one record. -/
theorem exists_query_of_matched (hruns : db.Runs rows pluginId collection filters)
    (h : Matched rows pluginId collection d filters record) :
    ∃ offset result, query (db.env rows pluginId collection) rows pluginId collection
      filters none ⟨1, offset⟩ = .ok result ∧ record ∈ result.records := by
  obtain ⟨r, hrow, hscope, hselects, rfl⟩ := h
  have hsorted : r ∈ (db.order none (selection rows pluginId collection d filters)).1 :=
    (db.order none _).2.mem_iff.mpr (mem_selection.mpr ⟨hrow, hscope, hselects⟩)
  obtain ⟨offset, hoffset, hget⟩ := List.mem_iff_getElem.mp hsorted
  refine ⟨offset, _, query_of_runs hruns, List.mem_map.mpr ⟨r, ?_, rfl⟩⟩
  rw [List.drop_eq_getElem_cons hoffset, hget]
  simp [Pagination.clamped]

variable (db rows pluginId collection filters) in
/-- A query by the filters returns the record on some page. -/
def Database.Returns (record : Record) : Prop :=
  ∃ sort pagination result, query (db.env rows pluginId collection) rows pluginId collection
    filters sort pagination = .ok result ∧ record ∈ result.records

end Answers

end LifeEngine.Records
