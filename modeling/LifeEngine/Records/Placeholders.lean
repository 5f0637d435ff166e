import LifeEngine.Records.Dialects

/-!
# Placeholders

The builders collect fragments of text and values in two lists.  SQLite pairs a value with a
placeholder by the order in which these stand in the text, PostgreSQL by their numbers.
-/

namespace LifeEngine.Records

open Support

/-- A piece of a statement. SQLite writes `?` for every parameter. -/
inductive Piece where
  | raw (text : String)
  | param (n : Nat)

/-- The parameters, from left to right. -/
def params (sql : List Piece) : List Nat :=
  sql.filterMap fun
    | .raw _ => none
    | .param n => some n

def joinWord : Connective → String
  | .and => " AND "
  | .or => " OR "

def ComparisonOp.word : ComparisonOp → String
  | gte => ">="
  | lte => "<="
  | gt => ">"
  | lt => "<"

def SqliteTest.words : SqliteTest → Nat → List Piece
  | equals path, n => [.raw ("json_extract(data, '$." ++ path ++ "') = "), .param n]
  | compares path op, n =>
    [.raw ("json_extract(data, '$." ++ path ++ "') " ++ op.word ++ " "), .param n]
  | .matches path, n =>
    [.raw ("json_extract(data, '$." ++ path ++ "') LIKE "), .param n, .raw " ESCAPE '\\'"]

def PgTest.words : PgTest → Nat → List Piece
  | equals key, n => [.raw ("data->>'" ++ key ++ "' = "), .param n]
  | compares key op, n =>
    [.raw ("CAST(data->>'" ++ key ++ "' AS NUMERIC) " ++ op.word ++ " CAST("), .param n,
      .raw " AS NUMERIC)"]
  | .matches key, n => [.raw ("data->>'" ++ key ++ "' ILIKE "), .param n, .raw " ESCAPE '\\'"]

section Render

variable {σ β : Type} (words : σ → Nat → List Piece)

mutual

def render : Clause (σ × Nat) → List Piece
  | .test t => words t.1 t.2
  | .group join parts =>
    .raw "(" :: ([Piece.raw (joinWord join)].intercalate (renderAll parts) ++ [.raw ")"])

def renderAll : List (Clause (σ × Nat)) → List (List Piece)
  | [] => []
  | part :: parts => render part :: renderAll parts

end

/-- `where_parts.join(" AND ")`. -/
def whereClause (s : Statement σ β) : List Piece :=
  [Piece.raw " AND "].intercalate
    ([.raw "plugin_id = ", .param 1] :: [.raw "collection = ", .param 2] ::
      renderAll words s.parts)

/-- The query for the total. -/
def countSql (s : Statement σ β) : List Piece :=
  .raw "SELECT COUNT(*) FROM plugin_data WHERE " :: whereClause words s

/-- The query for the records, with its `ORDER BY`. -/
def dataSql (order : String) (s : Statement σ β) : List Piece :=
  .raw ("SELECT id, plugin_id, collection, data, version, user_id, household_id, created_at, " ++
      "updated_at FROM plugin_data WHERE ") ::
    (whereClause words s ++ [.raw order, .raw " LIMIT ", .param s.paramIdx, .raw " OFFSET ",
      .param (s.paramIdx + 1)])

/-- The parameters of both queries stand in the text in the order of the values, each test with the
number of its own value. The limit and the offset come last, in the second query. -/
structure Paired (d : Dialect σ β) (pluginId collection : String) (filters : QueryFilters)
    (order : String) (limit offset : β) (s : Statement σ β) (binds : List β) : Prop where
  counted : params (countSql words s) = List.range' 1 s.binds.length
  inOrder : params (dataSql words order s) = List.range' 1 binds.length
  tests : Clause.testsOf s.parts =
    (Clause.testsOf (clauses filters)).mapIdx fun i c => (d.test c, 3 + i)
  values : binds = d.text pluginId :: d.text collection ::
    ((Clause.testsOf (clauses filters)).map d.bind ++ [limit, offset])

variable {words}

theorem params_append (sql sql' : List Piece) : params (sql ++ sql') = params sql ++ params sql' :=
  List.filterMap_append

theorem params_intercalate (sep : String) (parts : List (List Piece)) :
    params ([Piece.raw sep].intercalate parts) = parts.flatMap params := by
  induction parts with
  | nil => rfl
  | cons part parts ih =>
    rcases parts with _ | ⟨next, parts⟩
    · simp
    · rw [List.intercalate_cons_cons, params_append, params_append, ih]
      exact congrArg (· ++ _) (List.append_nil _)

mutual

theorem params_render (hwords : ∀ t n, params (words t n) = [n]) (c : Clause (σ × Nat)) :
    params (render words c) = (Clause.tests c).map Prod.snd := by
  cases c with
  | test t => exact hwords t.1 t.2
  | group join parts =>
    rw [render, Clause.tests, ← params_renderAll hwords parts, ← params_intercalate (joinWord join)]
    exact (params_append _ _).trans (List.append_nil _)

theorem params_renderAll (hwords : ∀ t n, params (words t n) = [n])
    (parts : List (Clause (σ × Nat))) :
    (renderAll words parts).flatMap params = (Clause.testsOf parts).map Prod.snd := by
  cases parts with
  | nil => rfl
  | cons part parts =>
    rw [renderAll, List.flatMap_cons, params_render hwords part, params_renderAll hwords parts,
      Clause.testsOf, List.map_append]

end

theorem map_snd_mapIdx {τ : Type} (test : τ → σ) (ts : List τ) (n : Nat) :
    (ts.mapIdx fun i t => (test t, n + i)).map Prod.snd = List.range' n ts.length := by
  induction ts generalizing n with
  | nil => rfl
  | cons t ts ih =>
    rw [List.mapIdx_cons, List.length_cons, List.range'_succ, ← ih (n + 1)]
    simp only [Nat.add_assoc, Nat.add_comm 1]
    rfl

theorem params_whereClause (hwords : ∀ t n, params (words t n) = [n]) (s : Statement σ β) :
    params (whereClause words s) = 1 :: 2 :: (Clause.testsOf s.parts).map Prod.snd := by
  rw [whereClause, params_intercalate, ← params_renderAll hwords]
  rfl

theorem params_dataSql (order : String) (s : Statement σ β) :
    params (dataSql words order s) =
      params (whereClause words s) ++ [s.paramIdx, s.paramIdx + 1] :=
  params_append _ _

theorem paired_statement (hwords : ∀ t n, params (words t n) = [n]) (d : Dialect σ β)
    (pluginId collection : String) (filters : QueryFilters) (order : String) (limit offset : β) :
    Paired words d pluginId collection filters order limit offset
      (d.statement pluginId collection filters)
      ((d.statement pluginId collection filters).binds ++ [limit, offset]) := by
  rw [Dialect.statement_eq]
  have htests := Clause.testsOf_numberAll d.test 3 (clauses filters)
  have hwhere := params_whereClause hwords (d.statement pluginId collection filters)
  rw [Dialect.statement_eq, htests, map_snd_mapIdx] at hwhere
  refine ⟨?_, ?_, htests, rfl⟩
  · refine hwhere.trans ?_
    rw [List.length_cons, List.length_cons, List.length_map]
    rfl
  · have hlast : ∀ k, List.range' 3 k ++ [3 + k, 3 + k + 1] = List.range' 3 (k + 2) := fun k => by
      rw [List.range'_1_concat, List.range'_1_concat, List.append_assoc]
      rfl
    rw [params_dataSql, hwhere, List.length_append, List.length_cons, List.length_cons,
      List.length_map, List.cons_append, List.cons_append, hlast]
    rfl

end Render

/-- SQLite gets the limit and the offset as numbers, PostgreSQL as texts. -/
theorem placeholders_paired {ν : Type} [LinearOrder ν] (texts : SqliteTexts) (env : PgEnv ν)
    (pluginId collection : String) (filters : QueryFilters) (order : String)
    (pagination : Pagination) :
    Paired SqliteTest.words (sqlite texts) pluginId collection filters order
        (.num (.int pagination.limit)) (.num (.int pagination.offset))
        ((sqlite texts).statement pluginId collection filters)
        (((sqlite texts).statement pluginId collection filters).binds ++
          [.num (.int pagination.limit), .num (.int pagination.offset)]) ∧
      Paired PgTest.words (postgres env) pluginId collection filters order
        (toString pagination.limit) (toString pagination.offset)
        ((postgres env).statement pluginId collection filters)
        (((postgres env).statement pluginId collection filters).binds ++
          [toString pagination.limit, toString pagination.offset]) := by
  constructor
  · exact paired_statement (fun t n => by cases t <;> rfl) _ _ _ _ _ _ _
  · exact paired_statement (fun t n => by cases t <;> rfl) _ _ _ _ _ _ _

end LifeEngine.Records
