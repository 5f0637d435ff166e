import LifeEngine.Types.Query
import Mathlib.Algebra.Group.Int.Defs

/-!
# From filter trees to SQL

`WhereBuilder` turns a filter tree into a SQL expression with numbered
placeholders and collects the values that are bound to them.  Around it stand the
two statements that a query runs: one counts the matching documents, the other
fetches a page of them.
-/

namespace LifeEngine.SqliteDocument

/-- A value bound to a placeholder. -/
inductive SqlValue where
  | null
  | integer (value : Int)
  | real (bits : UInt64)
  | text (value : String)
  deriving DecidableEq, Repr

/-- Conversions of JSON values that belong to `serde_json`. -/
structure JsonEnv where
  /-- `Value::to_string`. -/
  toText : Json → String
  /-- `Number::as_f64` of an integer. -/
  toDouble : Int → UInt64

/-- `json_value_to_boxed_sql`. -/
def jsonValueToBoxedSql (env : JsonEnv) : Json → SqlValue
  | .str s => .text s
  | .num (.int i) =>
    if -(2 ^ 63) ≤ i ∧ i < 2 ^ 63 then .integer i else .real (env.toDouble i)
  | .num (.float bits) => .real bits
  | .bool b => .integer (if b then 1 else 0)
  | .null => .null
  | value => .text (env.toText value)

/-- The text of a value in a `LIKE` pattern. -/
def jsonValueToString (env : JsonEnv) : Json → String
  | .str s => s
  | value => env.toText value

/-! ## The `WHERE` clause -/

structure WhereBuilder where
  bindValues : List SqlValue
  paramIdx : Nat

namespace WhereBuilder

def new (startIdx : Nat) : WhereBuilder :=
  ⟨[], startIdx⟩

/-- Bind a value to the next placeholder. -/
def push (wb : WhereBuilder) (value : SqlValue) : WhereBuilder :=
  ⟨wb.bindValues ++ [value], wb.paramIdx + 1⟩

def placeholder (idx : Nat) : String :=
  "?" ++ toString idx

def extract (pathIdx : Nat) : String :=
  "json_extract(data, " ++ placeholder pathIdx ++ ")"

/-- Placeholders for the members of a list. -/
def placeholders (env : JsonEnv) : List Json → WhereBuilder → List String × WhereBuilder
  | [], wb => ([], wb)
  | value :: rest, wb =>
    let (texts, wb') := placeholders env rest (wb.push (jsonValueToBoxedSql env value))
    (placeholder wb.paramIdx :: texts, wb')

/-- `In` and `NotIn`, with the text for an operand that is empty or no list. -/
def buildMembership (env : JsonEnv) (pathIdx : Nat) (keyword otherwise : String)
    (value : Json) (wb : WhereBuilder) : String × WhereBuilder :=
  match value with
  | .arr [] => (otherwise, wb)
  | .arr items =>
    let (texts, wb') := placeholders env items wb
    (extract pathIdx ++ keyword ++ "(" ++ String.intercalate ", " texts ++ ")", wb')
  | _ => (otherwise, wb)

/-- The branches that compare the field with one bound value. -/
def buildBinary (pathIdx : Nat) (sqlOp : String) (value : SqlValue) (wb : WhereBuilder) :
    String × WhereBuilder :=
  (extract pathIdx ++ " " ++ sqlOp ++ " " ++ placeholder wb.paramIdx, wb.push value)

/-- `build_comparison`: the path of the field is bound first. -/
def buildComparison (env : JsonEnv) (field : String) (op : FilterOperator) (value : Json)
    (wb : WhereBuilder) : String × WhereBuilder :=
  let pathIdx := wb.paramIdx
  let wb := wb.push (.text ("$." ++ field))
  match op with
  | .exists_ => (extract pathIdx ++ " IS NOT NULL", wb)
  | .in_ => buildMembership env pathIdx " IN " "1=0" value wb
  | .notIn => buildMembership env pathIdx " NOT IN " "1=1" value wb
  | .contains =>
    buildBinary pathIdx "LIKE" (.text ("%" ++ jsonValueToString env value ++ "%")) wb
  | .startsWith =>
    buildBinary pathIdx "LIKE" (.text (jsonValueToString env value ++ "%")) wb
  | .eq => buildBinary pathIdx "=" (jsonValueToBoxedSql env value) wb
  | .ne => buildBinary pathIdx "!=" (jsonValueToBoxedSql env value) wb
  | .gt => buildBinary pathIdx ">" (jsonValueToBoxedSql env value) wb
  | .gte => buildBinary pathIdx ">=" (jsonValueToBoxedSql env value) wb
  | .lt => buildBinary pathIdx "<" (jsonValueToBoxedSql env value) wb
  | .lte => buildBinary pathIdx "<=" (jsonValueToBoxedSql env value) wb

mutual

def build (env : JsonEnv) : FilterNode → WhereBuilder → String × WhereBuilder
  | .and children, wb =>
    if children.isEmpty then ("1=1", wb)
    else
      let (parts, wb') := buildAll env children wb
      ("(" ++ String.intercalate " AND " parts ++ ")", wb')
  | .or children, wb =>
    if children.isEmpty then ("1=0", wb)
    else
      let (parts, wb') := buildAll env children wb
      ("(" ++ String.intercalate " OR " parts ++ ")", wb')
  | .not child, wb =>
    let (inner, wb') := build env child wb
    ("NOT (" ++ inner ++ ")", wb')
  | .comparison field operator value, wb => buildComparison env field operator value wb

def buildAll (env : JsonEnv) : List FilterNode → WhereBuilder → List String × WhereBuilder
  | [], wb => ([], wb)
  | child :: rest, wb =>
    let (part, wb₁) := build env child wb
    let (parts, wb₂) := buildAll env rest wb₁
    (part :: parts, wb₂)

end

end WhereBuilder

/-! ## The statements -/

def selectSql : String :=
  "SELECT id, data, created_at, updated_at FROM plugin_data WHERE collection = ?1"

def selectCountSql : String :=
  "SELECT COUNT(*) FROM plugin_data WHERE collection = ?1"

/-- What the filter adds to both statements. -/
def filterSql (env : JsonEnv) : Option FilterNode → String
  | none => ""
  | some filter => " AND " ++ (WhereBuilder.build env filter (WhereBuilder.new 2)).1

/-- The values bound to the placeholders of both statements. -/
def bindValues (env : JsonEnv) (collection : String) : Option FilterNode → List SqlValue
  | none => [.text collection]
  | some filter => .text collection ::
      (WhereBuilder.build env filter (WhereBuilder.new 2)).2.bindValues

def countSql (env : JsonEnv) (filter : Option FilterNode) : String :=
  selectCountSql ++ filterSql env filter

def directionSql : SortDirection → String
  | .asc => "ASC"
  | .desc => "DESC"

/-- The field name stands inside a string literal. -/
def sortSql (s : SortField) : String :=
  "json_extract(data, '$." ++ s.field ++ "') " ++ directionSql s.direction

def orderSql (sort : List SortField) : String :=
  if sort.isEmpty then "" else " ORDER BY " ++ String.intercalate ", " (sort.map sortSql)

def pageSql (limit offset : Nat) : String :=
  " LIMIT " ++ toString limit ++ " OFFSET " ++ toString offset

/-- The statement that `query` prepares for a page. -/
def querySql (env : JsonEnv) (filter : Option FilterNode) (sort : List SortField)
    (limit offset : Nat) : String :=
  selectSql ++ filterSql env filter ++ orderSql sort ++ pageSql limit offset

end LifeEngine.SqliteDocument
