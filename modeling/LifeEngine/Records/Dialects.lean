import LifeEngine.Records.Filters
import LifeEngine.Types.Number

/-!
# The dialects of the two storages

SQLite reads a field by `json_extract`, which follows the dots of its path, and compares
values by their storage class.  PostgreSQL reads it by `->>`, which takes the name as one
key and returns a text; it compares texts, or the numbers that the texts write.
-/

namespace LifeEngine.Records

open Support Storage

/-- Whether an operator accepts the result of a comparison. -/
def ComparisonOp.accepts : ComparisonOp → Ordering → Bool
  | gte, o => o != .lt
  | lte, o => o != .gt
  | gt, o => o == .gt
  | lt, o => o == .lt

/-! ## SQLite -/

/-- The storage classes of SQLite, without blobs. -/
inductive SqlValue where
  | null
  | integer (n : Int)
  | real (q : ℚ)
  | text (s : String)

/-- The tests of `build_filter_sql`; the path follows `$.`. -/
inductive SqliteTest where
  | equals (path : String)
  | compares (path : String) (op : ComparisonOp)
  | matches (path : String)

/-- Texts that SQLite and the JSON writer make of values. -/
structure SqliteTexts where
  /-- `Value::to_string`. -/
  jsonText : Json → String
  /-- An array or object as `json_extract` returns it. -/
  extracted : Json → String
  realText : ℚ → String

/-- For stores in which no array, object or double is compared. -/
def SqliteTexts.plain : SqliteTexts :=
  ⟨fun _ => "", fun _ => "", fun _ => ""⟩

/-- Whether a number fits into an `i64`. -/
def fitsI64 (n : Int) : Bool :=
  -2 ^ 63 ≤ n ∧ n < 2 ^ 63

/-- `json_value_to_sql`, and what `json_extract` returns. -/
def jsonValueToSql (jsonText : Json → String) : Json → SqlValue
  | .null => .null
  | .bool b => .integer (if b then 1 else 0)
  | .num (.int n) => if fitsI64 n then .integer n else .real (JsonNumber.asF64 (.int n))
  | .num (.float bits) => .real (JsonNumber.asF64 (.float bits))
  | .str s => .text s
  | v => .text (jsonText v)

/-- The value at a path. An empty label is an error where it is reached. -/
def extract : List (List Char) → Json → Except String (Option Json)
  | [], v => .ok (some v)
  | label :: labels, v =>
    if label.isEmpty then .error "bad JSON path"
    else
      match v.get (String.ofList label) with
      | some v => extract labels v
      | none => .ok none

/-- `json_extract(data, '$.path')`. -/
def jsonExtract (texts : SqliteTexts) (path : String) (doc : Json) : Except String SqlValue := do
  match ← extract (path.toList.splitOn '.') doc with
  | some v => return jsonValueToSql texts.extracted v
  | none => return .null

/-- How two values compare. Numbers come before texts. -/
def SqlValue.compare : SqlValue → SqlValue → Option Ordering
  | null, _ => none
  | _, null => none
  | text a, text b => some (compareOfLessAndEq a b)
  | text _, _ => some .gt
  | _, text _ => some .lt
  | integer a, integer b => some (compareOfLessAndEq a b)
  | integer a, real b => some (compareOfLessAndEq (a : ℚ) b)
  | real a, integer b => some (compareOfLessAndEq a (b : ℚ))
  | real a, real b => some (compareOfLessAndEq a b)

/-- An operand of `LIKE`, which is read up to the first zero. -/
def SqlValue.operand (texts : SqliteTexts) : SqlValue → Option (List Char)
  | null => none
  | integer n => some (toString n).toList
  | real q => some (texts.realText q).toList
  | text s => some (s.toList.takeWhile (· ≠ '\x00'))

/-- `value LIKE pattern ESCAPE '\'`. -/
def SqlValue.like (texts : SqliteTexts) (value pattern : SqlValue) :
    Except String (Option Bool) :=
  match pattern.operand texts with
  | none => .ok none
  | some p =>
    if 50000 < (String.ofList p).utf8ByteSize then .error "LIKE or GLOB pattern too complex"
    else .ok ((value.operand texts).map (Support.like Char.toLower '\\' p))

def sqlite (texts : SqliteTexts) : Dialect SqliteTest Json where
  test
    | .equality f => .equals f.field
    | .comparison f => .compares f.field f.operator
    | .text f => .matches f.field
  bind
    | .equality f => f.value
    | .comparison f => f.value
    | .text f => .str (String.ofList (searchPattern f.contains))
  text := .str
  holds
    | .equals path, v, doc => do
        let found ← jsonExtract texts path doc
        return (found.compare (jsonValueToSql texts.jsonText v)).map (· == .eq)
    | .compares path op, v, doc => do
        let found ← jsonExtract texts path doc
        return (found.compare (jsonValueToSql texts.jsonText v)).map op.accepts
    | .matches path, v, doc => do
        let found ← jsonExtract texts path doc
        found.like texts (jsonValueToSql texts.jsonText v)

/-! ## PostgreSQL -/

/-- The tests that `build_pg_filter_clauses` writes. -/
inductive PgTest where
  | equals (key : String)
  | compares (key : String) (op : ComparisonOp)
  | matches (key : String)

/-- What PostgreSQL makes of texts, with `ν` for its numbers. -/
structure PgEnv (ν : Type) where
  /-- `Value::to_string`. -/
  jsonText : Json → String
  /-- What `->>` returns for doubles, arrays and objects. -/
  jsonbText : Json → String
  numeric : String → Except String ν
  lower : List Char → List Char

/-- The text of a value, with `other` for doubles, arrays and objects. -/
def valueText (other : Json → String) : Json → String
  | .str s => s
  | .num (.int n) => toString n
  | .bool b => if b then "true" else "false"
  | v => other v

/-- `json_value_to_string`. -/
def jsonValueToString (jsonText : Json → String) : Json → String
  | .null => ""
  | v => valueText jsonText v

/-- `data->>'key'`. -/
def textAt (jsonbText : Json → String) (key : String) (doc : Json) : Option String :=
  match doc.get key with
  | none => none
  | some .null => none
  | some v => some (valueText jsonbText v)

/-- A parameter is sent as a text without zeros. -/
def sendParam (param : String) : Except String String :=
  if '\x00' ∈ param.toList then .error "invalid byte sequence for encoding \"UTF8\": 0x00"
  else .ok param

section Postgres

variable {ν : Type} [LinearOrder ν]

/-- `CAST(left AS NUMERIC) op CAST(param AS NUMERIC)`. -/
def compareNumeric (env : PgEnv ν) (op : ComparisonOp) (left : Option String)
    (param : String) : Except String (Option Bool) := do
  let right ← env.numeric param
  match left with
  | none => return none
  | some s =>
    let left ← env.numeric s
    return some (op.accepts (compareOfLessAndEq left right))

def postgres (env : PgEnv ν) : Dialect PgTest String where
  test
    | .equality f => .equals f.field
    | .comparison f => .compares f.field f.operator
    | .text f => .matches f.field
  bind
    | .equality f => jsonValueToString env.jsonText f.value
    | .comparison f => jsonValueToString env.jsonText f.value
    | .text f => String.ofList (searchPattern f.contains)
  text := id
  holds
    | .equals key, param, doc => do
        let param ← sendParam param
        return (textAt env.jsonbText key doc).map (· == param)
    | .compares key op, param, doc => do
        let param ← sendParam param
        compareNumeric env op (textAt env.jsonbText key doc) param
    | .matches key, param, doc => do
        let param ← sendParam param
        return (textAt env.jsonbText key doc).map fun s =>
          like id '\\' (env.lower param.toList) (env.lower s.toList)

end Postgres

end LifeEngine.Records
