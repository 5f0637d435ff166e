import LifeEngine.SqliteDocument.QuerySql
import LifeEngine.StorageContext.Context
import LifeEngine.Support.Fallible
import LifeEngine.Support.Numeral
import LifeEngine.Support.Table

/-!
# The document store on SQLite

`SqliteDocumentAdapter` keeps documents in the table `plugin_data`: one row for
each document, with the system fields in columns of their own and the rest as
JSON text.  An operation either succeeds and returns the new table, or fails and
leaves the table as it was.

A `data` column holds text.  What matters of it is what `serde_json` reads back: a
value, or its complaint about a text that is not JSON.
-/

namespace LifeEngine.SqliteDocument

open Support
open LifeEngine.StorageContext (StorageError)

/-! ## The table -/

structure DocumentRow where
  id : String
  pluginId : String
  collection : String
  data : Except String Json
  version : Int
  createdAt : String
  updatedAt : String
  deriving DecidableEq

/-- The table `plugin_data`, with its primary key. -/
abbrev Documents := Table String DocumentRow DocumentRow.id

/-- The execution of SQL, and the encoding of cursors. -/
structure AdapterEnv extends JsonEnv where
  defaultPluginId : String
  /-- The selected rows, or a failure. -/
  queryRows : String → List SqlValue → List DocumentRow →
    Except String (List DocumentRow)
  queryCount : String → List SqlValue → List DocumentRow → Except String Nat
  /-- URL-safe base64 without padding, of UTF-8 text. -/
  encodeBase64 : String → String
  decodeBase64 : String → Option String

/-- What an operation draws: a fresh identifier and the time. -/
structure Draw where
  uuid : Uuid
  now : String

/-! ## Helpers -/

def validateIdentifier (name : String) : Except StorageError Unit :=
  if name.isEmpty then
    .error (.validationFailed "collection name must not be empty" none)
  else if ¬ name.toList.all (fun c => c.isAlphanum || c == '_' || c == '-' || c == '.') then
    .error (.validationFailed ("invalid collection name: " ++ name) none)
  else .ok ()

/-- The stored value with the system fields of its row. -/
def rowToDocument (id : String) (data : Except String Json) (createdAt updatedAt : String) :
    Except StorageError Json :=
  match data with
  | .error e => .error (.internal ("corrupt JSON in database: " ++ e))
  | .ok (.obj fields) => .ok (.obj
      (JsonMap.insert "updated_at" (.str updatedAt)
        (JsonMap.insert "created_at" (.str createdAt)
          (JsonMap.insert "id" (.str id) fields))))
  | .ok value => .ok value

/-- The system fields are not part of the stored value. -/
def stripSystemFields : Json → Json
  | .obj fields => .obj
      (JsonMap.remove (JsonMap.remove (JsonMap.remove fields "id") "created_at")
        "updated_at")
  | value => value

def encodeCursor (env : AdapterEnv) (offset : Nat) : String :=
  env.encodeBase64 (toString offset)

def decodeCursor (env : AdapterEnv) (cursor : String) : Except StorageError Nat :=
  match (env.decodeBase64 cursor).bind fun s => parseUnsigned (2 ^ 64) s.toList with
  | some offset => .ok offset
  | none => .error (.validationFailed "invalid pagination cursor" none)

mutual

/-- `json_merge_patch`, of RFC 7386. -/
def jsonMergePatch (target : Json) : Json → Json
  | .obj patch =>
    .obj (mergeFields (match target with
      | .obj fields => fields
      | _ => []) patch)
  | .null => .null
  | .bool b => .bool b
  | .num n => .num n
  | .str s => .str s
  | .arr items => .arr items

/-- The entries of an object patch, in their order. -/
def mergeFields (target : JsonMap) : List (String × Json) → JsonMap
  | [] => target
  | (key, value) :: rest =>
    mergeFields
      (if value = .null then JsonMap.remove target key
       else JsonMap.insert key
        (jsonMergePatch ((JsonMap.get target key).getD .null) value) target) rest

end

/-- The condition `collection = ? AND id = ?`. -/
def isAt (collection id : String) (r : DocumentRow) : Bool :=
  r.collection = collection ∧ r.id = id

/-- `UPDATE .. SET data = ?, version = version + 1, updated_at = ?`. -/
def overwrite (now : String) (data : Json) (collection id : String) (t : Documents) :
    Documents :=
  t.updateWhere (isAt collection id)
    (fun r => { r with data := .ok data, version := r.version + 1, updatedAt := now })
    (fun _ => rfl)

/-! ## Operations -/

def get (t : Documents) (collection id : String) : Except StorageError Json := do
  validateIdentifier collection
  match t.rows.find? (isAt collection id) with
  | some r => rowToDocument r.id r.data r.createdAt r.updatedAt
  | none => .error (.notFound collection id)

/-- The document's own, if it is a text, or a fresh one. -/
def documentId (uuid : Uuid) (document : Json) : String :=
  ((document.get "id").bind Json.asStr).getD (uuidText uuid)

def newRow (env : AdapterEnv) (draw : Draw) (collection : String) (document : Json) :
    DocumentRow where
  id := documentId draw.uuid document
  pluginId := env.defaultPluginId
  collection := collection
  data := .ok (stripSystemFields document)
  version := 1
  createdAt := draw.now
  updatedAt := draw.now

/-- The primary key spans all collections: an identifier of another one passes the check and fails
the insertion. -/
def create (env : AdapterEnv) (draw : Draw) (t : Documents) (collection : String)
    (document : Json) : Except StorageError (Json × Documents) := do
  validateIdentifier collection
  let row := newRow env draw collection document
  if t.rows.any (isAt collection row.id) then
    .error (.alreadyExists collection row.id)
  else
    match t.insert row with
    | none => .error (.internal "UNIQUE constraint failed: plugin_data.id")
    | some t' => do
        let doc ← rowToDocument row.id row.data draw.now draw.now
        pure (doc, t')

/-- The body of `update`, and of one step of `batch_update`. -/
def updateRow (now : String) (t : Documents) (collection id : String) (document : Json) :
    Except StorageError (Json × Documents) :=
  match t.rows.find? (isAt collection id) with
  | none => .error (.notFound collection id)
  | some r => do
      let data := stripSystemFields document
      let doc ← rowToDocument id (.ok data) r.createdAt now
      pure (doc, overwrite now data collection id t)

def update (now : String) (t : Documents) (collection id : String) (document : Json) :
    Except StorageError (Json × Documents) := do
  validateIdentifier collection
  updateRow now t collection id document

def partialUpdate (now : String) (t : Documents) (collection id : String) (patch : Json) :
    Except StorageError (Json × Documents) := do
  validateIdentifier collection
  match t.rows.find? (isAt collection id) with
  | none => .error (.notFound collection id)
  | some r =>
    match r.data with
    | .error e => .error (.internal ("corrupt JSON in database: " ++ e))
    | .ok existing => do
        let data := stripSystemFields (jsonMergePatch existing patch)
        let doc ← rowToDocument id (.ok data) r.createdAt now
        pure (doc, overwrite now data collection id t)

def delete (t : Documents) (collection id : String) : Except StorageError Documents := do
  validateIdentifier collection
  if t.countWhere (isAt collection id) = 0 then .error (.notFound collection id)
  else pure (t.deleteWhere (isAt collection id))

/-- The projection keeps the field. -/
def kept (fields : Option (List String)) (key : String) : Bool :=
  match fields with
  | some names => key ∈ names
  | none => true

/-- Field projection: only objects have fields to choose from. -/
def project (fields : Option (List String)) (document : Json) : Json :=
  match fields, document with
  | some names, .obj entries => .obj (entries.filter fun entry => entry.1 ∈ names)
  | _, document => document

/-- One corrupt row fails the query. -/
def readRows (fields : Option (List String)) :
    List DocumentRow → Except StorageError (List Json)
  | [] => .ok []
  | r :: rest => do
      let doc ← rowToDocument r.id r.data r.createdAt r.updatedAt
      let docs ← readRows fields rest
      pure (project fields doc :: docs)

/-- What a query fetches before it reads the documents. -/
structure Page where
  totalCount : Nat
  limit : Nat
  offset : Nat
  rows : List DocumentRow
  deriving DecidableEq

def pageOffset (env : AdapterEnv) (pagination : Pagination) : Except StorageError Nat :=
  match pagination.cursor with
  | some cursor => decodeCursor env cursor
  | none => .ok 0

def fetchPage (env : AdapterEnv) (t : Documents) (descriptor : QueryDescriptor) :
    Except StorageError Page := do
  validateIdentifier descriptor.collection
  let binds := bindValues env.toJsonEnv descriptor.collection descriptor.filter
  let totalCount ← (env.queryCount (countSql env.toJsonEnv descriptor.filter) binds
    t.rows).mapError fun e => .internal ("count query failed: " ++ e)
  let offset ← pageOffset env descriptor.pagination
  let limit := min descriptor.pagination.limit 1000
  let rows ← (env.queryRows
    (querySql env.toJsonEnv descriptor.filter descriptor.sort limit offset) binds
    t.rows).mapError StorageError.internal
  pure { totalCount, limit, offset, rows }

def nextCursor (env : AdapterEnv) (page : Page) : Option String :=
  if page.offset + page.limit < page.totalCount then
    some (encodeCursor env (page.offset + page.limit))
  else none

def query (env : AdapterEnv) (t : Documents) (descriptor : QueryDescriptor) :
    Except StorageError DocumentList := do
  let page ← fetchPage env t descriptor
  let documents ← readRows descriptor.fields page.rows
  pure { documents, totalCount := page.totalCount, nextCursor := nextCursor env page }

def count (env : AdapterEnv) (t : Documents) (collection : String)
    (filter : Option FilterNode) : Except StorageError Nat := do
  validateIdentifier collection
  (env.queryCount (countSql env.toJsonEnv filter) (bindValues env.toJsonEnv collection filter)
    t.rows).mapError fun e => .internal ("count query failed: " ++ e)

/-! ## Batches

A batch runs in one transaction: it returns the table after its last element, or
fails with the first element that does. -/

def updateAll (now : String) (collection : String) :
    List (String × Json) → Documents → Except StorageError (List Json × Documents)
  | [], t => .ok ([], t)
  | (id, document) :: rest, t => do
      let (doc, t₁) ← updateRow now t collection id document
      let (docs, t₂) ← updateAll now collection rest t₁
      pure (doc :: docs, t₂)

def batchUpdate (now : String) (t : Documents) (collection : String)
    (updates : List (String × Json)) : Except StorageError (List Json × Documents) := do
  validateIdentifier collection
  updateAll now collection updates t

/-! ## A plain environment -/

/-- An adapter whose statements select by collection only. -/
def plainAdapter : AdapterEnv where
  toText _ := ""
  toDouble _ := 0
  defaultPluginId := "core"
  queryRows _ binds rows := .ok (rows.filter fun r => binds.head? = some (.text r.collection))
  queryCount _ binds rows :=
    .ok (rows.countP fun r => binds.head? = some (.text r.collection))
  encodeBase64 text := text
  decodeBase64 text := some text

end LifeEngine.SqliteDocument
