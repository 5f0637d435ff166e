import LifeEngine.Households.Store
import LifeEngine.Records.Storage

/-!
# Record routes

The routes of the REST API and the resolvers of the GraphQL API through which users
list, read, create, update and delete records.  Both reach the storage of the core
plugin.
-/

namespace LifeEngine.Records

open Support Storage

/-- What the routes read of an `AuthIdentity`. -/
structure AuthIdentity where
  userId : Option String
  householdId : Option String

inductive BusEvent where
  | newRecords (collection : String) (count : Nat)
  | recordChanged (record : Record)
  | recordDeleted (recordId collection : String)
  deriving DecidableEq

/-- The answer, the rows behind it, and the events. -/
structure Outcome (ε α : Type) where
  reply : Except ε α
  storage : Option Rows
  events : List BusEvent

def corePluginId : String := "core"

/-- Remove the fields that name an owner. -/
def stripTags : Json → Json
  | .obj fields => .obj (JsonMap.remove (JsonMap.remove fields "_user_id") "_household_id")
  | data => data

def QueryFilters.hasFilters : QueryFilters → Bool
  | ⟨equality, comparison, textSearch, and, or⟩ =>
    !equality.isEmpty || !comparison.isEmpty || !textSearch.isEmpty || !and.isEmpty ||
      !or.isEmpty

/-- The events after a record was created or updated. -/
def changeEvents (record : Record) (collection : String) : List BusEvent :=
  [.newRecords collection 1, .recordChanged record]

/-! ## REST -/

namespace Rest

/-- The status and body of an error response. -/
structure ApiError where
  status : Nat
  code : String
  message : String
  deriving DecidableEq, Repr

def internalError (message : String) : ApiError :=
  ⟨500, "SYSTEM_INTERNAL_ERROR", message⟩

def unavailable : ApiError :=
  internalError "storage not available"

def notFound (collection id : String) : ApiError :=
  ⟨404, "DATA_NOT_FOUND", "record '" ++ id ++ "' not found in '" ++ collection ++ "'"⟩

structure ListParams where
  offset : Option Nat
  limit : Option Nat
  sortBy : Option String
  sortDir : Option String
  filter : Option String

def listPagination (params : ListParams) : Pagination :=
  Pagination.clamped ⟨params.limit.getD 50, params.offset.getD 0⟩

def listSort (params : ListParams) : Option SortOptions :=
  params.sortBy.map fun sortBy =>
    ⟨sortBy, if params.sortDir = some "desc" then .desc else .asc⟩

/-- The filters, read with `serde_json::from_str`. -/
def listFilters (parseFilters : String → Except String QueryFilters) (params : ListParams) :
    Except ApiError QueryFilters :=
  match params.filter with
  | some text => (parseFilters text).mapError fun e =>
    ⟨400, "DATA_VALIDATION_FAILED", "invalid filter: " ++ e⟩
  | none => .ok .default

def listRecords (env : SqlEnv) (parseFilters : String → Except String QueryFilters)
    (storage : Option Rows) (collection : String) (params : ListParams) :
    Except ApiError QueryResult := do
  let rows ← okOr storage unavailable
  let filters ← listFilters parseFilters params
  let result :=
    if filters.hasFilters then
      query env rows corePluginId collection filters (listSort params)
        (listPagination params)
    else list env rows corePluginId collection (listSort params) (listPagination params)
  result.mapError fun _ => internalError "failed to list records"

def getRecord (storage : Option Rows) (collection id : String) :
    Except ApiError Record := do
  let rows ← okOr storage unavailable
  okOr (get rows corePluginId collection id) (notFound collection id)

/-- Tag an object with the identity of its creator. -/
def injectTags (identity : Option AuthIdentity) (data : Json) : Json :=
  match identity, data with
  | some ⟨some uid, hid⟩, .obj fields =>
    let fields := JsonMap.insert "_user_id" (.str uid) fields
    match hid with
    | some hid => .obj (JsonMap.insert "_household_id" (.str hid) fields)
    | none => .obj fields
  | _, _ => data

def createRecord (draw : Draw) (storage : Option Rows) (collection : String)
    (identity : Option AuthIdentity) (body : Json) : Outcome ApiError Record :=
  match storage with
  | none => ⟨.error unavailable, none, []⟩
  | some rows =>
    match create draw rows corePluginId collection
      (injectTags identity (stripTags body)) with
    | (.ok record, rows) => ⟨.ok record, some rows, changeEvents record collection⟩
    | (.error _, rows) => ⟨.error (internalError "failed to create record"), some rows, []⟩

def updateError (collection id : String) : StorageError → ApiError
  | .versionMismatch => ⟨409, "DATA_VERSION_CONFLICT",
      "version conflict: record was modified by another request"⟩
  | .notFound => notFound collection id
  | .other _ => internalError "failed to update record"

def updateRecord (now : Timestamp) (storage : Option Rows) (collection id : String)
    (data : Json) (version : Int) : Outcome ApiError Record :=
  match storage with
  | none => ⟨.error unavailable, none, []⟩
  | some rows =>
    match update now rows corePluginId collection id (stripTags data) version with
    | (.ok record, rows) => ⟨.ok record, some rows, changeEvents record collection⟩
    | (.error e, rows) => ⟨.error (updateError collection id e), some rows, []⟩

def deleteRecord (storage : Option Rows) (collection id : String) :
    Outcome ApiError Unit :=
  match storage with
  | none => ⟨.error unavailable, none, []⟩
  | some rows =>
    match delete rows corePluginId collection id with
    | (true, rows) => ⟨.ok (), some rows, [.recordDeleted id collection]⟩
    | (false, rows) => ⟨.error (notFound collection id), some rows, []⟩

end Rest

/-! ## GraphQL -/

namespace Graphql

/-- The collections with fields of their own in `QueryRoot`. -/
inductive Collection where
  | tasks
  | contacts
  | events
  | emails
  | notes
  | files
  | credentials
  deriving DecidableEq, Repr

def Collection.name : Collection → String
  | tasks => "tasks"
  | contacts => "contacts"
  | events => "events"
  | emails => "emails"
  | notes => "notes"
  | files => "files"
  | credentials => "credentials"

structure EqualityFilterInput where
  field : String
  value : String

structure ComparisonFilterInput where
  field : String
  operator : String
  value : String

structure FilterInput where
  equality : List EqualityFilterInput
  comparison : List ComparisonFilterInput
  textSearch : List TextFilter

structure PaginationInput where
  limit : Option Nat
  offset : Option Nat

def comparisonOp (operator : String) : Option ComparisonOp :=
  if operator = "gte" then some .gte
  else if operator = "lte" then some .lte
  else if operator = "gt" then some .gt
  else if operator = "lt" then some .lt
  else none

/-- A filter value is JSON, or else a text. -/
def filterValue (parseJson : String → Except String Json) (text : String) : Json :=
  match parseJson text with
  | .ok value => value
  | .error _ => .str text

/-- Comparisons with an unknown operator are dropped. -/
def convertFilter (parseJson : String → Except String Json) (input : FilterInput) :
    QueryFilters :=
  ⟨input.equality.map fun f => ⟨f.field, filterValue parseJson f.value⟩,
    input.comparison.filterMap fun f => (comparisonOp f.operator).map fun op =>
      ⟨f.field, op, filterValue parseJson f.value⟩,
    input.textSearch, [], []⟩

def convertPagination (input : Option PaginationInput) : Pagination :=
  match input with
  | some input => ⟨min (input.limit.getD 50) 1000, input.offset.getD 0⟩
  | none => ⟨min 50 1000, 0⟩

/-- The answer without storage. -/
def unavailable : String := "storage not initialized"

/-- The records behind `query_collection`. -/
def collectionRecords (env : SqlEnv) (parseJson : String → Except String Json)
    (storage : Option Rows) (collection : String) (filter : Option FilterInput)
    (sort : Option SortOptions) (pagination : Option PaginationInput) :
    Except String QueryResult := do
  let rows ← okOr storage unavailable
  let pg := convertPagination pagination
  let filters := (filter.map (convertFilter parseJson)).getD .default
  let result :=
    if filters.hasFilters then query env rows corePluginId collection filters sort pg
    else list env rows corePluginId collection sort pg
  result.mapError fun e => "query failed: " ++ e

/-- The record behind `get_single`. -/
def singleRecord (storage : Option Rows) (collection id : String) :
    Except String (Option Record) := do
  let rows ← okOr storage unavailable
  return get rows corePluginId collection id

def invalidJson (e : String) : String :=
  "invalid JSON: " ++ e

/-- `create_record`.  The record is tagged with nobody. -/
def createRecord (parseJson : String → Except String Json) (draw : Draw)
    (storage : Option Rows) (collection input : String) : Outcome String Record :=
  match storage, parseJson input with
  | none, _ => ⟨.error unavailable, none, []⟩
  | some rows, .error e => ⟨.error (invalidJson e), some rows, []⟩
  | some rows, .ok data =>
    match create draw rows corePluginId collection (stripTags data) with
    | (.ok record, rows) => ⟨.ok record, some rows, changeEvents record collection⟩
    | (.error e, rows) => ⟨.error ("create failed: " ++ e.display), some rows, []⟩

def updateError (collection id : String) : StorageError → String
  | .versionMismatch => "version conflict: record was modified by another request"
  | .notFound => "record '" ++ id ++ "' not found in '" ++ collection ++ "'"
  | .other e => "update failed: " ++ e

def updateRecord (parseJson : String → Except String Json) (now : Timestamp)
    (storage : Option Rows) (collection id input : String) (version : Int) :
    Outcome String Record :=
  match storage, parseJson input with
  | none, _ => ⟨.error unavailable, none, []⟩
  | some rows, .error e => ⟨.error (invalidJson e), some rows, []⟩
  | some rows, .ok data =>
    match update now rows corePluginId collection id (stripTags data) version with
    | (.ok record, rows) => ⟨.ok record, some rows, changeEvents record collection⟩
    | (.error e, rows) => ⟨.error (updateError collection id e), some rows, []⟩

/-- `delete_record`: whether there was a record. -/
def deleteRecord (storage : Option Rows) (collection id : String) : Outcome String Bool :=
  match storage with
  | none => ⟨.error unavailable, none, []⟩
  | some rows =>
    match delete rows corePluginId collection id with
    | (true, rows) => ⟨.ok true, some rows, [.recordDeleted id collection]⟩
    | (false, rows) => ⟨.ok false, some rows, []⟩

end Graphql

end LifeEngine.Records
