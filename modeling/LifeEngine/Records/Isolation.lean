import LifeEngine.Records.Routes
import LifeEngine.Support.Machine

/-!
# Isolation of users

Household operations and record requests of any users, one after the other.  The
main result says exactly when all accesses of a run are ones that
`check_record_access` allows: when the users ask for nothing else.  No route
consults the rule.
-/

namespace LifeEngine.Records

open Support Storage Households Graphql

/-- The owner and the household that a record was created with. -/
structure Tags where
  owner : Option String
  household : Option String
  deriving DecidableEq

def dataTags (data : Json) : Tags :=
  ⟨(data.get "_user_id").bind Json.asStr, (data.get "_household_id").bind Json.asStr⟩

/-- The households, the records, and the tags of their creation. -/
structure ServerState where
  households : HouseholdStore
  storage : Option Rows
  tags : String → Tags

/-- What the server takes from other crates. -/
structure ServerEnv extends SqlEnv where
  parseFilters : String → Except String QueryFilters
  parseJson : String → Except String Json

/-! ## Requests -/

inductive HouseholdOp where
  | create (uuid : Uuid) (now : Timestamp) (name adminUserId adminDisplayName : String)
  | invite (uuid : Uuid) (now : Timestamp) (householdId email : String)
      (role : HouseholdRole) (invitedBy : String)
  | accept (now : Timestamp) (inviteId userId displayName : String)
  | updateRole (now : Timestamp) (userId : String) (role : HouseholdRole)
  | share (now : Timestamp) (householdId collection : String)

inductive RestOp where
  | list (collection : String) (params : Rest.ListParams)
  | get (collection id : String)
  | create (draw : Draw) (collection : String) (body : Json)
  | update (now : Timestamp) (collection id : String) (data : Json) (version : Int)
  | delete (collection id : String)

inductive GraphqlOp where
  | many (collection : Graphql.Collection) (filter : Option Graphql.FilterInput)
      (sort : Option SortOptions) (pagination : Option Graphql.PaginationInput)
  | one (collection : Graphql.Collection) (id : String)
  | create (draw : Draw) (collection input : String)
  | update (now : Timestamp) (collection id input : String) (version : Int)
  | delete (collection id : String)

/-- A household operation, or a request of a user. -/
inductive Request where
  | household (op : HouseholdOp)
  | rest (identity : Option AuthIdentity) (op : RestOp)
  | graphql (identity : Option AuthIdentity) (op : GraphqlOp)

def Request.user : Request → Option String
  | household _ => none
  | rest identity _ | graphql identity _ => identity.bind AuthIdentity.userId

/-- A record that a request reads or writes. -/
structure Access where
  id : String
  collection : String
  write : Bool
  deriving DecidableEq

def Record.access (r : Record) (write : Bool) : Access :=
  ⟨r.id, r.collection, write⟩

/-- The access to the record of a successful answer. -/
def answered {ε : Type} (write : Bool) (reply : Except ε Record) : List Access :=
  match reply with
  | .ok record => [record.access write]
  | .error _ => []

def householdStep (store : HouseholdStore) : HouseholdOp → HouseholdStore
  | .create uuid now name adminUserId adminDisplayName =>
    (store.createHousehold uuid now name adminUserId adminDisplayName).2
  | .invite uuid now householdId email role invitedBy =>
    (store.createInvite uuid now householdId email role invitedBy).2
  | .accept now inviteId userId displayName =>
    (store.acceptInvite now inviteId userId displayName).2
  | .updateRole now userId role => (store.updateMemberRole now userId role).2
  | .share now householdId collection =>
    (store.addSharedCollection now householdId collection).2

/-- A new record keeps the tags of its data. -/
def ServerState.afterCreate {ε : Type} (s : ServerState) (outcome : Outcome ε Record) :
    ServerState :=
  match outcome.reply with
  | .ok record => { s with
      storage := outcome.storage
      tags := Function.update s.tags record.id (dataTags record.data) }
  | .error _ => { s with storage := outcome.storage }

section Server

variable (env : ServerEnv) (s : ServerState)

def restStep (identity : Option AuthIdentity) : RestOp → ServerState
  | .list _ _ | .get _ _ => s
  | .create draw collection body =>
    s.afterCreate (Rest.createRecord draw s.storage collection identity body)
  | .update now collection id data version =>
    { s with storage := (Rest.updateRecord now s.storage collection id data version).storage }
  | .delete collection id =>
    { s with storage := (Rest.deleteRecord s.storage collection id).storage }

def graphqlStep : GraphqlOp → ServerState
  | .many _ _ _ _ | .one _ _ => s
  | .create draw collection input =>
    s.afterCreate (createRecord env.parseJson draw s.storage collection input)
  | .update now collection id input version =>
    { s with storage := (updateRecord env.parseJson now s.storage collection id
        input version).storage }
  | .delete collection id =>
    { s with storage := (deleteRecord s.storage collection id).storage }

def serverStep : Request → ServerState
  | .household op => { s with households := householdStep s.households op }
  | .rest identity op => restStep s identity op
  | .graphql _ op => graphqlStep env s op

/-- What a successful answer shows or a successful write changes. -/
def restAccesses : RestOp → List Access
  | .list collection params =>
    match Rest.listRecords env.toSqlEnv env.parseFilters s.storage collection params with
    | .ok result => result.records.map (·.access false)
    | .error _ => []
  | .get collection id => answered false (Rest.getRecord s.storage collection id)
  | .create _ _ _ => []
  | .update now collection id data version =>
    answered true (Rest.updateRecord now s.storage collection id data version).reply
  | .delete collection id =>
    match (Rest.deleteRecord s.storage collection id).reply with
    | .ok () => [⟨id, collection, true⟩]
    | .error _ => []

def graphqlAccesses : GraphqlOp → List Access
  | .many collection filter sort pagination =>
    match collectionRecords env.toSqlEnv env.parseJson s.storage collection.name
      filter sort pagination with
    | .ok result => result.records.map (·.access false)
    | .error _ => []
  | .one collection id =>
    match singleRecord s.storage collection.name id with
    | .ok (some record) => [record.access false]
    | .ok none | .error _ => []
  | .create _ _ _ => []
  | .update now collection id input version =>
    answered true (updateRecord env.parseJson now s.storage collection id input
      version).reply
  | .delete collection id =>
    match (deleteRecord s.storage collection id).reply with
    | .ok true => [⟨id, collection, true⟩]
    | .ok false | .error _ => []

def accesses : Request → List Access
  | .household _ => []
  | .rest _ op => restAccesses env s op
  | .graphql _ op => graphqlAccesses env s op

/-! ## Addressed records -/

def storedWhere (p : DataRow String → Bool) : List (DataRow String) :=
  match s.storage with
  | some rows => rows.rows.filter p
  | none => []

/-- The rows on the page that a list request names. -/
def storedPage (collection : String) (filters : QueryFilters) (sort : Option SortOptions)
    (pagination : Pagination) : List (DataRow String) :=
  match s.storage with
  | some rows =>
    match page env.toSqlEnv rows corePluginId collection filters sort
      pagination.clamped with
    | .ok (pageRows, _) => pageRows
    | .error _ => []
  | none => []

/-- The stored records that a request names. -/
def addressed : Request → List (DataRow String)
  | .household _ | .rest _ (.create _ _ _) | .graphql _ (.create _ _ _) => []
  | .rest _ (.list collection params) =>
    match Rest.listFilters env.parseFilters params with
    | .ok filters => storedPage env s collection filters (Rest.listSort params)
        (Rest.listPagination params)
    | .error _ => []
  | .rest _ (.get collection id) | .rest _ (.delete collection id)
  | .graphql _ (.delete collection id) => storedWhere s (hits corePluginId collection id)
  | .rest _ (.update _ collection id _ version) =>
    storedWhere s (versionHits corePluginId collection id version)
  | .graphql _ (.many collection filter sort pagination) =>
    storedPage env s collection.name
      ((filter.map (convertFilter env.parseJson)).getD .default) sort
      (convertPagination pagination)
  | .graphql _ (.one collection id) =>
    storedWhere s (hits corePluginId collection.name id)
  | .graphql _ (.update _ collection id input version) =>
    match env.parseJson input with
    | .ok _ => storedWhere s (versionHits corePluginId collection id version)
    | .error _ => []

end Server

/-- Whether a request changes the records it names. -/
def Request.writes : Request → Bool
  | .household _ => false
  | .rest _ op =>
    match op with
    | .list _ _ | .get _ _ => false
    | .create _ _ _ | .update _ _ _ _ _ | .delete _ _ => true
  | .graphql _ op =>
    match op with
    | .many _ _ _ _ | .one _ _ => false
    | .create _ _ _ | .update _ _ _ _ _ | .delete _ _ => true

/-- `can_access_record`, with the tags of the record's creation. -/
def mayAccess (s : ServerState) (user id collection : String) (write : Bool) : Bool :=
  s.households.canAccessRecord user (s.tags id).owner (s.tags id).household collection write

/-- A successful request shows or changes only what is allowed to the user. -/
def StepIsolated (env : ServerEnv) (s : ServerState) (request : Request) : Prop :=
  ∀ user, request.user = some user → ∀ a ∈ accesses env s request,
    mayAccess s user a.id a.collection a.write = true

/-- The stored records that a request names are allowed to the user. -/
def AsksForOwn (env : ServerEnv) (s : ServerState) (request : Request) : Prop :=
  ∀ user, request.user = some user → ∀ r ∈ addressed env s request,
    mayAccess s user r.id r.collection request.writes = true

/-! ## What is accessed is what is addressed -/

def rowAccess (write : Bool) (r : DataRow String) : Access :=
  ⟨r.id, r.collection, write⟩

/-- Without filters, a query is the plain list. -/
theorem query_or_list (env : SqlEnv) (rows : Rows) (collection : String)
    (filters : QueryFilters) (sort : Option SortOptions) (pagination : Pagination) :
    (if filters.hasFilters then
      query env rows corePluginId collection filters sort pagination
    else list env rows corePluginId collection sort pagination) =
      query env rows corePluginId collection filters sort pagination := by
  obtain ⟨equality, comparison, textSearch, and, or⟩ := filters
  split
  · rfl
  · next hnone =>
    have hempty : equality = [] ∧ comparison = [] ∧ textSearch = [] ∧ and = [] ∧ or = [] := by
      simpa [QueryFilters.hasFilters, and_assoc] using hnone
    obtain ⟨rfl, rfl, rfl, rfl, rfl⟩ := hempty
    -- `list` is `query` with the default filters, which are these.
    rfl

theorem storedWhere_eq {s : ServerState} {p : DataRow String → Bool} {id : String}
    (hp : ∀ r, p r = true → r.id = id) :
    storedWhere s p = ((s.storage.bind fun rows => rows.rows.find? p).toList) := by
  unfold storedWhere
  cases s.storage with
  | none => rfl
  | some rows => exact rows.filter_eq_toList_find? hp

theorem id_of_hits {pluginId collection id : String} (r : DataRow String)
    (h : hits pluginId collection id r = true) : r.id = id :=
  (hits_iff.mp h).1

theorem id_of_versionHits {pluginId collection id : String} {version : Int}
    (r : DataRow String) (h : versionHits pluginId collection id version r = true) :
    r.id = id :=
  id_of_hits r (Bool.and_eq_true_iff.mp h).1

variable (env : ServerEnv) (s : ServerState)

/-- A deletion that finds a record accesses the one with the id. -/
theorem access_delete (rows : Rows) (collection id : String) :
    (if rows.rows.any (hits corePluginId collection id) then
      [(⟨id, collection, true⟩ : Access)] else []) =
      ((rows.rows.find? (hits corePluginId collection id)).toList).map (rowAccess true) := by
  cases hfind : rows.rows.find? (hits corePluginId collection id) with
  | none =>
    have hany : ¬ rows.rows.any (hits corePluginId collection id) = true := by
      simpa using hfind
    simp [hany]
  | some r =>
    have hr := List.find?_some hfind
    have hany : rows.rows.any (hits corePluginId collection id) = true :=
      List.any_eq_true.mpr ⟨r, List.mem_of_find?_eq_some hfind, hr⟩
    obtain ⟨hid, -, hcollection⟩ := hits_iff.mp hr
    simp [hany, rowAccess, hid, hcollection]

/-- The records of a successful query are those of the page. -/
theorem access_page (rows : Rows) (collection : String) (filters : QueryFilters)
    (sort : Option SortOptions) (pagination : Pagination) :
    (match query env.toSqlEnv rows corePluginId collection filters sort pagination with
      | .ok result => result.records.map (·.access false)
      | .error _ => []) =
      (match page env.toSqlEnv rows corePluginId collection filters sort
          pagination.clamped with
        | .ok (pageRows, _) => pageRows
        | .error _ => []).map (rowAccess false) := by
  rw [query_eq]
  cases page env.toSqlEnv rows corePluginId collection filters sort pagination.clamped with
  | error e => rfl
  | ok found => simp [Except.map, Record.access, rowToRecord, rowAccess]

theorem restAccesses_eq {rows : Rows} (hrows : s.storage = some rows)
    (identity : Option AuthIdentity) (op : RestOp) :
    restAccesses env s op =
      (addressed env s (.rest identity op)).map (rowAccess (Request.rest identity op).writes) := by
  cases op with
  | list collection params =>
    simp only [restAccesses, addressed, Rest.listRecords, storedPage, hrows, okOr_some]
    cases Rest.listFilters env.parseFilters params with
    | error e => rfl
    | ok filters =>
      simp only [bind, Except.bind, query_or_list]
      refine Eq.trans ?_ (access_page env rows collection filters _ _)
      cases query env.toSqlEnv rows corePluginId collection filters (Rest.listSort params)
        (Rest.listPagination params) <;> rfl
  | get collection id =>
    rw [restAccesses, addressed, storedWhere_eq id_of_hits, hrows, Option.bind_some,
      Rest.getRecord, okOr_some]
    simp only [bind, Except.bind, Records.get]
    cases rows.rows.find? (hits corePluginId collection id) <;> rfl
  | create draw collection body => rfl
  | update now collection id data version =>
    rw [restAccesses, addressed, storedWhere_eq id_of_versionHits, hrows, Option.bind_some]
    simp only [Rest.updateRecord, update]
    cases rows.rows.find? (versionHits corePluginId collection id version) with
    | none => cases rows.rows.any (hits corePluginId collection id) <;> rfl
    | some old => rfl
  | delete collection id =>
    rw [restAccesses, addressed, storedWhere_eq id_of_hits, hrows, Option.bind_some]
    refine Eq.trans ?_ (access_delete rows collection id)
    simp only [Rest.deleteRecord, delete]
    cases rows.rows.any (hits corePluginId collection id) <;> rfl

theorem graphqlAccesses_eq {rows : Rows} (hrows : s.storage = some rows)
    (identity : Option AuthIdentity) (op : GraphqlOp) :
    graphqlAccesses env s op =
      (addressed env s (.graphql identity op)).map
        (rowAccess (Request.graphql identity op).writes) := by
  cases op with
  | many collection filter sort pagination =>
    simp only [graphqlAccesses, addressed, collectionRecords, storedPage, hrows, okOr_some, bind,
      Except.bind, query_or_list]
    refine Eq.trans ?_ (access_page env rows collection.name _ sort _)
    cases query env.toSqlEnv rows corePluginId collection.name
      ((filter.map (convertFilter env.parseJson)).getD .default) sort
      (convertPagination pagination) <;> rfl
  | one collection id =>
    rw [graphqlAccesses, addressed, storedWhere_eq id_of_hits, hrows, Option.bind_some,
      singleRecord, okOr_some]
    simp only [bind, Except.bind, Records.get]
    cases rows.rows.find? (hits corePluginId collection.name id) <;> rfl
  | create draw collection input => rfl
  | update now collection id input version =>
    rw [graphqlAccesses, addressed, storedWhere_eq id_of_versionHits, hrows, Option.bind_some]
    cases hinput : env.parseJson input with
    | error e => simp only [updateRecord, hinput]; rfl
    | ok data =>
      simp only [updateRecord, hinput, update]
      cases rows.rows.find? (versionHits corePluginId collection id version) with
      | none => cases rows.rows.any (hits corePluginId collection id) <;> rfl
      | some old => rfl
  | delete collection id =>
    rw [graphqlAccesses, addressed, storedWhere_eq id_of_hits, hrows, Option.bind_some]
    refine Eq.trans ?_ (access_delete rows collection id)
    simp only [deleteRecord, delete]
    cases rows.rows.any (hits corePluginId collection id) <;> rfl

/-- A request accesses exactly the stored records that it names. -/
theorem accesses_eq (request : Request) :
    accesses env s request = (addressed env s request).map (rowAccess request.writes) := by
  cases hrows : s.storage with
  | none =>
    rcases request with _ | ⟨_, op⟩ | ⟨_, op⟩
    · rfl
    · cases op with
      | list collection params =>
        simp only [accesses, restAccesses, addressed, storedPage, hrows]
        cases Rest.listFilters env.parseFilters params <;> rfl
      | create draw collection body => rfl
      | _ =>
        simp only [accesses, restAccesses, addressed, storedWhere, hrows]
        rfl
    · cases op with
      | create draw collection input => rfl
      | update now collection id input version =>
        simp only [accesses, graphqlAccesses, addressed, storedWhere, hrows]
        cases env.parseJson input <;> rfl
      | _ =>
        simp only [accesses, graphqlAccesses, addressed, storedWhere, storedPage, hrows]
        rfl
  | some rows =>
    rcases request with _ | ⟨identity, op⟩ | ⟨identity, op⟩
    · rfl
    · exact restAccesses_eq env s hrows identity op
    · exact graphqlAccesses_eq env s hrows identity op

theorem stepIsolated_iff (request : Request) :
    StepIsolated env s request ↔ AsksForOwn env s request := by
  unfold StepIsolated AsksForOwn
  rw [accesses_eq]
  constructor
  · intro h user huser r hr
    exact h user huser _ (List.mem_map_of_mem hr)
  · intro h user huser a ha
    obtain ⟨r, hr, rfl⟩ := List.mem_map.mp ha
    exact h user huser r hr

/-- Every access of a run is allowed exactly when every user asks only for records that they may
access at the time. -/
theorem isolated_run_iff (env : ServerEnv) (s : ServerState) (requests : List Request) :
    EveryStep (serverStep env) (StepIsolated env) s requests ↔
      EveryStep (serverStep env) (AsksForOwn env) s requests :=
  everyStep_congr (stepIsolated_iff env) s requests

/-! ## A stranger reads a private record -/

/-- Every row meets every filter. -/
def plainServer : ServerEnv where
  meets _ := .ok fun _ => true
  order _ rows := ⟨rows, List.Perm.refl rows⟩
  parseFilters _ := .error "no filters"
  parseJson _ := .error "no input"

def emptyServer : ServerState :=
  ⟨.new, some Table.empty, fun _ => ⟨none, none⟩⟩

/-- A user creates a note, and a stranger reads it. -/
def diaryRequests : List Request :=
  [.rest (some ⟨some "user-a", none⟩)
      (.create ⟨1, 0, []⟩ "notes" (.obj [("title", .str "diary")])),
    .rest (some ⟨some "user-b", none⟩) (.get "notes" (uuidText 1))]

theorem not_isolated_run_diary :
    Rest.getRecord (run (serverStep plainServer) emptyServer (diaryRequests.take 1)).storage
        "notes" (uuidText 1) =
      .ok ⟨uuidText 1, "core", "notes",
        .obj [("_user_id", .str "user-a"), ("title", .str "diary")], 1, none, none, 0, 0⟩ ∧
    mayAccess (run (serverStep plainServer) emptyServer (diaryRequests.take 1)) "user-b"
      (uuidText 1) "notes" false = false ∧
    ¬ EveryStep (serverStep plainServer) (StepIsolated plainServer) emptyServer diaryRequests := by
  refine ⟨by decide +kernel, (fun hdenied => ⟨hdenied, fun h => ?_⟩) (by decide +kernel)⟩
  have hstep := h (diaryRequests.take 1) _ [] rfl
  have hallowed := hstep "user-b" rfl ⟨uuidText 1, "notes", false⟩ (by decide +kernel)
  cases hallowed

end LifeEngine.Records
