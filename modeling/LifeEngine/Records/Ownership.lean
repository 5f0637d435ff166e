import LifeEngine.Records.Isolation

/-!
# Who a record belongs to

A record names its owner in two fields of its data.  REST tags a new object with the
identity of its creator, GraphQL tags it with nobody.  Every update replaces the whole
data and strips the two fields from what the client sends, so an update takes the tags
away.  The main result says exactly which requests leave each record with the tags of
its creator.
-/

namespace LifeEngine.Records

open Support Storage Graphql

/-- The two fields that name an owner, as they are stored. -/
structure OwnerFields where
  userId : Option Json
  householdId : Option Json
  deriving DecidableEq

def OwnerFields.nobody : OwnerFields := ⟨none, none⟩

def ownerFields (data : Json) : OwnerFields :=
  ⟨data.get "_user_id", data.get "_household_id"⟩

/-- The fields that the identity of a creator stands for. -/
def identityFields : Option AuthIdentity → OwnerFields
  | some ⟨some uid, hid⟩ => ⟨some (.str uid), hid.map .str⟩
  | _ => .nobody

def Request.identity : Request → Option AuthIdentity
  | household _ => none
  | rest identity _ | graphql identity _ => identity

/-- The server, and by whom each record was created. -/
structure Ledger where
  server : ServerState
  creator : String → Option AuthIdentity

/-- The id of the record that a request creates. -/
def createdId (env : ServerEnv) (s : ServerState) : Request → Option String
  | .rest identity (.create draw collection body) =>
    (Rest.createRecord draw s.storage collection identity body).reply.toOption.map Record.id
  | .graphql _ (.create draw collection input) =>
    (createRecord env.parseJson draw s.storage collection input).reply.toOption.map
      Record.id
  | _ => none

def ledgerStep (env : ServerEnv) (s : Ledger) (request : Request) : Ledger :=
  ⟨serverStep env s.server request,
    match createdId env s.server request with
    | some id => Function.update s.creator id request.identity
    | none => s.creator⟩

/-- Every record has the owner fields of its creator. -/
def OwnedByCreators (s : Ledger) : Prop :=
  ∀ rows, s.server.storage = some rows → ∀ r ∈ rows.rows,
    ownerFields r.data = identityFields (s.creator r.id)

/-- Users create objects only, over REST only, and nobody updates a record that was created by a
user. -/
def LeavesOwners (env : ServerEnv) (s : Ledger) : Request → Prop
  | .rest identity (.create draw _ body) =>
    (∀ rows, s.server.storage = some rows → uuidText draw.uuid ∉ rows.keys →
      (∃ fields, body = .obj fields) ∨ identityFields identity = .nobody)
  | .graphql identity (.create draw _ input) =>
    ∀ rows data, s.server.storage = some rows → uuidText draw.uuid ∉ rows.keys →
      env.parseJson input = .ok data → identityFields identity = .nobody
  | .rest identity (.update now collection id data version) =>
    ∀ r ∈ addressed env s.server (.rest identity (.update now collection id data version)),
      identityFields (s.creator r.id) = .nobody
  | .graphql identity (.update now collection id input version) =>
    ∀ r ∈ addressed env s.server
        (.graphql identity (.update now collection id input version)),
      identityFields (s.creator r.id) = .nobody
  | _ => True

/-! ## The fields of stripped and tagged data -/

theorem ownerFields_of_not_obj {data : Json} (h : ∀ fields, data ≠ .obj fields) :
    ownerFields data = .nobody := by
  rcases data with _ | _ | _ | _ | _ | fields
  case obj => exact absurd rfl (h fields)
  all_goals rfl

theorem ownerFields_stripTags (data : Json) : ownerFields (stripTags data) = .nobody := by
  by_cases hobj : ∃ fields, data = .obj fields
  · obtain ⟨fields, rfl⟩ := hobj
    have huser : JsonMap.get (JsonMap.remove (JsonMap.remove fields "_user_id")
        "_household_id") "_user_id" = none := by
      rw [JsonMap.get_remove_of_ne (by decide), JsonMap.get_remove_self]
    have hhousehold : JsonMap.get (JsonMap.remove (JsonMap.remove fields "_user_id")
        "_household_id") "_household_id" = none :=
      JsonMap.get_remove_self _ _
    simp [ownerFields, stripTags, Json.get, huser, hhousehold, OwnerFields.nobody]
  · have hnot : ∀ fields, data ≠ .obj fields := fun fields heq => hobj ⟨fields, heq⟩
    have hsame : stripTags data = data := by
      rcases data with _ | _ | _ | _ | _ | fields
      case obj => exact absurd rfl (hnot fields)
      all_goals rfl
    rw [hsame]
    exact ownerFields_of_not_obj hnot

theorem injectTags_of_nobody {identity : Option AuthIdentity}
    (h : identityFields identity = .nobody) (data : Json) :
    Rest.injectTags identity data = data := by
  rcases identity with _ | ⟨_ | uid, hid⟩
  · rfl
  · rfl
  · cases h

theorem ownerFields_injectTags_obj (identity : Option AuthIdentity) (fields : JsonMap) :
    ownerFields (Rest.injectTags identity (stripTags (.obj fields))) = identityFields identity := by
  rcases identity with _ | ⟨_ | uid, hid⟩
  · exact ownerFields_stripTags (.obj fields)
  · exact ownerFields_stripTags (.obj fields)
  · have hnone : JsonMap.get (JsonMap.remove (JsonMap.remove fields "_user_id")
        "_household_id") "_household_id" = none :=
      JsonMap.get_remove_self _ _
    rcases hid with _ | hid
    · simp only [ownerFields, stripTags, Rest.injectTags, Json.get, JsonMap.get_insert_self]
      rw [JsonMap.get_insert_of_ne (by decide), hnone]
      rfl
    · simp only [ownerFields, stripTags, Rest.injectTags, Json.get, JsonMap.get_insert_self]
      rw [JsonMap.get_insert_of_ne (by decide), JsonMap.get_insert_self]
      rfl

/-- Only an object can carry the tags of a user. -/
theorem ownerFields_injectTags_iff (identity : Option AuthIdentity) (body : Json) :
    ownerFields (Rest.injectTags identity (stripTags body)) = identityFields identity ↔
      (∃ fields, body = .obj fields) ∨ identityFields identity = .nobody := by
  constructor
  · intro h
    by_cases hobj : ∃ fields, body = .obj fields
    · exact Or.inl hobj
    · right
      rw [← h]
      apply ownerFields_of_not_obj
      intro fields heq
      apply hobj
      rcases body with _ | _ | _ | _ | _ | bodyFields
      case obj => exact ⟨bodyFields, rfl⟩
      all_goals
        rcases identity with _ | ⟨_ | uid, hid⟩
        all_goals cases heq
  · rintro (⟨fields, rfl⟩ | hnobody)
    · exact ownerFields_injectTags_obj identity fields
    · rw [injectTags_of_nobody hnobody, hnobody]
      exact ownerFields_stripTags body

/-! ## One request -/

/-- What a request does to the records. -/
inductive Change where
  | nothing
  | create (draw : Draw) (collection : String) (data : Json)
  | update (now : Timestamp) (collection id : String) (data : Json) (version : Int)
  | delete (collection id : String)

def changeOf (env : ServerEnv) : Request → Change
  | .rest identity (.create draw collection body) =>
    .create draw collection (Rest.injectTags identity (stripTags body))
  | .graphql _ (.create draw collection input) =>
    match env.parseJson input with
    | .ok data => .create draw collection (stripTags data)
    | .error _ => .nothing
  | .rest _ (.update now collection id data version) => .update now collection id data version
  | .graphql _ (.update now collection id input version) =>
    match env.parseJson input with
    | .ok data => .update now collection id data version
    | .error _ => .nothing
  | .rest _ (.delete collection id) | .graphql _ (.delete collection id) => .delete collection id
  | _ => .nothing

/-- The id of a new record, and the records that are left. -/
def Change.apply (rows : Rows) : Change → Option String × Rows
  | nothing => (none, rows)
  | create draw collection data =>
    let (reply, rows') := Records.create draw rows corePluginId collection data
    (reply.toOption.map Record.id, rows')
  | update now collection id data version =>
    (none, (Records.update now rows corePluginId collection id (stripTags data) version).2)
  | delete collection id => (none, (Records.delete rows corePluginId collection id).2)

theorem storage_afterCreate {ε : Type} (s : ServerState) (outcome : Outcome ε Record) :
    (s.afterCreate outcome).storage = outcome.storage := by
  unfold ServerState.afterCreate
  split <;> rfl

theorem serverStep_apply {env : ServerEnv} {s : ServerState} {rows : Rows}
    (hrows : s.storage = some rows) (request : Request) :
    createdId env s request = ((changeOf env request).apply rows).1 ∧
      (serverStep env s request).storage = some ((changeOf env request).apply rows).2 := by
  rcases request with op | ⟨identity, op⟩ | ⟨identity, op⟩
  · exact ⟨rfl, hrows⟩
  · cases op with
    | list _ _ | get _ _ => exact ⟨rfl, hrows⟩
    | create draw collection body =>
      simp only [createdId, serverStep, restStep, storage_afterCreate, hrows, Rest.createRecord,
        changeOf, Change.apply]
      rcases create draw rows corePluginId collection _ with ⟨_ | _, _⟩ <;> exact ⟨rfl, rfl⟩
    | update now collection id data version =>
      refine ⟨rfl, ?_⟩
      simp only [serverStep, restStep, hrows, Rest.updateRecord, changeOf, Change.apply]
      rcases update now rows corePluginId collection id _ version with ⟨_ | _, _⟩ <;> rfl
    | delete collection id =>
      refine ⟨rfl, ?_⟩
      simp only [serverStep, restStep, hrows, Rest.deleteRecord, changeOf, Change.apply]
      rcases delete rows corePluginId collection id with ⟨_ | _, _⟩ <;> rfl
  · cases op with
    | many _ _ _ _ | one _ _ => exact ⟨rfl, hrows⟩
    | create draw collection input =>
      simp only [createdId, serverStep, graphqlStep, storage_afterCreate, hrows, createRecord,
        changeOf]
      rcases env.parseJson input with _ | data
      · exact ⟨rfl, rfl⟩
      · simp only [Change.apply]
        rcases create draw rows corePluginId collection _ with ⟨_ | _, _⟩ <;> exact ⟨rfl, rfl⟩
    | update now collection id input version =>
      simp only [createdId, serverStep, graphqlStep, hrows, updateRecord, changeOf]
      rcases env.parseJson input with _ | data
      · exact ⟨rfl, rfl⟩
      · refine ⟨rfl, ?_⟩
        simp only [Change.apply]
        rcases update now rows corePluginId collection id _ version with ⟨_ | _, _⟩ <;> rfl
    | delete collection id =>
      refine ⟨rfl, ?_⟩
      simp only [serverStep, graphqlStep, hrows, deleteRecord, changeOf, Change.apply]
      rcases delete rows corePluginId collection id with ⟨_ | _, _⟩ <;> rfl

theorem storage_serverStep_of_none {env : ServerEnv} {s : ServerState} (h : s.storage = none)
    (request : Request) : (serverStep env s request).storage = none := by
  rcases request with op | ⟨identity, op⟩ | ⟨identity, op⟩
  · exact h
  · cases op <;> simp [serverStep, restStep, storage_afterCreate, h, Rest.createRecord,
      Rest.updateRecord, Rest.deleteRecord]
  · cases op <;> simp [serverStep, graphqlStep, storage_afterCreate, h, createRecord, updateRecord,
      deleteRecord]

section Effects

variable {env : ServerEnv} {s : Ledger} {rows : Rows} {request : Request}

theorem ledgerStep_eq (hrows : s.server.storage = some rows) {change : Change}
    (hchange : changeOf env request = change) :
    (ledgerStep env s request).server.storage = some (change.apply rows).2 ∧
      (ledgerStep env s request).creator =
        match (change.apply rows).1 with
        | some id => Function.update s.creator id request.identity
        | none => s.creator := by
  subst hchange
  obtain ⟨hcreated, hafter⟩ := @serverStep_apply env _ _ hrows request
  rw [ledgerStep, hcreated]
  exact ⟨hafter, rfl⟩

/-- A new record is as it should be exactly if its data is. -/
theorem ownedByCreators_created_iff (h : OwnedByCreators s)
    (hrows : s.server.storage = some rows) {draw : Draw} {collection : String} {data : Json}
    (hchange : changeOf env request = .create draw collection data) :
    OwnedByCreators (ledgerStep env s request) ↔
      (uuidText draw.uuid ∉ rows.keys → ownerFields data = identityFields request.identity) := by
  obtain ⟨hafter, hcreator⟩ := ledgerStep_eq hrows hchange
  by_cases hmem : uuidText draw.uuid ∈ rows.keys
  · rw [Change.apply, create, createWithId_of_mem hmem] at hafter hcreator
    refine iff_of_true ?_ (absurd hmem)
    intro rows' hrows' r hr
    obtain rfl := Option.some.inj (hafter.symm.trans hrows')
    rw [hcreator]
    exact h rows hrows r hr
  · obtain ⟨rows', hrows', hcreate⟩ := createWithId_of_not_mem hmem
    rw [Change.apply, create, hcreate] at hafter hcreator
    dsimp only [Except.toOption, Option.map_some] at hafter hcreator
    constructor
    · intro howned _
      have hrow := howned rows' hafter _ (by rw [hrows']; exact List.mem_append_right _ (.head _))
      rwa [hcreator, Function.update_self] at hrow
    · intro hdata found hfound r hr
      obtain rfl := Option.some.inj (hafter.symm.trans hfound)
      rw [hrows', List.mem_append, List.mem_singleton] at hr
      rw [hcreator]
      rcases hr with hold | rfl
      · have hne : r.id ≠ uuidText draw.uuid := fun heq =>
          hmem (heq ▸ Table.mem_keys.mpr ⟨r, hold, rfl⟩)
        rw [Function.update_of_ne hne]
        exact h rows hrows r hold
      · rw [Function.update_self]
        exact hdata hmem

/-- Updates strip the fields, so they should have been empty. -/
theorem ownedByCreators_updated_iff (h : OwnedByCreators s)
    (hrows : s.server.storage = some rows) {now : Timestamp} {collection id : String}
    {data : Json} {version : Int}
    (hchange : changeOf env request = .update now collection id data version) :
    OwnedByCreators (ledgerStep env s request) ↔
      ∀ r ∈ storedWhere s.server (versionHits corePluginId collection id version),
        identityFields (s.creator r.id) = .nobody := by
  obtain ⟨hafter, hcreator⟩ := ledgerStep_eq hrows hchange
  rw [storedWhere, hrows]
  constructor
  · intro howned r hr
    obtain ⟨hmem, hhit⟩ := List.mem_filter.mp hr
    have hrow := howned _ hafter _ (mem_update.mpr ⟨r, hmem, Or.inl ⟨hhit, rfl⟩⟩)
    rw [hcreator] at hrow
    exact hrow.symm.trans (ownerFields_stripTags data)
  · intro hnobody found hfound r' hr'
    obtain rfl := Option.some.inj (hafter.symm.trans hfound)
    rw [hcreator]
    obtain ⟨r, hr, ⟨hhit, rfl⟩ | ⟨-, rfl⟩⟩ := mem_update.mp hr'
    · have hcreator := hnobody r (List.mem_filter.mpr ⟨hr, hhit⟩)
      exact (ownerFields_stripTags data).trans hcreator.symm
    · exact h rows hrows _ hr

/-- A request that adds and rewrites no record. -/
theorem OwnedByCreators.of_subset (h : OwnedByCreators s) (hrows : s.server.storage = some rows)
    {change : Change} (hchange : changeOf env request = change)
    (hnew : (change.apply rows).1 = none) (hsub : (change.apply rows).2.rows ⊆ rows.rows) :
    OwnedByCreators (ledgerStep env s request) := by
  obtain ⟨hafter, hcreator⟩ := ledgerStep_eq hrows hchange
  intro rows' hrows' r hr
  obtain rfl := Option.some.inj (hafter.symm.trans hrows')
  rw [hcreator, hnew]
  exact h rows hrows r (hsub hr)

theorem OwnedByCreators.nothing (h : OwnedByCreators s) (hrows : s.server.storage = some rows)
    (hchange : changeOf env request = .nothing) : OwnedByCreators (ledgerStep env s request) :=
  h.of_subset hrows hchange rfl (List.Subset.refl _)

theorem OwnedByCreators.deleted (h : OwnedByCreators s) (hrows : s.server.storage = some rows)
    {collection id : String} (hchange : changeOf env request = .delete collection id) :
    OwnedByCreators (ledgerStep env s request) :=
  h.of_subset hrows hchange rfl fun _ hr => (Table.mem_deleteWhere.mp hr).1

theorem ownedByCreators_step_iff (h : OwnedByCreators s) (request : Request) :
    OwnedByCreators (ledgerStep env s request) ↔ LeavesOwners env s request := by
  rcases hrows : s.server.storage with _ | rows
  · -- Without storage nothing is stored and nothing asked for.
    refine iff_of_true ?_ ?_
    · intro rows hafter
      rw [ledgerStep, storage_serverStep_of_none hrows] at hafter
      cases hafter
    · rcases request with op | ⟨identity, op⟩ | ⟨identity, op⟩
      · trivial
      · cases op <;> simp [LeavesOwners, addressed, storedWhere, hrows]
      · cases op with
        | update now collection id input version =>
          simp only [LeavesOwners, addressed, storedWhere, hrows]
          split <;> simp
        | _ => simp [LeavesOwners, hrows]
  · rcases request with op | ⟨identity, op⟩ | ⟨identity, op⟩
    · exact iff_of_true (h.nothing hrows rfl) trivial
    · cases op with
      | list _ _ | get _ _ => exact iff_of_true (h.nothing hrows rfl) trivial
      | create draw collection body =>
        rw [ownedByCreators_created_iff h hrows rfl, Request.identity, ownerFields_injectTags_iff]
        simp [LeavesOwners, hrows]
      | update now collection id data version => exact ownedByCreators_updated_iff h hrows rfl
      | delete collection id => exact iff_of_true (h.deleted hrows rfl) trivial
    · cases op with
      | many _ _ _ _ | one _ _ => exact iff_of_true (h.nothing hrows rfl) trivial
      | create draw collection input =>
        rcases hparse : env.parseJson input with e | data
        · refine iff_of_true (h.nothing hrows (by rw [changeOf, hparse])) ?_
          simp [LeavesOwners, hparse]
        · rw [ownedByCreators_created_iff h hrows (by rw [changeOf, hparse]),
            ownerFields_stripTags, eq_comm]
          simp [LeavesOwners, hrows, hparse, Request.identity]
      | update now collection id input version =>
        rw [LeavesOwners, addressed]
        rcases hparse : env.parseJson input with e | data
        · refine iff_of_true (h.nothing hrows (by rw [changeOf, hparse])) ?_
          simp
        · exact ownedByCreators_updated_iff h hrows (by rw [changeOf, hparse])
      | delete collection id => exact iff_of_true (h.deleted hrows rfl) trivial

end Effects

/-- No records yet, and so no creators. -/
def emptyLedger : Ledger :=
  ⟨emptyServer, fun _ => none⟩

/-- Every record always has the owner fields of its creator exactly if all requests leave the fields
alone. -/
theorem ownedByCreators_throughout_iff (env : ServerEnv) (requests : List Request) :
    Throughout (ledgerStep env) OwnedByCreators emptyLedger requests ↔
      EveryStep (ledgerStep env) (LeavesOwners env) emptyLedger requests := by
  have hempty : OwnedByCreators emptyLedger := by
    intro rows hrows r hr
    obtain rfl := Option.some.inj hrows
    cases hr
  refine throughout_iff_everyStep (fun (s : Ledger) h => h) ?_ ?_ hempty requests
  · intro s request h
    exact (ownedByCreators_step_iff h request).mpr
  · intro s request h
    exact (ownedByCreators_step_iff h request).mp

/-- A user creates a note and then gives it another title. -/
def retitled : List Request :=
  [.rest (some ⟨some "user-a", none⟩)
      (.create ⟨1, 0, []⟩ "notes" (.obj [("title", .str "diary")])),
    .rest (some ⟨some "user-a", none⟩)
      (.update 1 "notes" (uuidText 1) (.obj [("title", .str "journal")]) 1)]

theorem not_ownedByCreators_retitled :
    Rest.getRecord (run (ledgerStep plainServer) emptyLedger retitled).server.storage
        "notes" (uuidText 1) =
      .ok ⟨uuidText 1, "core", "notes", .obj [("title", .str "journal")], 2, none, none, 0, 1⟩ ∧
    ¬ Throughout (ledgerStep plainServer) OwnedByCreators emptyLedger retitled := by
  refine ⟨by decide +kernel, fun h => ?_⟩
  have hafter := h retitled [] (List.append_nil _).symm
  have hrow := hafter _ rfl _ List.mem_cons_self
  revert hrow
  decide +kernel

end LifeEngine.Records
