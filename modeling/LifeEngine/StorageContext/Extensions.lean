import LifeEngine.StorageContext.Access
import LifeEngine.StorageContext.AdapterWrites

/-!
# Extension data under updates

A document of a shared collection carries extension data of several plugins under
`ext`, one entry for each.  `check_extension_namespace` keeps a plugin from writing
under the name of another one, and the adapter replaces the stored document by the
new one as a whole.  Together they leave nothing of the other plugins' data.
-/

namespace LifeEngine.StorageContext

open Support SqliteDocument

/-- What the document holds for a plugin under `ext`. -/
def extensionOf (doc : Json) (pluginId : String) : Option Json :=
  (doc.get "ext").bind fun ext => ext.get pluginId

/-- A row that is not JSON holds none. -/
def extensionData (r : DocumentRow) (pluginId : String) : Option Json :=
  match r.data with
  | .ok doc => extensionOf doc pluginId
  | .error _ => none

/-- The document has the same data of every plugin but one. -/
def ExtensionsKept (pluginId : String) (before after : Documents) (collection id : String) :
    Prop :=
  ∀ r ∈ before.rows, r.collection = collection → r.id = id →
    ∀ r' ∈ after.rows, r'.collection = collection → r'.id = id →
      ∀ other, other ≠ pluginId → extensionData r' other = extensionData r other

/-- No plugin but one has data in the document. -/
def NoForeignExtensions (pluginId : String) (t : Documents) (collection id : String) :
    Prop :=
  ∀ r ∈ t.rows, r.collection = collection → r.id = id →
    ∀ other, other ≠ pluginId → extensionData r other = none

theorem get_eq_none_of_keys {fields : List (String × Json)} {key pluginId : String}
    (h : ∀ name ∈ fields.map Prod.fst, name = pluginId) (hkey : key ≠ pluginId) :
    JsonMap.get fields key = none := by
  induction fields with
  | nil => rfl
  | cons entry rest ih =>
    obtain ⟨name, value⟩ := entry
    have hname : name = pluginId := h name (by simp)
    have hne : key ≠ name := by rwa [hname]
    rw [JsonMap.get_cons, if_neg hne]
    exact ih fun other hother => h other (by simp [hother])

theorem extensionOf_eq_none {pluginId : String} {capabilities : List StorageCapability}
    {shared : List CollectionAccess} {doc : Json}
    (h : checkExtensionNamespace (.plugin pluginId capabilities shared) doc = .ok ())
    {other : String} (hother : other ≠ pluginId) : extensionOf doc other = none := by
  unfold extensionOf
  cases hext : doc.get "ext" with
  | none => rfl
  | some ext =>
    cases ext with
    | obj fields =>
      have hkeys : ∀ name ∈ fields.map Prod.fst, name = pluginId := by
        simp only [checkExtensionNamespace, hext] at h
        split at h
        · cases h
        · next hnone =>
          intro name hname
          simpa using List.find?_eq_none.mp hnone name hname
      exact get_eq_none_of_keys hkeys hother
    | _ => rfl

theorem extensionOf_stored {ctx : Context} {draw : DocDraw} {nonce : Bytes} {resolved : String}
    {document doc : Json}
    (h : ctx.protect nonce resolved (injectSystemFieldsUpdate ctx.timeText draw document) =
      .ok doc) (other : String) :
    extensionOf (stripSystemFields doc) other = extensionOf document other := by
  unfold extensionOf
  rw [get_stripSystemFields doc (by decide), get_protect h (by decide),
    get_injectSystemFieldsUpdate ctx.timeText draw document (by decide)]

/-- A successful update keeps the extension data of other plugins exactly when there is none. -/
theorem extensionsKept_iff (ctx : Context) (env : AdapterEnv) (draw : DocDraw)
    (s : ContextState AdapterState) (pluginId : String)
    (capabilities : List StorageCapability) (shared : List CollectionAccess)
    (collection id : String) (document result : Json) (pluginScoped : Bool)
    (resolved : String)
    (hresolve : resolveCollection (.plugin pluginId capabilities shared) collection
      pluginScoped = .ok resolved)
    (h : (ctx.docUpdate (adapterStore env).toDocRouter draw s
      (.plugin pluginId capabilities shared) collection id document pluginScoped).1 = .ok result) :
    ExtensionsKept pluginId s.router.table
        (ctx.docUpdate (adapterStore env).toDocRouter draw s
          (.plugin pluginId capabilities shared) collection id document
          pluginScoped).2.router.table resolved id ↔
      NoForeignExtensions pluginId s.router.table resolved id := by
  obtain ⟨name, doc, haccepted, hprotect, hupdate⟩ := docUpdate_ok (Prod.ext h rfl)
  obtain rfl : resolved = name := by
    rw [resolve_of_acceptUpdate haccepted] at hresolve
    exact (Except.ok.inj hresolve).symm
  obtain ⟨htable, -⟩ := update_ok hupdate
  simp only [Context.acceptUpdate, bind_eq_ok_iff] at haccepted
  obtain ⟨_, -, _, -, _, hchecked, -⟩ := haccepted
  have hstored : ∀ other, other ≠ pluginId → extensionOf (stripSystemFields doc) other = none := by
    intro other hother
    rw [extensionOf_stored hprotect]
    exact extensionOf_eq_none hchecked hother
  rw [htable]
  constructor
  · intro hkept r hr hcollection hid other hother
    have hsame := hkept r hr hcollection hid _
      (mem_overwrite.mpr ⟨r, hr, .inl ⟨hcollection, hid, rfl⟩⟩) hcollection hid other hother
    rw [← hsame]
    exact hstored other hother
  · intro hnone r hr hcollection hid r' hr' hcollection' hid' other hother
    rw [hnone r hr hcollection hid other hother]
    obtain ⟨row, -, ⟨-, -, rfl⟩ | ⟨hat, rfl⟩⟩ := mem_overwrite.mp hr'
    · exact hstored other hother
    · exact absurd ⟨hcollection', hid'⟩ hat

/-! ## An event with data of another plugin -/

/-- A table with one event, which holds the given value. -/
def eventTable (data : Json) : Documents where
  rows := [⟨"e1", "core", "events", .ok data, 1, "now", "now"⟩]
  keys_nodup := by simp

def eventState (data : Json) : ContextState AdapterState :=
  ⟨⟨eventTable data, fun _ => ⟨1, "now"⟩, 0⟩, [], []⟩

def notesCaller : CallerIdentity :=
  .plugin "notes" [.docWrite] [⟨"events", "read-write"⟩]

/-- The plugin gives the event a new title. -/
def retitle (data : Json) : Except StorageError Json × ContextState AdapterState :=
  bareContext.docUpdate (adapterStore plainAdapter).toDocRouter ⟨1, 2, 0, []⟩
    (eventState data) notesCaller "events" "e1" (.obj [("title", .str "party")]) false

def calendarEvent : Json :=
  .obj [("ext", .obj [("calendar", .obj [("color", .str "red")])]), ("title", .str "meeting")]

def retitled : Json :=
  .obj [("created_at", .str "now"), ("id", .str "e1"), ("title", .str "party"),
    ("updated_at", .str "now")]

/-- On an event without extension data nothing is lost. -/
theorem extensionsKept_iff_plain :
    resolveCollection notesCaller "events" false = .ok "events" ∧
      (retitle (.obj [])).1 = .ok retitled ∧
      (ExtensionsKept "notes" (eventTable (.obj [])) (retitle (.obj [])).2.router.table
        "events" "e1" ↔ NoForeignExtensions "notes" (eventTable (.obj [])) "events" "e1") := by
  have hresolve : resolveCollection notesCaller "events" false = .ok "events" := by
    decide +kernel
  have hretitle : (retitle (.obj [])).1 = .ok retitled := by
    decide +kernel
  exact ⟨hresolve, hretitle, extensionsKept_iff bareContext plainAdapter ⟨1, 2, 0, []⟩
    (eventState (.obj [])) "notes" [.docWrite] [⟨"events", "read-write"⟩] "events" "e1"
    (.obj [("title", .str "party")]) retitled false "events" hresolve hretitle⟩

/-- The new title costs the calendar its colour. -/
theorem not_extensionsKept_retitle :
    (retitle calendarEvent).1 = .ok retitled ∧
      ¬ ExtensionsKept "notes" (eventTable calendarEvent)
        (retitle calendarEvent).2.router.table "events" "e1" := by
  refine ⟨by decide +kernel, ?_⟩
  intro hkept
  have hrows : (retitle calendarEvent).2.router.table.rows =
      [⟨"e1", "core", "events", .ok (.obj [("title", .str "party")]), 2, "now", "now"⟩] := by
    decide +kernel
  have hlost := hkept _ (List.mem_singleton.mpr rfl) rfl rfl _
    (hrows ▸ List.mem_singleton.mpr rfl) rfl rfl "calendar" (by decide)
  revert hlost
  decide +kernel

/-! ## The two spellings

The check looks at `ext` only.  Validation looks at `extensions` too, but runs only for
a collection that the plugin has registered with a schema. -/

/-- The data under either spelling is the plugin's own. -/
def OwnNamespaces (pluginId : String) (document : Json) : Prop :=
  ∀ field ∈ ["ext", "extensions"], ∀ namespaces,
    document.get field = some (.obj namespaces) →
      ∀ ns ∈ namespaces.map Prod.fst, ns = pluginId

theorem ownNamespaces_of_checkSchema {ctx : Context} {draw : DocDraw} {pluginId : String}
    {capabilities : List StorageCapability} {shared : List CollectionAccess}
    {collection : String} {document : Json} {isCreate : Bool} {existing : Option Json}
    {schema : Schema.CollectionSchema}
    (hschema : ctx.schemaRegistry.collections (pluginId, collection) = some schema)
    (hvalidator : schema.validator ≠ none)
    (h : ctx.checkSchema draw (.plugin pluginId capabilities shared) collection document
      isCreate existing = .ok ()) :
    OwnNamespaces pluginId document := by
  intro field hfield namespaces hget
  simp only [Context.checkSchema, hschema, Option.isSome_some, if_true] at h
  split at h
  · next hvalid =>
    exact Schema.SchemaRegistry.namespaces_of_validateWrite hvalid hschema hvalidator hfield hget
  · cases h

/-- All writes of a plugin to a collection that succeed have extension data under its own name
only. -/
def WritesOwn {σ : Type} (ctx : Context) (router : DocRouter σ) (pluginId : String)
    (capabilities : List StorageCapability) (shared : List CollectionAccess)
    (collection : String) (pluginScoped : Bool) : Prop :=
  ∀ draw s id document result,
    ((ctx.docCreate router draw s (.plugin pluginId capabilities shared) collection
        document pluginScoped).1 = .ok result ∨
      (ctx.docUpdate router draw s (.plugin pluginId capabilities shared) collection id
        document pluginScoped).1 = .ok result) →
    OwnNamespaces pluginId document

/-- The plugin has registered the collection with a schema. -/
def HasSchema (ctx : Context) (pluginId collection : String) : Prop :=
  ∃ schema, ctx.schemaRegistry.collections (pluginId, collection) = some schema ∧
    schema.validator ≠ none

theorem HasSchema.writesOwn {σ : Type} {ctx : Context} {pluginId collection : String}
    (h : HasSchema ctx pluginId collection) (router : DocRouter σ)
    (capabilities : List StorageCapability) (shared : List CollectionAccess)
    (pluginScoped : Bool) :
    WritesOwn ctx router pluginId capabilities shared collection pluginScoped := by
  obtain ⟨schema, hschema, hvalidator⟩ := h
  rintro draw s id document result (hwrite | hwrite)
  · obtain ⟨resolved, haccepted⟩ := accepted_of_write_ok hwrite
    simp only [Context.acceptCreate, bind_eq_ok_iff] at haccepted
    obtain ⟨_, -, _, -, _, -, _, hcheck, -⟩ := haccepted
    exact ownNamespaces_of_checkSchema hschema hvalidator hcheck
  · obtain ⟨resolved, haccepted⟩ := accepted_of_write_ok hwrite
    simp only [Context.acceptUpdate, bind_eq_ok_iff] at haccepted
    obtain ⟨_, -, _, -, _, -, _, hcheck, -⟩ := haccepted
    exact ownNamespaces_of_checkSchema hschema hvalidator hcheck

/-- The router can create every document in some state. -/
def Accepts {σ : Type} (router : DocRouter σ) (resolved : String) : Prop :=
  ∃ s, ∀ document, ∃ result, (router.docCreate s resolved document).1 = .ok result

theorem checkSchema_of_not_hasSchema {ctx : Context} {pluginId collection : String}
    (h : ¬ HasSchema ctx pluginId collection) (draw : DocDraw)
    (capabilities : List StorageCapability) (shared : List CollectionAccess) (document : Json) :
    ctx.checkSchema draw (.plugin pluginId capabilities shared) collection document true none =
      .ok () := by
  cases hschema : ctx.schemaRegistry.collections (pluginId, collection) with
  | none => simp [Context.checkSchema, hschema]
  | some schema =>
    have hnone : schema.validator = none := by
      by_contra hvalidator
      exact h ⟨schema, hschema, hvalidator⟩
    simp [Context.checkSchema, hschema, Schema.SchemaRegistry.validateWrite, okOr_some, hnone,
      bind, Except.bind]

/-- A document with data of one plugin under the second spelling. -/
def extensionDocument (ns : String) : Json :=
  .obj [("extensions", .obj [(ns, .null)])]

theorem ownNamespaces_extensionDocument_iff {pluginId ns : String} :
    OwnNamespaces pluginId (extensionDocument ns) ↔ ns = pluginId := by
  have hext : (extensionDocument ns).get "ext" = none := by
    simp [extensionDocument, Json.get, JsonMap.get, List.lookup_cons]
  have hextensions : (extensionDocument ns).get "extensions" = some (.obj [(ns, .null)]) := by
    simp [extensionDocument, Json.get, JsonMap.get]
  simp [OwnNamespaces, hext, hextensions]

theorem encryptCredentialClaims_of_get {ctx : Context} {nonce : Bytes} {doc : Json}
    (hclaims : doc.get "claims" = none) : ctx.encryptCredentialClaims nonce doc = .ok doc := by
  unfold Context.encryptCredentialClaims
  split
  · have hnone : JsonMap.get _ "claims" = none := hclaims
    simp [hnone]
  · rfl

theorem protect_extensionDocument (ctx : Context) (draw : DocDraw) (resolved ns : String) :
    ∃ document, ctx.protect draw.nonce resolved
      (injectSystemFieldsCreate ctx.timeText draw (extensionDocument ns)) = .ok document := by
  set filled := injectSystemFieldsCreate ctx.timeText draw (extensionDocument ns)
  have hclaims : filled.get "claims" = none := by
    rw [get_injectSystemFieldsCreate ctx.timeText draw _ (by decide)]
    simp [extensionDocument, Json.get, JsonMap.get, List.lookup_cons]
  refine ⟨filled, ?_⟩
  rw [Context.protect]
  split
  · exact encryptCredentialClaims_of_get hclaims
  · rfl

/-- A plugin writes under its own name only, in a collection that it may write, exactly if it has
registered the collection with a schema. -/
theorem writesOwn_iff {σ : Type} (ctx : Context) (router : DocRouter σ) (pluginId : String)
    (capabilities : List StorageCapability) (shared : List CollectionAccess)
    (collection resolved : String) (pluginScoped : Bool)
    (hcapability : .docWrite ∈ capabilities)
    (hresolve : resolveCollection (.plugin pluginId capabilities shared) collection
      pluginScoped = .ok resolved)
    (haccepts : Accepts router resolved) :
    WritesOwn ctx router pluginId capabilities shared collection pluginScoped ↔
      HasSchema ctx pluginId collection := by
  constructor
  · intro hown
    by_contra hnone
    obtain ⟨r, hcreate⟩ := haccepts
    set document := extensionDocument (pluginId ++ "-other")
    have haccepted : ctx.acceptCreate ⟨0, 0, 0, []⟩ (.plugin pluginId capabilities shared)
        collection document pluginScoped = .ok resolved := by
      have hchecked := checkSchema_of_not_hasSchema hnone ⟨0, 0, 0, []⟩ capabilities shared document
      have hnamespace : checkExtensionNamespace (.plugin pluginId capabilities shared) document =
          .ok () := rfl
      simp only [Context.acceptCreate, bind_eq_ok_iff]
      exact ⟨(), holds_plugin_iff.mpr hcapability, resolved, hresolve, (), hnamespace, (), hchecked,
        rfl⟩
    obtain ⟨stored, hprotect⟩ := protect_extensionDocument ctx ⟨0, 0, 0, []⟩ resolved
      (pluginId ++ "-other")
    obtain ⟨result, hresult⟩ := hcreate stored
    have hsucceeds : (ctx.docCreate router ⟨0, 0, 0, []⟩ ⟨r, [], []⟩
        (.plugin pluginId capabilities shared) collection document pluginScoped).1 =
          .ok result := by
      rcases hsent : router.docCreate r resolved stored with ⟨_ | _, after⟩
      · rw [hsent] at hresult
        cases hresult
      · rw [hsent] at hresult
        rw [Context.docCreate, haccepted, Context.write, hprotect]
        dsimp only
        rwa [hsent]
    have hname := ownNamespaces_extensionDocument_iff.mp
      (hown _ _ "" document result (.inl hsucceeds))
    simp at hname
  · intro hschema
    exact hschema.writesOwn router capabilities shared pluginScoped

/-- A schema is registered that finds no errors. -/
def validatedContext : Context :=
  { bareContext with
    schemaRegistry := { Schema.SchemaRegistry.new with
      collections := fun key =>
        if key = ("notes", "events") then some ⟨some fun _ => [], none, false⟩ else none } }

/-- An event with extension data under the name. -/
def createWith (ctx : Context) (ns : String) :
    Except StorageError Json × ContextState AdapterState :=
  ctx.docCreate (adapterStore plainAdapter).toDocRouter ⟨1, 2, 0, []⟩ (eventState (.obj []))
    notesCaller "events" (.obj [("extensions", .obj [(ns, .null)]), ("id", .str "e2")]) false

def createdWith (ns : String) : Json :=
  .obj [("created_at", .str "now"), ("extensions", .obj [(ns, .null)]), ("id", .str "e2"),
    ("updated_at", .str "now")]

/-- The adapter creates every document in the empty table. -/
theorem accepts_adapterStore (env : AdapterEnv) {collection : String}
    (hvalid : validateIdentifier collection = .ok ()) :
    Accepts (adapterStore env).toDocRouter collection := by
  obtain ⟨draw⟩ : Nonempty Draw := ⟨⟨1, "now"⟩⟩
  refine ⟨⟨⟨[], List.nodup_nil⟩, fun _ => draw, 0⟩, fun document => ?_⟩
  obtain ⟨result, hresult⟩ := rowToDocument_ok (documentId draw.uuid document)
    (stripSystemFields document) draw.now draw.now
  refine ⟨result, ?_⟩
  simp [adapterStore, create, hvalid, Table.insert, Table.keys, newRow, AdapterState.draw, hresult,
    AdapterState.commit, bind, Except.bind, pure, Except.pure]

theorem writesOwn_validated :
    (createWith validatedContext "notes").1 = .ok (createdWith "notes") ∧
      WritesOwn validatedContext (adapterStore plainAdapter).toDocRouter "notes" [.docWrite]
        [⟨"events", "read-write"⟩] "events" false := by
  refine ⟨by decide +kernel, (writesOwn_iff validatedContext _ "notes" [.docWrite]
    [⟨"events", "read-write"⟩] "events" "events" false (by decide) (by decide +kernel)
    (accepts_adapterStore plainAdapter (by decide +kernel))).mpr ?_⟩
  exact ⟨⟨some fun _ => [], none, false⟩, by simp [validatedContext], by simp⟩

/-- Without a schema the plugin writes under another name. -/
theorem not_ownNamespaces_calendar :
    (createWith bareContext "calendar").1 = .ok (createdWith "calendar") ∧
      ¬ OwnNamespaces "notes"
        (.obj [("extensions", .obj [("calendar", .null)]), ("id", .str "e2")]) := by
  refine ⟨by decide +kernel, fun h => ?_⟩
  have hname := h "extensions" (by decide) [("calendar", .null)] (by decide +kernel)
    "calendar" (by decide)
  revert hname
  decide

end LifeEngine.StorageContext
