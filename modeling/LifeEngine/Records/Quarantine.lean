import LifeEngine.Records.Storage
import LifeEngine.Schema.Registry
import LifeEngine.Support.Machine

/-!
# Validated writes and the quarantine

`ValidatedStorage` of the core application looks up the schema of a collection before it
writes, and puts a document that fails into the collection `_quarantine`.  The schemas
stand in one map.  What a plugin registers is filed under the names of the plugin and
the collection, while a write looks under the name of the collection.
-/

namespace LifeEngine.Records

open Support Storage
open LifeEngine.Schema (Validator)

structure ValidationResult where
  valid : Bool
  errors : List String
  schemaVersion : String

structure SchemaEntry where
  validator : Validator
  version : String

/-- What the registry takes from other crates. -/
structure CompileEnv where
  /-- `jsonschema::draft7::new`. -/
  compile : Json → Except String Validator
  /-- `DateTime::to_rfc3339`. -/
  rfc3339 : Timestamp → String

def coreCdmNames : List String :=
  ["tasks", "contacts", "emails", "events", "files", "notes", "credentials"]

/-- `SchemaRegistry` of the core, by one key. -/
structure CoreRegistry where
  schemas : String → Option SchemaEntry

/-- The key of a plugin's own collection. -/
def namespaced (pluginId collection : String) : String :=
  pluginId ++ "/" ++ collection

namespace CoreRegistry

def new : CoreRegistry := ⟨fun _ => none⟩

/-- The title of a schema stands for its version. -/
def titleOf (collection : String) (schema : Json) : String :=
  ((schema.get "title").bind Json.asStr).getD collection

def register (env : CompileEnv) (reg : CoreRegistry) (collection : String) (schema : Json) :
    Except String Unit × CoreRegistry :=
  match env.compile schema with
  | .error e => (.error ("failed to compile schema for '" ++ collection ++ "': " ++ e), reg)
  | .ok validator =>
    let entry : SchemaEntry := ⟨validator, titleOf collection schema⟩
    (.ok (), ⟨Function.update reg.schemas collection (some entry)⟩)

def registerPluginSchema (env : CompileEnv) (reg : CoreRegistry)
    (pluginId collectionName : String) (schema : Json) : Except String Unit × CoreRegistry :=
  if collectionName ∈ coreCdmNames then
    (.error ("plugin '" ++ pluginId ++ "' cannot register collection '" ++ collectionName ++
      "': name is reserved by Core CDM"), reg)
  else reg.register env (namespaced pluginId collectionName) schema

def validate (reg : CoreRegistry) (collection : String) (data : Json) :
    Option ValidationResult :=
  (reg.schemas collection).map fun entry =>
    let errors := entry.validator data
    ⟨errors.isEmpty, errors, entry.version⟩

end CoreRegistry

/-! ## Writes -/

def quarantineCollection : String := "_quarantine"

structure QuarantineEntry where
  originalData : Json
  originalCollection : String
  sourcePluginId : String
  validationErrors : List String
  schemaVersion : String
  quarantinedAt : String

/-- `to_value` of an entry. -/
def QuarantineEntry.toJson (e : QuarantineEntry) : Json :=
  .obj [("original_collection", .str e.originalCollection), ("original_data", e.originalData),
    ("quarantined_at", .str e.quarantinedAt), ("schema_version", .str e.schemaVersion),
    ("source_plugin_id", .str e.sourcePluginId),
    ("validation_errors", .arr (e.validationErrors.map .str))]

inductive QuarantineError where
  | validationFailed (quarantineId : String) (errors : List String)
  | internal (message : String)
  deriving DecidableEq, Repr

/-- The entry is stored; the caller gets an error. -/
def quarantine (draw : Draw) (rows : Rows) (entry : QuarantineEntry) :
    QuarantineError × Rows :=
  match create draw rows "core" quarantineCollection entry.toJson with
  | (.error e, rows') => (.internal e.display, rows')
  | (.ok record, rows') => (.validationFailed record.id entry.validationErrors, rows')

/-- `quarantine_if_invalid`, at a time. -/
def quarantineIfInvalid (env : CompileEnv) (reg : CoreRegistry) (now : Timestamp)
    (draw : Draw) (rows : Rows) (pluginId collection : String) (data : Json) :
    Except QuarantineError Unit × Rows :=
  match reg.validate collection data with
  | none => (.ok (), rows)
  | some result =>
    if result.valid then (.ok (), rows)
    else
      let (e, rows') := quarantine draw rows
        { originalData := data
          originalCollection := collection
          sourcePluginId := pluginId
          validationErrors := result.errors
          schemaVersion := result.schemaVersion
          quarantinedAt := env.rfc3339 now }
      (.error e, rows')

/-- A write that is made if the document passes. -/
def validated (env : CompileEnv) (reg : CoreRegistry) (now : Timestamp) (draw : Draw)
    (rows : Rows) (pluginId collection : String) (data : Json)
    (write : Rows → Except StorageError Record × Rows) :
    Except QuarantineError Record × Rows :=
  match quarantineIfInvalid env reg now draw rows pluginId collection data with
  | (.error e, rows') => (.error e, rows')
  | (.ok _, rows') =>
    let (result, rows'') := write rows'
    (result.mapError fun e => .internal e.display, rows'')

def validatedCreate (env : CompileEnv) (reg : CoreRegistry) (now : Timestamp) (draw : Draw)
    (rows : Rows) (pluginId collection : String) (data : Json) :
    Except QuarantineError Record × Rows :=
  validated env reg now draw rows pluginId collection data fun rows =>
    create draw rows pluginId collection data

def validatedUpdate (env : CompileEnv) (reg : CoreRegistry) (now : Timestamp) (draw : Draw)
    (rows : Rows) (pluginId collection id : String) (data : Json) (version : Int) :
    Except QuarantineError Record × Rows :=
  validated env reg now draw rows pluginId collection data fun rows =>
    update draw.now rows pluginId collection id data version

/-! ## Registrations -/

inductive Registration where
  | core (collection : String) (schema : Json)
  | plugin (pluginId collection : String) (schema : Json)

/-- Failed registrations leave the registry as it is. -/
def CoreRegistry.step (env : CompileEnv) (reg : CoreRegistry) :
    Registration → CoreRegistry
  | .core collection schema => (reg.register env collection schema).2
  | .plugin pluginId collection schema =>
    (reg.registerPluginSchema env pluginId collection schema).2

/-- The last schema of the plugin that was accepted. -/
def declared (env : CompileEnv) (history : List Registration) (pluginId collection : String) :
    Option Validator :=
  history.foldl (fun found registration =>
    match registration with
    | .core _ _ => found
    | .plugin p c schema =>
      if p = pluginId ∧ c = collection ∧ c ∉ coreCdmNames then
        match env.compile schema with
        | .ok validator => some validator
        | .error _ => found
      else found) none

/-! ## What is written -/

section Outcome

variable {env : CompileEnv} {reg : CoreRegistry} {now : Timestamp} {draw : Draw} {rows : Rows}
  {pluginId collection : String} {data : Json}
  {write : Rows → Except StorageError Record × Rows}

/-- The document is put into the quarantine instead. -/
def Quarantined (draw : Draw) (rows : Rows) (pluginId collection : String) (data : Json)
    (outcome : Except QuarantineError Record × Rows) : Prop :=
  ∃ entry : QuarantineEntry, entry.originalData = data ∧
    entry.originalCollection = collection ∧ entry.sourcePluginId = pluginId ∧
    outcome = (.error (quarantine draw rows entry).1, (quarantine draw rows entry).2)

/-- The entry under the name of the collection finds errors. -/
def Rejects (reg : CoreRegistry) (collection : String) (data : Json) : Prop :=
  ∃ entry, reg.schemas collection = some entry ∧ entry.validator data ≠ []

theorem validated_of_rejects (h : Rejects reg collection data) :
    Quarantined draw rows pluginId collection data
      (validated env reg now draw rows pluginId collection data write) := by
  obtain ⟨entry, hentry, herrors⟩ := h
  refine ⟨⟨data, collection, pluginId, entry.validator data, entry.version,
    env.rfc3339 now⟩, rfl, rfl, rfl, ?_⟩
  simp [validated, quarantineIfInvalid, CoreRegistry.validate, hentry, herrors]

theorem validated_of_not_rejects (h : ¬ Rejects reg collection data) :
    validated env reg now draw rows pluginId collection data write =
      ((write rows).1.mapError fun e => .internal e.display, (write rows).2) := by
  rcases hentry : reg.schemas collection with _ | entry
  · simp [validated, quarantineIfInvalid, CoreRegistry.validate, hentry]
  · have hvalid : entry.validator data = [] := by
      by_contra herrors
      exact h ⟨entry, hentry, herrors⟩
    simp [validated, quarantineIfInvalid, CoreRegistry.validate, hentry, hvalid]

end Outcome

/-- Writes are stored only if they satisfy the schema that the plugin registered; the others go to
the quarantine. -/
def Guards (env : CompileEnv) (history : List Registration) (pluginId collection : String) :
    Prop :=
  ∀ schema ∈ declared env history pluginId collection, ∀ data, schema data ≠ [] →
    ∀ now draw rows,
      Quarantined draw rows pluginId collection data
        (validatedCreate env (run (CoreRegistry.step env) .new history) now draw rows
          pluginId collection data) ∧
      ∀ id version, Quarantined draw rows pluginId collection data
        (validatedUpdate env (run (CoreRegistry.step env) .new history) now draw rows
          pluginId collection id data version)

/-- What is not rejected is stored, in an empty storage. -/
theorem rejects_of_guards {env : CompileEnv} {history : List Registration}
    {pluginId collection : String} (hguards : Guards env history pluginId collection)
    {schema : Validator} (hschema : schema ∈ declared env history pluginId collection)
    {data : Json} (herrors : schema data ≠ []) :
    Rejects (run (CoreRegistry.step env) .new history) collection data := by
  by_contra hrejects
  let draw : Draw := ⟨⟨0, by decide⟩, 0, []⟩
  obtain ⟨entry, -, -, -, houtcome⟩ := (hguards schema hschema data herrors 0 draw .empty).1
  have hfree : uuidText draw.uuid ∉ (Table.empty : Rows).keys := List.not_mem_nil
  obtain ⟨rows', -, hcreate⟩ := @createWithId_of_not_mem draw.now .empty pluginId collection
    (uuidText draw.uuid) data hfree
  rw [validatedCreate, validated_of_not_rejects hrejects] at houtcome
  exact nomatch congrArg Prod.fst houtcome

/-- Writes are guarded exactly if the schema under the bare name of the collection refuses all that
the plugin's does. -/
theorem guards_iff (env : CompileEnv) (history : List Registration)
    (pluginId collection : String) :
    Guards env history pluginId collection ↔
      ∀ schema ∈ declared env history pluginId collection, ∀ data, schema data ≠ [] →
        Rejects (run (CoreRegistry.step env) .new history) collection data := by
  constructor
  · intro hguards schema hschema data herrors
    exact rejects_of_guards hguards hschema herrors
  · intro hrejects schema hschema data herrors now draw rows
    have hreject := hrejects schema hschema data herrors
    exact ⟨validated_of_rejects hreject, fun _ _ => validated_of_rejects hreject⟩

/-- A compiler for which every schema asks for an object. -/
def objectsOnly : CompileEnv where
  compile _ := .ok fun
    | .obj _ => []
    | _ => ["not an object"]
  rfc3339 _ := ""

/-- Only the plugin's schema is registered: a text passes for an item. -/
theorem not_guards_own_schema :
    ¬ Guards objectsOnly [.plugin "todo" "lists" (.obj [("type", .str "object")])]
      "todo" "lists" := by
  intro hguards
  have herrors : ["not an object"] ≠ [] := List.cons_ne_nil _ _
  obtain ⟨entry, hentry, -⟩ := @rejects_of_guards _ _ _ _ hguards _ rfl (.str "milk") herrors
  exact nomatch hentry

end LifeEngine.Records
