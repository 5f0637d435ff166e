import LifeEngine.Support.Fallible
import LifeEngine.Types.Pipeline

/-!
# The schema registry

`SchemaRegistry` knows a schema for some of the collections of each plugin and
checks the documents that a plugin writes there.  A schema is compiled to a
validator, which lists the errors of a document; compilation and the reading of
JSON texts belong to other crates.
-/

namespace LifeEngine.Schema

open Support

inductive SchemaError where
  | invalidSchema (collection message : String)
  | validationFailed (collection message : String)
  | immutableField (field : String)
  | namespaceViolation (pluginId ns : String)
  deriving DecidableEq, Repr

def SchemaError.display : SchemaError → String
  | invalidSchema collection message =>
    "invalid schema for collection '" ++ collection ++ "': " ++ message
  | validationFailed collection message =>
    "validation failed for collection '" ++ collection ++ "': " ++ message
  | immutableField field => "immutable field '" ++ field ++ "' cannot be changed on update"
  | namespaceViolation pluginId ns =>
    "namespace violation: plugin '" ++ pluginId ++ "' cannot write to ext." ++ ns

/-- A compiled schema, as the errors that it finds in a value. -/
abbrev Validator := Json → List String

structure CollectionSchema where
  validator : Option Validator
  extensionValidator : Option Validator
  strict : Bool

/-- The canonical schemas, and what plugins have registered. -/
structure SchemaRegistry where
  cdmValues : String → Option Json
  collections : String × String → Option CollectionSchema
  schemaValues : String × String → Option Json

/-- What the registry takes from other crates. -/
structure SchemaEnv where
  /-- `serde_json::from_str`. -/
  parseJson : String → Except String Json
  /-- `jsonschema::draft202012::new`. -/
  compile : Json → Except String Validator
  /-- A time in whole seconds. -/
  secondsText : Timestamp → String

namespace SchemaRegistry

def new : SchemaRegistry :=
  ⟨fun _ => none, fun _ => none, fun _ => none⟩

/-- The validator of a reference. A schema given by its text is stored at once. -/
def resolveSchema (env : SchemaEnv) (reg : SchemaRegistry) (pluginId collection : String) :
    Option String → Except SchemaError (Option Validator) × SchemaRegistry
  | none => (.ok none, reg)
  | some text =>
    if "cdm:".toList.isPrefixOf text.toList then
      let cdmName := String.ofList (text.toList.drop 4)
      match reg.cdmValues cdmName with
      | none => (.error (.invalidSchema collection
          ("unknown CDM schema '" ++ cdmName ++ "'")), reg)
      | some value => ((env.compile value).mapError (fun e =>
        .invalidSchema collection ("failed to compile CDM schema: " ++ e))
        |>.map some, reg)
    else
      match env.parseJson text with
      | .error e => (.error (.invalidSchema collection
          ("invalid schema JSON: " ++ e)), reg)
      | .ok value =>
        match env.compile value with
        | .error e => (.error (.invalidSchema collection
            ("failed to compile schema: " ++ e)), reg)
        | .ok validator =>
          let schemaValues :=
            Function.update reg.schemaValues (pluginId, collection) (some value)
          (.ok (some validator), { reg with schemaValues := schemaValues })

def compileExtension (env : SchemaEnv) (collection : String) :
    Option String → Except SchemaError (Option Validator)
  | none => .ok none
  | some text => do
      let value ← (env.parseJson text).mapError fun e =>
        .invalidSchema collection ("invalid extension schema JSON: " ++ e)
      let validator ← (env.compile value).mapError fun e =>
        .invalidSchema collection ("failed to compile extension schema: " ++ e)
      return some validator

def registerPluginCollection (env : SchemaEnv) (reg : SchemaRegistry)
    (pluginId collection : String) (schemaRef extensionSchema : Option String)
    (strict : Bool) : Except SchemaError Unit × SchemaRegistry :=
  match resolveSchema env reg pluginId collection schemaRef with
  | (.error e, reg) => (.error e, reg)
  | (.ok validator, reg) =>
    match compileExtension env collection extensionSchema with
    | .error e => (.error e, reg)
    | .ok extensionValidator =>
      let schema : CollectionSchema := ⟨validator, extensionValidator, strict⟩
      let collections :=
        Function.update reg.collections (pluginId, collection) (some schema)
      (.ok (), { reg with collections := collections })

/-! ## Validation of writes -/

/-- A given field is the same as the stored one. -/
def checkUnchanged (field : String) (fields existing : JsonMap) :
    Except SchemaError Unit :=
  match fields.get field, existing.get field with
  | some new, some old => ensure (new = old) (.immutableField field)
  | _, _ => .ok ()

/-- The immutable fields, which only updates of an object check. -/
def checkImmutable (isCreate : Bool) (existing : Option Json) (fields : JsonMap) :
    Except SchemaError Unit :=
  match isCreate, existing with
  | false, some (.obj old) => do
      checkUnchanged "id" fields old
      checkUnchanged "created_at" fields old
  | _, _ => .ok ()

/-- There is no namespace but the one of the plugin. -/
def checkNamespaces (pluginId field : String) (fields : JsonMap) :
    Except SchemaError Unit :=
  match fields.get field with
  | some (.obj namespaces) =>
    match (namespaces.map Prod.fst).find? (· ≠ pluginId) with
    | some ns => .error (.namespaceViolation pluginId ns)
    | none => .ok ()
  | _ => .ok ()

def checkErrors (collection : String) (message : String → String) :
    List String → Except SchemaError Unit
  | [] => .ok ()
  | e :: _ => .error (.validationFailed collection (message e))

def extractPropertyKeys (schema : Json) : Option (List String) :=
  match schema.get "properties" with
  | some (.obj properties) => some (properties.map Prod.fst)
  | _ => none

/-- The canonical schema comes first. -/
def getSchemaProperties (reg : SchemaRegistry) (pluginId collection : String) :
    Option (List String) :=
  match reg.cdmValues collection with
  | some value => extractPropertyKeys value
  | none => (reg.schemaValues (pluginId, collection)).bind extractPropertyKeys

/-- The fields that strict mode always allows. -/
def systemFields : List String := ["id", "created_at", "updated_at", "ext", "extensions"]

def checkStrict (reg : SchemaRegistry) (pluginId collection : String) (strict : Bool)
    (fields : JsonMap) : Except SchemaError Unit :=
  match strict, getSchemaProperties reg pluginId collection with
  | true, some props =>
    match (fields.map Prod.fst).find? (fun key => key ∉ systemFields ∧ key ∉ props) with
    | some key => .error (.validationFailed collection
        ("strict mode: unknown field '" ++ key ++ "' not defined in schema"))
    | none => .ok ()
  | _, _ => .ok ()

/-- Under `ext` or else under `extensions`. -/
def extensionData (pluginId : String) (fields : JsonMap) : Option Json :=
  ((fields.get "ext").bind (·.get pluginId)).or
    ((fields.get "extensions").bind (·.get pluginId))

def checkExtension (schema : CollectionSchema) (collection pluginId : String)
    (fields : JsonMap) : Except SchemaError Unit :=
  match schema.extensionValidator, extensionData pluginId fields with
  | some validator, some data =>
    checkErrors collection ("extension validation: " ++ ·) (validator data)
  | _, _ => .ok ()

def restore (key : String) (saved : Option Json) (fields : JsonMap) : JsonMap :=
  match saved with
  | some value => JsonMap.insert key value fields
  | none => fields

/-- The checks on the fields of an object. The system fields are filled in for the validator only.
-/
def validateFields (env : SchemaEnv) (reg : SchemaRegistry) (schema : CollectionSchema)
    (validator : Validator) (uuid : Uuid) (now : Timestamp) (collection pluginId : String)
    (isCreate : Bool) (existing : Option Json) (fields : JsonMap) :
    Except SchemaError JsonMap := do
  checkImmutable isCreate existing fields
  let body := ((fields.remove "id").remove "created_at").remove "updated_at"
  checkNamespaces pluginId "ext" body
  checkNamespaces pluginId "extensions" body
  let id := (fields.get "id").getD (.str (uuidText uuid))
  let time := Json.str (env.secondsText now)
  let filled := JsonMap.insert "updated_at" time
    (JsonMap.insert "created_at" time (JsonMap.insert "id" id body))
  checkErrors collection (fun e => e) (validator (.obj filled))
  checkStrict reg pluginId collection schema.strict filled
  checkExtension schema collection pluginId filled
  -- What the caller gave stands again in place of the values filled in.
  return restore "updated_at" (fields.get "updated_at")
    (restore "created_at" (fields.get "created_at") (restore "id" (fields.get "id") filled))

def validateWrite (env : SchemaEnv) (reg : SchemaRegistry) (uuid : Uuid) (now : Timestamp)
    (collection pluginId : String) (document : Json) (isCreate : Bool)
    (existing : Option Json) : Except SchemaError Json := do
  let schema ← okOr (reg.collections (pluginId, collection)) (.validationFailed collection
    ("no schema registered for plugin '" ++ pluginId ++ "' collection '" ++ collection ++
      "'"))
  match schema.validator, document with
  | none, _ => .ok document
  | some validator, .obj fields =>
    let fields :=
      if isCreate ∧ JsonMap.get fields "id" = none then
        JsonMap.insert "id" (.str (uuidText uuid)) fields
      else fields
    .obj <$> validateFields env reg schema validator uuid now collection pluginId
      isCreate existing fields
  | some _, _ => .error (.validationFailed collection "document must be a JSON object")

/-! ## Accepted documents -/

theorem namespace_of_checkNamespaces {pluginId field : String} {fields namespaces : JsonMap}
    (h : checkNamespaces pluginId field fields = .ok ())
    (hget : fields.get field = some (.obj namespaces)) :
    ∀ ns ∈ namespaces.map Prod.fst, ns = pluginId := by
  simp only [checkNamespaces, hget] at h
  split at h
  · cases h
  · next hnone =>
    intro ns hns
    simpa using List.find?_eq_none.mp hnone ns hns

section Accepted

variable {env : SchemaEnv} {reg : SchemaRegistry} {schema : CollectionSchema}
  {validator : Validator} {uuid : Uuid} {now : Timestamp} {collection pluginId : String}
  {isCreate : Bool} {existing : Option Json}

theorem namespaces_of_validateFields {fields result : JsonMap}
    (h : validateFields env reg schema validator uuid now collection pluginId isCreate
      existing fields = .ok result) {field : String} (hfield : field ∈ ["ext", "extensions"])
    {namespaces : JsonMap} (hget : fields.get field = some (.obj namespaces)) :
    ∀ ns ∈ namespaces.map Prod.fst, ns = pluginId := by
  obtain ⟨_, -, h⟩ := bind_eq_ok_iff.mp h
  obtain ⟨_, hext, h⟩ := bind_eq_ok_iff.mp h
  obtain ⟨_, hextensions, -⟩ := bind_eq_ok_iff.mp h
  have hbody : (((fields.remove "id").remove "created_at").remove "updated_at").get field =
      some (.obj namespaces) := by
    rcases List.mem_pair.mp hfield with rfl | rfl
    all_goals
      rw [JsonMap.get_remove_of_ne (by decide), JsonMap.get_remove_of_ne (by decide),
        JsonMap.get_remove_of_ne (by decide), hget]
  rcases List.mem_pair.mp hfield with rfl | rfl
  · exact namespace_of_checkNamespaces hext hbody
  · exact namespace_of_checkNamespaces hextensions hbody

theorem namespaces_of_validateWrite {document result : Json}
    (h : validateWrite env reg uuid now collection pluginId document isCreate existing = .ok result)
    (hschema : reg.collections (pluginId, collection) = some schema)
    (hvalidator : schema.validator ≠ none) {field : String}
    (hfield : field ∈ ["ext", "extensions"]) {namespaces : JsonMap}
    (hget : document.get field = some (.obj namespaces)) :
    ∀ ns ∈ namespaces.map Prod.fst, ns = pluginId := by
  obtain ⟨found, hfound, h⟩ := bind_eq_ok_iff.mp h
  rw [hschema] at hfound
  obtain rfl := Except.ok.inj hfound
  split at h
  · exact absurd ‹schema.validator = none› hvalidator
  · next fields _ =>
    obtain ⟨_, hfields, -⟩ := map_eq_ok_iff.mp h
    refine namespaces_of_validateFields hfields hfield ?_
    split
    · have hid : field ≠ "id" := by
        rintro rfl
        simp at hfield
      rw [JsonMap.get_insert_of_ne hid]
      exact hget
    · exact hget
  · cases h

end Accepted

end SchemaRegistry

end LifeEngine.Schema
