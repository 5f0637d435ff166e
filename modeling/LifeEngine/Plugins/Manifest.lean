import LifeEngine.Plugins.Basic
import LifeEngine.Support.Fallible
import LifeEngine.Support.Text

/-!
# Plugin manifests

The checks that turn the tables of a `manifest.toml` into a `PluginManifest`,
stopping at the first error.  A hash map is the list of its entries in the order
in which it is walked.  Semantic version numbers are read by a crate of their own,
so the test for them is a parameter.
-/

namespace LifeEngine.Plugins

open Support

inductive TrustLevel where
  | firstParty
  | thirdParty
  deriving DecidableEq, Repr

def TrustLevel.fromStrValue (s : String) : Except String TrustLevel :=
  if s = "first_party" then .ok firstParty
  else if s = "third_party" then .ok thirdParty
  else .error ("invalid trust level '" ++ s ++
    "': must be 'first_party' or 'third_party'")

/-- `CollectionAccess` of a manifest. -/
inductive AccessLevel where
  | read
  | write
  | readWrite
  deriving DecidableEq, Repr

def AccessLevel.fromStrValue (s : String) : Except String AccessLevel :=
  if s = "read" then .ok read
  else if s = "write" then .ok write
  else if s = "read-write" then .ok readWrite
  else .error ("invalid collection access '" ++ s ++
    "': must be 'read', 'write', or 'read-write'")

structure PluginMeta where
  id : String
  name : String
  version : String
  description : Option String
  author : Option String
  license : Option String
  trust : TrustLevel

structure ActionDef where
  description : String
  timeoutMs : Nat
  inputSchema : Option String
  outputSchema : Option String

structure CollectionDef where
  schema : String
  access : AccessLevel
  strict : Bool
  indexes : List String
  extensions : List String
  extensionSchema : Option String
  extensionIndexes : List String

structure EventsDef where
  emit : List String
  subscribe : List String

structure PluginManifest where
  plugin : PluginMeta
  actions : List (String × ActionDef)
  capabilities : List Capability
  collections : List (String × CollectionDef)
  events : EventsDef
  config : Option Json

/-! ## The tables of the file -/

structure RawPluginMeta where
  id : Option String
  name : Option String
  version : Option String
  description : Option String
  author : Option String
  license : Option String
  trust : Option String

structure RawActionDef where
  description : Option String
  timeoutMs : Option Nat
  inputSchema : Option String
  outputSchema : Option String

structure RawCollectionDef where
  schema : Option String
  access : Option String
  strict : Option Bool
  indexes : Option (List String)
  extensions : Option (List String)
  extensionSchema : Option String
  extensionIndexes : Option (List String)

structure RawEvents where
  emit : Option (Option (List String))
  subscribe : Option (Option (List String))

/-- `RawManifest`: the result of reading the TOML text. -/
structure RawManifest where
  plugin : Option RawPluginMeta
  actions : Option (List (String × RawActionDef))
  capabilities : Option (Option (List String))
  collections : Option (List (String × RawCollectionDef))
  events : Option RawEvents
  config : Option (Option Json)

/-! ## The checks -/

def defaultTimeoutMs : Nat := 30000

/-- Lowercase letters, digits and hyphens, starting with a letter. -/
def isValidPluginId (id : String) : Bool :=
  match id.toList with
  | [] => false
  | c :: cs => c.isLower && cs.all (fun c => c.isLower || c.isDigit || c == '-')

def isReservedName (name : String) : Bool :=
  name == "audit_log" || "system.".toList.isPrefixOf name.toList

/-- A required field of `[plugin]`, not empty. -/
def requireField (field path : String) (value : Option String) :
    Except PluginError String :=
  okOr (value.filter (fun s => s ≠ "")) (.manifestMissingField field path)

/-- The trust level, third party if none is given. -/
def parseTrust : Option String → Except PluginError TrustLevel
  | some t => (TrustLevel.fromStrValue t).mapError PluginError.manifestInvalid
  | none => .ok .thirdParty

/-- The `[plugin]` section. -/
def parsePluginMeta (isValidSemver : String → Bool) (path : String)
    (raw : RawPluginMeta) : Except PluginError PluginMeta := do
  let id ← requireField "id" path raw.id
  let name ← requireField "name" path raw.name
  let version ← requireField "version" path raw.version
  ensure (isValidPluginId id) (.manifestInvalid ("invalid plugin ID '" ++ id ++
    "': must start with a lowercase letter and contain only lowercase letters, " ++
    "digits, and hyphens"))
  ensure (¬ isReservedName id) (.manifestInvalid ("reserved name '" ++ id ++
    "': plugin IDs cannot use reserved names"))
  ensure (isValidSemver version) (.manifestInvalid ("invalid version '" ++ version ++
    "': must be valid semver (e.g., 1.0.0)"))
  let trust ← parseTrust raw.trust
  return ⟨id, name, version, raw.description, raw.author, raw.license, trust⟩

def parseAction (pluginId : String) (entry : String × RawActionDef) :
    Except PluginError (String × ActionDef) := do
  let (name, raw) := entry
  let description ← okOr (raw.description.filter (fun d => d ≠ "")) (.manifestInvalid
    ("action '" ++ name ++
      "' missing required 'description' field in manifest for plugin '" ++ pluginId ++
      "'"))
  return (name, ⟨description, raw.timeoutMs.getD defaultTimeoutMs, raw.inputSchema,
    raw.outputSchema⟩)

/-- The `[actions]` section, with at least one action. -/
def parseActions (pluginId : String) :
    Option (List (String × RawActionDef)) → Except PluginError (List (String × ActionDef))
  | none | some [] => .error (.manifestInvalid
      ("no actions declared in manifest for plugin '" ++ pluginId ++ "'"))
  | some actions => actions.mapM (parseAction pluginId)

def parseCapability (pluginId s : String) : Except PluginError Capability :=
  okOr (Capability.fromStr s) (.manifestInvalid ("unknown capability '" ++ s ++
    "' in manifest for plugin '" ++ pluginId ++ "'. Valid capabilities: " ++
    "storage:doc:read, storage:doc:write, storage:doc:delete, storage:blob:read, " ++
    "storage:blob:write, storage:blob:delete, http:outbound, events:emit, " ++
    "events:subscribe, config:read"))

/-- One entry of the `[collections]` section. -/
def parseCollection (pluginId : String) (entry : String × RawCollectionDef) :
    Except PluginError (String × CollectionDef) := do
  let (name, raw) := entry
  ensure (¬ isReservedName name) (.manifestInvalid ("reserved name '" ++ name ++
    "': collection names cannot use reserved names"))
  let schema ← okOr raw.schema (.manifestInvalid ("collection '" ++ name ++
    "' missing required 'schema' field in manifest for plugin '" ++ pluginId ++ "'"))
  let accessStr ← okOr raw.access (.manifestInvalid ("collection '" ++ name ++
    "' missing required 'access' field in manifest for plugin '" ++ pluginId ++ "'"))
  let access ← (AccessLevel.fromStrValue accessStr).mapError fun e =>
    PluginError.manifestInvalid ("collection '" ++ name ++ "' in plugin '" ++ pluginId ++
      "': " ++ e)
  (raw.extensions.getD []).forM fun ext =>
    ensure ("ext.".toList.isPrefixOf ext.toList) (.manifestInvalid
      ("collection '" ++ name ++ "' extension '" ++ ext ++
        "' must follow 'ext.<plugin-id>.<field>' naming convention"))
  return (name, ⟨schema, access, raw.strict.getD false, raw.indexes.getD [],
    raw.extensions.getD [], raw.extensionSchema, raw.extensionIndexes.getD []⟩)

/-- The plugin, an action and an outcome. -/
def checkEventName (name : String) : Except PluginError Unit :=
  ensure (3 ≤ (name.toList.splitOn '.').length) (.manifestInvalid
    ("event name '" ++ name ++
      "' does not follow '<plugin-id>.<action>.<outcome>' convention"))

/-- The consistency checks between the sections. -/
def checkConsistency (pluginId : String) (capabilities : List Capability)
    (events : EventsDef) (config : Option Json) : Except PluginError Unit := do
  ensure (events.emit = [] ∨ Capability.eventsEmit ∈ capabilities) (.manifestInvalid
    ("plugin '" ++ pluginId ++
      "' declares events to emit but lacks 'events:emit' capability"))
  ensure (events.subscribe = [] ∨ Capability.eventsSubscribe ∈ capabilities)
    (.manifestInvalid ("plugin '" ++ pluginId ++
      "' declares event subscriptions but lacks 'events:subscribe' capability"))
  ensure (config.isNone ∨ Capability.configRead ∈ capabilities) (.manifestInvalid
    ("plugin '" ++ pluginId ++
      "' declares [config] section but lacks 'config:read' capability"))
  events.emit.forM checkEventName

/-- `parse_manifest_toml`, from the tables of the file on. -/
def parseManifestToml (isValidSemver : String → Bool) (path : String)
    (raw : RawManifest) : Except PluginError PluginManifest := do
  let rawPlugin ← okOr raw.plugin
    (.manifestInvalid ("missing [plugin] section in " ++ path))
  let plugin ← parsePluginMeta isValidSemver path rawPlugin
  let actions ← parseActions plugin.id raw.actions
  let capabilities ← (raw.capabilities.join.getD []).mapM (parseCapability plugin.id)
  let collections ← (raw.collections.getD []).mapM (parseCollection plugin.id)
  let events : EventsDef :=
    ⟨(raw.events.bind (fun e => e.emit.join)).getD [],
      (raw.events.bind (fun e => e.subscribe.join)).getD []⟩
  let config := raw.config.join
  checkConsistency plugin.id capabilities events config
  return ⟨plugin, actions, capabilities, collections, events, config⟩

/-! ## Accepted manifests -/

theorem parseManifestToml_ok_isValidPluginId {isValidSemver : String → Bool}
    {path : String} {raw : RawManifest} {manifest : PluginManifest}
    (h : parseManifestToml isValidSemver path raw = .ok manifest) :
    isValidPluginId manifest.plugin.id = true := by
  simp only [parseManifestToml, bind_eq_ok_iff] at h
  obtain ⟨rawPlugin, -, plugin, hplugin, actions, -, capabilities, -, collections, -,
    -, -, hmanifest⟩ := h
  cases hmanifest
  simp only [parsePluginMeta, bind_eq_ok_iff, ensure_eq_ok_iff] at hplugin
  obtain ⟨id, -, name, -, version, -, -, hid, -, -, -, -, trust, -, hplugin⟩ := hplugin
  cases hplugin
  exact hid

theorem dot_not_mem_of_isValidPluginId {id : String}
    (h : isValidPluginId id = true) : '.' ∉ id.toList := by
  unfold isValidPluginId at h
  intro hdot
  cases hchars : id.toList with
  | nil => simp [hchars] at hdot
  | cons c cs =>
    rw [hchars] at h hdot
    simp only [Bool.and_eq_true, List.all_eq_true] at h
    rcases List.mem_cons.mp hdot with rfl | hmem
    · exact absurd h.1 (by decide)
    · exact absurd (h.2 '.' hmem) (by decide)

end LifeEngine.Plugins
