import LifeEngine.Types.Pipeline

/-!
# The enforcement layer over the storage router

`StorageContext` stands between its callers and the `StorageRouter`.  This file
holds what all of its operations share: the callers, the capability check, the
resolution of collection names, and the audit events.
-/

namespace LifeEngine.StorageContext

inductive StorageError where
  | notFound (collection id : String)
  | alreadyExists (collection id : String)
  | validationFailed (message : String) (field : Option String)
  | permissionDenied (message : String)
  | schemaConflict (collection message : String)
  | timeout (message : String)
  | connectionFailed (message : String)
  | unsupportedOperation (operation : String)
  | internal (message : String)
  | invalidKey (message : String)
  | transactionFailed (reason : String)
  deriving DecidableEq, Repr

inductive StorageCapability where
  | docRead
  | docWrite
  | docDelete
  | blobRead
  | blobWrite
  | blobDelete
  deriving DecidableEq, Repr

def StorageCapability.asStr : StorageCapability → String
  | docRead => "storage:doc:read"
  | docWrite => "storage:doc:write"
  | docDelete => "storage:doc:delete"
  | blobRead => "storage:blob:read"
  | blobWrite => "storage:blob:write"
  | blobDelete => "storage:blob:delete"

/-- A shared collection that a plugin has declared. -/
structure CollectionAccess where
  collection : String
  access : String
  deriving DecidableEq, Repr

inductive CallerIdentity where
  | plugin (pluginId : String) (capabilities : List StorageCapability)
      (sharedCollections : List CollectionAccess)
  | system

structure AuditEvent where
  eventType : String
  origin : String
  payload : Json

def checkCapability (caller : CallerIdentity) (required : StorageCapability) :
    Except StorageError Unit :=
  match caller with
  | .system => .ok ()
  | .plugin pluginId capabilities _ =>
    if required ∈ capabilities then .ok ()
    else .error (.permissionDenied
      ("plugin '" ++ pluginId ++ "' lacks capability '" ++ required.asStr ++ "'"))

/-- `resolve_collection`: the effective name of a collection. -/
def resolveCollection (caller : CallerIdentity) (collection : String)
    (isPluginScoped : Bool) : Except StorageError String :=
  match caller with
  | .system => .ok collection
  | .plugin pluginId _ sharedCollections =>
    if isPluginScoped then .ok (pluginId ++ "." ++ collection)
    else if sharedCollections.any (fun ca => ca.collection = collection) then
      .ok collection
    else .error (.permissionDenied
      ("plugin '" ++ pluginId ++ "' has not declared access to shared collection '" ++
        collection ++ "'"))

/-- `origin`: the name of the caller in audit events. -/
def origin : CallerIdentity → String
  | .system => "system"
  | .plugin pluginId _ _ => pluginId

/-- The caller passes the capability check. -/
def CallerIdentity.Holds (caller : CallerIdentity) (required : StorageCapability) :
    Prop :=
  checkCapability caller required = .ok ()

theorem holds_plugin_iff {pluginId : String} {capabilities : List StorageCapability}
    {shared : List CollectionAccess} {required : StorageCapability} :
    (CallerIdentity.plugin pluginId capabilities shared).Holds required ↔
      required ∈ capabilities := by
  unfold CallerIdentity.Holds checkCapability
  by_cases h : required ∈ capabilities <;> simp

/-- Without the plugin scope, a declared name resolves to itself. -/
theorem resolveCollection_shared_ok_iff {pluginId collection name : String}
    {capabilities : List StorageCapability} {shared : List CollectionAccess} :
    resolveCollection (.plugin pluginId capabilities shared) collection false =
        .ok name ↔
      name = collection ∧ ∃ ca ∈ shared, ca.collection = collection := by
  by_cases h : ∃ ca ∈ shared, ca.collection = collection
  · have hres : resolveCollection (.plugin pluginId capabilities shared) collection
        false = .ok collection := by
      simpa [resolveCollection] using h
    rw [hres]
    constructor
    · intro heq
      exact ⟨(Except.ok.inj heq).symm, h⟩
    · rintro ⟨rfl, -⟩
      rfl
  · have hany : ¬ shared.any (fun ca => ca.collection = collection) = true := by
      simpa using h
    constructor
    · intro heq
      simp only [resolveCollection, if_neg hany] at heq
      cases heq
    · rintro ⟨-, hdeclared⟩
      exact absurd hdeclared h

end LifeEngine.StorageContext
