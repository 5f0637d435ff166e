import LifeEngine.Types.Pipeline

/-!
# Capabilities and errors of the plugin system
-/

namespace LifeEngine.Plugins

/-- `Capability`: a host function access grant. -/
inductive Capability where
  | storageRead
  | storageWrite
  | storageDelete
  | storageBlobRead
  | storageBlobWrite
  | storageBlobDelete
  | httpOutbound
  | eventsEmit
  | eventsSubscribe
  | configRead
  | credentialsRead
  | credentialsWrite
  | logging
  deriving DecidableEq, Repr

namespace Capability

def toStr : Capability → String
  | storageRead => "storage:doc:read"
  | storageWrite => "storage:doc:write"
  | storageDelete => "storage:doc:delete"
  | storageBlobRead => "storage:blob:read"
  | storageBlobWrite => "storage:blob:write"
  | storageBlobDelete => "storage:blob:delete"
  | httpOutbound => "http:outbound"
  | eventsEmit => "events:emit"
  | eventsSubscribe => "events:subscribe"
  | configRead => "config:read"
  | credentialsRead => "credentials:read"
  | credentialsWrite => "credentials:write"
  | logging => "logging"

def fromStr (s : String) : Option Capability :=
  if s = "storage:doc:read" then some storageRead
  else if s = "storage:doc:write" then some storageWrite
  else if s = "storage:doc:delete" then some storageDelete
  else if s = "storage:blob:read" then some storageBlobRead
  else if s = "storage:blob:write" then some storageBlobWrite
  else if s = "storage:blob:delete" then some storageBlobDelete
  else if s = "http:outbound" then some httpOutbound
  else if s = "events:emit" then some eventsEmit
  else if s = "events:subscribe" then some eventsSubscribe
  else if s = "config:read" then some configRead
  else if s = "credentials:read" then some credentialsRead
  else if s = "credentials:write" then some credentialsWrite
  else if s = "logging" then some logging
  else none

end Capability

inductive PluginError where
  | directoryNotFound (message : String)
  | directoryScanFailed (message : String)
  | manifestInvalid (message : String)
  | manifestMissingField (field path : String)
  | wasmLoadFailed (message : String)
  | capabilityViolation (message : String)
  | runtimeCapabilityViolation (message : String)
  | executionFailed (message : String)
  | crash (message : String)
  | lifecycleError (message : String)
  | io (message : String)
  deriving DecidableEq, Repr

end LifeEngine.Plugins
