import LifeEngine.StorageContext.Documents
import LifeEngine.Types.Query

/-!
# Document reads and deletion

`doc_get`, `doc_query`, `doc_count` and `doc_delete` of `StorageContext`.  Reads of
credentials decrypt the claims on the way out.
-/

namespace LifeEngine.StorageContext

open Support Crypto

/-- All document operations of the router. -/
structure DocStore (σ : Type) extends DocRouter σ where
  docQuery : σ → QueryDescriptor → Except StorageError DocumentList
  docCount : σ → String → Option FilterNode → Except StorageError Nat
  docDelete : σ → String → String → Except StorageError Unit × σ

namespace Context

variable (ctx : Context)

def decryptCredentialClaims (doc : Json) : Except StorageError Json :=
  match ctx.credentialMasterKey, doc with
  | some masterKey, .obj fields =>
    if (JsonMap.get fields "encrypted").bind Json.asBool ≠ some true then .ok doc
    else
      match (JsonMap.get fields "claims").bind Json.asStr with
      | none => .error (.internal "encrypted credential missing string 'claims' field")
      | some ciphertext =>
        match (JsonMap.get fields "id").bind Json.asStr with
        | none => .error (.internal "credential document missing 'id' field")
        | some id =>
          match decryptClaims ctx.cipher masterKey id ciphertext with
          | .error e =>
            .error (.internal ("credential decryption failed: " ++ e.display))
          | .ok claims => .ok (.obj (JsonMap.remove
              (JsonMap.insert "claims" claims fields) "encrypted"))
  | _, _ => .ok doc

/-- Decryption, in collections of credentials. -/
def reveal (resolved : String) (doc : Json) : Except StorageError Json :=
  if isCredentialsCollection resolved then ctx.decryptCredentialClaims doc else .ok doc

/-- The first failure fails the whole list. -/
def revealAll (resolved : String) : List Json → Except StorageError (List Json)
  | [] => .ok []
  | doc :: rest => do
      let doc ← ctx.reveal resolved doc
      let docs ← revealAll resolved rest
      pure (doc :: docs)

variable {σ : Type} (store : DocStore σ)

def docGet (s : ContextState σ) (caller : CallerIdentity) (collection id : String)
    (pluginScoped : Bool) : Except StorageError Json := do
  checkCapability caller .docRead
  let resolved ← resolveCollection caller collection pluginScoped
  let doc ← store.docGet s.router resolved id
  ctx.reveal resolved doc

def docQuery (s : ContextState σ) (caller : CallerIdentity) (descriptor : QueryDescriptor)
    (pluginScoped : Bool) : Except StorageError DocumentList := do
  checkCapability caller .docRead
  let resolved ← resolveCollection caller descriptor.collection pluginScoped
  let result ← store.docQuery s.router { descriptor with collection := resolved }
  let documents ← ctx.revealAll resolved result.documents
  pure { result with documents }

def docCount (s : ContextState σ) (caller : CallerIdentity) (collection : String)
    (filters : Option FilterNode) (pluginScoped : Bool) : Except StorageError Nat := do
  checkCapability caller .docRead
  let resolved ← resolveCollection caller collection pluginScoped
  store.docCount s.router resolved filters

def docDelete (s : ContextState σ) (caller : CallerIdentity) (collection id : String)
    (pluginScoped : Bool) : Except StorageError Unit × ContextState σ :=
  match (do
    checkCapability caller .docDelete
    resolveCollection caller collection pluginScoped) with
  | .error e => (.error e, s)
  | .ok resolved =>
    match store.docDelete s.router resolved id with
    | (.error e, r) => (.error e, { s with router := r })
    | (.ok (), r) => (.ok (), { s with
        router := r
        audit := s.audit ++ [⟨"system.storage.deleted", origin caller,
          auditPayload resolved id⟩] })

end Context

end LifeEngine.StorageContext
