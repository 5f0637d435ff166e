import LifeEngine.Plugins.Manifest
import LifeEngine.StorageContext.Context

/-!
# Namespaces of plugins

A plugin-scoped collection is stored under the plugin's id, a dot, and the name
of the collection.  Shared collections keep their declared name.  The main result
says for which pairs of accepted manifests one plugin can never name a scoped
collection of the other.
-/

namespace LifeEngine.StorageContext

open Support Plugins

def StorageCapability.parse (s : String) : Option StorageCapability :=
  if s = "storage:doc:read" then some docRead
  else if s = "storage:doc:write" then some docWrite
  else if s = "storage:doc:delete" then some docDelete
  else if s = "storage:blob:read" then some blobRead
  else if s = "storage:blob:write" then some blobWrite
  else if s = "storage:blob:delete" then some blobDelete
  else none

/-- The text in a `CollectionAccess`. -/
def accessText : AccessLevel → String
  | .read => "read"
  | .write => "write"
  | .readWrite => "read-write"

/-- Its id, its storage capabilities and its collections. -/
def callerOf (manifest : PluginManifest) : CallerIdentity :=
  .plugin manifest.plugin.id
    (manifest.capabilities.filterMap fun c => StorageCapability.parse c.toStr)
    (manifest.collections.map fun entry => ⟨entry.1, accessText entry.2.access⟩)

/-- No name that resolves for the first plugin is a scoped one of the second. -/
def NeverNamesScoped (first second : PluginManifest) : Prop :=
  ∀ collection isScoped collection' name,
    resolveCollection (callerOf first) collection isScoped = .ok name →
      resolveCollection (callerOf second) collection' true ≠ .ok name

theorem resolve_scoped_eq {manifest : PluginManifest} {collection name : String} :
    resolveCollection (callerOf manifest) collection true = .ok name ↔
      name = manifest.plugin.id ++ "." ++ collection := by
  constructor
  · intro h
    exact (Except.ok.inj h).symm
  · rintro rfl
    rfl

theorem resolve_shared_eq {manifest : PluginManifest} {collection name : String} :
    resolveCollection (callerOf manifest) collection false = .ok name ↔
      name = collection ∧ ∃ entry ∈ manifest.collections, entry.1 = collection := by
  rw [callerOf, resolveCollection_shared_ok_iff]
  simp

/-- Ids without dots can be told from scoped names. -/
theorem scoped_name_inj {a b c d : String} (ha : '.' ∉ a.toList)
    (hb : '.' ∉ b.toList) (h : a ++ "." ++ c = b ++ "." ++ d) : a = b := by
  have hlist : a.toList ++ '.' :: c.toList = b.toList ++ '.' :: d.toList := by
    have htoList := congrArg String.toList h
    simpa using htoList
  have hfirst := congrArg (firstField '.') hlist
  rw [firstField_append_cons ha, firstField_append_cons hb] at hfirst
  exact String.toList_inj.mp hfirst

/-- For two accepted manifests with different ids, the first plugin never names a scoped collection
of the second exactly when it declares none whose name starts with the second id and a dot. -/
theorem neverNamesScoped_iff (isValidSemver : String → Bool) (path₁ path₂ : String)
    (raw₁ raw₂ : RawManifest) {first second : PluginManifest}
    (hfirst : parseManifestToml isValidSemver path₁ raw₁ = .ok first)
    (hsecond : parseManifestToml isValidSemver path₂ raw₂ = .ok second)
    (hne : first.plugin.id ≠ second.plugin.id) :
    NeverNamesScoped first second ↔
      ∀ entry ∈ first.collections, ¬ (second.plugin.id ++ ".").toList <+: entry.1.toList := by
  have hdot₁ := dot_not_mem_of_isValidPluginId (parseManifestToml_ok_isValidPluginId hfirst)
  have hdot₂ := dot_not_mem_of_isValidPluginId (parseManifestToml_ok_isValidPluginId hsecond)
  constructor
  · intro hnever entry hentry hstart
    obtain ⟨rest, hrest⟩ := hstart
    have hname : entry.1 = second.plugin.id ++ "." ++ String.ofList rest := by
      rw [← String.toList_inj, ← hrest]
      simp
    exact hnever entry.1 false (String.ofList rest) entry.1
      (resolve_shared_eq.mpr ⟨rfl, entry, hentry, rfl⟩) (resolve_scoped_eq.mpr hname)
  · intro hdeclared collection isScoped collection' name hname₁ hname₂
    have hname := resolve_scoped_eq.mp hname₂
    cases isScoped with
    | true =>
      have hscoped := (resolve_scoped_eq.mp hname₁).symm.trans hname
      exact hne (scoped_name_inj hdot₁ hdot₂ hscoped)
    | false =>
      obtain ⟨hcollection, entry, hentry, hshared⟩ := resolve_shared_eq.mp hname₁
      apply hdeclared entry hentry
      rw [hshared, ← hcollection, hname]
      exact ⟨collection'.toList, (String.toList_append ..).symm⟩

/-- One action and the given collections, for reading and writing. -/
def plainManifest (id : String) (collections : List String) : RawManifest where
  plugin := some ⟨some id, some id, some "1.0.0", none, none, none, none⟩
  actions := some [("run", ⟨some "Runs the plugin.", none, none, none⟩)]
  capabilities := none
  collections := some (collections.map fun name =>
    (name, ⟨some "cdm:notes", some "read-write", none, none, none, none, none⟩))
  events := none
  config := none

def plainParsed (id : String) (collections : List String) : PluginManifest where
  plugin := ⟨id, id, "1.0.0", none, none, none, .thirdParty⟩
  actions := [("run", ⟨"Runs the plugin.", 30000, none, none⟩)]
  capabilities := []
  collections := collections.map fun name =>
    (name, ⟨"cdm:notes", .readWrite, false, [], [], none, []⟩)
  events := ⟨[], []⟩
  config := none

theorem neverNamesScoped_mail_notes :
    NeverNamesScoped (plainParsed "mail" ["contacts"]) (plainParsed "notes" []) :=
  (neverNamesScoped_iff (fun v => v = "1.0.0") "mail.toml" "notes.toml"
    (plainManifest "mail" ["contacts"]) (plainManifest "notes" []) rfl rfl
    (by decide)).mpr (by decide)

/-- Plugin `mail` declares the name that `notes` has for its private collection `drafts`. -/
theorem not_neverNamesScoped_mail_notes :
    parseManifestToml (fun v => v = "1.0.0") "mail.toml"
        (plainManifest "mail" ["notes.drafts"]) =
      .ok (plainParsed "mail" ["notes.drafts"]) ∧
    parseManifestToml (fun v => v = "1.0.0") "notes.toml" (plainManifest "notes" []) =
      .ok (plainParsed "notes" []) ∧
    ¬ NeverNamesScoped (plainParsed "mail" ["notes.drafts"]) (plainParsed "notes" []) := by
  refine ⟨rfl, rfl, ?_⟩
  intro hnever
  exact hnever "notes.drafts" false "drafts" "notes.drafts" rfl rfl

end LifeEngine.StorageContext
