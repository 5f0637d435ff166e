import LifeEngine.Storage.Effects

/-!
# What the rows hold

A record is validated and, if it is a credential, encrypted before it is written.
Both follow the collection that the mutation names.  An insertion stores that
collection with the row; an update selects the row by identifier, plugin and
version, and the row keeps the collection it has.
-/

namespace LifeEngine.Storage

open Support

/-- The data was made from a value that the validator accepts; the claims of credentials are
encrypted. -/
structure Prepared (env : SqliteEnv) (nonce : Bytes) (pluginId collection : String)
    (plain data : Json) : Prop where
  accepted : validate env pluginId collection plain = .ok ()
  written : if collection = "credentials" then encryptCredential env nonce plain = .ok data
    else data = plain

/-- A row that holds what its own collection asks for. -/
def Stored (env : SqliteEnv) (r : DataRow Uuid) : Prop :=
  ∃ nonce plain, Prepared env nonce r.pluginId r.collection plain r.data

theorem insertData_ok {env : SqliteEnv} {draw : Draw} {pluginId collection : String}
    {payload : TypedPayload} {data : Json}
    (h : insertData env draw pluginId collection payload = .ok data) :
    Prepared env draw.nonce pluginId collection (serializePayload payload) data := by
  obtain ⟨_, hvalid, hwrite⟩ := bind_eq_ok_iff.mp h
  refine ⟨hvalid, ?_⟩
  by_cases hcredentials : collection = "credentials"
  · rw [if_pos hcredentials] at hwrite ⊢
    exact hwrite
  · rw [if_neg hcredentials] at hwrite ⊢
    exact (Except.ok.inj hwrite).symm

/-- The payload, with the stored extensions if it has none. -/
def mergedPayload (env : SqliteEnv) (s : SqliteStorage) (collection : String) (id : Uuid)
    (payload : TypedPayload) : Except Failure Json :=
  if isCanonical collection ∧ collection ≠ "credentials" then
    mergeExistingExtensions env s.data id (serializePayload payload)
  else .ok (serializePayload payload)

theorem updateData_eq (env : SqliteEnv) (draw : Draw) (s : SqliteStorage)
    (pluginId collection : String) (id : Uuid) (payload : TypedPayload) :
    updateData env draw s pluginId collection id payload = (do
      let merged ← mergedPayload env s collection id payload
      (validate env pluginId collection merged).mapError Failure.error
      if collection = "credentials" then
        (encryptCredential env draw.nonce merged).mapError Failure.error
      else .ok merged) := by
  unfold updateData mergedPayload
  by_cases hmerges : isCanonical collection ∧ collection ≠ "credentials"
  · rw [if_pos hmerges, if_pos hmerges]
  · rw [if_neg hmerges, if_neg hmerges]

theorem updateData_ok {env : SqliteEnv} {draw : Draw} {s : SqliteStorage}
    {pluginId collection : String} {id : Uuid} {payload : TypedPayload} {data : Json}
    (h : updateData env draw s pluginId collection id payload = .ok data) :
    ∃ merged, mergedPayload env s collection id payload = .ok merged ∧
      Prepared env draw.nonce pluginId collection merged data := by
  rw [updateData_eq] at h
  obtain ⟨merged, hmerged, hrest⟩ := bind_eq_ok_iff.mp h
  obtain ⟨_, hvalid, hwrite⟩ := bind_eq_ok_iff.mp hrest
  refine ⟨merged, hmerged, mapError_eq_ok_iff.mp hvalid, ?_⟩
  by_cases hcredentials : collection = "credentials"
  · rw [if_pos hcredentials] at hwrite ⊢
    exact mapError_eq_ok_iff.mp hwrite
  · rw [if_neg hcredentials] at hwrite ⊢
    exact (Except.ok.inj hwrite).symm

/-! ## Runs of mutations -/

/-- An update names the collection of the row that it reaches. -/
def NamesCollection (s : SqliteStorage) : StorageMutation → Prop
  | .update pluginId collection id _ version =>
    ∀ r ∈ s.data.rows, updateHits pluginId id version r = true → r.collection = collection
  | .insert _ _ _ => True
  | .delete _ _ _ => True

def AllStored (env : SqliteEnv) (s : SqliteStorage) : Prop :=
  ∀ r ∈ s.data.rows, Stored env r

theorem allStored_step {env : SqliteEnv} {draw : Draw} {s : SqliteStorage}
    {mutation : StorageMutation} (hs : AllStored env s) (hnames : NamesCollection s mutation) :
    AllStored env (executeMutation env draw s mutation).2 := by
  intro r' hr'
  have heffect := executeMutation_effect env draw s mutation
  generalize (executeMutation env draw s mutation).2 = s' at heffect hr'
  cases heffect with
  | insertRefused | updateRefused | nothingDeleted => exact hs r' hr'
  | inserted hdata hinsert =>
    rcases (Table.mem_insert hinsert).mp hr' with hold | rfl
    · exact hs r' hold
    · exact ⟨draw.nonce, _, insertData_ok hdata⟩
  | updated hdata hr hhit =>
    obtain ⟨r, hr, ⟨hhit, rfl⟩ | ⟨-, rfl⟩⟩ := mem_rewritten.mp hr'
    · -- The row keeps its plugin and its collection, which are those of the update.
      obtain ⟨merged, -, hprepared⟩ := updateData_ok hdata
      obtain ⟨-, hplugin, -⟩ := updateHits_iff.mp hhit
      have hcollection := hnames r hr hhit
      refine ⟨draw.nonce, merged, ?_⟩
      rw [← hplugin, ← hcollection] at hprepared
      exact hprepared
    · exact hs r' hr
  | deleted hr hhit => exact hs r' (Table.mem_deleteWhere.mp hr').1

/-- If every update names the collection of its row, every row holds data that its own validator
accepted, and credentials are encrypted. -/
theorem allStored_run (env : SqliteEnv) (inputs : List (Draw × StorageMutation))
    (hnames : EveryStep (mutationStep env) (fun s input => NamesCollection s input.2)
      emptyStorage inputs) :
    AllStored env (run (mutationStep env) emptyStorage inputs) := by
  apply run_invariant_of_everyStep _ (nofun : AllStored env emptyStorage) hnames
  intro s input hs hinput
  exact allStored_step hs hinput

/-! ## A credential updated as a note -/

theorem encryptCredential_ok {env : SqliteEnv} {nonce : Bytes} {plain data : Json}
    (h : encryptCredential env nonce plain = .ok data) :
    ∃ fields id ciphertext, plain = .obj fields ∧ JsonMap.get fields "id" = some (.str id) ∧
      env.encryptClaims id nonce ((JsonMap.get fields "claims").getD .null) = .ok ciphertext ∧
      data = .obj (JsonMap.insert "encrypted" (.bool true)
        (JsonMap.insert "claims" (.str ciphertext) fields)) := by
  obtain ⟨id, hid, hrest⟩ := bind_eq_ok_iff.mp h
  obtain ⟨ciphertext, hciphertext, hdata⟩ := bind_eq_ok_iff.mp hrest
  have hencrypt := mapError_eq_ok_iff.mp hciphertext
  obtain ⟨text, htext, hstr⟩ : ∃ text, plain.get "id" = some text ∧ text.asStr = some id := by
    unfold credentialId okOr at hid
    split at hid
    next value hvalue =>
      cases hid
      exact Option.bind_eq_some_iff.mp hvalue
    next => cases hid
  obtain rfl : text = .str id := by
    cases text <;> simp_all [Json.asStr]
  cases plain with
  | obj fields =>
    refine ⟨fields, id, ciphertext, rfl, htext, hencrypt, ?_⟩
    exact (Except.ok.inj hdata).symm
  | null | bool | num | str | arr => cases htext

def sealingEnv : SqliteEnv where
  canonicalErrors := fun _ _ => []
  privateSchema := fun _ _ => none
  encryptClaims := fun _ _ _ => .ok "sealed"
  decryptClaims := fun _ _ => .ok .null
  readCdm := fun _ value => .ok value
  parseText := fun _ => none
  select := fun _ _ rows => .ok rows

def customMessage (value : Json) : PipelineMessage :=
  ⟨⟨0, "", 0, none, []⟩, .custom value⟩

/-- A credential is inserted, and updated as a note. -/
def updatedAsNote : List (Draw × StorageMutation) :=
  [(⟨1, 0, []⟩, .insert "vault" "credentials"
      (customMessage (.obj [("claims", .str "secret"), ("id", .str "c")]))),
    (⟨2, 0, []⟩, .update "vault" "notes" 1
      (customMessage (.obj [("claims", .str "secret"), ("id", .str "c")])) 1)]

/-- The claims of the credential stand in the database as they are. -/
theorem not_allStored_updatedAsNote :
    ¬ AllStored sealingEnv (run (mutationStep sealingEnv) emptyStorage updatedAsNote) := by
  intro h
  obtain ⟨nonce, plain, -, hwritten⟩ := h
    ⟨1, "vault", "credentials", .obj [("claims", .str "secret"), ("id", .str "c")], 2, 0, 0⟩
    (List.mem_singleton_self _)
  obtain ⟨fields, id, ciphertext, -, -, -, hdata⟩ := encryptCredential_ok hwritten
  have hmark := congrArg (fun data => Json.get data "encrypted") hdata
  simp [Json.get, JsonMap.get_cons] at hmark

/-- The same update under its own collection. -/
def updatedAsCredential : List (Draw × StorageMutation) :=
  [(⟨1, 0, []⟩, .insert "vault" "credentials"
      (customMessage (.obj [("claims", .str "secret"), ("id", .str "c")]))),
    (⟨2, 0, []⟩, .update "vault" "credentials" 1
      (customMessage (.obj [("claims", .str "other"), ("id", .str "c")])) 1)]

theorem allStored_run_updatedAsCredential :
    AllStored sealingEnv (run (mutationStep sealingEnv) emptyStorage updatedAsCredential) := by
  apply allStored_run
  refine everyStep_cons.mpr ⟨trivial, everyStep_cons.mpr ⟨?_, everyStep_nil _ _⟩⟩
  intro r hr _
  obtain rfl := List.mem_singleton.mp hr
  rfl

end LifeEngine.Storage
