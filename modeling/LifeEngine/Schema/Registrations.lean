import LifeEngine.Schema.Registry

/-!
# Registrations of collections

`register_plugin_collection` stores the value of a schema before it compiles the
extension schema, and the validators after.  Strict mode finds the declared properties
by the name of the collection: first among the canonical schemas, then among the stored
values.  What it finds is the registered schema only if the names agree, and it can
change under a registration that fails.
-/

namespace LifeEngine.Schema.SchemaRegistry

open Support

/-- A call of `register_plugin_collection`. -/
structure Registration where
  pluginId : String
  collection : String
  schemaRef : Option String
  extensionSchema : Option String
  strict : Bool

def Registration.key (r : Registration) : String × String :=
  (r.pluginId, r.collection)

def register (env : SchemaEnv) (reg : SchemaRegistry) (r : Registration) :
    Except SchemaError Unit × SchemaRegistry :=
  registerPluginCollection env reg r.pluginId r.collection r.schemaRef r.extensionSchema
    r.strict

/-- A sequence of registrations that all succeed. -/
inductive Registers (env : SchemaEnv) : SchemaRegistry → List Registration → SchemaRegistry →
    Prop where
  | nil (reg : SchemaRegistry) : Registers env reg [] reg
  | cons {reg reg₁ reg₂ : SchemaRegistry} {r : Registration} {rest : List Registration}
      (hfirst : register env reg r = (.ok (), reg₁)) (hrest : Registers env reg₁ rest reg₂) :
      Registers env reg (r :: rest) reg₂

/-- The reference is to a canonical schema. -/
def isCdmRef (text : String) : Bool :=
  "cdm:".toList.isPrefixOf text.toList

/-- The value of the schema that a reference stands for. -/
def schemaValue (env : SchemaEnv) (reg : SchemaRegistry) (text : String) : Option Json :=
  if isCdmRef text then reg.cdmValues (String.ofList (text.toList.drop 4))
  else (env.parseJson text).toOption

variable {env : SchemaEnv} {reg reg' : SchemaRegistry} {r : Registration}

/-! ## What a registration stores -/

/-- The registry with a schema that was given by its text. -/
def storeValue (reg : SchemaRegistry) (key : String × String) (value : Json) :
    SchemaRegistry :=
  { reg with schemaValues := Function.update reg.schemaValues key (some value) }

def setCollection (reg : SchemaRegistry) (key : String × String) (schema : CollectionSchema) :
    SchemaRegistry :=
  { reg with collections := Function.update reg.collections key (some schema) }

/-- Only a text that compiles is stored. -/
inductive Resolved (env : SchemaEnv) (reg : SchemaRegistry) (key : String × String) :
    Option String → Except SchemaError (Option Validator) × SchemaRegistry → Prop where
  | schemaless : Resolved env reg key none (.ok none, reg)
  | failed (schemaRef : Option String) (e : SchemaError) :
      Resolved env reg key schemaRef (.error e, reg)
  | canonical (text : String) (validator : Validator) (hcdm : isCdmRef text = true) :
      Resolved env reg key (some text) (.ok (some validator), reg)
  | stored (text : String) (value : Json) (validator : Validator)
      (hcdm : isCdmRef text = false) (hvalue : schemaValue env reg text = some value) :
      Resolved env reg key (some text) (.ok (some validator), reg.storeValue key value)

theorem resolveSchema_resolved (env : SchemaEnv) (reg : SchemaRegistry)
    (pluginId collection : String) (schemaRef : Option String) :
    Resolved env reg (pluginId, collection) schemaRef
      (resolveSchema env reg pluginId collection schemaRef) := by
  cases schemaRef with
  | none => exact .schemaless
  | some text =>
    simp only [resolveSchema]
    split
    · next hcdm =>
      split
      · exact .failed _ _
      · next value _ =>
        cases env.compile value with
        | error e => exact .failed _ _
        | ok validator => exact .canonical text validator hcdm
    · next hcdm =>
      split
      · exact .failed _ _
      · next value hparse =>
        split
        · exact .failed _ _
        · refine .stored text value _ (Bool.eq_false_iff.mpr hcdm) ?_
          rw [schemaValue, isCdmRef, if_neg hcdm, hparse]
          rfl

theorem register_ok (h : register env reg r = (.ok (), reg')) :
    ∃ validator extensionValidator stored,
      Resolved env reg r.key r.schemaRef (.ok validator, stored) ∧
        reg' = stored.setCollection r.key ⟨validator, extensionValidator, r.strict⟩ := by
  have hresolved := resolveSchema_resolved env reg r.pluginId r.collection r.schemaRef
  unfold register registerPluginCollection at h
  split at h
  · cases h
  · next validator stored hresolve =>
    rw [hresolve] at hresolved
    split at h
    · cases h
    · next extensionValidator _ =>
      cases h
      exact ⟨validator, extensionValidator, stored, hresolved, rfl⟩

/-- The registries know the same of a collection. -/
structure SameFor (key : String × String) (reg reg' : SchemaRegistry) : Prop where
  cdm : reg'.cdmValues = reg.cdmValues
  collections : reg'.collections key = reg.collections key
  values : reg'.schemaValues key = reg.schemaValues key

theorem sameFor_register (h : register env reg r = (.ok (), reg')) {key : String × String}
    (hkey : key ≠ r.key) : SameFor key reg reg' := by
  obtain ⟨validator, extensionValidator, stored, hresolved, rfl⟩ := register_ok h
  generalize r.schemaRef = schemaRef at hresolved
  cases hresolved with
  | schemaless | canonical _ _ _ => exact ⟨rfl, Function.update_of_ne hkey .., rfl⟩
  | stored _ _ _ _ _ =>
    exact ⟨rfl, Function.update_of_ne hkey .., Function.update_of_ne hkey ..⟩

theorem sameFor_registers {rest : List Registration} (h : Registers env reg rest reg')
    {key : String × String} (hkey : ∀ r ∈ rest, r.key ≠ key) : SameFor key reg reg' := by
  induction h with
  | nil reg => exact ⟨rfl, rfl, rfl⟩
  | cons hfirst hrest ih =>
    have hstep := sameFor_register hfirst (hkey _ (List.mem_cons_self ..)).symm
    have hlater := ih fun r hr => hkey r (List.mem_cons_of_mem _ hr)
    exact ⟨hlater.cdm.trans hstep.cdm, hlater.collections.trans hstep.collections,
      hlater.values.trans hstep.values⟩

/-! ## Strict mode -/

/-- Strict mode finds the schema under the name of the collection. -/
def FoundByName (reg : SchemaRegistry) (collection text : String) : Prop :=
  if isCdmRef text then String.ofList (text.toList.drop 4) = collection
  else reg.cdmValues collection = none

/-- The collection takes the declared properties and no others. -/
structure StrictAsDeclared (env : SchemaEnv) (reg : SchemaRegistry)
    (pluginId collection : String) (properties : List String) : Prop where
  accepted : ∀ uuid now document isCreate existing result,
    validateWrite env reg uuid now collection pluginId document isCreate existing = .ok result →
      ∀ key value, document.get key = some value → key ∈ systemFields ∨ key ∈ properties
  rejected : ∀ fields e, checkStrict reg pluginId collection true fields = .error e →
    ∃ key, key ∉ systemFields ∧ key ∉ properties ∧ e = .validationFailed collection
      ("strict mode: unknown field '" ++ key ++ "' not defined in schema")

variable {pluginId collection : String} {properties : List String}

/-- What strict mode reads after a registration with a schema. -/
theorem read_of_register {text : String} {value : Json}
    (h : register env reg r = (.ok (), reg')) (href : r.schemaRef = some text)
    (hvalue : schemaValue env reg text = some value)
    (hfound : FoundByName reg r.collection text) :
    getSchemaProperties reg' r.pluginId r.collection = extractPropertyKeys value ∧
      ∃ schema, reg'.collections r.key = some schema ∧ schema.validator ≠ none ∧
        schema.strict = r.strict := by
  obtain ⟨validator, extensionValidator, stored, hresolved, rfl⟩ := register_ok h
  unfold FoundByName at hfound
  rw [href] at hresolved
  cases hresolved with
  | canonical _ compiled hcdm =>
    refine ⟨?_, _, Function.update_self .., Option.some_ne_none compiled, rfl⟩
    rw [if_pos hcdm] at hfound
    rw [schemaValue, if_pos hcdm, hfound] at hvalue
    simp only [getSchemaProperties, setCollection, hvalue]
  | stored _ value' compiled hcdm hvalue' =>
    refine ⟨?_, _, Function.update_self .., Option.some_ne_none compiled, rfl⟩
    obtain rfl := Option.some.inj (hvalue'.symm.trans hvalue)
    simp only [hcdm, Bool.false_eq_true, if_false] at hfound
    have hstored : (reg.storeValue r.key value').schemaValues (r.pluginId, r.collection) =
        some value' := Function.update_self ..
    simp only [getSchemaProperties, setCollection, hstored]
    simp [storeValue, hfound]

theorem checkStrict_cases (hproperties :
      getSchemaProperties reg pluginId collection = some properties) (fields : JsonMap) :
    (checkStrict reg pluginId collection true fields = .ok () ∧
      ∀ key ∈ fields.map Prod.fst, key ∈ systemFields ∨ key ∈ properties) ∨
    ∃ key, key ∉ systemFields ∧ key ∉ properties ∧
      checkStrict reg pluginId collection true fields = .error (.validationFailed collection
        ("strict mode: unknown field '" ++ key ++ "' not defined in schema")) := by
  simp only [checkStrict, hproperties]
  split
  · next key hfind =>
    have hunknown : key ∉ systemFields ∧ key ∉ properties := by
      simpa using List.find?_some hfind
    exact .inr ⟨key, hunknown.1, hunknown.2, rfl⟩
  · next hnone =>
    refine .inl ⟨rfl, fun key hkey => ?_⟩
    have hknown := List.find?_eq_none.mp hnone key hkey
    simp only [decide_eq_true_eq, not_and_or, not_not] at hknown
    exact hknown

theorem strict_of_validateWrite {schema : CollectionSchema} {uuid : Uuid} {now : Timestamp}
    {document result : Json} {isCreate : Bool} {existing : Option Json}
    (hschema : reg.collections (pluginId, collection) = some schema)
    (hvalidator : schema.validator ≠ none)
    (h : validateWrite env reg uuid now collection pluginId document isCreate existing =
      .ok result) :
    ∃ filled, checkStrict reg pluginId collection schema.strict filled = .ok () ∧
      ∀ key value, document.get key = some value → key ∉ systemFields →
        key ∈ filled.map Prod.fst := by
  obtain ⟨found, hfound, h⟩ := bind_eq_ok_iff.mp h
  rw [hschema] at hfound
  obtain rfl := Except.ok.inj hfound
  split at h
  · exact absurd ‹schema.validator = none› hvalidator
  · next fields _ =>
    obtain ⟨_, h, -⟩ := map_eq_ok_iff.mp h
    simp only [validateFields, bind_eq_ok_iff] at h
    obtain ⟨_, -, _, -, _, -, _, -, _, hstrict, -⟩ := h
    refine ⟨_, hstrict, fun key value hget hkey => ?_⟩
    simp only [systemFields, List.mem_cons, not_or] at hkey
    obtain ⟨hid, hcreated, hupdated, -, -⟩ := hkey
    refine JsonMap.mem_keys_of_get (?_ : JsonMap.get _ key = some value)
    rw [JsonMap.get_insert_of_ne hupdated, JsonMap.get_insert_of_ne hcreated,
      JsonMap.get_insert_of_ne hid, JsonMap.get_remove_of_ne hupdated,
      JsonMap.get_remove_of_ne hcreated, JsonMap.get_remove_of_ne hid]
    split
    · rw [JsonMap.get_insert_of_ne hid]
      exact hget
    · exact hget
  · cases h

/-- A strict collection takes exactly the declared properties, if the schema has any and is found by
the name of the collection. -/
theorem strictAsDeclared_of_found (env : SchemaEnv) (reg reg₁ reg₂ : SchemaRegistry)
    (r : Registration) (later : List Registration) (text : String) (value : Json)
    (properties : List String) (hregister : register env reg r = (.ok (), reg₁))
    (hlater : Registers env reg₁ later reg₂) (hkey : ∀ r' ∈ later, r'.key ≠ r.key)
    (hstrict : r.strict = true) (href : r.schemaRef = some text)
    (hvalue : schemaValue env reg text = some value)
    (hproperties : extractPropertyKeys value = some properties)
    (hfound : FoundByName reg r.collection text) :
    StrictAsDeclared env reg₂ r.pluginId r.collection properties := by
  have hsame := sameFor_registers hlater hkey
  obtain ⟨hthen, schema, hschema, hvalidator, hsetting⟩ :=
    read_of_register hregister href hvalue hfound
  have hvalues : reg₂.schemaValues (r.pluginId, r.collection) =
      reg₁.schemaValues (r.pluginId, r.collection) := hsame.values
  have hread : getSchemaProperties reg₂ r.pluginId r.collection = some properties := by
    rw [← hproperties, ← hthen]
    simp only [getSchemaProperties, hsame.cdm, hvalues]
  refine ⟨fun uuid now document isCreate existing result hwrite key value hget => ?_,
    fun fields e he => ?_⟩
  · obtain ⟨filled, hchecked, hkeys⟩ :=
      strict_of_validateWrite (hsame.collections.trans hschema) hvalidator hwrite
    rw [hsetting, hstrict] at hchecked
    rcases checkStrict_cases hread filled with ⟨-, hall⟩ | ⟨other, -, -, herror⟩
    · by_cases hsystem : key ∈ systemFields
      · exact .inl hsystem
      · exact hall key (hkeys key value hget hsystem)
    · rw [herror] at hchecked
      cases hchecked
  · rcases checkStrict_cases hread fields with ⟨hok, -⟩ | ⟨key, hsystem, hnot, herror⟩
    · rw [hok] at he
      cases he
    · rw [herror] at he
      exact ⟨key, hsystem, hnot, (Except.error.inj he).symm⟩

/-- A schema with one property. -/
def nameSchema (name : String) : Json :=
  .obj [("properties", .obj [(name, .obj [])])]

/-- A text is the schema of the property with that name. -/
def nameEnv : SchemaEnv where
  parseJson text := if text = "" then .error "no value" else .ok (nameSchema text)
  compile _ := .ok fun _ => []
  secondsText _ := "now"

def canonicalEvents : SchemaRegistry :=
  { new with cdmValues := Function.update new.cdmValues "events" (some (nameSchema "title")) }

def strictRegistration (collection text : String) : Registration :=
  ⟨"notes", collection, some text, none, true⟩

theorem strictAsDeclared_of_found_events :
    StrictAsDeclared nameEnv (register nameEnv canonicalEvents
      (strictRegistration "events" "cdm:events")).2 "notes" "events" ["title"] :=
  strictAsDeclared_of_found nameEnv canonicalEvents _ _
    (strictRegistration "events" "cdm:events") [] "cdm:events" (nameSchema "title") ["title"] rfl
    (.nil _) (by simp) rfl rfl (by decide +kernel) (by decide +kernel)
    (by unfold FoundByName; decide +kernel)

/-- Under another name the schema is not found, and any key passes. -/
theorem not_strictAsDeclared_diary :
    register nameEnv canonicalEvents (strictRegistration "diary" "cdm:events") =
        (.ok (), (register nameEnv canonicalEvents (strictRegistration "diary" "cdm:events")).2) ∧
      ¬ StrictAsDeclared nameEnv (register nameEnv canonicalEvents
        (strictRegistration "diary" "cdm:events")).2 "notes" "diary" ["title"] := by
  refine ⟨rfl, fun h => ?_⟩
  have hkey := h.accepted 1 0 (.obj [("color", .null)]) true none _ rfl "color" .null
    (by decide +kernel)
  revert hkey
  decide +kernel

/-! ## Failed registrations -/

/-- The verdicts of two registries on all writes are the same. -/
def SameVerdicts (env : SchemaEnv) (reg reg' : SchemaRegistry) : Prop :=
  ∀ uuid now collection pluginId document isCreate existing,
    validateWrite env reg' uuid now collection pluginId document isCreate existing =
      validateWrite env reg uuid now collection pluginId document isCreate existing

/-- The schema is given by its text, and stored under the key of the call. -/
def Stores (env : SchemaEnv) (r : Registration) (value : Json) : Prop :=
  ∃ text validator, r.schemaRef = some text ∧ isCdmRef text = false ∧
    env.parseJson text = .ok value ∧ env.compile value = .ok validator

/-- A failed call has stored its schema, if it came that far, and nothing else. -/
theorem register_error {e : SchemaError} (h : register env reg r = (.error e, reg')) :
    (∃ value, Stores env r value ∧ reg' = reg.storeValue r.key value) ∨
      ((∀ value, ¬ Stores env r value) ∧ reg' = reg) := by
  have hafter : reg' = (resolveSchema env reg r.pluginId r.collection r.schemaRef).2 := by
    unfold register registerPluginCollection at h
    split at h
    · next hresolve =>
      cases h
      rw [hresolve]
    · next hresolve =>
      split at h
      · cases h
        rw [hresolve]
      · cases h
  rw [hafter]
  unfold Stores
  cases r.schemaRef with
  | none => exact .inr ⟨by simp, rfl⟩
  | some text =>
    simp only [resolveSchema]
    rw [show "cdm:".toList.isPrefixOf text.toList = isCdmRef text from rfl]
    by_cases hcdm : isCdmRef text = true
    · rw [if_pos hcdm]
      exact .inr ⟨by simp [hcdm], by split <;> rfl⟩
    · rw [if_neg hcdm]
      cases hparse : env.parseJson text with
      | error message => exact .inr ⟨by simp [hparse], rfl⟩
      | ok value =>
        cases hcompile : env.compile value with
        | error message => exact .inr ⟨by simp [hparse, hcompile], by simp [hcompile]⟩
        | ok validator =>
          refine .inl ⟨value, ⟨text, validator, rfl, by simpa using hcdm, hparse, hcompile⟩, ?_⟩
          simp [hcompile, storeValue, Registration.key]

/-- The first field that strict mode does not know. -/
def unknownField (properties : Option (List String)) (fields : JsonMap) : Option String :=
  properties.bind fun known =>
    (fields.map Prod.fst).find? fun key => key ∉ systemFields ∧ key ∉ known

theorem checkStrict_true_eq (fields : JsonMap) :
    checkStrict reg pluginId collection true fields =
      match unknownField (getSchemaProperties reg pluginId collection) fields with
      | some key => .error (.validationFailed collection
          ("strict mode: unknown field '" ++ key ++ "' not defined in schema"))
      | none => .ok () := by
  unfold checkStrict
  cases getSchemaProperties reg pluginId collection <;> rfl

/-- The fields as the validator and strict mode see them. -/
def filledFields (env : SchemaEnv) (uuid : Uuid) (now : Timestamp) (fields : JsonMap) : JsonMap :=
  let body := ((fields.remove "id").remove "created_at").remove "updated_at"
  let id := (fields.get "id").getD (.str (uuidText uuid))
  let time := Json.str (env.secondsText now)
  JsonMap.insert "updated_at" time (JsonMap.insert "created_at" time (JsonMap.insert "id" id body))

/-- The checks before strict mode. -/
def precheck (env : SchemaEnv) (validator : Validator) (collection pluginId : String) (uuid : Uuid)
    (now : Timestamp) (fields : JsonMap) : Except SchemaError Unit := do
  let body := ((fields.remove "id").remove "created_at").remove "updated_at"
  checkNamespaces pluginId "ext" body
  checkNamespaces pluginId "extensions" body
  checkErrors collection (fun e => e) (validator (.obj (filledFields env uuid now fields)))

section Judgement

variable {schema : CollectionSchema} {validator : Validator} {uuid : Uuid} {now : Timestamp}
  {isCreate : Bool} {existing : Option Json} {fields : JsonMap}

theorem validateFields_eq :
    validateFields env reg schema validator uuid now collection pluginId isCreate existing fields =
      (do
        checkImmutable isCreate existing fields
        precheck env validator collection pluginId uuid now fields
        checkStrict reg pluginId collection schema.strict (filledFields env uuid now fields)
        checkExtension schema collection pluginId (filledFields env uuid now fields)
        return restore "updated_at" (fields.get "updated_at")
          (restore "created_at" (fields.get "created_at")
            (restore "id" (fields.get "id") (filledFields env uuid now fields)))) := by
  simp only [validateFields, precheck, filledFields, bind_assoc]

theorem validateWrite_congr (hcollections : reg'.collections = reg.collections)
    (hstrict : ∀ schema validator, reg.collections (pluginId, collection) = some schema →
      schema.validator = some validator → ∀ fields,
        precheck env validator collection pluginId uuid now fields = .ok () →
          checkStrict reg' pluginId collection schema.strict (filledFields env uuid now fields) =
            checkStrict reg pluginId collection schema.strict (filledFields env uuid now fields))
    (document : Json) :
    validateWrite env reg' uuid now collection pluginId document isCreate existing =
      validateWrite env reg uuid now collection pluginId document isCreate existing := by
  unfold validateWrite
  rw [hcollections]
  cases hschema : reg.collections (pluginId, collection) with
  | none => rfl
  | some schema =>
    cases hvalidator : schema.validator with
    | none => simp [okOr_some, hvalidator, bind, Except.bind]
    | some validator =>
      cases document with
      | obj fields =>
        simp only [okOr_some, hvalidator, validateFields_eq, bind, Except.bind]
        generalize (if isCreate = true ∧ JsonMap.get fields "id" = none then _ else fields) = filled
        cases hpre : precheck env validator collection pluginId uuid now filled with
        | error e => rfl
        | ok _ => rw [hstrict schema validator hschema hvalidator filled hpre]
      | _ => simp [okOr_some, hvalidator, bind, Except.bind]

theorem checkExtension_error {e : SchemaError}
    (h : checkExtension schema collection pluginId fields = .error e) :
    ∃ message, e = .validationFailed collection ("extension validation: " ++ message) := by
  unfold checkExtension at h
  split at h
  · next validator data _ _ =>
    cases hvalid : validator data with
    | nil =>
      rw [hvalid] at h
      cases h
    | cons message messages =>
      rw [hvalid] at h
      exact ⟨message, (Except.error.inj h).symm⟩
  · cases h

/-- What strict mode found can be told from the result. -/
theorem unknownField_eq_some_iff (hschema : reg.collections (pluginId, collection) = some schema)
    (hstrict : schema.strict = true) (hvalidator : schema.validator = some validator)
    (hpre : precheck env validator collection pluginId uuid now fields = .ok ()) {key : String} :
    unknownField (getSchemaProperties reg pluginId collection) (filledFields env uuid now fields) =
        some key ↔
      validateWrite env reg uuid now collection pluginId (.obj fields) false none =
        .error (.validationFailed collection
          ("strict mode: unknown field '" ++ key ++ "' not defined in schema")) := by
  have himmutable : checkImmutable false none fields = .ok () := rfl
  simp only [validateWrite, hschema, okOr_some, hvalidator, validateFields_eq, hpre, hstrict,
    checkStrict_true_eq, himmutable, bind, Except.bind, Bool.false_eq_true, false_and, if_false]
  cases unknownField (getSchemaProperties reg pluginId collection)
      (filledFields env uuid now fields) with
  | some found => simp [Functor.map, Except.map]
  | none =>
    cases hextension : checkExtension schema collection pluginId
        (filledFields env uuid now fields) with
    | ok _ => simp [Functor.map, Except.map, pure, Except.pure]
    | error e =>
      obtain ⟨message, rfl⟩ := checkExtension_error hextension
      have hne : "extension validation: " ++ message ≠
          "strict mode: unknown field '" ++ key ++ "' not defined in schema" := by
        intro h
        have hhead := congrArg (fun s => s.toList.head?) h
        simp at hhead
      simp [Functor.map, Except.map, hne]

end Judgement

theorem stores_unique {value value' : Json} (h : Stores env r value) (h' : Stores env r value') :
    value = value' := by
  obtain ⟨text, -, htext, -, hparse, -⟩ := h
  obtain ⟨text', -, htext', -, hparse', -⟩ := h'
  obtain rfl := Option.some.inj (htext.symm.trans htext')
  exact Except.ok.inj (hparse.symm.trans hparse')

theorem collections_storeValue (key : String × String) (value : Json) :
    (reg.storeValue key value).collections = reg.collections := rfl

/-- No admitted document has another first unknown field under the stored schema. -/
def Spared (env : SchemaEnv) (reg : SchemaRegistry) (r : Registration) : Prop :=
  ∀ value schema validator, Stores env r value → reg.cdmValues r.collection = none →
    reg.collections r.key = some schema → schema.strict = true →
    schema.validator = some validator → ∀ uuid now fields,
      precheck env validator r.collection r.pluginId uuid now fields = .ok () →
        unknownField (extractPropertyKeys value) (filledFields env uuid now fields) =
          unknownField (getSchemaProperties reg r.pluginId r.collection)
            (filledFields env uuid now fields)

theorem getSchemaProperties_storeValue (reg : SchemaRegistry) (pluginId collection : String)
    (value : Json) :
    getSchemaProperties (reg.storeValue (pluginId, collection) value) pluginId collection =
      if reg.cdmValues collection = none then extractPropertyKeys value
      else getSchemaProperties reg pluginId collection := by
  cases hcdm : reg.cdmValues collection <;> simp [getSchemaProperties, storeValue, hcdm]

theorem getSchemaProperties_storeValue_of_ne {key : String × String} (value : Json)
    (hkey : (pluginId, collection) ≠ key) :
    getSchemaProperties (reg.storeValue key value) pluginId collection =
      getSchemaProperties reg pluginId collection := by
  simp only [getSchemaProperties, storeValue]
  rw [Function.update_of_ne hkey]

/-- A registration that fails leaves all verdicts exactly if no schema was stored by its text, or it
makes no difference in strict mode. -/
theorem sameVerdicts_iff_of_failed (env : SchemaEnv) (reg reg' : SchemaRegistry)
    (r : Registration) (e : SchemaError) (h : register env reg r = (.error e, reg')) :
    SameVerdicts env reg reg' ↔ Spared env reg r := by
  rcases register_error h with ⟨value, hstores, rfl⟩ | ⟨hnone, rfl⟩
  · constructor
    · intro hsame value' schema validator hstores' hcdm hschema hstrict hvalidator uuid now fields
        hpre
      obtain rfl := stores_unique hstores hstores'
      have hstored : (reg.storeValue r.key value).collections r.key = some schema := hschema
      have hread := getSchemaProperties_storeValue reg r.pluginId r.collection value
      rw [if_pos hcdm] at hread
      rw [← hread]
      refine Option.ext fun key => ?_
      rw [unknownField_eq_some_iff hschema hstrict hvalidator hpre, ← hsame]
      exact unknownField_eq_some_iff hstored hstrict hvalidator hpre
    · intro hspared uuid now collection pluginId document isCreate existing
      refine validateWrite_congr (collections_storeValue r.key value) ?_ document
      intro schema validator hschema hvalidator fields hpre
      cases hstrict : schema.strict with
      | false => rfl
      | true =>
        rw [checkStrict_true_eq, checkStrict_true_eq]
        by_cases hkey : (pluginId, collection) = r.key
        · obtain ⟨rfl, rfl⟩ := Prod.mk.inj hkey
          have hread := getSchemaProperties_storeValue reg r.pluginId r.collection value
          by_cases hcdm : reg.cdmValues r.collection = none
          · rw [if_pos hcdm] at hread
            rw [show r.key = (r.pluginId, r.collection) from rfl, hread,
              hspared value schema validator hstores hcdm hschema hstrict hvalidator uuid now fields
                hpre]
          · rw [if_neg hcdm] at hread
            rw [show r.key = (r.pluginId, r.collection) from rfl, hread]
        · rw [getSchemaProperties_storeValue_of_ne value hkey]
  · refine iff_of_true (fun _ _ _ _ _ _ _ => rfl) ?_
    exact fun value _ _ hstores => absurd hstores (hnone value)

/-- The extension schema is not read. -/
def halfRegistration : Registration :=
  ⟨"notes", "diary", some "color", some "", true⟩

def unreadableExtension : SchemaError :=
  .invalidSchema "diary" "invalid extension schema JSON: no value"

/-- Two strict collections. -/
def strictDiary : SchemaRegistry :=
  (register nameEnv (register nameEnv new (strictRegistration "journal" "color")).2
    (strictRegistration "diary" "title")).2

/-- The stored schema declares what the registered one does. -/
def sameRegistration : Registration :=
  { halfRegistration with schemaRef := some "title" }

theorem sameVerdicts_strictDiary :
    (register nameEnv strictDiary sameRegistration).1 = .error unreadableExtension ∧
      SameVerdicts nameEnv strictDiary (register nameEnv strictDiary sameRegistration).2 := by
  refine ⟨by decide +kernel, (sameVerdicts_iff_of_failed nameEnv strictDiary _ sameRegistration
    unreadableExtension rfl).mpr ?_⟩
  rintro value schema validator ⟨text, -, htext, -, hparse, -⟩ - - - - uuid now fields -
  obtain rfl : "title" = text := Option.some.inj htext
  obtain rfl : nameSchema "title" = value := Except.ok.inj hparse
  have hread : getSchemaProperties strictDiary "notes" "diary" =
      extractPropertyKeys (nameSchema "title") := by decide +kernel
  exact congrArg (unknownField · _) hread.symm

/-- A strict diary refuses titles after a registration that fails. -/
theorem not_sameVerdicts_diary :
    (register nameEnv (register nameEnv new (strictRegistration "diary" "title")).2
        halfRegistration).1 = .error unreadableExtension ∧
      ¬ SameVerdicts nameEnv (register nameEnv new (strictRegistration "diary" "title")).2
        (register nameEnv (register nameEnv new (strictRegistration "diary" "title")).2
          halfRegistration).2 := by
  refine ⟨by decide +kernel, fun h => ?_⟩
  have hverdict := h 1 0 "diary" "notes" (.obj [("title", .null)]) true none
  revert hverdict
  decide +kernel

end LifeEngine.Schema.SchemaRegistry
