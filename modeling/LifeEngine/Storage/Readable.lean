import LifeEngine.Storage.Integrity

/-!
# Reading what was written

A query decrypts credentials and reads every canonical record into its struct; one
row that cannot be read fails the whole query.  Writing is checked by a JSON Schema
instead, and by the schema of the collection that the mutation names.
-/

namespace LifeEngine.Storage

open Support JsonMap

/-- The value reads as the struct of the collection. -/
def Reads (env : SqliteEnv) (collection : String) (value : Json) : Prop :=
  ∀ kind, collectionKind collection = some kind → ∃ record, env.readCdm kind value = .ok record

/-- Decryption inverts encryption; a struct ignores other fields and takes any JSON as its
`extensions` or `claims`; `null` is no struct; and a query selects among the rows it is given. -/
structure ReadLaws (env : SqliteEnv) : Prop where
  decrypts : ∀ id nonce claims ciphertext,
    env.encryptClaims id nonce claims = .ok ciphertext →
      env.decryptClaims id ciphertext = .ok claims
  extensions : ∀ kind fields value record, env.readCdm kind (.obj fields) = .ok record →
    kind ≠ .credential →
      ∃ record', env.readCdm kind (.obj (insert "extensions" value fields)) = .ok record'
  credential : ∀ fields fields' record, env.readCdm .credential (.obj fields) = .ok record →
    (∀ key, key ≠ "claims" → key ≠ "encrypted" → get fields' key = get fields key) →
    get fields' "claims" ≠ none → get fields' "encrypted" = none →
      ∃ record', env.readCdm .credential (.obj fields') = .ok record'
  null : ∀ kind record, env.readCdm kind .null ≠ .ok record
  select : ∀ filters sort rows selected, env.select filters sort rows = .ok selected →
    ∀ r ∈ selected, r ∈ rows

/-! ## One record -/

variable {collection : String} {s : SqliteStorage}

theorem collectionKind_eq_credential_iff :
    collectionKind collection = some .credential ↔ collection = "credentials" := by
  unfold collectionKind
  split_ifs <;> simp_all

variable {env : SqliteEnv}

/-- Decryption gives the fields back, without the mark. -/
theorem decryptCredential_encryptCredential {nonce : Bytes}
    (hdecrypts : ∀ id claims ciphertext, env.encryptClaims id nonce claims = .ok ciphertext →
      env.decryptClaims id ciphertext = .ok claims)
    {plain data : Json} (h : encryptCredential env nonce plain = .ok data) :
    ∃ fields fields', plain = .obj fields ∧ decryptCredential env data = .ok (.obj fields') ∧
      (∀ key, key ≠ "claims" → key ≠ "encrypted" → get fields' key = get fields key) ∧
      get fields' "claims" = some ((get fields "claims").getD .null) ∧
      get fields' "encrypted" = none := by
  obtain ⟨fields, id, ciphertext, rfl, hid, hencrypt, rfl⟩ := encryptCredential_ok h
  have hdecrypt := hdecrypts id _ ciphertext hencrypt
  generalize hstored : insert "encrypted" (.bool true)
    (insert "claims" (.str ciphertext) fields) = stored
  have hother : ∀ key, key ≠ "claims" → key ≠ "encrypted" → get stored key = get fields key := by
    intro key hclaims hencrypted
    rw [← hstored, get_insert_of_ne hencrypted, get_insert_of_ne hclaims]
  have hmark : get stored "encrypted" = some (.bool true) := by
    rw [← hstored, get_insert_self]
  have hclaims : get stored "claims" = some (.str ciphertext) := by
    rw [← hstored, get_insert_of_ne (by decide), get_insert_self]
  have hid' : get stored "id" = some (.str id) := by
    rw [hother "id" (by decide) (by decide), hid]
  refine ⟨fields, remove (insert "claims"
    ((get fields "claims").getD .null) stored) "encrypted", rfl, ?_, ?_, ?_, ?_⟩
  · simp [decryptCredential, credentialId, okOr, Json.get, hmark, hclaims, hid', Json.asBool,
      Json.asStr, hdecrypt, setField, bind, Except.bind, pure, Except.pure]
  · intro key hclaims hencrypted
    rw [get_remove_of_ne hencrypted, get_insert_of_ne hclaims, hother key hclaims hencrypted]
  · rw [get_remove_of_ne (by decide), get_insert_self]
  · exact get_remove_self _ _

theorem parsePayload_of_prepared (hlaws : ReadLaws env) {nonce : Bytes} {pluginId : String}
    {plain data : Json} (hprepared : Prepared env nonce pluginId collection plain data)
    (hreads : Reads env collection plain) :
    ∃ payload, parsePayload env collection data = .ok payload := by
  unfold parsePayload
  cases hkind : collectionKind collection with
  | none => exact ⟨_, rfl⟩
  | some kind =>
    obtain ⟨record, hrecord⟩ := hreads kind hkind
    have hwritten := hprepared.written
    by_cases hcredential : kind = .credential
    · subst hcredential
      rw [if_pos (collectionKind_eq_credential_iff.mp hkind)] at hwritten
      obtain ⟨fields, fields', rfl, hdecrypt, hsame, hclaims, hmark⟩ :=
        decryptCredential_encryptCredential (fun id => hlaws.decrypts id _) hwritten
      have hpresent : get fields' "claims" ≠ none := by
        rw [hclaims]
        exact Option.some_ne_none _
      obtain ⟨record', hread⟩ := hlaws.credential fields fields' record hrecord hsame hpresent hmark
      exact ⟨.cdm .credential record', by
        simp [hdecrypt, hread, bind, Except.bind, pure, Except.pure]⟩
    · have hplain : collection ≠ "credentials" := by
        intro hcollection
        rw [collectionKind_eq_credential_iff.mpr hcollection] at hkind
        exact hcredential (Option.some.inj hkind).symm
      rw [if_neg hplain] at hwritten
      subst hwritten
      exact ⟨.cdm kind record, by
        simp [hcredential, hrecord, bind, Except.bind, pure, Except.pure]⟩

theorem mergeExistingExtensions_ok {data : PluginData Uuid} {id : Uuid} {new merged : Json}
    (h : mergeExistingExtensions env data id new = .ok merged) :
    merged = new ∨ new = .null ∨
      ∃ fields value, new = .obj fields ∧ merged = .obj (insert "extensions" value fields) := by
  unfold mergeExistingExtensions at h
  split at h
  · simp only at h
    split at h
    · exact Or.inl (Except.ok.inj h).symm
    · split at h
      · exact Or.inr (Or.inr ⟨_, _, rfl, (Except.ok.inj h).symm⟩)
      · exact Or.inr (Or.inl rfl)
      · cases h
  · exact Or.inl (Except.ok.inj h).symm

/-- Taking over the stored extensions leaves a record readable. -/
theorem reads_merged (hlaws : ReadLaws env) {id : Uuid} {payload : TypedPayload} {merged : Json}
    (hmerged : mergedPayload env s collection id payload = .ok merged)
    (hreads : Reads env collection (serializePayload payload)) : Reads env collection merged := by
  unfold mergedPayload at hmerged
  split at hmerged
  next hmerges =>
    intro kind hkind
    have hcredential : kind ≠ .credential := by
      rintro rfl
      exact hmerges.2 (collectionKind_eq_credential_iff.mp hkind)
    obtain ⟨record, hrecord⟩ := hreads kind hkind
    rcases mergeExistingExtensions_ok hmerged with rfl | hnull | ⟨fields, value, hobj, rfl⟩
    · exact ⟨record, hrecord⟩
    · rw [hnull] at hrecord
      exact absurd hrecord (hlaws.null kind record)
    · rw [hobj] at hrecord
      exact hlaws.extensions kind fields value record hrecord hcredential
  next =>
    cases hmerged
    exact hreads

/-! ## Queries -/

def Readable (env : SqliteEnv) (s : SqliteStorage) : Prop :=
  ∀ r ∈ s.data.rows, ∃ payload, parsePayload env r.collection r.data = .ok payload

theorem readRows_ok {now : Timestamp} {pluginId : String} {rows : List (DataRow Uuid)}
    (h : ∀ r ∈ rows, ∃ payload, parsePayload env r.collection r.data = .ok payload)
    (s : SqliteStorage) : ∃ messages, (readRows env now pluginId s rows).1 = .ok messages := by
  induction rows generalizing s with
  | nil => exact ⟨[], rfl⟩
  | cons r rows ih =>
    obtain ⟨payload, hpayload⟩ := h r List.mem_cons_self
    obtain ⟨messages, hmessages⟩ := ih (fun r' hr' => h r' (List.mem_cons_of_mem r hr'))
      (if r.collection = "credentials" then s.logCredential .access r.id pluginId "read" else s)
    refine ⟨⟨⟨r.id, "storage:" ++ r.collection, now, none, []⟩, payload⟩ :: messages, ?_⟩
    simp only [readRows, hpayload, hmessages]
    rfl

/-- The only errors of queries are those of SQLite. -/
def AnswersQueries (env : SqliteEnv) (s : SqliteStorage) : Prop :=
  ∀ draw query e, (executeQuery env draw s query).1 = .error e → ∃ message, e = .database message

theorem Readable.answersQueries (hlaws : ReadLaws env) (hs : Readable env s) :
    AnswersQueries env s := by
  intro draw query e h
  unfold executeQuery at h
  split at h
  next message hselect =>
    cases h
    exact ⟨message, rfl⟩
  next rows hselect =>
    have hrows : ∀ r ∈ (rows.drop (query.offset.getD 0)).take
        ((query.limit.map (min · maxLimit)).getD maxLimit),
        ∃ payload, parsePayload env r.collection r.data = .ok payload := by
      intro r hr
      have hselected := List.mem_of_mem_drop (List.mem_of_mem_take hr)
      have hscope := hlaws.select query.filters query.sort _ rows hselect r hselected
      exact hs r (List.mem_of_mem_filter hscope)
    obtain ⟨messages, hmessages⟩ := readRows_ok hrows s
    rw [hmessages] at h
    cases h

/-! ## Runs of mutations -/

/-- What is written reads as the struct of the named collection, which is that of the row. -/
def WritesReadable (env : SqliteEnv) (s : SqliteStorage) : StorageMutation → Prop
  | .insert _ collection message => Reads env collection (serializePayload message.payload)
  | .update pluginId collection id message version =>
    ∀ r ∈ s.data.rows, updateHits pluginId id version r = true →
      r.collection = collection ∧ Reads env collection (serializePayload message.payload)
  | .delete _ _ _ => True

theorem readable_step (hlaws : ReadLaws env) {draw : Draw} {mutation : StorageMutation}
    (hs : Readable env s) (hwrites : WritesReadable env s mutation) :
    Readable env (executeMutation env draw s mutation).2 := by
  intro r' hr'
  have heffect := executeMutation_effect env draw s mutation
  generalize (executeMutation env draw s mutation).2 = s' at heffect hr'
  cases heffect with
  | insertRefused | updateRefused | nothingDeleted => exact hs r' hr'
  | inserted hdata hinsert =>
    rcases (Table.mem_insert hinsert).mp hr' with hold | rfl
    · exact hs r' hold
    · exact parsePayload_of_prepared hlaws (insertData_ok hdata) hwrites
  | updated hdata hr hhit =>
    obtain ⟨r, hr, ⟨hhit, rfl⟩ | ⟨-, rfl⟩⟩ := mem_rewritten.mp hr'
    · obtain ⟨merged, hmerged, hprepared⟩ := updateData_ok hdata
      obtain ⟨hcollection, hreads⟩ := hwrites r hr hhit
      rw [← hcollection] at hmerged hprepared hreads
      exact parsePayload_of_prepared hlaws hprepared (reads_merged hlaws hmerged hreads)
    · exact hs r' hr
  | deleted hr hhit => exact hs r' (Table.mem_deleteWhere.mp hr').1

/-- After a run of such mutations every query can be answered. -/
theorem answersQueries_run (env : SqliteEnv) (hlaws : ReadLaws env)
    (inputs : List (Draw × StorageMutation))
    (hwrites : EveryStep (mutationStep env) (fun s input => WritesReadable env s input.2)
      emptyStorage inputs) :
    AnswersQueries env (run (mutationStep env) emptyStorage inputs) := by
  have hempty : Readable env emptyStorage := by
    intro r hr
    cases hr
  have hreadable : Readable env (run (mutationStep env) emptyStorage inputs) := by
    apply run_invariant_of_everyStep _ hempty hwrites
    intro s input hs hinput
    exact readable_step hlaws hs hinput
  exact hreadable.answersQueries hlaws

/-! ## A note overwritten through a private collection -/

/-- Records have a title; `notes` has a private collection without rules. -/
def titledEnv : SqliteEnv where
  canonicalErrors _ value := if (value.get "title").isSome then [] else ["a title is required"]
  privateSchema pluginId collection :=
    if pluginId = "notes" ∧ collection = "scratch" then some fun _ => [] else none
  encryptClaims _ _ claims := if claims = .null then .ok "sealed" else .error "unsupported"
  decryptClaims _ _ := .ok .null
  readCdm _ value := if (value.get "title").isSome then .ok value else .error "missing field title"
  parseText _ := none
  select _ _ rows := .ok rows

theorem titledEnv_readCdm_iff {kind : CdmKind} {value : Json} :
    (∃ record, titledEnv.readCdm kind value = .ok record) ↔ (value.get "title").isSome = true := by
  by_cases h : (value.get "title").isSome = true <;> simp [titledEnv, h]

theorem titledEnv_readLaws : ReadLaws titledEnv where
  decrypts := by
    intro id nonce claims ciphertext h
    simp only [titledEnv] at h ⊢
    split at h
    next hnull => rw [hnull]
    next => cases h
  extensions := by
    intro kind fields value record h _
    have htitle := titledEnv_readCdm_iff.mp ⟨record, h⟩
    rw [titledEnv_readCdm_iff, Json.get, get_insert_of_ne (by decide)]
    exact htitle
  credential := by
    intro fields fields' record h hsame _ _
    have htitle := titledEnv_readCdm_iff.mp ⟨record, h⟩
    rw [titledEnv_readCdm_iff, Json.get, hsame "title" (by decide) (by decide)]
    exact htitle
  null := by
    intro kind record h
    simpa [Json.get] using titledEnv_readCdm_iff.mp ⟨record, h⟩
  select := by
    intro filters sort rows selected h r hr
    cases h
    exact hr

/-- A note is inserted, and updated as a private document. -/
def overwrittenNote : List (Draw × StorageMutation) :=
  [(⟨1, 0, []⟩, .insert "notes" "notes" (customMessage (.obj [("title", .str "milk")]))),
    (⟨2, 0, []⟩, .update "notes" "scratch" 1 (customMessage (.obj [])) 1)]

/-- The collection of notes cannot be read any more. -/
theorem not_answersQueries_overwrittenNote :
    ReadLaws titledEnv ∧
      ¬ AnswersQueries titledEnv (run (mutationStep titledEnv) emptyStorage overwrittenNote) := by
  refine ⟨titledEnv_readLaws, ?_⟩
  intro h
  obtain ⟨message, hmessage⟩ := h ⟨3, 0, []⟩ ⟨"notes", "notes", [], [], none, none⟩
    (.serialization "missing field title") rfl
  cases hmessage

/-- A note that is updated as a note. -/
def editedNote : List (Draw × StorageMutation) :=
  [(⟨1, 0, []⟩, .insert "notes" "notes" (customMessage (.obj [("title", .str "milk")]))),
    (⟨2, 0, []⟩, .update "notes" "notes" 1 (customMessage (.obj [("title", .str "bread")])) 1)]

theorem answersQueries_run_editedNote :
    AnswersQueries titledEnv (run (mutationStep titledEnv) emptyStorage editedNote) := by
  apply answersQueries_run titledEnv titledEnv_readLaws
  have hreads : ∀ title, Reads titledEnv "notes" (.obj [("title", title)]) := by
    intro title kind _
    rw [titledEnv_readCdm_iff]
    simp [Json.get, get_cons]
  refine everyStep_cons.mpr ⟨hreads _, everyStep_cons.mpr ⟨?_, everyStep_nil _ _⟩⟩
  intro r hr _
  obtain rfl := List.mem_singleton.mp hr
  exact ⟨rfl, hreads _⟩

end LifeEngine.Storage
