import LifeEngine.Storage.Integrity

/-!
# The audit log of credentials

A mutation is logged if it names the collection of credentials.  The row that an
update or a deletion reaches is chosen without its collection, so what is logged
and what is changed can differ.
-/

namespace LifeEngine.Storage

open Support

/-- The credentials whose modification is logged. -/
def modifyIds (s : SqliteStorage) : List Uuid :=
  (s.audit.filter fun entry => entry.event = .modify).map AuditEntry.documentId

/-- A row of a credential was added, changed or removed. -/
def Touches (s s' : SqliteStorage) (id : Uuid) : Prop :=
  ∃ r, r.id = id ∧ r.collection = "credentials" ∧
    (r ∈ s'.data.rows ∧ r ∉ s.data.rows ∨ r ∈ s.data.rows ∧ r ∉ s'.data.rows)

/-- The log grows by the credential that is touched. -/
structure Audited (s s' : SqliteStorage) : Prop where
  touched : ∀ id, Touches s s' id → modifyIds s' = modifyIds s ++ [id]
  untouched : (∀ id, ¬ Touches s s' id) → modifyIds s' = modifyIds s

theorem modifyIds_append (s : SqliteStorage) (table : PluginData Uuid) (collection : String)
    (id : Uuid) (pluginId operation : String) :
    modifyIds ⟨table, s.audit ++ modifyEntries collection id pluginId operation⟩ =
      modifyIds s ++ if collection = "credentials" then [id] else [] := by
  by_cases h : collection = "credentials" <;> simp [modifyIds, modifyEntries, h]

theorem audited_refl (s : SqliteStorage) : Audited s s := by
  refine ⟨?_, fun _ => rfl⟩
  rintro id ⟨r, -, -, ⟨hin, hout⟩ | ⟨hin, hout⟩⟩ <;> exact absurd hin hout

variable {s : SqliteStorage} {audit : List AuditEntry}

/-- A statement that reaches one row is audited exactly when it is logged for a credential only. -/
theorem audited_iff {s' : SqliteStorage} {id : Uuid} {isCredential isLogged : Prop}
    [Decidable isLogged] (htouches : ∀ id', Touches s s' id' ↔ isCredential ∧ id' = id)
    (hlog : modifyIds s' = modifyIds s ++ if isLogged then [id] else []) :
    Audited s s' ↔ (isLogged ↔ isCredential) := by
  constructor
  · rintro ⟨htouched, huntouched⟩
    by_cases hcredential : isCredential
    · have h := htouched id ((htouches id).mpr ⟨hcredential, rfl⟩)
      by_cases hlogged : isLogged
      · exact ⟨fun _ => hcredential, fun _ => hlogged⟩
      · simp [hlog, hlogged] at h
    · have h := huntouched fun id' hid' => hcredential ((htouches id').mp hid').1
      by_cases hlogged : isLogged
      · simp [hlog, hlogged] at h
      · exact ⟨fun h => absurd h hlogged, fun h => absurd h hcredential⟩
  · intro hiff
    constructor
    · intro id' hid'
      obtain ⟨hcredential, rfl⟩ := (htouches id').mp hid'
      rw [hlog, if_pos (hiff.mpr hcredential)]
    · intro hnone
      have hnot : ¬ isLogged := fun hlogged =>
        hnone id ((htouches id).mpr ⟨hiff.mp hlogged, rfl⟩)
      rw [hlog, if_neg hnot, List.append_nil]

/-! ## What each statement touches -/

theorem touches_inserted {table : PluginData Uuid} {row : DataRow Uuid}
    (hinsert : s.data.insert row = some table) (id' : Uuid) :
    Touches s ⟨table, audit⟩ id' ↔ row.collection = "credentials" ∧ id' = row.id := by
  have hfresh : row ∉ s.data.rows := by
    intro hrow
    exact Table.not_mem_keys_of_insert hinsert (Table.mem_keys.mpr ⟨row, hrow, rfl⟩)
  constructor
  · rintro ⟨r, rfl, hcollection, ⟨hin, hout⟩ | ⟨hin, hout⟩⟩
    · obtain rfl := ((Table.mem_insert hinsert).mp hin).resolve_left hout
      exact ⟨hcollection, rfl⟩
    · exact absurd ((Table.mem_insert hinsert).mpr (Or.inl hin)) hout
  · rintro ⟨hcollection, rfl⟩
    exact ⟨row, rfl, hcollection, Or.inl ⟨(Table.mem_insert hinsert).mpr (Or.inr rfl), hfresh⟩⟩

theorem touches_updated {p : DataRow Uuid → Bool} {data : Json} {now : Timestamp}
    {r : DataRow Uuid} (hr : r ∈ s.data.rows) (hhit : p r = true)
    (honly : ∀ r' ∈ s.data.rows, p r' = true → r' = r) (id' : Uuid) :
    Touches s ⟨s.data.updateWhere p (rewriteRow data now) (fun _ => rfl), audit⟩ id' ↔
      r.collection = "credentials" ∧ id' = r.id := by
  have hnew : rewriteRow data now r ∉ s.data.rows := by
    intro hmem
    -- The version of the row has changed, and no other row has its identifier.
    have heq : rewriteRow data now r = r := Table.eq_of_key_eq hmem hr rfl
    have hversion : r.version + 1 = r.version := congrArg DataRow.version heq
    omega
  constructor
  · rintro ⟨x, rfl, hcollection, ⟨hin, hout⟩ | ⟨hin, hout⟩⟩
    · obtain ⟨r', hr', ⟨hp, rfl⟩ | ⟨-, rfl⟩⟩ := mem_rewritten.mp hin
      · obtain rfl := honly r' hr' hp
        exact ⟨hcollection, rfl⟩
      · exact absurd hr' hout
    · by_cases hp : p x = true
      · obtain rfl := honly x hin hp
        exact ⟨hcollection, rfl⟩
      · exact absurd (mem_rewritten.mpr ⟨x, hin, Or.inr ⟨by simpa using hp, rfl⟩⟩) hout
  · rintro ⟨hcollection, rfl⟩
    exact ⟨rewriteRow data now r, rfl, hcollection,
      Or.inl ⟨mem_rewritten.mpr ⟨r, hr, Or.inl ⟨hhit, rfl⟩⟩, hnew⟩⟩

theorem touches_deleted {p : DataRow Uuid → Bool} {r : DataRow Uuid} (hr : r ∈ s.data.rows)
    (hhit : p r = true) (honly : ∀ r' ∈ s.data.rows, p r' = true → r' = r) (id' : Uuid) :
    Touches s ⟨s.data.deleteWhere p, audit⟩ id' ↔ r.collection = "credentials" ∧ id' = r.id := by
  constructor
  · rintro ⟨x, rfl, hcollection, ⟨hin, hout⟩ | ⟨hin, hout⟩⟩
    · exact absurd (Table.mem_deleteWhere.mp hin).1 hout
    · by_cases hp : p x = true
      · obtain rfl := honly x hin hp
        exact ⟨hcollection, rfl⟩
      · exact absurd (Table.mem_deleteWhere.mpr ⟨hin, by simpa using hp⟩) hout
  · rintro ⟨hcollection, rfl⟩
    refine ⟨r, rfl, hcollection, Or.inr ⟨hr, ?_⟩⟩
    intro hmem
    rw [(Table.mem_deleteWhere.mp hmem).2] at hhit
    cases hhit

/-! ## Runs of mutations -/

/-- An accepted update or a deletion names the credentials exactly when the row that it reaches is
one. -/
def NamesCredentials (env : SqliteEnv) (draw : Draw) (s : SqliteStorage) :
    StorageMutation → Prop
  | .insert _ _ _ => True
  | .update pluginId collection id message version =>
    (∃ data, updateData env draw s pluginId collection id message.payload = .ok data) →
      ∀ r ∈ s.data.rows, updateHits pluginId id version r = true →
        (collection = "credentials" ↔ r.collection = "credentials")
  | .delete pluginId collection id =>
    ∀ r ∈ s.data.rows, deleteHits pluginId id r = true →
      (collection = "credentials" ↔ r.collection = "credentials")

theorem audited_step_iff (env : SqliteEnv) (draw : Draw) (s : SqliteStorage)
    (mutation : StorageMutation) :
    Audited s (executeMutation env draw s mutation).2 ↔ NamesCredentials env draw s mutation := by
  have heffect := executeMutation_effect env draw s mutation
  generalize (executeMutation env draw s mutation).2 = s' at heffect ⊢
  cases heffect with
  | insertRefused => exact ⟨fun _ => trivial, fun _ => audited_refl s⟩
  | @inserted pluginId collection message data table hdata hinsert =>
    refine ⟨fun _ => trivial, fun _ => ?_⟩
    exact (audited_iff (touches_inserted hinsert)
      (modifyIds_append s table collection draw.uuid pluginId "insert")).mpr Iff.rfl
  | updateRefused hrefused =>
    refine ⟨?_, fun _ => audited_refl s⟩
    rintro - ⟨data, hdata⟩ r hr hhit
    rw [hrefused data hdata r hr] at hhit
    cases hhit
  | @updated pluginId collection id message version data r hdata hr hhit =>
    have hkey : ∀ r', updateHits pluginId id version r' = true → r'.id = id :=
      fun r' hhit' => (updateHits_iff.mp hhit').1
    obtain rfl := hkey r hhit
    rw [audited_iff (touches_updated hr hhit (Table.eq_of_fixes_key hkey hr hhit))
      (modifyIds_append s _ _ _ _ "update")]
    have hall := Table.forall_hit_iff hkey hr hhit
      fun r' => collection = "credentials" ↔ r'.collection = "credentials"
    exact ⟨fun hnames _ => hall.mpr hnames, fun hnames => hall.mp (hnames ⟨data, hdata⟩)⟩
  | nothingDeleted hnone =>
    refine ⟨?_, fun _ => audited_refl s⟩
    intro _ r hr hhit
    rw [hnone r hr] at hhit
    cases hhit
  | @deleted pluginId collection id r hr hhit =>
    have hkey : ∀ r', deleteHits pluginId id r' = true → r'.id = id := by
      simp +contextual [deleteHits]
    obtain rfl := hkey r hhit
    rw [audited_iff (touches_deleted hr hhit (Table.eq_of_fixes_key hkey hr hhit))
      (modifyIds_append s _ _ _ _ "delete")]
    exact (Table.forall_hit_iff hkey hr hhit
      fun r' => collection = "credentials" ↔ r'.collection = "credentials").symm

/-- Every mutation is logged exactly when it touches a credential, if and only if every update and
deletion names the credentials for credentials only. -/
theorem audited_run_iff (env : SqliteEnv) (s : SqliteStorage)
    (inputs : List (Draw × StorageMutation)) :
    EveryStep (mutationStep env) (fun s input => Audited s (mutationStep env s input)) s inputs ↔
      EveryStep (mutationStep env) (fun s input => NamesCredentials env input.1 s input.2)
        s inputs := by
  apply everyStep_congr
  intro s input
  exact audited_step_iff env input.1 s input.2

/-- A credential is inserted, and deleted as a note. -/
def deletedAsNote : List (Draw × StorageMutation) :=
  [(⟨1, 0, []⟩, .insert "vault" "credentials"
      (customMessage (.obj [("claims", .str "secret"), ("id", .str "c")]))),
    (⟨2, 0, []⟩, .delete "vault" "notes" 1)]

/-- The deletion of the credential is not in the log. -/
theorem not_audited_deletedAsNote :
    ¬ EveryStep (mutationStep sealingEnv)
      (fun s input => Audited s (mutationStep sealingEnv s input)) emptyStorage deletedAsNote := by
  intro h
  obtain ⟨-, hrest⟩ := everyStep_cons.mp h
  obtain ⟨haudited, -⟩ := everyStep_cons.mp hrest
  have htouched := haudited.touched 1
    ⟨_, rfl, rfl, Or.inr ⟨List.mem_singleton_self _, List.not_mem_nil⟩⟩
  exact absurd htouched (by decide +kernel)

end LifeEngine.Storage
