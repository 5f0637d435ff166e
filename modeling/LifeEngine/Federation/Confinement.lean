import LifeEngine.Federation.Sync

/-!
# What a peer can write

A sync asks for the collections of the peer that pass the filter, but the peer names the
collection of every change that it sends.  `sync_with_peer` writes under the namespace
of the peer only, and into any collection that the answer names.
-/

namespace LifeEngine.Federation

open Support Storage Records Sync

/-- The collection is one of the peer's, and passes the filter. -/
def Allowed (peer : FederationPeer) (filter : Option (List String)) (collection : String) :
    Prop :=
  collection ∈ peer.collections ∧ ∀ names, filter = some names → collection ∈ names

/-- The row was removed, added or rewritten. -/
def Touches (rows rows' : Rows) (r : DataRow String) : Prop :=
  (r ∈ rows.rows ∧ r ∉ rows'.rows) ∨ (r ∈ rows'.rows ∧ r ∉ rows.rows)

/-- All that the change touches is under the namespace, in allowed collections. -/
def StaysInside (ns : String) (allowed : String → Prop) (db : LocalDb)
    (change : ChangeRecord) : Prop :=
  ∀ r, Touches db.rows (applyStep sqliteAdapter ns db change).rows r →
    r.pluginId = ns ∧ allowed r.collection

/-- The change does nothing, or names an allowed collection. -/
def NamesAllowed (ns : String) (allowed : String → Prop) (db : LocalDb)
    (change : ChangeRecord) : Prop :=
  effect ns change db.rows ≠ .nothing → allowed change.collection

/-- Every pulled change satisfies the predicate where it is applied. -/
def EveryChange (encode : String → String) (peerId : String)
    (P : LocalDb → ChangeRecord → Prop) (s : SyncState LocalDb) (pulls : List Pull) : Prop :=
  EveryStep (pullStep sqliteAdapter encode)
    (fun s pull => ∀ response, pull.response encode s = some response →
      EveryStep (federationStep sqliteAdapter peerId) P s.storage response.changes) s pulls

/-- The call writes inside of what is allowed. -/
def Confined (encode : String → String) (s : SyncState LocalDb) (call : SyncCall) : Prop :=
  EveryChange encode call.peer.id
    (StaysInside (federationNamespace call.peer.id) (Allowed call.peer call.filter)) s
    call.pulls

/-! ## What a change touches -/

section Touched

variable {ns : String} {change : ChangeRecord} {rows : Rows} {now : Timestamp}

theorem touches_insert {row r : DataRow String} (hfree : row.id ∉ rows.keys) :
    Touches rows ((rows.insert row).getD rows) r ↔ r = row := by
  have hnew : row ∉ rows.rows := fun hmem => hfree (Table.mem_keys.mpr ⟨row, hmem, rfl⟩)
  rw [Touches, rows_insert_getD hfree]
  simp only [List.mem_append, List.mem_singleton]
  constructor
  · rintro (⟨hmem, hnot⟩ | ⟨hmem | hrow, hnot⟩)
    · exact absurd (Or.inl hmem) hnot
    · exact absurd hmem hnot
    · exact hrow
  · rintro rfl
    exact Or.inr ⟨Or.inr rfl, hnew⟩

/-- A row is rewritten to one of another version. -/
theorem touches_rewrite {r₀ : DataRow String} (hr₀ : r₀ ∈ rows.rows)
    (hhits : hits ns change.collection change.id r₀ = true) (data : Json) (now : Timestamp) :
    (∀ r, Touches rows ((Effect.rewrite data r₀.version).applyTo ns change now rows) r →
      r.pluginId = ns ∧ r.collection = change.collection) ∧
    Touches rows ((Effect.rewrite data r₀.version).applyTo ns change now rows) r₀ := by
  have hversion : versionHits ns change.collection change.id r₀.version r₀ = true := by
    simp [versionHits, hhits]
  constructor
  · intro r htouched
    rcases htouched with ⟨hmem, hnot⟩ | ⟨hmem, hnot⟩
    · rcases hhit : versionHits ns change.collection change.id r₀.version r with _ | _
      · exact absurd (mem_applyTo_rewrite.mpr ⟨r, hmem, Or.inr ⟨hhit, rfl⟩⟩) hnot
      · obtain ⟨-, hp, hc⟩ := hits_iff.mp (Bool.and_eq_true_iff.mp hhit).1
        exact ⟨hp, hc⟩
    · obtain ⟨old, hold, ⟨hhit, rfl⟩ | ⟨-, rfl⟩⟩ := mem_applyTo_rewrite.mp hmem
      · obtain ⟨-, hp, hc⟩ := hits_iff.mp (Bool.and_eq_true_iff.mp hhit).1
        exact ⟨hp, hc⟩
      · exact absurd hold hnot
  · refine Or.inl ⟨hr₀, ?_⟩
    intro hafter
    obtain ⟨old, hold, ⟨-, heq⟩ | ⟨hmiss, rfl⟩⟩ := mem_applyTo_rewrite.mp hafter
    · have hsame : r₀.version = r₀.version + 1 := congrArg DataRow.version heq
      omega
    · rw [hversion] at hmiss
      cases hmiss

theorem touches_remove {r : DataRow String} :
    Touches rows (Effect.remove.applyTo ns change now rows) r ↔
      r ∈ rows.rows ∧ hits ns change.collection change.id r = true := by
  change Touches rows (rows.deleteWhere (hits ns change.collection change.id)) r ↔ _
  rw [Touches, Table.mem_deleteWhere]
  constructor
  · rintro (⟨hmem, hnot⟩ | ⟨⟨hmem, -⟩, hnot⟩)
    · refine ⟨hmem, ?_⟩
      by_contra hmiss
      exact hnot ⟨hmem, by simpa using hmiss⟩
    · exact absurd hmem hnot
  · rintro ⟨hmem, hhit⟩
    refine Or.inl ⟨hmem, ?_⟩
    rintro ⟨-, hmiss⟩
    rw [hhit] at hmiss
    cases hmiss

/-- A change touches rows of its collection in the namespace only. -/
theorem touches_applyTo (ns : String) (change : ChangeRecord) (rows : Rows)
    (now : Timestamp) :
    (∀ r, Touches rows ((effect ns change rows).applyTo ns change now rows) r →
      r.pluginId = ns ∧ r.collection = change.collection) ∧
    (effect ns change rows ≠ .nothing →
      ∃ r, Touches rows ((effect ns change rows).applyTo ns change now rows) r) := by
  rcases effect_cases ns change rows with
    heffect | ⟨data, heffect, hfree⟩ | ⟨data, r₀, heffect, hmem, hhits⟩ |
    ⟨r₀, heffect, hmem, hhits⟩
  · rw [heffect]
    refine ⟨?_, fun hne => absurd rfl hne⟩
    rintro r (⟨hin, hout⟩ | ⟨hin, hout⟩) <;> exact absurd hin hout
  · rw [heffect]
    refine ⟨?_, fun _ => ⟨_, (touches_insert hfree).mpr rfl⟩⟩
    intro r htouched
    obtain rfl := (touches_insert hfree).mp htouched
    exact ⟨rfl, rfl⟩
  · rw [heffect]
    obtain ⟨hall, hold⟩ := touches_rewrite hmem hhits data now
    exact ⟨hall, fun _ => ⟨r₀, hold⟩⟩
  · rw [heffect]
    refine ⟨?_, fun _ => ⟨r₀, touches_remove.mpr ⟨hmem, hhits⟩⟩⟩
    intro r htouched
    obtain ⟨-, hplugin, hcollection⟩ := hits_iff.mp (touches_remove.mp htouched).2
    exact ⟨hplugin, hcollection⟩

end Touched

theorem staysInside_iff {ns : String} {allowed : String → Prop} {db : LocalDb}
    {change : ChangeRecord} :
    StaysInside ns allowed db change ↔ NamesAllowed ns allowed db change := by
  unfold StaysInside NamesAllowed
  rw [rows_applyStep]
  obtain ⟨hall, hsome⟩ := touches_applyTo ns change db.rows (db.clock 0)
  constructor
  · intro h heffect
    obtain ⟨r, htouched⟩ := hsome heffect
    rw [← (hall r htouched).2]
    exact (h r htouched).2
  · intro h r htouched
    obtain ⟨hplugin, hcollection⟩ := hall r htouched
    refine ⟨hplugin, hcollection ▸ h ?_⟩
    intro hnothing
    rw [hnothing] at htouched
    rcases htouched with ⟨hin, hout⟩ | ⟨hin, hout⟩ <;> exact hout hin

/-! ## What a sync touches -/

/-- A sync is confined exactly if every pulled change that does anything names a collection that
passes the filter. -/
theorem sync_confined_iff (encode : String → String) (s : SyncState LocalDb) (call : SyncCall) :
    Confined encode s call ↔
      EveryChange encode call.peer.id
        (NamesAllowed (federationNamespace call.peer.id) (Allowed call.peer call.filter)) s
        call.pulls := by
  rw [Confined, EveryChange, EveryChange]
  apply everyStep_congr
  intro s pull
  exact forall₂_congr fun response _ =>
    everyStep_congr (fun _ _ => staysInside_iff) s.storage response.changes

/-- A sync of tasks, to which the peer answers with a note. -/
def noteForTasks : SyncCall :=
  ⟨⟨"home", "https://home:3750", ["tasks"]⟩, none,
    ⟨.ok (), fun _ _ => .pulled ⟨[⟨"n1", "notes", .create, some (.str "hello"), 1, 0⟩], "1"⟩,
      0⟩⟩

theorem not_confined_noteForTasks : ¬ Confined id ⟨.new, ⟨.empty, fun _ => 0⟩⟩ noteForTasks := by
  intro h
  have hinside := h [] _ [] rfl _ rfl [] _ [] rfl
    ⟨"n1", "federation:home", "notes", .str "hello", 1, 0, 0⟩
    (Or.inr ⟨List.mem_cons_self, List.not_mem_nil⟩)
  have hallowed := hinside.2.1
  revert hallowed
  decide

end LifeEngine.Federation
