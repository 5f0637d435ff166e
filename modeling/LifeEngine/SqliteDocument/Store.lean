import LifeEngine.SqliteDocument.Adapter
import LifeEngine.StorageContext.Reads

/-!
# The adapter as the store behind a storage context

The operations of `SqliteDocumentAdapter` in the form in which `StorageContext` uses
them, and what each of them does to the rows of `plugin_data` and to the fields of
a document.
-/

namespace LifeEngine.SqliteDocument

open Support StorageContext

/-- The table, and what the adapter draws for its writes. -/
structure AdapterState where
  table : Documents
  draws : Nat → Draw
  used : Nat

namespace AdapterState

def draw (s : AdapterState) : Draw :=
  s.draws s.used

/-- A failed write has still used its draw. -/
def commit {α : Type} (s : AdapterState) (result : Except StorageError (α × Documents)) :
    Except StorageError α × AdapterState :=
  match result with
  | .ok (value, table) => (.ok value, { s with table, used := s.used + 1 })
  | .error e => (.error e, { s with used := s.used + 1 })

end AdapterState

def adapterStore (env : AdapterEnv) : DocStore AdapterState where
  docGet s collection id := get s.table collection id
  docCreate s collection document := s.commit (create env s.draw s.table collection document)
  docUpdate s collection id document :=
    s.commit (update s.draw.now s.table collection id document)
  docQuery s descriptor := query env s.table descriptor
  docCount s collection filter := count env s.table collection filter
  docDelete s collection id :=
    s.commit ((fun table => ((), table)) <$> delete s.table collection id)

theorem AdapterState.commit_error {α : Type} {s s' : AdapterState}
    {result : Except StorageError (α × Documents)} {e : StorageError}
    (h : s.commit result = (.error e, s')) : s'.table = s.table := by
  cases result with
  | ok value => cases h
  | error e' =>
    cases h
    rfl

theorem AdapterState.commit_ok {α : Type} {s s' : AdapterState}
    {result : Except StorageError (α × Documents)} {value : α}
    (h : s.commit result = (.ok value, s')) : result = .ok (value, s'.table) := by
  cases result with
  | ok pair =>
    cases h
    rfl
  | error e' => cases h

/-! ## Fields -/

/-- The fields that have columns of their own. -/
def systemFields : List String :=
  ["id", "created_at", "updated_at"]

theorem get_stripSystemFields (document : Json) {key : String} (hkey : key ∉ systemFields) :
    (stripSystemFields document).get key = document.get key := by
  simp only [systemFields, List.mem_cons, List.not_mem_nil, or_false, not_or] at hkey
  obtain ⟨hid, hcreated, hupdated⟩ := hkey
  cases document with
  | obj fields =>
    simp only [stripSystemFields, Json.get]
    rw [JsonMap.get_remove_of_ne hupdated, JsonMap.get_remove_of_ne hcreated,
      JsonMap.get_remove_of_ne hid]
  | _ => rfl

variable {id collection : String} {document : Json} {t : Documents}

theorem get_rowToDocument {createdAt updatedAt : String} {data : Json}
    (h : rowToDocument id (.ok data) createdAt updatedAt = .ok document) {key : String}
    (hkey : key ∉ systemFields) : document.get key = data.get key := by
  simp only [systemFields, List.mem_cons, List.not_mem_nil, or_false, not_or] at hkey
  obtain ⟨hid, hcreated, hupdated⟩ := hkey
  cases data with
  | obj fields =>
    cases h
    simp only [Json.get]
    rw [JsonMap.get_insert_of_ne hupdated, JsonMap.get_insert_of_ne hcreated,
      JsonMap.get_insert_of_ne hid]
  | _ =>
    cases h
    rfl

theorem get_id_rowToDocument {createdAt updatedAt : String} {data : Json}
    (h : rowToDocument id (.ok data) createdAt updatedAt = .ok document) {key : String}
    {value : Json} (hfield : document.get key = some value) :
    document.get "id" = some (.str id) := by
  cases data with
  | obj fields =>
    cases h
    simp only [Json.get]
    rw [JsonMap.get_insert_of_ne (by decide), JsonMap.get_insert_of_ne (by decide),
      JsonMap.get_insert_self]
  | _ =>
    cases h
    cases hfield

theorem rowToDocument_ok (id : String) (data : Json) (createdAt updatedAt : String) :
    ∃ document, rowToDocument id (.ok data) createdAt updatedAt = .ok document := by
  cases data <;> exact ⟨_, rfl⟩

theorem get_project (fields : Option (List String)) (document : Json) (key : String) :
    (project fields document).get key = if kept fields key then document.get key else none := by
  cases fields with
  | none => simp [project, kept]
  | some names =>
    cases document with
    | obj entries =>
      have hfilter := JsonMap.get_filter_keys (fun name => decide (name ∈ names)) entries key
      simpa [project, kept, Json.get] using hfilter
    | _ => simp [project, Json.get]

/-! ## Rows -/

theorem isAt_iff {r : DocumentRow} :
    isAt collection id r = true ↔ r.collection = collection ∧ r.id = id := by
  simp [isAt]

theorem get_of_mem {r : DocumentRow} (hr : r ∈ t.rows)
    (hvalid : validateIdentifier r.collection = .ok ()) :
    get t r.collection r.id = rowToDocument r.id r.data r.createdAt r.updatedAt := by
  have hfind : t.rows.find? (isAt r.collection r.id) = some r :=
    Table.find?_eq_some hr (isAt_iff.mpr ⟨rfl, rfl⟩) fun _ hother => (isAt_iff.mp hother).2
  simp only [get, hvalid, hfind, bind, Except.bind]

theorem create_ok {env : AdapterEnv} {draw : Draw} {t' : Documents} {result : Json}
    (h : create env draw t collection document = .ok (result, t')) :
    validateIdentifier collection = .ok () ∧
      t'.rows = t.rows ++ [newRow env draw collection document] ∧
      documentId draw.uuid document ∉ t.keys ∧
      rowToDocument (documentId draw.uuid document) (.ok (stripSystemFields document))
        draw.now draw.now = .ok result := by
  obtain ⟨_, hvalid, hbody⟩ := bind_eq_ok_iff.mp h
  refine ⟨hvalid, ?_⟩
  simp only at hbody
  split at hbody
  · cases hbody
  · split at hbody
    · cases hbody
    · next t₁ hinsert =>
      obtain ⟨doc, hdoc, hresult⟩ := bind_eq_ok_iff.mp hbody
      cases hresult
      exact ⟨Table.rows_of_insert hinsert, Table.not_mem_keys_of_insert hinsert, hdoc⟩

theorem update_ok {now : String} {t' : Documents} {result : Json}
    (h : update now t collection id document = .ok (result, t')) :
    t' = overwrite now (stripSystemFields document) collection id t ∧
      ∃ r ∈ t.rows, r.collection = collection ∧ r.id = id := by
  obtain ⟨_, -, hbody⟩ := bind_eq_ok_iff.mp h
  unfold updateRow at hbody
  split at hbody
  · cases hbody
  · next r hfound =>
    obtain ⟨doc, -, hresult⟩ := bind_eq_ok_iff.mp hbody
    cases hresult
    exact ⟨rfl, r, List.mem_of_find?_eq_some hfound, isAt_iff.mp (List.find?_some hfound)⟩

theorem delete_ok {t' : Documents} (h : delete t collection id = .ok t') :
    t' = t.deleteWhere (isAt collection id) ∧
      ∃ r ∈ t.rows, r.collection = collection ∧ r.id = id := by
  obtain ⟨_, -, hbody⟩ := bind_eq_ok_iff.mp h
  split at hbody
  · cases hbody
  · next hcount =>
    cases hbody
    obtain ⟨r, hr, hat⟩ := List.countP_pos_iff.mp (Nat.pos_of_ne_zero hcount)
    exact ⟨rfl, r, hr, isAt_iff.mp hat⟩

/-- The row itself, or the new contents of the row at the place. -/
theorem mem_overwrite {now : String} {data : Json} {r' : DocumentRow} :
    r' ∈ (overwrite now data collection id t).rows ↔
      ∃ r ∈ t.rows, (r.collection = collection ∧ r.id = id ∧
          r' = { r with data := .ok data, version := r.version + 1, updatedAt := now }) ∨
        (¬ (r.collection = collection ∧ r.id = id) ∧ r' = r) := by
  have hmiss : ∀ r, isAt collection id r = false ↔ ¬ (r.collection = collection ∧ r.id = id) := by
    intro r
    rw [← isAt_iff, Bool.not_eq_true]
  unfold overwrite
  rw [Table.mem_updateWhere]
  simp only [isAt_iff, hmiss, and_assoc]

end LifeEngine.SqliteDocument
