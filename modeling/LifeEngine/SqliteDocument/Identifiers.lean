import LifeEngine.SqliteDocument.Store

/-!
# Identifiers of documents

`create` looks for a document of the same identifier in its own collection, but
the primary key of `plugin_data` is the identifier alone.  Whether a document can
be created therefore depends on all collections.
-/

namespace LifeEngine.SqliteDocument

open Support StorageContext

/-- The state with the documents of one collection only. -/
def AdapterState.onlyCollection (s : AdapterState) (collection : String) : AdapterState :=
  { s with table := s.table.deleteWhere fun r => r.collection ≠ collection }

/-- The collection holds a document with the identifier. -/
def Holds (t : Documents) (collection id : String) : Prop :=
  ∃ r ∈ t.rows, r.collection = collection ∧ r.id = id

/-- `create` succeeds when the collection does not hold the identifier, refuses it otherwise, and
answers as if there were no other collection. -/
structure CreatesLocally (env : AdapterEnv) (s : AdapterState) (collection : String)
    (document : Json) : Prop where
  succeeds_iff : (∃ created, ((adapterStore env).docCreate s collection document).1 = .ok created) ↔
    ¬ Holds s.table collection (documentId s.draw.uuid document)
  refused : Holds s.table collection (documentId s.draw.uuid document) →
    ((adapterStore env).docCreate s collection document).1 =
        .error (.alreadyExists collection (documentId s.draw.uuid document)) ∧
      ((adapterStore env).docCreate s collection document).2.table = s.table
  independent : ((adapterStore env).docCreate s collection document).1 =
    ((adapterStore env).docCreate (s.onlyCollection collection) collection document).1

variable (env : AdapterEnv) {draw : Draw} {t : Documents} {collection : String} {document : Json}

theorem any_isAt_iff_holds {id : String} :
    t.rows.any (isAt collection id) = true ↔ Holds t collection id := by
  simp [Holds, isAt_iff]

variable {e : StorageError}

theorem validateIdentifier_error (h : validateIdentifier collection = .error e) :
    ∃ message, e = .validationFailed message none := by
  unfold validateIdentifier at h
  split at h
  · cases h
    exact ⟨_, rfl⟩
  · split at h
    · cases h
      exact ⟨_, rfl⟩
    · cases h

theorem create_eq_of_holds (hvalid : validateIdentifier collection = .ok ())
    (h : Holds t collection (documentId draw.uuid document)) :
    create env draw t collection document =
      .error (.alreadyExists collection (documentId draw.uuid document)) := by
  have hany : t.rows.any (isAt collection (newRow env draw collection document).id) = true :=
    any_isAt_iff_holds.mpr h
  simp only [create, hvalid, hany]
  rfl

theorem create_of_free (hvalid : validateIdentifier collection = .ok ())
    (hfree : documentId draw.uuid document ∉ t.keys) :
    ∃ created t', rowToDocument (documentId draw.uuid document) (.ok (stripSystemFields document))
        draw.now draw.now = .ok created ∧
      create env draw t collection document = .ok (created, t') := by
  have hany : ¬ t.rows.any (isAt collection (newRow env draw collection document).id) = true := by
    intro h
    obtain ⟨r, hr, -, hid⟩ := any_isAt_iff_holds.mp h
    exact hfree (Table.mem_keys.mpr ⟨r, hr, hid⟩)
  obtain ⟨created, hcreated⟩ := rowToDocument_ok (documentId draw.uuid document)
    (stripSystemFields document) draw.now draw.now
  have hkey : (newRow env draw collection document).id ∉ t.keys := hfree
  obtain ⟨t', hinsert⟩ : ∃ t', t.insert (newRow env draw collection document) = some t' :=
    ⟨_, dif_neg hkey⟩
  have hrow : rowToDocument (newRow env draw collection document).id
      (newRow env draw collection document).data draw.now draw.now = .ok created := hcreated
  refine ⟨created, t', hcreated, ?_⟩
  simp only [create, hvalid, hany, hinsert, hrow]
  rfl

theorem create_eq_of_taken (hvalid : validateIdentifier collection = .ok ())
    (hnot : ¬ Holds t collection (documentId draw.uuid document))
    (htaken : documentId draw.uuid document ∈ t.keys) :
    create env draw t collection document =
      .error (.internal "UNIQUE constraint failed: plugin_data.id") := by
  have hany : ¬ t.rows.any (isAt collection (newRow env draw collection document).id) = true :=
    mt any_isAt_iff_holds.mp hnot
  have hinsert : t.insert (newRow env draw collection document) = none := dif_pos htaken
  simp only [create, hvalid, hany, hinsert]
  rfl

/-! ## What the other collections decide -/

variable {env} {s : AdapterState}

theorem docCreate_error (h : create env s.draw s.table collection document = .error e) :
    ((adapterStore env).docCreate s collection document).1 = .error e ∧
      ((adapterStore env).docCreate s collection document).2.table = s.table := by
  simp [adapterStore, AdapterState.commit, h]

theorem docCreate_ok {created : Json} {t' : Documents}
    (h : create env s.draw s.table collection document = .ok (created, t')) :
    ((adapterStore env).docCreate s collection document).1 = .ok created := by
  simp [adapterStore, AdapterState.commit, h]

theorem mem_keys_onlyCollection {id : String} :
    id ∈ (s.onlyCollection collection).table.keys ↔ Holds s.table collection id := by
  unfold AdapterState.onlyCollection
  rw [Table.mem_keys_deleteWhere]
  simp [Holds]

theorem holds_onlyCollection {id : String} (h : Holds s.table collection id) :
    Holds (s.onlyCollection collection).table collection id := by
  obtain ⟨r, hr, hcollection, hid⟩ := h
  exact ⟨r, List.mem_filter.mpr ⟨hr, by simp [hcollection]⟩, hcollection, hid⟩

theorem docCreate_error_of_invalid (h : validateIdentifier collection = .error e) :
    ((adapterStore env).docCreate s collection document).1 = .error e :=
  (docCreate_error (by simp [create, h, bind, Except.bind])).1

theorem CreatesLocally.valid (h : CreatesLocally env s collection document) :
    validateIdentifier collection = .ok () := by
  cases hvalidate : validateIdentifier collection with
  | ok u => rfl
  | error e =>
    have hanswer : ((adapterStore env).docCreate s collection document).1 = .error e :=
      docCreate_error_of_invalid hvalidate
    obtain ⟨message, rfl⟩ := validateIdentifier_error hvalidate
    by_cases hholds : Holds s.table collection (documentId s.draw.uuid document)
    · have hrefused := (h.refused hholds).1
      rw [hanswer] at hrefused
      cases hrefused
    · obtain ⟨created, hcreated⟩ := h.succeeds_iff.mpr hholds
      rw [hanswer] at hcreated
      cases hcreated

theorem createsLocally_of_holds (hvalid : validateIdentifier collection = .ok ())
    (hholds : Holds s.table collection (documentId s.draw.uuid document)) :
    CreatesLocally env s collection document := by
  have hanswer := docCreate_error (create_eq_of_holds env hvalid hholds)
  have honly := docCreate_error (s := s.onlyCollection collection)
    (create_eq_of_holds env hvalid (holds_onlyCollection hholds))
  refine ⟨?_, fun _ => hanswer, hanswer.1.trans honly.1.symm⟩
  constructor
  · rintro ⟨created, hcreated⟩
    rw [hanswer.1] at hcreated
    cases hcreated
  · intro hnot
    exact absurd hholds hnot

theorem createsLocally_of_free (hvalid : validateIdentifier collection = .ok ())
    (hfree : documentId s.draw.uuid document ∉ s.table.keys) :
    CreatesLocally env s collection document := by
  have hholds : ¬ Holds s.table collection (documentId s.draw.uuid document) := by
    rintro ⟨r, hr, -, hid⟩
    exact hfree (Table.mem_keys.mpr ⟨r, hr, hid⟩)
  have hfreeOnly : documentId s.draw.uuid document ∉ (s.onlyCollection collection).table.keys :=
    mt mem_keys_onlyCollection.mp hholds
  obtain ⟨created, t', hcreated, hcreate⟩ := create_of_free env hvalid hfree
  obtain ⟨created', t'', hcreated', hcreateOnly⟩ := create_of_free env hvalid hfreeOnly
  obtain rfl : created = created' := Except.ok.inj (hcreated.symm.trans hcreated')
  refine ⟨⟨fun _ => hholds, fun _ => ⟨created, docCreate_ok hcreate⟩⟩, fun h => absurd h hholds, ?_⟩
  exact (docCreate_ok hcreate).trans
    (docCreate_ok (s := s.onlyCollection collection) hcreateOnly).symm

/-- `create` is a matter of its own collection exactly when its name is valid and no other
collection uses the identifier. -/
theorem createsLocally_iff (env : AdapterEnv) (s : AdapterState) (collection : String)
    (document : Json) :
    CreatesLocally env s collection document ↔
      validateIdentifier collection = .ok () ∧
        ∀ r ∈ s.table.rows, r.id = documentId s.draw.uuid document → r.collection = collection := by
  constructor
  · intro h
    refine ⟨h.valid, ?_⟩
    intro r hr hid
    by_contra hother
    have hnot : ¬ Holds s.table collection (documentId s.draw.uuid document) := by
      rintro ⟨r', hr', hcollection, hid'⟩
      obtain rfl := Table.eq_of_key_eq hr hr' (hid.trans hid'.symm)
      exact hother hcollection
    obtain ⟨created, hcreated⟩ := h.succeeds_iff.mpr hnot
    have htaken := create_eq_of_taken env h.valid hnot (Table.mem_keys.mpr ⟨r, hr, hid⟩)
    rw [(docCreate_error htaken).1] at hcreated
    cases hcreated
  · rintro ⟨hvalid, hlocal⟩
    by_cases hholds : Holds s.table collection (documentId s.draw.uuid document)
    · exact createsLocally_of_holds hvalid hholds
    · apply createsLocally_of_free hvalid
      intro hkey
      obtain ⟨r, hr, hid⟩ := Table.mem_keys.mp hkey
      exact hholds ⟨r, hr, hlocal r hr hid, hid⟩

/-- A document was created in the collection `a`. -/
def afterFirst : AdapterState :=
  ((adapterStore plainAdapter).docCreate ⟨Table.empty, fun _ => ⟨0, "now"⟩, 0⟩ "a"
    (.obj [("id", .str "1")])).2

theorem rows_afterFirst :
    afterFirst.table.rows = [⟨"1", "core", "a", .ok (.obj []), 1, "now", "now"⟩] := by
  decide +kernel

/-- The identifier is free in `b`, and cannot be created there. -/
theorem not_createsLocally_afterFirst :
    ¬ CreatesLocally plainAdapter afterFirst "b" (.obj [("id", .str "1")]) := by
  intro h
  have hnot : ¬ Holds afterFirst.table "b"
      (documentId afterFirst.draw.uuid (.obj [("id", .str "1")])) := by
    rintro ⟨r, hr, hcollection, -⟩
    rw [rows_afterFirst, List.mem_singleton] at hr
    subst hr
    simp at hcollection
  obtain ⟨created, hcreated⟩ := h.succeeds_iff.mpr hnot
  cases hcreated

end LifeEngine.SqliteDocument
