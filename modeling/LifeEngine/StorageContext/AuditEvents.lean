import LifeEngine.StorageContext.Access
import LifeEngine.StorageContext.Credentials

/-!
# The audit events of document writes

Every successful write of a `StorageContext` reports the collection and the identifier
of the document it concerns.  On a creation both the context and the adapter read the
identifier from the document, each with a default of its own for one that is not text.
-/

namespace LifeEngine.StorageContext

open Support SqliteDocument

/-- The write has stored a row at the place, overwritten it, or removed it. -/
inductive Concerns (before after : Documents) : String → String → Prop
  | created (row : DocumentRow) (h : after.rows = before.rows ++ [row]) :
      Concerns before after row.collection row.id
  | updated (now : String) (data : Json) (row : DocumentRow) (hrow : row ∈ before.rows)
      (h : after = overwrite now data row.collection row.id before) :
      Concerns before after row.collection row.id
  | deleted (row : DocumentRow) (hrow : row ∈ before.rows)
      (h : after = before.deleteWhere (isAt row.collection row.id)) :
      Concerns before after row.collection row.id

namespace Context

variable (ctx : Context) (env : AdapterEnv)

/-- Whether the call succeeds, and the state after it. -/
def perform (s : ContextState AdapterState) : StoreCall → Bool × ContextState AdapterState
  | .write (.create draw caller collection document pluginScoped) =>
    let (result, s') := ctx.docCreate (adapterStore env).toDocRouter draw s caller collection
      document pluginScoped
    (result.isOk, s')
  | .write (.update draw caller collection id document pluginScoped) =>
    let (result, s') := ctx.docUpdate (adapterStore env).toDocRouter draw s caller collection
      id document pluginScoped
    (result.isOk, s')
  | .delete caller collection id pluginScoped =>
    let (result, s') := docDelete (adapterStore env) s caller collection id pluginScoped
    (result.isOk, s')

/-- A success emits one event, about the place that it has changed, and a failure none. -/
def Audited (s : ContextState AdapterState) (call : StoreCall) : Prop :=
  let (succeeds, s') := ctx.perform env s call
  if succeeds then
    ∃ event collection id, s'.audit = s.audit ++ [event] ∧
      event.payload = auditPayload collection id ∧
      Concerns s.router.table s'.router.table collection id
  else s'.audit = s.audit

end Context

/-- A created document is an object, and its identifier, if any, is text. -/
def StoreCall.HasTextId : StoreCall → Prop
  | .write (.create _ _ _ document _) =>
    ∃ fields, document = .obj fields ∧
      ∀ value, JsonMap.get fields "id" = some value → value.asStr ≠ none
  | _ => True

theorem Concerns.id_eq {before after : Documents} {collection id : String}
    (h : Concerns before after collection id) {row : DocumentRow}
    (hrows : after.rows = before.rows ++ [row]) : id = row.id := by
  have hlength := congrArg List.length hrows
  rcases h with ⟨row', h⟩ | ⟨now, data, row', hrow, rfl⟩ | ⟨row', hrow, rfl⟩
  · have hsame := List.append_cancel_left (h.symm.trans hrows)
    rw [List.singleton_inj.mp hsame]
  · simp [overwrite, Table.updateWhere] at hlength
  · have hle := List.length_filter_le (fun r => !isAt row'.collection row'.id r) before.rows
    simp only [Table.deleteWhere, List.length_append, List.length_singleton] at hlength
    omega

section Calls

variable {ctx : Context} {env : AdapterEnv} {draw : DocDraw} {caller : CallerIdentity}
  {collection id : String} {document : Json} {pluginScoped : Bool}
  {s : ContextState AdapterState}

theorem text_id_iff {timeText : Timestamp → String} :
    ((injectSystemFieldsCreate timeText draw document).get "id").bind Json.asStr ≠ none ↔
      (StoreCall.write (.create draw caller collection document pluginScoped)).HasTextId := by
  rcases document with _ | _ | _ | _ | _ | fields
  case obj =>
    simp only [injectSystemFieldsCreate, Json.get, StoreCall.HasTextId]
    rw [JsonMap.get_insert_of_ne (by decide), JsonMap.get_insert_of_ne (by decide)]
    by_cases hid : JsonMap.get fields "id" = none
    · simp [hid, Json.asStr]
    · obtain ⟨value, hvalue⟩ := Option.ne_none_iff_exists'.mp hid
      simp [hvalue]
  all_goals simp [injectSystemFieldsCreate, Json.get, StoreCall.HasTextId]

/-- The context and the adapter name one document exactly if its identifier is text. -/
theorem audited_create_iff :
    ctx.Audited env s (.write (.create draw caller collection document pluginScoped)) ↔
      ((ctx.perform env s (.write (.create draw caller collection document pluginScoped))).1 =
        true →
        (StoreCall.write (.create draw caller collection document pluginScoped)).HasTextId) := by
  rcases houtcome : ctx.docCreate (adapterStore env).toDocRouter draw s caller collection
    document pluginScoped with ⟨_ | result, s'⟩
  · simp only [Context.Audited, Context.perform, houtcome]
    exact iff_of_true (write_error houtcome).1 nofun
  · simp only [Context.Audited, Context.perform, houtcome]
    obtain ⟨resolved, doc, -, hprotect, hsend, haudit⟩ := write_ok houtcome
    obtain ⟨-, hrows, -⟩ := create_ok (AdapterState.commit_ok hsend)
    -- Encryption leaves the identifier alone, so both readings find the same value.
    have hid : (doc.get "id").bind Json.asStr = ((injectSystemFieldsCreate ctx.timeText draw
        document).get "id").bind Json.asStr := by rw [get_protect hprotect (by decide)]
    have hstored : (newRow env s.router.draw resolved doc).id =
        documentId s.router.draw.uuid doc := rfl
    rw [documentId, hid] at hstored
    rw [← text_id_iff]
    rcases htext : ((injectSystemFieldsCreate ctx.timeText draw document).get "id").bind
      Json.asStr with _ | text
    · refine iff_of_false ?_ (by simp [Except.toBool])
      rintro ⟨event, collection', id, hevent, hpayload, hconcerns⟩
      obtain rfl := List.singleton_inj.mp (List.append_cancel_left (haudit.symm.trans hevent))
      rw [htext] at hpayload hstored
      obtain ⟨-, rfl⟩ : resolved = collection' ∧ id = "" := by
        simpa [Context.auditPayload] using hpayload
      have hempty := (hconcerns.id_eq hrows).trans hstored
      simp [uuidText] at hempty
    · refine iff_of_true ⟨_, resolved, text, haudit, by rw [htext]; rfl, ?_⟩ (by simp)
      rw [htext, Option.getD_some] at hstored
      rw [← hstored]
      exact .created (newRow env s.router.draw resolved doc) hrows

theorem audited_update :
    ctx.Audited env s (.write (.update draw caller collection id document pluginScoped)) := by
  rcases houtcome : ctx.docUpdate (adapterStore env).toDocRouter draw s caller collection id
    document pluginScoped with ⟨_ | result, s'⟩
  · simp only [Context.Audited, Context.perform, houtcome]
    exact (write_error houtcome).1
  · simp only [Context.Audited, Context.perform, houtcome]
    obtain ⟨resolved, doc, -, -, hsend, haudit⟩ := write_ok houtcome
    obtain ⟨htable, row, hrow, rfl, rfl⟩ := update_ok (AdapterState.commit_ok hsend)
    exact ⟨_, _, _, haudit, rfl, .updated _ _ row hrow htable⟩

theorem audited_delete : ctx.Audited env s (.delete caller collection id pluginScoped) := by
  rcases houtcome : Context.docDelete (adapterStore env) s caller collection id
    pluginScoped with ⟨result, s'⟩
  simp only [Context.Audited, Context.perform, houtcome]
  rcases docDelete_cases houtcome with ⟨-, haudit, e, rfl⟩ | ⟨resolved, -, rfl, hdelete, haudit⟩
  · exact haudit
  · obtain ⟨htable, row, hrow, rfl, rfl⟩ := delete_ok hdelete
    exact ⟨_, _, _, haudit, rfl, .deleted row hrow htable⟩

end Calls

/-- Every call of a run is audited as it should be exactly if each created document has an
identifier that is text, or none. -/
theorem audited_iff_hasTextId (ctx : Context) (env : AdapterEnv)
    (start : ContextState AdapterState) (calls : List StoreCall) :
    EveryStep (fun s call => (ctx.perform env s call).2) (ctx.Audited env) start calls ↔
      EveryStep (fun s call => (ctx.perform env s call).2)
        (fun s call => (ctx.perform env s call).1 = true → call.HasTextId) start calls := by
  refine everyStep_congr (fun s call => ?_) start calls
  rcases call with ⟨⟨⟩ | ⟨⟩⟩ | ⟨⟩
  · exact audited_create_iff
  · exact iff_of_true audited_update fun _ => trivial
  · exact iff_of_true audited_delete fun _ => trivial

/-- An event with a number for its identifier is stored under a drawn one, and audited under the
empty text. -/
theorem not_audited_number :
    ¬bareContext.Audited plainAdapter (Observed.start fun _ => ⟨3, "now"⟩).state
      (.write (.create ⟨1, 2, 0, []⟩ .system "events" (.obj [("id", .num (.int 5))]) false)) := by
  intro h
  obtain ⟨fields, hfields, htext⟩ := audited_create_iff.mp h (by decide +kernel)
  cases hfields
  exact htext (.num (.int 5)) rfl rfl

end LifeEngine.StorageContext
