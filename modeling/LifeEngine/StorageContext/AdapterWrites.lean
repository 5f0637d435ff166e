import LifeEngine.SqliteDocument.Store

/-!
# Writes over the SQLite adapter

What a write through `StorageContext` does when the store behind it is the SQLite
adapter: a failed write leaves the table as it was, a successful one has passed its
checks and has handed the adapter the document in its protected form.
-/

namespace LifeEngine.StorageContext

open Support SqliteDocument

/-! ## The stages of a write -/

section Writes

variable {ctx : Context}

theorem get_protect {nonce : Bytes} {collection : String} {doc doc' : Json}
    (h : ctx.protect nonce collection doc = .ok doc') {key : String}
    (hkey : key ∉ ["claims", "encrypted"]) : doc'.get key = doc.get key := by
  unfold Context.protect at h
  split at h
  · cases Context.encrypts_of_ok h with
    | unchanged hsame hplain => rw [hsame]
    | replaced masterKey id claims text _ _ _ _ _ _ hother => exact hother key hkey
  · cases h
    rfl

variable {σ : Type} {nonce : Bytes} {s : ContextState σ}
  {accepted : Except StorageError String} {document : Json}
  {send : String → Json → Except StorageError Json × σ} {event : String → AuditEvent}

theorem write_ok {result : Json} {s' : ContextState σ}
    (h : ctx.write nonce s accepted document send event = (.ok result, s')) :
    ∃ resolved doc, accepted = .ok resolved ∧ ctx.protect nonce resolved document = .ok doc ∧
      send resolved doc = (.ok result, s'.router) ∧ s'.audit = s.audit ++ [event resolved] := by
  cases accepted with
  | error e => cases h
  | ok resolved =>
    cases hprotect : ctx.protect nonce resolved document with
    | error e => simp [Context.write, hprotect] at h
    | ok doc =>
      simp only [Context.write, hprotect] at h
      split at h
      · cases h
      · next result' r hsend =>
        cases h
        exact ⟨resolved, doc, rfl, hprotect, hsend, rfl⟩

theorem write_error {e : StorageError} {s' : ContextState σ}
    (h : ctx.write nonce s accepted document send event = (.error e, s')) :
    s'.audit = s.audit ∧
      (s'.router = s.router ∨ ∃ resolved doc, send resolved doc = (.error e, s'.router)) := by
  cases accepted with
  | error e' =>
    cases h
    exact ⟨rfl, .inl rfl⟩
  | ok resolved =>
    cases hprotect : ctx.protect nonce resolved document with
    | error e' =>
      simp only [Context.write, hprotect] at h
      cases h
      exact ⟨rfl, .inl rfl⟩
    | ok doc =>
      simp only [Context.write, hprotect] at h
      split at h
      · next e' r hsend =>
        cases h
        exact ⟨rfl, .inr ⟨resolved, doc, hsend⟩⟩
      · cases h

end Writes

/-! ## Outcomes -/

section Outcomes

variable {ctx : Context} {env : AdapterEnv} {draw : DocDraw} {caller : CallerIdentity}
  {collection id resolved : String} {document : Json} {pluginScoped : Bool}
  {s s' : ContextState AdapterState}

theorem resolve_of_acceptCreate
    (h : ctx.acceptCreate draw caller collection document pluginScoped = .ok resolved) :
    resolveCollection caller collection pluginScoped = .ok resolved := by
  simp only [Context.acceptCreate, bind_eq_ok_iff] at h
  obtain ⟨_, -, name, hname, _, -, _, -, hresolved⟩ := h
  cases hresolved
  exact hname

theorem resolve_of_acceptUpdate {σ : Type} {router : DocRouter σ} {s : ContextState σ}
    (h : ctx.acceptUpdate router draw s caller collection id document pluginScoped = .ok resolved) :
    resolveCollection caller collection pluginScoped = .ok resolved := by
  simp only [Context.acceptUpdate, bind_eq_ok_iff] at h
  obtain ⟨_, -, name, hname, _, -, _, -, hresolved⟩ := h
  cases hresolved
  exact hname

theorem docCreate_error {e : StorageError}
    (h : ctx.docCreate (adapterStore env).toDocRouter draw s caller collection document
      pluginScoped = (.error e, s')) :
    s'.router.table = s.router.table := by
  rcases (write_error h).2 with hsame | ⟨resolved, doc, hsend⟩
  · rw [hsame]
  · exact AdapterState.commit_error hsend

theorem docUpdate_error {e : StorageError}
    (h : ctx.docUpdate (adapterStore env).toDocRouter draw s caller collection id document
      pluginScoped = (.error e, s')) :
    s'.router.table = s.router.table := by
  rcases (write_error h).2 with hsame | ⟨resolved, doc, hsend⟩
  · rw [hsame]
  · exact AdapterState.commit_error hsend

theorem docCreate_ok {result : Json}
    (h : ctx.docCreate (adapterStore env).toDocRouter draw s caller collection document
      pluginScoped = (.ok result, s')) :
    ∃ resolved doc,
      ctx.acceptCreate draw caller collection document pluginScoped = .ok resolved ∧
      ctx.protect draw.nonce resolved
        (injectSystemFieldsCreate ctx.timeText draw document) = .ok doc ∧
      create env s.router.draw s.router.table resolved doc = .ok (result, s'.router.table) := by
  obtain ⟨resolved, doc, haccepted, hprotect, hsend, -⟩ := write_ok h
  exact ⟨resolved, doc, haccepted, hprotect, AdapterState.commit_ok hsend⟩

theorem docUpdate_ok {result : Json}
    (h : ctx.docUpdate (adapterStore env).toDocRouter draw s caller collection id document
      pluginScoped = (.ok result, s')) :
    ∃ resolved doc,
      ctx.acceptUpdate (adapterStore env).toDocRouter draw s caller collection id document
        pluginScoped = .ok resolved ∧
      ctx.protect draw.nonce resolved
        (injectSystemFieldsUpdate ctx.timeText draw document) = .ok doc ∧
      update s.router.draw.now s.router.table resolved id doc = .ok (result, s'.router.table) := by
  obtain ⟨resolved, doc, haccepted, hprotect, hsend, -⟩ := write_ok h
  exact ⟨resolved, doc, haccepted, hprotect, AdapterState.commit_ok hsend⟩

theorem docDelete_cases {result : Except StorageError Unit}
    (h : Context.docDelete (adapterStore env) s caller collection id pluginScoped = (result, s')) :
    s'.router.table = s.router.table ∧ s'.audit = s.audit ∧ (∃ e, result = .error e) ∨
      ∃ resolved, resolveCollection caller collection pluginScoped = .ok resolved ∧
        result = .ok () ∧ delete s.router.table resolved id = .ok s'.router.table ∧
        s'.audit = s.audit ++
          [⟨"system.storage.deleted", origin caller, Context.auditPayload resolved id⟩] := by
  unfold Context.docDelete at h
  split at h
  · next e _ =>
    cases h
    exact .inl ⟨rfl, rfl, e, rfl⟩
  · next resolved hgate =>
    obtain ⟨_, -, hresolve⟩ := bind_eq_ok_iff.mp hgate
    split at h
    · next e r hsend =>
      cases h
      exact .inl ⟨AdapterState.commit_error hsend, rfl, e, rfl⟩
    · next r hsend =>
      cases h
      have hdelete := AdapterState.commit_ok hsend
      obtain ⟨table, htable, hpair⟩ := map_eq_ok_iff.mp hdelete
      cases hpair
      exact .inr ⟨resolved, hresolve, rfl, htable, rfl⟩

end Outcomes

end LifeEngine.StorageContext
