import LifeEngine.StorageContext.Reads

/-!
# Access levels of shared collections

A plugin declares each shared collection that it uses together with an access
level: `read`, `write` or `read-write`.  `resolve_collection` looks for a
declaration of the collection and is not told what the operation does, so the
level is never read.  What guards an operation is the plugin's capability and the
presence of some declaration.
-/

namespace LifeEngine.StorageContext

open Support Context

/-- The document operations. -/
inductive DocKind where
  | get
  | query
  | count
  | create
  | update
  | delete
  deriving DecidableEq, Repr

namespace DocKind

def capability : DocKind → StorageCapability
  | get | query | count => .docRead
  | create | update => .docWrite
  | delete => .docDelete

/-- The access levels that allow the operation. -/
def levels : DocKind → List String
  | get | query | count => ["read", "read-write"]
  | create | update | delete => ["write", "read-write"]

end DocKind

/-- An operation on a collection, with its arguments. -/
inductive DocOperation where
  | get (id : String)
  | query (descriptor : QueryDescriptor)
  | count (filters : Option FilterNode)
  | create (draw : DocDraw) (document : Json)
  | update (draw : DocDraw) (id : String) (document : Json)
  | delete (id : String)

def DocOperation.kind : DocOperation → DocKind
  | get _ => .get
  | query _ => .query
  | count _ => .count
  | create _ _ => .create
  | update _ _ _ => .update
  | delete _ => .delete

/-- The operation on the shared collection returns `Ok`. -/
def DocOperation.Succeeds {σ : Type} (ctx : Context) (store : DocStore σ)
    (s : ContextState σ) (caller : CallerIdentity) (collection : String) :
    DocOperation → Prop
  | get id => ∃ doc, ctx.docGet store s caller collection id false = .ok doc
  | query descriptor => ∃ list,
      ctx.docQuery store s caller { descriptor with collection } false = .ok list
  | count filters => ∃ n, docCount store s caller collection filters false = .ok n
  | create draw document => ∃ doc,
      (ctx.docCreate store.toDocRouter draw s caller collection document false).1 = .ok doc
  | update draw id document => ∃ doc,
      (ctx.docUpdate store.toDocRouter draw s caller collection id document false).1 = .ok doc
  | delete id => (docDelete store s caller collection id false).1 = .ok ()

/-- Some declaration of the collection allows the operation. -/
def Covered (shared : List CollectionAccess) (collection : String) (kind : DocKind) : Prop :=
  ∃ ca ∈ shared, ca.collection = collection ∧ ca.access ∈ kind.levels

def Declared (shared : List CollectionAccess) (collection : String) : Prop :=
  ∃ ca ∈ shared, ca.collection = collection

/-! ## What guards an operation -/

section Guards

variable {ctx : Context} {σ : Type} {store : DocStore σ} {s : ContextState σ}
  {pluginId : String} {capabilities : List StorageCapability}
  {shared : List CollectionAccess} {collection : String}

theorem gate_ok_iff {required : StorageCapability} {resolved : String} :
    (do
      checkCapability (.plugin pluginId capabilities shared) required
      resolveCollection (.plugin pluginId capabilities shared) collection false) = .ok resolved ↔
      required ∈ capabilities ∧ resolved = collection ∧ Declared shared collection := by
  rw [bind_eq_ok_iff]
  constructor
  · rintro ⟨_, hcapability, hresolve⟩
    exact ⟨holds_plugin_iff.mp hcapability, resolveCollection_shared_ok_iff.mp hresolve⟩
  · rintro ⟨hcapability, hresolve⟩
    exact ⟨(), holds_plugin_iff.mpr hcapability, resolveCollection_shared_ok_iff.mpr hresolve⟩

/-- What stands behind the two checks runs only if they pass. -/
theorem gated_of_ok {α : Type} {required : StorageCapability}
    {rest : String → Except StorageError α} {a : α}
    (h : (do
      checkCapability (.plugin pluginId capabilities shared) required
      let resolved ← resolveCollection (.plugin pluginId capabilities shared) collection false
      rest resolved) = .ok a) :
    required ∈ capabilities ∧ Declared shared collection := by
  obtain ⟨_, hcapability, hrest⟩ := bind_eq_ok_iff.mp h
  obtain ⟨resolved, hresolve, -⟩ := bind_eq_ok_iff.mp hrest
  exact ⟨holds_plugin_iff.mp hcapability, (resolveCollection_shared_ok_iff.mp hresolve).2⟩

theorem accepted_of_write_ok {nonce : Bytes} {accepted : Except StorageError String}
    {document result : Json} {send : String → Json → Except StorageError Json × σ}
    {event : String → AuditEvent}
    (h : (ctx.write nonce s accepted document send event).1 = .ok result) :
    ∃ resolved, accepted = .ok resolved := by
  cases accepted with
  | error e => cases h
  | ok resolved => exact ⟨resolved, rfl⟩

theorem DocOperation.Succeeds.gated {op : DocOperation}
    (h : op.Succeeds ctx store s (.plugin pluginId capabilities shared) collection) :
    op.kind.capability ∈ capabilities ∧ Declared shared collection := by
  cases op with
  | get id =>
    obtain ⟨doc, hdoc⟩ := h
    exact gated_of_ok hdoc
  | query descriptor =>
    obtain ⟨list, hlist⟩ := h
    exact gated_of_ok hlist
  | count filters =>
    obtain ⟨n, hn⟩ := h
    exact gated_of_ok hn
  | create draw document =>
    obtain ⟨doc, hdoc⟩ := h
    obtain ⟨resolved, haccepted⟩ := accepted_of_write_ok hdoc
    exact gated_of_ok haccepted
  | update draw id document =>
    obtain ⟨doc, hdoc⟩ := h
    obtain ⟨resolved, haccepted⟩ := accepted_of_write_ok hdoc
    exact gated_of_ok haccepted
  | delete id =>
    have hdelete : (docDelete store s (.plugin pluginId capabilities shared)
        collection id false).1 = .ok () := h
    unfold docDelete at hdelete
    split at hdelete
    · cases hdelete
    · next resolved hgate =>
      obtain ⟨hcapability, -, hdeclared⟩ := gate_ok_iff.mp hgate
      exact ⟨hcapability, hdeclared⟩

end Guards

/-! ## The level plays no part -/

/-- A store on which every operation succeeds. -/
def agreeableStore : DocStore Unit where
  docGet _ _ _ := .ok .null
  docCreate _ _ doc := (.ok doc, ())
  docUpdate _ _ _ doc := (.ok doc, ())
  docQuery _ _ := .ok ⟨[], 0, none⟩
  docCount _ _ _ := .ok 0
  docDelete _ _ _ := (.ok (), ())

def plainQuery : QueryDescriptor where
  collection := ""
  filter := none
  sort := []
  pagination := ⟨100, none⟩
  fields := none
  textSearch := none

/-- An operation of the kind that asks for little. -/
def DocKind.sample : DocKind → DocOperation
  | get => .get "1"
  | query => .query plainQuery
  | count => .count none
  | create => .create ⟨1, 2, 0, []⟩ .null
  | update => .update ⟨1, 2, 0, []⟩ "1" .null
  | delete => .delete "1"

/-- A context without schemas and without encryption. -/
def bareContext : Context :=
  { markedContext with credentialMasterKey := none }

theorem bareContext_reveal (resolved : String) (doc : Json) :
    bareContext.reveal resolved doc = .ok doc := by
  unfold reveal decryptCredentialClaims
  split <;> rfl

theorem bareContext_protect (nonce : Bytes) (resolved : String) (doc : Json) :
    bareContext.protect nonce resolved doc = .ok doc := by
  unfold protect encryptCredentialClaims
  split <;> rfl

/-- With the capability and any declaration the operation can succeed. -/
theorem DocKind.sample_succeeds {pluginId : String} {capabilities : List StorageCapability}
    {shared : List CollectionAccess} {collection : String} (kind : DocKind)
    (hcapability : kind.capability ∈ capabilities) (hdeclared : Declared shared collection) :
    kind.sample.Succeeds bareContext agreeableStore ⟨(), [], []⟩
      (.plugin pluginId capabilities shared) collection := by
  have hresolve : resolveCollection (.plugin pluginId capabilities shared) collection false =
      .ok collection := resolveCollection_shared_ok_iff.mpr ⟨rfl, hdeclared⟩
  have hcheck : checkCapability (.plugin pluginId capabilities shared) kind.capability =
      .ok () := holds_plugin_iff.mpr hcapability
  cases kind with
  | get =>
    refine ⟨.null, ?_⟩
    simp only [DocKind.capability] at hcheck
    simp [docGet, hcheck, hresolve, bind, Except.bind, agreeableStore, bareContext_reveal]
  | query =>
    refine ⟨⟨[], 0, none⟩, ?_⟩
    simp only [DocKind.capability] at hcheck
    simp [docQuery, hcheck, hresolve, bind, Except.bind, agreeableStore, revealAll, pure,
      Except.pure]
  | count =>
    refine ⟨0, ?_⟩
    simp only [DocKind.capability] at hcheck
    simp only [docCount, hcheck, hresolve, bind, Except.bind, agreeableStore]
  | create =>
    have haccepted : bareContext.acceptCreate ⟨1, 2, 0, []⟩
        (.plugin pluginId capabilities shared) collection .null false = .ok collection := by
      simp only [DocKind.capability] at hcheck
      simp only [acceptCreate, hcheck, hresolve]
      rfl
    refine ⟨.null, ?_⟩
    simp only [docCreate, haccepted, write, bareContext_protect]
    rfl
  | update =>
    have haccepted : bareContext.acceptUpdate agreeableStore.toDocRouter ⟨1, 2, 0, []⟩
        ⟨(), [], []⟩ (.plugin pluginId capabilities shared) collection "1" .null false =
          .ok collection := by
      simp only [DocKind.capability] at hcheck
      simp only [acceptUpdate, hcheck, hresolve]
      rfl
    refine ⟨.null, ?_⟩
    simp only [docUpdate, haccepted, write, bareContext_protect]
    rfl
  | delete =>
    have hgate : (do
        checkCapability (.plugin pluginId capabilities shared) .docDelete
        resolveCollection (.plugin pluginId capabilities shared) collection false) =
          .ok collection := gate_ok_iff.mpr ⟨hcapability, rfl, hdeclared⟩
    have hdelete : (docDelete agreeableStore ⟨(), [], []⟩
        (.plugin pluginId capabilities shared) collection "1" false).1 = .ok () := by
      simp only [docDelete, hgate, agreeableStore]
    exact hdelete

/-- Access levels are respected, in every context and for all arguments, exactly when the plugin
lacks the capability, or has declared nothing for the collection, or some declaration covers the
operation. -/
theorem access_respected_iff (pluginId : String) (capabilities : List StorageCapability)
    (shared : List CollectionAccess) (collection : String) (kind : DocKind) :
    (∀ (ctx : Context) (σ : Type) (store : DocStore σ) (s : ContextState σ)
        (op : DocOperation), op.kind = kind →
        op.Succeeds ctx store s (.plugin pluginId capabilities shared) collection →
        Covered shared collection kind) ↔
      (kind.capability ∈ capabilities → Declared shared collection →
        Covered shared collection kind) := by
  constructor
  · intro hrespected hcapability hdeclared
    exact hrespected bareContext Unit agreeableStore ⟨(), [], []⟩ kind.sample
      (by cases kind <;> rfl) (kind.sample_succeeds hcapability hdeclared)
  · rintro hcovered ctx σ store s op rfl hsucceeds
    obtain ⟨hcapability, hdeclared⟩ := hsucceeds.gated
    exact hcovered hcapability hdeclared

/-- A plugin that may `read` the events creates one. -/
theorem not_access_respected_read :
    (DocOperation.create ⟨1, 2, 0, []⟩ (.obj [("title", .str "party")])).Succeeds
        bareContext agreeableStore ⟨(), [], []⟩
        (.plugin "calendar" [.docWrite] [⟨"events", "read"⟩]) "events" ∧
      ¬ Covered [⟨"events", "read"⟩] "events" .create := by
  constructor
  · refine ⟨.obj [("created_at", .str "now"),
      ("id", .str "00000000-0000-0000-0000-000000000001"), ("title", .str "party"),
      ("updated_at", .str "now")], ?_⟩
    decide +kernel
  · simp [Covered, DocKind.levels]

end LifeEngine.StorageContext
