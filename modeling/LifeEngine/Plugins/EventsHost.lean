import LifeEngine.Plugins.Manifest
import LifeEngine.Support.Machine
import LifeEngine.Types.JsonText
import Mathlib.Data.List.Dedup

/-!
# Emitting events

From the manifest of a plugin to the events that it puts on the bus: the approval of the
capabilities that the manifest asks for, the context that the loader makes from its list
of events, and the host function `host_events_emit`.  A hash set is the list of its
elements in the order in which it is walked.
-/

namespace LifeEngine.Plugins

open Support

/-! ## Loading -/

/-- The flag says whether the plugin is a first-party one. -/
def checkCapabilityApproval (manifest : PluginManifest) (isFirstParty : Bool)
    (approvedCapabilities : List Capability) : Except PluginError (List Capability) :=
  let declared := manifest.capabilities.dedup
  if isFirstParty then .ok declared
  else
    let unapproved := declared.filter (· ∉ approvedCapabilities)
    if unapproved ≠ [] then
      .error (.capabilityViolation ("plugin '" ++ manifest.plugin.id ++
        "' declares unapproved capabilities: " ++
        ", ".intercalate (unapproved.map Capability.toStr)))
    else .ok (declared.filter (· ∈ approvedCapabilities))

/-- `EventsHostContext`, apart from the bus. -/
structure EventsHostContext where
  pluginId : String
  capabilities : List Capability
  declaredEmitEvents : Option (List String)
  executionDepth : Nat

/-- A loaded plugin; `host_events_emit` is there only with its capability. -/
structure LoadedPlugin where
  manifest : PluginManifest
  capabilities : List Capability
  emitContext : Option EventsHostContext

/-- Given the tables of the manifest and the approvals. -/
def loadSinglePlugin (isValidSemver : String → Bool) (path : String) (raw : RawManifest)
    (isFirstParty : Bool) (approved : String → Option (List Capability)) :
    Except PluginError LoadedPlugin := do
  let manifest ← parseManifestToml isValidSemver path raw
  let approvedCaps := (approved manifest.plugin.id).getD []
  let capabilities ← checkCapabilityApproval manifest isFirstParty approvedCaps
  let declaredEmit := if manifest.events.emit = [] then none else some manifest.events.emit
  let context : EventsHostContext := ⟨manifest.plugin.id, capabilities, declaredEmit, 0⟩
  return ⟨manifest, capabilities,
    if .eventsEmit ∈ capabilities then some context else none⟩

/-- Approval grants what the manifest asks for, or fails. -/
theorem mem_checkCapabilityApproval {manifest : PluginManifest} {isFirstParty : Bool}
    {approvedCapabilities granted : List Capability}
    (h : checkCapabilityApproval manifest isFirstParty approvedCapabilities = .ok granted)
    (cap : Capability) : cap ∈ granted ↔ cap ∈ manifest.capabilities := by
  simp only [checkCapabilityApproval] at h
  split_ifs at h with hfirst hunapproved
  · rw [← Except.ok.inj h, List.mem_dedup]
  · obtain rfl := Except.ok.inj h
    rw [not_not, List.filter_eq_nil_iff] at hunapproved
    simp only [List.mem_filter, List.mem_dedup, and_iff_left_iff_imp]
    intro hcap
    simpa using hunapproved cap (List.mem_dedup.mpr hcap)

/-! ## The host function -/

structure EmitRequest where
  eventName : String
  payload : Json
  deriving DecidableEq

/-- An event on the bus. -/
structure BusEvent where
  name : String
  payload : Json

/-- `host_events_emit`: the reply, and the events on the bus.  Inputs are read by
`serde_json::from_slice`. -/
def hostEventsEmit (read : Bytes → Except String EmitRequest) (ctx : EventsHostContext)
    (bus : List BusEvent) (input : Bytes) : Except PluginError Bytes × List BusEvent :=
  if .eventsEmit ∉ ctx.capabilities then
    (.error (.runtimeCapabilityViolation
      ("plugin '" ++ ctx.pluginId ++ "' lacks capability 'events:emit'")), bus)
  else
    match read input with
    | .error e => (.error (.executionFailed
        ("failed to deserialize emit request from plugin '" ++ ctx.pluginId ++ "': " ++ e)),
        bus)
    | .ok request =>
      -- No declaration means no check.
      if ctx.declaredEmitEvents.any (request.eventName ∉ ·) then
        (.error (.runtimeCapabilityViolation ("plugin '" ++ ctx.pluginId ++
          "' attempted to emit undeclared event '" ++ request.eventName ++ "'")), bus)
      else
        let payload := .obj [("depth", .num (.int ctx.executionDepth)),
          ("payload", request.payload), ("source", .str ctx.pluginId)]
        (.ok [0x7b, 0x7d], bus ++ [⟨request.eventName, payload⟩])

/-- The bus after calls with the inputs. -/
def emitAll (read : Bytes → Except String EmitRequest) (ctx : EventsHostContext)
    (inputs : List Bytes) : List BusEvent :=
  run (fun bus input => (hostEventsEmit read ctx bus input).2) [] inputs

/-- What a loaded plugin can put on the bus. -/
def LoadedPlugin.emitted (read : Bytes → Except String EmitRequest) (plugin : LoadedPlugin)
    (inputs : List Bytes) : List BusEvent :=
  match plugin.emitContext with
  | none => []
  | some ctx => emitAll read ctx inputs

/-- The context lets the plugin emit the event. -/
def EventsHostContext.Allows (ctx : EventsHostContext) (name : String) : Prop :=
  .eventsEmit ∈ ctx.capabilities ∧ ∀ declared ∈ ctx.declaredEmitEvents, name ∈ declared

section Emitting

variable {read : Bytes → Except String EmitRequest} {ctx : EventsHostContext} {bus : List BusEvent}

/-- A call adds at most an event that the context allows. -/
theorem mem_hostEventsEmit {input : Bytes} {event : BusEvent}
    (h : event ∈ (hostEventsEmit read ctx bus input).2) :
    event ∈ bus ∨ ctx.Allows event.name := by
  rw [hostEventsEmit] at h
  split at h
  · exact Or.inl h
  · next hcap =>
    split at h
    · exact Or.inl h
    · split at h
      · exact Or.inl h
      · next hdeclared =>
        rcases List.mem_append.mp h with hold | hnew
        · exact Or.inl hold
        · rw [List.mem_singleton.mp hnew]
          refine Or.inr ⟨not_not.mp hcap, ?_⟩
          intro declared hsome
          rw [Option.mem_def.mp hsome] at hdeclared
          simpa using hdeclared

theorem hostEventsEmit_request {input : Bytes} {request : EmitRequest}
    (hread : read input = .ok request) (h : ctx.Allows request.eventName) :
    ∃ payload, (hostEventsEmit read ctx bus input).2 =
      bus ++ [⟨request.eventName, payload⟩] := by
  obtain ⟨hcap, hdeclared⟩ := h
  have hno : ¬ ctx.declaredEmitEvents.any (request.eventName ∉ ·) = true := by
    rcases hsome : ctx.declaredEmitEvents with _ | declared
    · simp
    · simpa using hdeclared declared hsome
  rw [hostEventsEmit, if_neg (not_not.mpr hcap), hread]
  simp only [hno]
  exact ⟨_, rfl⟩

theorem allows_of_mem_emitAll {inputs : List Bytes} {event : BusEvent}
    (h : event ∈ emitAll read ctx inputs) : ctx.Allows event.name := by
  have hkeep : ∀ (bus : List BusEvent) (input : Bytes),
      (∀ event ∈ bus, ctx.Allows event.name) →
        ∀ event ∈ (hostEventsEmit read ctx bus input).2, ctx.Allows event.name := by
    intro bus input hbus event hevent
    exact (mem_hostEventsEmit hevent).elim (hbus event) id
  exact run_invariant hkeep (by simp) inputs event h

end Emitting

/-! ## Declared events -/

/-- The events are declared, and their names start with the id. -/
def EmitsOwn (read : Bytes → Except String EmitRequest) (plugin : LoadedPlugin) : Prop :=
  ∀ inputs, ∀ event ∈ plugin.emitted read inputs,
    event.name ∈ plugin.manifest.events.emit ∧
      plugin.manifest.plugin.id.toList <+: event.name.toList

/-- The context of a loaded plugin, by its manifest. -/
theorem loadSinglePlugin_spec {isValidSemver : String → Bool} {path : String}
    {raw : RawManifest} {isFirstParty : Bool} {approved : String → Option (List Capability)}
    {plugin : LoadedPlugin}
    (h : loadSinglePlugin isValidSemver path raw isFirstParty approved = .ok plugin) :
    (.eventsEmit ∉ plugin.manifest.capabilities ∧ plugin.emitContext = none) ∨
      .eventsEmit ∈ plugin.manifest.capabilities ∧ ∃ ctx, plugin.emitContext = some ctx ∧
        ∀ name, ctx.Allows name ↔
          plugin.manifest.events.emit = [] ∨ name ∈ plugin.manifest.events.emit := by
  obtain ⟨manifest, -, h⟩ := bind_eq_ok_iff.mp h
  obtain ⟨granted, hgranted, h⟩ := bind_eq_ok_iff.mp h
  obtain rfl := Except.ok.inj h
  have hmem := mem_checkCapabilityApproval hgranted .eventsEmit
  by_cases hcap : .eventsEmit ∈ manifest.capabilities
  · refine Or.inr ⟨hcap, _, if_pos (hmem.mpr hcap), ?_⟩
    by_cases hemit : manifest.events.emit = []
    · simp [EventsHostContext.Allows, hmem.mpr hcap, hemit]
    · simp [EventsHostContext.Allows, hmem.mpr hcap, hemit]
  · exact Or.inl ⟨hcap, if_neg (fun hin => hcap (hmem.mp hin))⟩

/-- A plugin emits only its own declared events exactly if it cannot emit, or declares at least one
event, and only events that start with its id; given that the declared events can be asked for. -/
theorem emitsOwn_iff (read : Bytes → Except String EmitRequest)
    {isValidSemver : String → Bool} {path : String} {raw : RawManifest} {isFirstParty : Bool}
    {approved : String → Option (List Capability)} {plugin : LoadedPlugin}
    (h : loadSinglePlugin isValidSemver path raw isFirstParty approved = .ok plugin)
    (hsome : ∃ input request, read input = .ok request)
    (hread : ∀ name ∈ plugin.manifest.events.emit, ∃ input payload,
      read input = .ok ⟨name, payload⟩) :
    EmitsOwn read plugin ↔ .eventsEmit ∉ plugin.manifest.capabilities ∨
      plugin.manifest.events.emit ≠ [] ∧ ∀ name ∈ plugin.manifest.events.emit,
        plugin.manifest.plugin.id.toList <+: name.toList := by
  rcases loadSinglePlugin_spec h with ⟨hcap, hctx⟩ | ⟨hcap, ctx, hctx, hallows⟩
  · refine iff_of_true ?_ (Or.inl hcap)
    intro inputs event hevent
    rw [LoadedPlugin.emitted, hctx] at hevent
    exact absurd hevent List.not_mem_nil
  · constructor
    · intro hown
      -- A request that the context allows puts its event on the bus.
      have hname : ∀ input request, read input = .ok request → ctx.Allows request.eventName →
          request.eventName ∈ plugin.manifest.events.emit ∧
            plugin.manifest.plugin.id.toList <+: request.eventName.toList := by
        intro input request hrequest hallowed
        obtain ⟨payload, hbus⟩ :=
          @hostEventsEmit_request read ctx [] input request hrequest hallowed
        apply hown [input] ⟨request.eventName, payload⟩
        simp only [LoadedPlugin.emitted, hctx, emitAll, run_cons, hbus]
        exact List.mem_singleton_self _
      refine Or.inr ⟨?_, ?_⟩
      · intro hnil
        obtain ⟨input, request, hrequest⟩ := hsome
        have hempty := (hname input request hrequest ((hallows _).mpr (Or.inl hnil))).1
        rw [hnil] at hempty
        exact absurd hempty List.not_mem_nil
      · intro name hemit
        obtain ⟨input, payload, hrequest⟩ := hread name hemit
        exact (hname input _ hrequest ((hallows name).mpr (Or.inr hemit))).2
    · rintro (hno | ⟨hdeclared, hprefix⟩) inputs event hevent
      · exact absurd hcap hno
      · rw [LoadedPlugin.emitted, hctx] at hevent
        have hemit :=
          ((hallows event.name).mp (allows_of_mem_emitAll hevent)).resolve_left hdeclared
        exact ⟨hemit, hprefix event.name hemit⟩

/-- The JSON of a request without a payload. -/
def bareRequest (name : String) : String :=
  String.ofList (Json.text (fun _ => "") (.obj [("event_name", .str name), ("payload", .null)]))

/-- Reads the requests without a payload whose names need no escapes. -/
def readBare (input : Bytes) : Except String EmitRequest :=
  match utf8Text input with
  | none => .error "invalid unicode code point"
  | some text =>
    let start := "\x7b\"event_name\":\"".length
    let name := String.ofList ((text.toList.drop start).take
      (text.length - start - "\",\"payload\":null\x7d".length))
    if bareRequest name = text then .ok ⟨name, .null⟩ else .error "expected value"

theorem readBare_bareRequest {name : String} (h : ∀ c ∈ name.toList, Json.escapeChar c = [c]) :
    readBare (bareRequest name).toByteArray.data.toList = .ok ⟨name, .null⟩ := by
  have hname : name.toList.flatMap Json.escapeChar = name.toList := by
    rw [List.flatMap_congr h, List.flatMap_singleton']
  have htext : (bareRequest name).toList =
      "\x7b\"event_name\":\"".toList ++ (name.toList ++ "\",\"payload\":null\x7d".toList) := by
    rw [bareRequest, String.toList_ofList]
    simp only [Json.text, Json.fieldsText, Json.stringText, hname, List.cons_append,
      List.append_assoc]
    rfl
  rw [readBare, utf8Text_toByteArray]
  simp [← String.length_toList, htext]

/-- A plugin that may emit events and declares these. -/
def mailManifest (emit : List String) : RawManifest where
  plugin := some ⟨some "mail", some "Mail", some "1.0.0", none, none, none, none⟩
  actions := some [("fetch", ⟨some "Fetch mail", none, none, none⟩)]
  capabilities := some (some ["events:emit"])
  collections := none
  events := some ⟨some (some emit), none⟩
  config := none

/-- The same, with its capability approved. -/
def mailPlugin (emit : List String) : LoadedPlugin where
  manifest :=
    { plugin := ⟨"mail", "Mail", "1.0.0", none, none, none, .thirdParty⟩
      actions := [("fetch", ⟨"Fetch mail", 30000, none, none⟩)]
      capabilities := [.eventsEmit]
      collections := []
      events := ⟨emit, []⟩
      config := none }
  capabilities := [.eventsEmit]
  emitContext := some ⟨"mail", [.eventsEmit], if emit = [] then none else some emit, 0⟩

theorem emitsOwn_mail_fetch_done :
    loadSinglePlugin (fun _ => true) "mail.toml" (mailManifest ["mail.fetch.done"]) false
        (fun _ => some [.eventsEmit]) = .ok (mailPlugin ["mail.fetch.done"]) ∧
      EmitsOwn readBare (mailPlugin ["mail.fetch.done"]) := by
  refine (fun hload => ⟨hload, (emitsOwn_iff readBare hload
    ⟨_, _, @readBare_bareRequest "mail.fetch.done" (by simp [Json.escapeChar])⟩
    ?_).mpr (Or.inr ?_)⟩) rfl
  · intro name hname
    obtain rfl := List.mem_singleton.mp hname
    exact ⟨_, _, readBare_bareRequest (by simp [Json.escapeChar])⟩
  · decide

/-- A plugin that declares no event may emit those of another. -/
theorem not_emitsOwn_nothing_declared :
    loadSinglePlugin (fun _ => true) "mail.toml" (mailManifest []) false
        (fun _ => some [.eventsEmit]) = .ok (mailPlugin []) ∧
      ∃ event ∈ (mailPlugin []).emitted readBare
          [(bareRequest "backup.run.done").toByteArray.data.toList],
        event.name ∉ (mailPlugin []).manifest.events.emit ∧
          ¬ (mailPlugin []).manifest.plugin.id.toList <+: event.name.toList := by
  refine ⟨rfl, ?_⟩
  obtain ⟨payload, hbus⟩ := @hostEventsEmit_request readBare ⟨"mail", [.eventsEmit], none, 0⟩ []
    _ _ (@readBare_bareRequest "backup.run.done" (by simp [Json.escapeChar]))
    ⟨by decide, by simp⟩
  refine ⟨⟨"backup.run.done", payload⟩, ?_, List.not_mem_nil, ?_⟩
  · change _ ∈ (hostEventsEmit readBare ⟨"mail", [.eventsEmit], none, 0⟩ [] _).2
    rw [hbus]
    exact List.mem_singleton_self _
  · change ¬ "mail".toList <+: "backup.run.done".toList
    decide

end LifeEngine.Plugins
