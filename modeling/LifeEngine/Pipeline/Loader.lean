import LifeEngine.Pipeline.Workflows
import Mathlib.Data.List.Sort

/-!
# Loading workflows and their triggers

`load_workflows` reads the definitions of a directory and refuses a second workflow with
the same id or with the same endpoint text.  `TriggerRegistry::build` then files each
workflow under its triggers.  An endpoint is filed under the method it names, whatever
the case of its letters, and the path, and a later workflow replaces an earlier one.
-/

namespace LifeEngine.Pipeline

open Support List

variable {Schedule : Type}

/-- Upper case beyond ASCII, the YAML reader with the order of its maps, and the cron parser. -/
structure LoaderEnv (Schedule : Type) where
  upper : Char → List Char
  readYaml : String → Except String (List (String × WorkflowDef))
  parseCron : String → Except String Schedule

/-! ## Loading -/

/-- An entry of the directory, with what reading it gives. -/
structure WorkflowFile where
  name : String
  contents : Except String String

/-- `Path::extension` of a file name. -/
def fileExtension (name : List Char) : Option (List Char) :=
  match name.reverse.span (· ≠ '.') with
  | (_, []) => none
  | (_, [_]) => none
  | (extension, _ :: _ :: _) => some extension.reverse

def WorkflowFile.isWorkflow (file : WorkflowFile) : Bool :=
  fileExtension file.name.toList = some "yaml".toList ∨
    fileExtension file.name.toList = some "yml".toList

/-- The workflows so far, with the file of each id and the workflow of each endpoint. -/
structure Loaded where
  workflows : List WorkflowDef
  idSources : List (String × String)
  endpointSources : List (String × String)

/-- The id of a workflow without one is its key. -/
def WorkflowDef.withKey (workflow : WorkflowDef) (key : String) : WorkflowDef :=
  if workflow.id.isEmpty then { workflow with id := key } else workflow

def insertEndpoint (sources : List (String × String)) (workflow : WorkflowDef) :
    Except WorkflowError (List (String × String)) :=
  match workflow.trigger.endpoint with
  | none => .ok sources
  | some endpoint =>
    match sources.lookup endpoint with
    | some workflow1 => .error (.duplicateEndpoint endpoint workflow1 workflow.id)
    | none => .ok ((endpoint, workflow.id) :: sources)

def insertWorkflow (filename : String) (loaded : Loaded) (workflow : WorkflowDef) :
    Except WorkflowError Loaded := do
  validateWorkflow workflow filename
  match loaded.idSources.lookup workflow.id with
  | some file1 => .error (.duplicateWorkflowId workflow.id file1 filename)
  | none => do
      let endpointSources ← insertEndpoint loaded.endpointSources workflow
      return ⟨loaded.workflows ++ [workflow], (workflow.id, filename) :: loaded.idSources,
        endpointSources⟩

def loadFile (env : LoaderEnv Schedule) (loaded : Loaded) (file : WorkflowFile) :
    Except WorkflowError Loaded := do
  let contents ← file.contents.mapError (.loadFailed file.name)
  let workflows ← (env.readYaml contents).mapError (.loadFailed file.name)
  workflows.foldlM (fun loaded entry => insertWorkflow file.name loaded (entry.2.withKey entry.1))
    loaded

/-- There may be no directory, or it cannot be read. -/
def loadWorkflows (env : LoaderEnv Schedule) (path : String)
    (directory : Option (Except String (List WorkflowFile))) :
    Except WorkflowError (List WorkflowDef) :=
  match directory with
  | none =>
    .error (.loadFailed path "workflow directory does not exist or is not a directory")
  | some entries => do
      let entries ← entries.mapError (.loadFailed path)
      let files := (entries.filter WorkflowFile.isWorkflow).insertionSort fun a b =>
        a.name ≤ b.name
      let loaded ← files.foldlM (loadFile env) ⟨[], [], []⟩
      return loaded.workflows

/-- The sources are those of the workflows, whose ids differ. -/
structure Loaded.DistinctIds (loaded : Loaded) : Prop where
  sources : loaded.idSources.map Prod.fst = (loaded.workflows.map WorkflowDef.id).reverse
  nodup : (loaded.workflows.map WorkflowDef.id).Nodup

theorem distinctIds_insertWorkflow {filename : String} {loaded loaded' : Loaded}
    {workflow : WorkflowDef} (hloaded : loaded.DistinctIds)
    (h : insertWorkflow filename loaded workflow = .ok loaded') : loaded'.DistinctIds := by
  obtain ⟨_, -, h⟩ := bind_eq_ok_iff.mp h
  rcases hlookup : loaded.idSources.lookup workflow.id with _ | file1
  · rw [hlookup] at h
    obtain ⟨endpointSources, -, h⟩ := bind_eq_ok_iff.mp h
    obtain rfl := Except.ok.inj h
    have hnew : workflow.id ∉ loaded.workflows.map WorkflowDef.id := by
      rw [← mem_reverse, ← hloaded.sources]
      intro hmem
      obtain ⟨entry, hentry, hid⟩ := mem_map.mp hmem
      have hne := lookup_eq_none_iff.mp hlookup entry hentry
      simp [hid] at hne
    constructor
    · simp [hloaded.sources]
    · rw [map_append, map_singleton, ← concat_eq_append]
      exact hloaded.nodup.concat hnew
  · rw [hlookup] at h
    exact nomatch h

theorem nodup_id_of_loadWorkflows {env : LoaderEnv Schedule} {path : String}
    {directory : Option (Except String (List WorkflowFile))} {workflows : List WorkflowDef}
    (h : loadWorkflows env path directory = .ok workflows) :
    (workflows.map WorkflowDef.id).Nodup := by
  rcases directory with _ | entries
  · exact nomatch h
  · obtain ⟨entries, -, h⟩ := bind_eq_ok_iff.mp h
    obtain ⟨loaded, hfiles, h⟩ := bind_eq_ok_iff.mp h
    obtain rfl := Except.ok.inj h
    have hempty : Loaded.DistinctIds ⟨[], [], []⟩ := ⟨rfl, nodup_nil⟩
    refine (foldlM_ok_invariant (fun loaded file loaded' hloaded h => ?_) hempty hfiles).nodup
    obtain ⟨contents, -, h⟩ := bind_eq_ok_iff.mp h
    obtain ⟨workflows, -, h⟩ := bind_eq_ok_iff.mp h
    exact foldlM_ok_invariant (fun _ _ _ => distinctIds_insertWorkflow) hloaded h

/-! ## The registry -/

inductive HttpMethod where
  | get
  | post
  | put
  | patch
  | delete
  | propfind
  | report
  | mkcalendar
  | mkcol
  deriving DecidableEq, Repr

/-- `str::to_uppercase`. -/
def toUppercase (env : LoaderEnv Schedule) (text : List Char) : List Char :=
  text.flatMap fun c => if c.toNat < 128 then [c.toUpper] else env.upper c

def HttpMethod.parse (env : LoaderEnv Schedule) (text : String) : Option HttpMethod :=
  [("GET", get), ("POST", post), ("PUT", put), ("PATCH", patch), ("DELETE", delete),
    ("PROPFIND", propfind), ("REPORT", report), ("MKCALENDAR", mkcalendar),
    ("MKCOL", mkcol)].lookup (String.ofList (toUppercase env text.toList))

structure TriggerRegistry (Schedule : Type) where
  endpoints : HttpMethod × String → Option WorkflowDef
  events : String → List WorkflowDef
  schedules : List (Schedule × WorkflowDef)

/-- `splitn(2, ' ')`, if it gives two parts. -/
def splitEndpoint (endpoint : String) : Option (String × String) :=
  match endpoint.toList.span (· ≠ ' ') with
  | (method, _ :: path) => some (String.ofList method, String.ofList path)
  | (_, []) => none

def parseEndpoint (env : LoaderEnv Schedule) (endpoint workflowId : String) :
    Except WorkflowError (HttpMethod × String) := do
  let parts ← okOr (splitEndpoint endpoint) (.invalidDefinition workflowId
    ("endpoint trigger '" ++ endpoint ++ "' must be in 'METHOD /path' format"))
  let method ← okOr (HttpMethod.parse env parts.1) (.invalidDefinition workflowId
    ("unsupported HTTP method '" ++ parts.1 ++ "' in endpoint trigger"))
  return (method, parts.2)

namespace TriggerRegistry

def empty : TriggerRegistry Schedule where
  endpoints _ := none
  events _ := []
  schedules := []

def addEndpoint (env : LoaderEnv Schedule) (registry : TriggerRegistry Schedule)
    (workflow : WorkflowDef) : Except WorkflowError (TriggerRegistry Schedule) :=
  match workflow.trigger.endpoint with
  | none => return registry
  | some endpoint => do
      let key ← parseEndpoint env endpoint workflow.id
      return { registry with endpoints := Function.update registry.endpoints key (some workflow) }

def addEvent (registry : TriggerRegistry Schedule) (workflow : WorkflowDef) :
    TriggerRegistry Schedule :=
  match workflow.trigger.event with
  | none => registry
  | some event =>
    { registry with
      events := Function.update registry.events event (registry.events event ++ [workflow]) }

def addSchedule (env : LoaderEnv Schedule) (registry : TriggerRegistry Schedule)
    (workflow : WorkflowDef) : Except WorkflowError (TriggerRegistry Schedule) :=
  match workflow.trigger.schedule with
  | none => return registry
  | some expression => do
      let schedule ← (env.parseCron expression).mapError fun e =>
        .invalidDefinition workflow.id
          ("invalid cron expression '" ++ expression ++ "': " ++ e)
      return { registry with schedules := registry.schedules ++ [(schedule, workflow)] }

/-- One round of the loop of `build`. -/
def add (env : LoaderEnv Schedule) (registry : TriggerRegistry Schedule)
    (workflow : WorkflowDef) : Except WorkflowError (TriggerRegistry Schedule) := do
  let registry ← addEndpoint env registry workflow
  addSchedule env (addEvent registry workflow) workflow

def build (env : LoaderEnv Schedule) (workflows : List WorkflowDef) :
    Except WorkflowError (TriggerRegistry Schedule) :=
  workflows.foldlM (add env) empty

def findEndpoint (env : LoaderEnv Schedule) (registry : TriggerRegistry Schedule)
    (method path : String) : Option WorkflowDef := do
  let httpMethod ← HttpMethod.parse env method
  registry.endpoints (httpMethod, path)

def findEvent (registry : TriggerRegistry Schedule) (eventName : String) : List WorkflowDef :=
  registry.events eventName

def getSchedules (registry : TriggerRegistry Schedule) : List (Schedule × WorkflowDef) :=
  registry.schedules

end TriggerRegistry

open TriggerRegistry

/-! ## Lost triggers -/

/-- Every trigger of the workflows is found in the registry. -/
structure KeepsTriggers (env : LoaderEnv Schedule) (workflows : List WorkflowDef)
    (registry : TriggerRegistry Schedule) : Prop where
  endpoints : ∀ workflow ∈ workflows, ∀ endpoint, workflow.trigger.endpoint = some endpoint →
    ∃ method path, splitEndpoint endpoint = some (method, path) ∧
      registry.findEndpoint env method path = some workflow
  events : ∀ workflow ∈ workflows, ∀ event, workflow.trigger.event = some event →
    workflow ∈ registry.findEvent event ∧
      (registry.findEvent event).countP (fun other => other.id = workflow.id) = 1
  schedules : ∀ workflow ∈ workflows, ∀ expression,
    workflow.trigger.schedule = some expression →
    ∃ schedule, env.parseCron expression = .ok schedule ∧
      (schedule, workflow) ∈ registry.getSchedules

/-- The method and the path of the endpoint. -/
def endpointKey (env : LoaderEnv Schedule) (workflow : WorkflowDef) :
    Option (HttpMethod × String) :=
  workflow.trigger.endpoint.bind fun endpoint => (parseEndpoint env endpoint workflow.id).toOption

/-- Two workflows are not filed under one method and path. -/
def DistinctEndpoints (env : LoaderEnv Schedule) (workflows : List WorkflowDef) : Prop :=
  ∀ v ∈ workflows, ∀ w ∈ workflows, ∀ key, endpointKey env v = some key →
    endpointKey env w = some key → v.id = w.id

section Build

variable {env : LoaderEnv Schedule} {registry registry' : TriggerRegistry Schedule}
  {workflow : WorkflowDef} {workflows : List WorkflowDef}

theorem addEndpoint_ok (h : registry.addEndpoint env workflow = .ok registry') :
    (workflow.trigger.endpoint = none ∧ registry' = registry) ∨
    ∃ endpoint key, workflow.trigger.endpoint = some endpoint ∧
      parseEndpoint env endpoint workflow.id = .ok key ∧
      registry' = { registry with
        endpoints := Function.update registry.endpoints key (some workflow) } := by
  rw [addEndpoint] at h
  rcases hendpoint : workflow.trigger.endpoint with _ | endpoint
  · rw [hendpoint] at h
    exact .inl ⟨rfl, (Except.ok.inj h).symm⟩
  · rw [hendpoint] at h
    obtain ⟨key, hkey, h⟩ := bind_eq_ok_iff.mp h
    exact .inr ⟨endpoint, key, rfl, hkey, (Except.ok.inj h).symm⟩

theorem addSchedule_ok (h : registry.addSchedule env workflow = .ok registry') :
    (workflow.trigger.schedule = none ∧ registry' = registry) ∨
    ∃ expression schedule, workflow.trigger.schedule = some expression ∧
      env.parseCron expression = .ok schedule ∧
      registry' = { registry with schedules := registry.schedules ++ [(schedule, workflow)] } := by
  rw [addSchedule] at h
  rcases hexpression : workflow.trigger.schedule with _ | expression
  · rw [hexpression] at h
    exact .inl ⟨rfl, (Except.ok.inj h).symm⟩
  · rw [hexpression] at h
    obtain ⟨schedule, hschedule, h⟩ := bind_eq_ok_iff.mp h
    exact .inr ⟨expression, schedule, rfl, mapError_eq_ok_iff.mp hschedule, (Except.ok.inj h).symm⟩

theorem addEvent_events (registry : TriggerRegistry Schedule) (workflow : WorkflowDef)
    (name : String) :
    (registry.addEvent workflow).events name =
      registry.events name ++ [workflow].filter fun w => w.trigger.event = some name := by
  rw [addEvent]
  rcases hevent : workflow.trigger.event with _ | event
  · simp [hevent]
  · by_cases hname : event = name
    · simp [hevent, hname]
    · simp [hevent, hname, Function.update_of_ne (Ne.symm hname)]

theorem addEvent_keeps (registry : TriggerRegistry Schedule) (workflow : WorkflowDef) :
    (registry.addEvent workflow).endpoints = registry.endpoints ∧
      (registry.addEvent workflow).schedules = registry.schedules := by
  rw [addEvent]
  split <;> exact ⟨rfl, rfl⟩

/-- The registry holds the last workflow under each key. -/
structure Built (env : LoaderEnv Schedule) (workflows : List WorkflowDef)
    (registry : TriggerRegistry Schedule) : Prop where
  parsed : ∀ workflow ∈ workflows, ∀ endpoint, workflow.trigger.endpoint = some endpoint →
    ∃ key, parseEndpoint env endpoint workflow.id = .ok key
  endpoints : ∀ key, registry.endpoints key =
    (workflows.filter fun workflow => endpointKey env workflow = some key).getLast?
  events : ∀ name, registry.events name =
    workflows.filter fun workflow => workflow.trigger.event = some name
  schedules : ∀ workflow ∈ workflows, ∀ expression,
    workflow.trigger.schedule = some expression →
    ∃ schedule, env.parseCron expression = .ok schedule ∧
      (schedule, workflow) ∈ registry.schedules

theorem endpointKey_eq_some_iff {key : HttpMethod × String} :
    endpointKey env workflow = some key ↔
      ∃ endpoint, workflow.trigger.endpoint = some endpoint ∧
        parseEndpoint env endpoint workflow.id = .ok key := by
  rw [endpointKey, Option.bind_eq_some_iff]
  refine exists_congr fun endpoint => and_congr_right fun _ => ?_
  rcases parseEndpoint env endpoint workflow.id with e | key' <;> simp [Except.toOption]

theorem Built.addEndpoint (hbuilt : Built env workflows registry)
    (h : registry.addEndpoint env workflow = .ok registry') (key : HttpMethod × String) :
    registry'.endpoints key =
      ((workflows ++ [workflow]).filter fun w => endpointKey env w = some key).getLast? := by
  rw [filter_append, getLast?_append, ← hbuilt.endpoints]
  rcases addEndpoint_ok h with ⟨hnone, rfl⟩ | ⟨endpoint, key', hsome, hparse, rfl⟩
  · simp [endpointKey, hnone]
  · have hown : endpointKey env workflow = some key' :=
      endpointKey_eq_some_iff.mpr ⟨endpoint, hsome, hparse⟩
    by_cases hsame : key = key'
    · simp [hown, hsame]
    · simp [hown, Ne.symm hsame, Function.update_of_ne hsame]

theorem Built.add (hbuilt : Built env workflows registry)
    (h : registry.add env workflow = .ok registry') :
    Built env (workflows ++ [workflow]) registry' := by
  obtain ⟨middle, hendpoint, hschedule⟩ := bind_eq_ok_iff.mp h
  have hkeys := hbuilt.addEndpoint hendpoint
  have hendpoint := addEndpoint_ok hendpoint
  have hschedule := addSchedule_ok hschedule
  have hevents : middle.events = registry.events := by
    rcases hendpoint with ⟨-, rfl⟩ | ⟨_, _, -, -, rfl⟩ <;> rfl
  have hschedules : middle.schedules = registry.schedules := by
    rcases hendpoint with ⟨-, rfl⟩ | ⟨_, _, -, -, rfl⟩ <;> rfl
  constructor
  · rw [forall_mem_append, forall_mem_singleton]
    refine ⟨hbuilt.parsed, fun endpoint hsome => ?_⟩
    rcases hendpoint with ⟨hnone, -⟩ | ⟨endpoint', key, hsome', hkey, -⟩
    · rw [hnone] at hsome
      exact nomatch hsome
    · rw [hsome] at hsome'
      obtain rfl := Option.some.inj hsome'
      exact ⟨key, hkey⟩
  · have hsame : registry'.endpoints = middle.endpoints := by
      rw [← (addEvent_keeps middle workflow).1]
      rcases hschedule with ⟨-, rfl⟩ | ⟨_, _, -, -, rfl⟩ <;> rfl
    rwa [hsame]
  · intro name
    have hsame : registry'.events = (middle.addEvent workflow).events := by
      rcases hschedule with ⟨-, rfl⟩ | ⟨_, _, -, -, rfl⟩ <;> rfl
    rw [hsame, addEvent_events, hevents, hbuilt.events, filter_append]
  · rw [forall_mem_append, forall_mem_singleton]
    constructor
    · intro other hother expression hsome
      obtain ⟨schedule, hparse, hmem⟩ := hbuilt.schedules other hother expression hsome
      refine ⟨schedule, hparse, ?_⟩
      rcases hschedule with ⟨-, rfl⟩ | ⟨_, _, -, -, rfl⟩
      · rwa [(addEvent_keeps middle workflow).2, hschedules]
      · refine mem_append_left _ ?_
        rwa [(addEvent_keeps middle workflow).2, hschedules]
    · intro expression hsome
      rcases hschedule with ⟨hnone, -⟩ | ⟨expression', schedule, hsome', hparse, rfl⟩
      · rw [hnone] at hsome
        exact nomatch hsome
      · rw [hsome] at hsome'
        obtain rfl := Option.some.inj hsome'
        exact ⟨schedule, hparse, mem_append_right _ (mem_singleton_self _)⟩

theorem built_of_build (h : build env workflows = .ok registry) : Built env workflows registry := by
  have hempty : Built env [] empty :=
    ⟨forall_mem_nil _, fun _ => rfl, fun _ => rfl, forall_mem_nil _⟩
  exact foldlM_ok_induction (fun _ _ _ _ hbuilt hadd => hbuilt.add hadd) hempty h

/-- The parts of an accepted endpoint find what is filed under it. -/
theorem findEndpoint_of_parseEndpoint {endpoint workflowId : String}
    {key : HttpMethod × String} (h : parseEndpoint env endpoint workflowId = .ok key)
    (registry : TriggerRegistry Schedule) :
    ∃ method path, splitEndpoint endpoint = some (method, path) ∧
      registry.findEndpoint env method path = registry.endpoints key := by
  rw [parseEndpoint] at h
  rcases hsplit : splitEndpoint endpoint with _ | ⟨method, path⟩
  · rw [hsplit] at h
    exact nomatch h
  · rw [hsplit] at h
    rcases hmethod : HttpMethod.parse env method with _ | httpMethod
    · obtain ⟨parts, hparts, h⟩ := bind_eq_ok_iff.mp h
      obtain rfl := Except.ok.inj hparts
      rw [hmethod] at h
      exact nomatch h
    · obtain ⟨parts, hparts, h⟩ := bind_eq_ok_iff.mp h
      obtain rfl := Except.ok.inj hparts
      rw [hmethod] at h
      obtain rfl : (httpMethod, path) = key := Except.ok.inj h
      refine ⟨method, path, rfl, ?_⟩
      rw [findEndpoint, hmethod]
      rfl

/-- An event's workflows are those that it triggers, each once. -/
theorem Built.countP_findEvent (hbuilt : Built env workflows registry)
    (hids : (workflows.map WorkflowDef.id).Nodup) (hworkflow : workflow ∈ workflows)
    {event : String} (hevent : workflow.trigger.event = some event) :
    workflow ∈ registry.findEvent event ∧
      (registry.findEvent event).countP (fun other => other.id = workflow.id) = 1 := by
  rw [findEvent, hbuilt.events]
  have hmem : workflow ∈ workflows.filter fun w => w.trigger.event = some event := by
    simp [hworkflow, hevent]
  refine ⟨hmem, ?_⟩
  have hnodup : ((workflows.filter fun w => w.trigger.event = some event).map
      WorkflowDef.id).Nodup := hids.sublist (filter_sublist.map WorkflowDef.id)
  have hcount := count_eq_one_of_mem hnodup (mem_map_of_mem hmem)
  rw [count, countP_map] at hcount
  exact hcount

end Build

/-- No trigger is lost exactly if no two workflows are filed under one method and path. -/
theorem keepsTriggers_iff (env : LoaderEnv Schedule) (path : String)
    (directory : Option (Except String (List WorkflowFile))) (workflows : List WorkflowDef)
    (registry : TriggerRegistry Schedule)
    (hload : loadWorkflows env path directory = .ok workflows)
    (hbuild : build env workflows = .ok registry) :
    KeepsTriggers env workflows registry ↔ DistinctEndpoints env workflows := by
  have hids := nodup_id_of_loadWorkflows hload
  have hbuilt := built_of_build hbuild
  constructor
  · intro hkeeps
    have hfiled : ∀ w ∈ workflows, ∀ key, endpointKey env w = some key →
        registry.endpoints key = some w := by
      intro w hw key hkey
      obtain ⟨endpoint, hendpoint, hparse⟩ := endpointKey_eq_some_iff.mp hkey
      obtain ⟨method, path, hsplit, hfind⟩ := hkeeps.endpoints w hw endpoint hendpoint
      obtain ⟨method', path', hsplit', hfind'⟩ := findEndpoint_of_parseEndpoint hparse registry
      rw [hsplit] at hsplit'
      obtain ⟨rfl, rfl⟩ := Prod.mk.inj (Option.some.inj hsplit')
      rw [← hfind', hfind]
    intro v hv w hw key hkey hkey'
    rw [Option.some.inj ((hfiled v hv key hkey).symm.trans (hfiled w hw key hkey'))]
  · intro hdistinct
    refine ⟨fun w hw endpoint hendpoint => ?_, fun w hw event hevent => ?_, hbuilt.schedules⟩
    · obtain ⟨key, hparse⟩ := hbuilt.parsed w hw endpoint hendpoint
      have hkey := endpointKey_eq_some_iff.mpr ⟨endpoint, hendpoint, hparse⟩
      obtain ⟨method, path, hsplit, hfind⟩ := findEndpoint_of_parseEndpoint hparse registry
      refine ⟨method, path, hsplit, ?_⟩
      have hne : (workflows.filter fun v => endpointKey env v = some key) ≠ [] :=
        ne_nil_of_mem (a := w) (by simp [hw, hkey])
      rw [hfind, hbuilt.endpoints, getLast?_eq_some_getLast hne]
      obtain ⟨hlast, hlastKey⟩ := mem_filter.mp (getLast_mem hne)
      rw [inj_on_of_nodup_map hids hlast hw
        (hdistinct _ hlast w hw key (of_decide_eq_true hlastKey) hkey)]
    · exact hbuilt.countP_findEvent hids hw hevent

/-- A line gives the key and the endpoint of a workflow. -/
def readLine (line : List Char) : Option (String × WorkflowDef) :=
  match line.splitOn ':' with
  | [key, endpoint] => some (String.ofList key, ⟨"", .edges,
      ⟨some (String.ofList (endpoint.drop 1)), none, none⟩, [⟨"mail", "fetch", none, none⟩]⟩)
  | _ => none

/-- Reads files that have one workflow in each line. -/
def lineLoader : LoaderEnv Unit where
  upper c := [c]
  readYaml text := .ok ((text.toList.splitOn '\n').filterMap readLine)
  parseCron _ := .ok ()

/-- Two workflows that differ in their ids and endpoints. -/
def twoEndpoints (endpoint endpoint' : String) : List WorkflowDef :=
  [⟨"pull", .edges, ⟨some endpoint, none, none⟩, [⟨"mail", "fetch", none, none⟩]⟩,
   ⟨"poll", .edges, ⟨some endpoint', none, none⟩, [⟨"mail", "fetch", none, none⟩]⟩]

/-- Two endpoints with one path and different methods. -/
theorem keepsTriggers_two_methods :
    ∃ registry,
      loadWorkflows lineLoader "workflows"
        (some (.ok [⟨"mail.yaml", .ok "pull: GET /mail\npoll: post /mail"⟩])) =
          .ok (twoEndpoints "GET /mail" "post /mail") ∧
      build lineLoader (twoEndpoints "GET /mail" "post /mail") = .ok registry ∧
      KeepsTriggers lineLoader (twoEndpoints "GET /mail" "post /mail") registry := by
  refine ⟨_, rfl, rfl, ?_⟩
  refine (keepsTriggers_iff _ "workflows"
    (some (.ok [⟨"mail.yaml", .ok "pull: GET /mail\npoll: post /mail"⟩])) _ _ rfl rfl).mpr ?_
  intro v hv w hw key hkey hkey'
  simp only [twoEndpoints, mem_cons, not_mem_nil, or_false] at hv hw
  rcases hv with rfl | rfl <;> rcases hw with rfl | rfl
  · rfl
  · exact absurd (hkey.trans hkey'.symm) (by decide)
  · exact absurd (hkey.trans hkey'.symm) (by decide)
  · rfl

/-- The letters of a method may be of either case. -/
theorem not_keepsTriggers_two_cases :
    ∃ registry,
      loadWorkflows lineLoader "workflows"
        (some (.ok [⟨"mail.yaml", .ok "pull: GET /mail\npoll: get /mail"⟩])) =
          .ok (twoEndpoints "GET /mail" "get /mail") ∧
      build lineLoader (twoEndpoints "GET /mail" "get /mail") = .ok registry ∧
      ¬KeepsTriggers lineLoader (twoEndpoints "GET /mail" "get /mail") registry := by
  refine ⟨_, rfl, rfl, fun hkeeps => ?_⟩
  obtain ⟨method, path, hsplit, hfind⟩ := hkeeps.endpoints _ mem_cons_self "GET /mail" rfl
  obtain ⟨rfl, rfl⟩ := Prod.mk.inj (Option.some.inj hsplit)
  have hid := congrArg (Option.map WorkflowDef.id) hfind
  exact absurd hid (by decide)

end LifeEngine.Pipeline
