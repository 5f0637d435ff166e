import LifeEngine.Support.PathPatterns
import LifeEngine.Support.Text
import Mathlib.Data.List.Nodup

/-!
# Routes of a listener

`merge_routes` puts the routes of the configuration and of the plugins together, and
refuses two routes with the same method and the same text of the path.
`build_merged_router` installs them in a router, which knows patterns of paths: the names
of parameters do not matter there, and fixed text goes before a parameter.
-/

namespace LifeEngine.Transport

open Support List

structure RouteConfig where
  method : String
  path : String
  workflow : String
  isPublic : Bool
  deriving DecidableEq, Repr

structure HandlerConfig where
  handlerType : String
  routes : List RouteConfig

/-- `ListenerConfig`, as far as routes go. -/
structure ListenerConfig where
  handlers : List HandlerConfig

structure PluginRoute where
  pluginId : String
  method : String
  path : String
  workflow : String
  isPublic : Bool

inductive RouteSource where
  | config
  | plugin (pluginId : String)
  deriving DecidableEq, Repr

structure MergedRoute where
  route : RouteConfig
  handlerType : String
  source : RouteSource
  deriving DecidableEq, Repr

inductive RestError where
  | invalidConfig (message : String)
  deriving DecidableEq, Repr

/-! ## Merging -/

section Merging

-- `upper` is `str::to_uppercase`.
variable (upper : String → String)

def routeKey (method path : String) : String :=
  upper method ++ " " ++ path

def validateRouteNamespace (handlerType path : String) : Except String Unit :=
  if handlerType = "rest" then
    if "/api/".toList.isPrefixOf path.toList then .ok ()
    else .error ("REST route '" ++ path ++ "' must start with /api/")
  else if handlerType = "graphql" then
    if "/graphql".toList.isPrefixOf path.toList then .ok ()
    else .error ("GraphQL route '" ++ path ++ "' must start with /graphql")
  else .ok ()

/-- What the loops of `merge_routes` have collected. -/
structure MergeState where
  all : List MergedRoute
  seen : List String
  errors : List String

def MergeState.error (st : MergeState) (message : String) : MergeState :=
  { st with errors := st.errors ++ [message] }

/-- A new route, and the error of its namespace. -/
def MergeState.push (st : MergeState) (key : String) (checked : Except String Unit)
    (route : MergedRoute) : MergeState :=
  { all := st.all ++ [route]
    seen := key :: st.seen
    errors := st.errors ++ match checked with
      | .ok _ => []
      | .error e => [e] }

def mergeConfigRoute (handlerType : String) (st : MergeState) (route : RouteConfig) :
    MergeState :=
  let key := routeKey upper route.method route.path
  if key ∈ st.seen then st.error ("duplicate config route: " ++ key)
  else st.push key (validateRouteNamespace handlerType route.path)
    ⟨route, handlerType, .config⟩

/-- After the first test, that of the `insert` cannot fail. -/
def mergePluginRoute (st : MergeState) (pr : PluginRoute) : MergeState :=
  let key := routeKey upper pr.method pr.path
  if key ∈ st.seen then st.error ("plugin '" ++ pr.pluginId ++
    "' route conflicts with existing route: " ++ key)
  else st.push key
    ((validateRouteNamespace "rest" pr.path).mapError fun e =>
      "plugin '" ++ pr.pluginId ++ "': " ++ e)
    ⟨⟨pr.method, pr.path, pr.workflow, pr.isPublic⟩, "rest", .plugin pr.pluginId⟩

def mergeRoutes (config : ListenerConfig) (pluginRoutes : List PluginRoute) :
    Except RestError (List MergedRoute) :=
  let st := config.handlers.foldl
    (fun st handler => handler.routes.foldl (mergeConfigRoute upper handler.handlerType) st)
    ⟨[], [], []⟩
  let st := pluginRoutes.foldl (mergePluginRoute upper) st
  if st.errors = [] then .ok st.all
  else .error (.invalidConfig ("; ".intercalate st.errors))

end Merging

/-! ## The router -/

/-- The methods that are installed. -/
inductive Method where
  | get
  | delete
  | post
  | put
  deriving DecidableEq, Repr

def Method.ofText (text : String) : Option Method :=
  if text = "GET" then some get
  else if text = "DELETE" then some delete
  else if text = "POST" then some post
  else if text = "PUT" then some put
  else none

def toAxumSegment : List Char → List Char
  | ':' :: name => '{' :: name ++ ['}']
  | segment => segment

/-- `to_axum_path`: `:param` becomes `{param}`. -/
def toAxumPath (path : String) : String :=
  String.ofList (['/'].intercalate ((path.toList.splitOn '/').map toAxumSegment))

/-! ### The syntax of axum -/

/-- A double brace stands for a brace that neither opens nor closes a parameter. -/
def unescape : List Char → List (Char × Bool)
  | '{' :: '{' :: rest => ('{', true) :: unescape rest
  | '}' :: '}' :: rest => ('}', true) :: unescape rest
  | c :: rest => (c, false) :: unescape rest
  | [] => []

/-- Reads what follows fixed text, or a part of the name of a parameter.  A name may start with `*`,
for the rest of the path, and nothing but a slash may follow a parameter in its segment. -/
def readTokens : Option (List Char) → List (Char × Bool) → Option (PathPattern Char)
  | none, [] => some []
  | none, ('}', false) :: _ => none
  | none, ('{', false) :: text => readTokens (some []) text
  | none, (c, _) :: text => (readTokens none text).map (.lit c :: ·)
  | some _, [] => none
  | some [], (c, _) :: text => if c = '}' then none else readTokens (some [c]) text
  | some name, ('}', false) :: text =>
    if name = ['*'] ∨ text.head?.any (·.1 ≠ '/') then none
    else if name.head? = some '*' then if text = [] then some [.rest] else none
    else (readTokens none text).map (.param :: ·)
  | some name, (c, _) :: text =>
    if c = '*' ∨ c = '/' then none else readTokens (some (name ++ [c])) text

/-- A path that can be installed: it starts with a slash, no segment has the syntax of old versions,
and there are at most 25 parameters. -/
def readPath (axumPath : String) : Option (PathPattern Char) :=
  if axumPath.toList.head? = some '/' ∧ ∀ segment ∈ axumPath.toList.splitOn '/',
      segment.head? ≠ some ':' ∧ segment.head? ≠ some '*' then
    (readTokens none (unescape axumPath.toList)).filter fun pattern => pattern.count .param < 26
  else none

structure Endpoint where
  path : String
  pattern : PathPattern Char
  method : Method
  route : MergedRoute

abbrev Router := List Endpoint

/-- Panics if the path is refused, if it conflicts with another path, or if the method is there
already. -/
def Router.route (router : Router) (axumPath : String) (method : Method)
    (merged : MergedRoute) : Option Router := do
  let pattern ← readPath axumPath
  if router.any fun e => conflicts e.pattern pattern ∧ (e.path ≠ axumPath ∨ e.method = method) then
    none
  else some (router ++ [⟨axumPath, pattern, method, merged⟩])

section Building

variable (upper : String → String)

def installRoute (router : Router) (merged : MergedRoute) : Option Router :=
  match Method.ofText (upper merged.route.method) with
  | some method => router.route (toAxumPath merged.route.path) method merged
  | none => some router

def buildMergedRouter (routes : List MergedRoute) : Option Router :=
  routes.foldlM (installRoute upper) []

end Building

/-- The path is looked up first, then the method; `fills` is the router's. -/
def Router.dispatch (fills : List Char → List Char → Bool) (router : Router) (method : Method)
    (path : String) : Option MergedRoute := do
  let pattern ← selectPattern '/' fills path.toList (router.map Endpoint.pattern)
  (router.find? fun e => e.pattern = pattern ∧ e.method = method).map Endpoint.route

/-! ## Building and dispatching -/

/-- The pattern of a path that can be installed. -/
def patternOf (path : String) : PathPattern Char :=
  (readPath (toAxumPath path)).getD []

/-- What is installed for a route. -/
def endpoint (upper : String → String) (r : MergedRoute) : Option Endpoint := do
  let method ← Method.ofText (upper r.route.method)
  let pattern ← readPath (toAxumPath r.route.path)
  return ⟨toAxumPath r.route.path, pattern, method, r⟩

def MergedRoute.key (upper : String → String) (r : MergedRoute) : String :=
  routeKey upper r.route.method r.route.path

theorem Method.ofText_inj {a b : String} {method : Method} (ha : Method.ofText a = some method)
    (hb : Method.ofText b = some method) : a = b := by
  have htext : ∀ {text : String}, Method.ofText text = some method → text =
      match method with
      | .get => "GET"
      | .delete => "DELETE"
      | .post => "POST"
      | .put => "PUT" := by
    intro text h
    rw [Method.ofText] at h
    split_ifs at h <;>
    · obtain rfl := Option.some.inj h
      assumption
  exact (htext ha).trans (htext hb).symm

/-- Two endpoints of one router. -/
def Endpoint.Coexist (e e' : Endpoint) : Prop :=
  conflicts e.pattern e'.pattern = true → e.path = e'.path ∧ e.method ≠ e'.method

section Router

variable {upper : String → String} {routes : List MergedRoute} {r : MergedRoute}

theorem endpoint_eq_some_iff {e : Endpoint} :
    endpoint upper r = some e ↔ Method.ofText (upper r.route.method) = some e.method ∧
      readPath (toAxumPath r.route.path) = some e.pattern ∧ e.path = toAxumPath r.route.path ∧
        e.route = r := by
  obtain ⟨path, pattern, method, route⟩ := e
  simp only [endpoint, Option.bind_eq_bind, Option.bind_eq_some_iff, Option.pure_def,
    Option.some.injEq, Endpoint.mk.injEq]
  constructor
  · rintro ⟨_, hmethod, _, hpattern, rfl, rfl, rfl, rfl⟩
    exact ⟨hmethod, hpattern, rfl, rfl⟩
  · rintro ⟨hmethod, hpattern, rfl, rfl⟩
    exact ⟨method, hmethod, pattern, hpattern, rfl, rfl, rfl, rfl⟩

/-- A route can be read and stands beside the ones there, or has an unknown method. -/
theorem installRoute_eq_some_iff {router router' : Router} :
    installRoute upper router r = some router' ↔
      ((Method.ofText (upper r.route.method)).isSome →
        (readPath (toAxumPath r.route.path)).isSome) ∧
      (∀ e, endpoint upper r = some e → ∀ old ∈ router, old.Coexist e) ∧
      router' = router ++ (endpoint upper r).toList := by
  rcases hmethod : Method.ofText (upper r.route.method) with _ | method
  · simp [installRoute, endpoint, hmethod]
    exact eq_comm
  rcases hread : readPath (toAxumPath r.route.path) with _ | pattern
  · simp [installRoute, hmethod, Router.route, hread]
  · have hendpoint : endpoint upper r = some ⟨toAxumPath r.route.path, pattern, method, r⟩ := by
      simp [endpoint, hmethod, hread]
    simp only [installRoute, hmethod, Router.route, hread, hendpoint, Option.bind_eq_bind,
      Option.bind_some, Option.ite_none_left_eq_some, Bool.not_eq_true, any_eq_false,
      decide_eq_true_eq, Option.some.injEq, Option.toList_some]
    constructor
    · rintro ⟨hfree, rfl⟩
      refine ⟨fun _ => rfl, ?_, rfl⟩
      rintro _ rfl old hold hconflict
      have hnot := hfree old hold
      rw [not_and, not_or, not_not] at hnot
      exact hnot hconflict
    · rintro ⟨-, hcoexist, rfl⟩
      refine ⟨fun old hold hclash => ?_, rfl⟩
      obtain ⟨hpath, hother⟩ := hcoexist _ rfl old hold hclash.1
      exact hclash.2.elim (fun hne => hne hpath) hother

/-- The router has the endpoints of the routes. -/
theorem buildMergedRouter_eq_some_iff {router : Router} :
    buildMergedRouter upper routes = some router ↔
      (∀ r ∈ routes, (Method.ofText (upper r.route.method)).isSome →
        (readPath (toAxumPath r.route.path)).isSome) ∧
      router.Pairwise Endpoint.Coexist ∧ router = routes.filterMap (endpoint upper) := by
  induction routes using reverseRecOn generalizing router with
  | nil =>
    simp only [buildMergedRouter, foldlM_nil, Option.pure_def, Option.some.injEq, filterMap_nil]
    constructor
    · rintro rfl
      exact ⟨forall_mem_nil _, .nil, rfl⟩
    · exact fun h => h.2.2.symm
  | append_singleton routes r ih =>
    have hfold : buildMergedRouter upper (routes ++ [r]) =
        (buildMergedRouter upper routes).bind fun router => installRoute upper router r := by
      simp [buildMergedRouter]
    have hsplit : (routes ++ [r]).filterMap (endpoint upper) =
        routes.filterMap (endpoint upper) ++ (endpoint upper r).toList := by
      rcases hendpoint : endpoint upper r with _ | e <;> simp [hendpoint]
    rw [hfold, Option.bind_eq_some_iff, hsplit, forall_mem_append, forall_mem_singleton]
    constructor
    · rintro ⟨before, hbefore, hinstall⟩
      obtain ⟨hreads, hpairwise, rfl⟩ := ih.mp hbefore
      obtain ⟨hread, hcoexist, rfl⟩ := installRoute_eq_some_iff.mp hinstall
      refine ⟨⟨hreads, hread⟩, pairwise_append.mpr ⟨hpairwise, ?_, ?_⟩, rfl⟩
      · rcases endpoint upper r with _ | e <;> simp
      · intro old hold e he
        exact hcoexist e (Option.mem_toList.mp he) old hold
    · rintro ⟨⟨hreads, hread⟩, hpairwise, rfl⟩
      obtain ⟨hbefore, -, hcoexist⟩ := pairwise_append.mp hpairwise
      refine ⟨_, ih.mpr ⟨hreads, hbefore, rfl⟩, installRoute_eq_some_iff.mpr ⟨hread, ?_, rfl⟩⟩
      exact fun e he old hold => hcoexist old hold e (Option.mem_toList.mpr he)

end Router

section Dispatch

variable {fills : List Char → List Char → Bool} {router : Router}

/-- The endpoints of a router that has been built. -/
structure Router.Built (router : Router) : Prop where
  reads : ∀ e ∈ router, readPath e.path = some e.pattern
  coexist : router.Pairwise Endpoint.Coexist

theorem Endpoint.Coexist.symm {e e' : Endpoint} (h : e.Coexist e') : e'.Coexist e := by
  intro hconflict
  rw [conflicts_comm] at hconflict
  obtain ⟨hpath, hmethod⟩ := h hconflict
  exact ⟨hpath.symm, hmethod.symm⟩

instance : Std.Symm Endpoint.Coexist :=
  ⟨fun _ _ => Endpoint.Coexist.symm⟩

theorem Router.Built.pattern_eq (hbuilt : router.Built) {e e' : Endpoint} (he : e ∈ router)
    (he' : e' ∈ router) (hconflict : conflicts e.pattern e'.pattern = true) :
    e.pattern = e'.pattern := by
  by_cases hsame : e = e'
  · rw [hsame]
  · obtain ⟨hpath, -⟩ := hbuilt.coexist.forall he he' hsame hconflict
    have hread := hbuilt.reads e he
    rw [hpath, hbuilt.reads e' he'] at hread
    exact (Option.some.inj hread).symm

theorem Router.Built.eq_of_pattern_eq (hbuilt : router.Built) {e e' : Endpoint} (he : e ∈ router)
    (he' : e' ∈ router) (hpattern : e.pattern = e'.pattern) (hmethod : e.method = e'.method) :
    e = e' := by
  by_contra hne
  have hconflict : conflicts e.pattern e'.pattern = true := by
    rw [hpattern]
    exact conflicts_self _
  obtain ⟨-, hother⟩ := hbuilt.coexist.forall he he' hne hconflict
  exact hother hmethod

/-- A request goes to the endpoint of its method, if no pattern that matches goes before. -/
theorem Router.Built.dispatch_eq_some_iff (hbuilt : router.Built) {method : Method} {path : String}
    {r : MergedRoute} :
    router.dispatch fills method path = some r ↔
      ∃ e ∈ router, e.route = r ∧ e.method = method ∧
        patternMatches '/' fills e.pattern path.toList = true ∧
        ∀ other ∈ router, patternMatches '/' fills other.pattern path.toList = true →
          moreSpecific other.pattern e.pattern = false := by
  have hselect : ∀ pattern, selectPattern '/' fills path.toList (router.map Endpoint.pattern) =
      some pattern ↔ _ := fun pattern => selectPattern_eq_some_iff (p := pattern) (by
    intro p hp q hq hconflict
    obtain ⟨e, he, rfl⟩ := mem_map.mp hp
    obtain ⟨e', he', rfl⟩ := mem_map.mp hq
    exact hbuilt.pattern_eq he he' hconflict)
  simp only [Router.dispatch, Option.bind_eq_bind, Option.bind_eq_some_iff, hselect,
    Option.map_eq_some_iff]
  constructor
  · rintro ⟨pattern, ⟨-, hmatches, hbest⟩, e, hfind, rfl⟩
    have hfits := find?_some hfind
    obtain ⟨rfl, rfl⟩ := of_decide_eq_true hfits
    exact ⟨e, mem_of_find?_eq_some hfind, rfl, rfl, hmatches,
      fun other hother => hbest _ (mem_map_of_mem hother)⟩
  · rintro ⟨e, he, rfl, rfl, hmatches, hbest⟩
    refine ⟨e.pattern, ⟨mem_map_of_mem he, hmatches, ?_⟩, e, ?_, rfl⟩
    · intro q hq
      obtain ⟨other, hother, rfl⟩ := mem_map.mp hq
      exact hbest other hother
    · rcases hfind : router.find? fun e' => e'.pattern = e.pattern ∧ e'.method = e.method with
        _ | found
      · exact absurd (decide_eq_true ⟨rfl, rfl⟩) (find?_eq_none.mp hfind e he)
      · have hfits := find?_some hfind
        obtain ⟨hpattern, hmethod⟩ := of_decide_eq_true hfits
        rw [hfind, hbuilt.eq_of_pattern_eq (mem_of_find?_eq_some hfind) he hpattern hmethod]

end Dispatch

/-! ## What merging ensures -/

/-- Without errors so far, the keys were all seen, and are different. -/
def MergeState.Sound (upper : String → String) (st : MergeState) : Prop :=
  st.errors = [] → st.seen = (st.all.map (MergedRoute.key upper)).reverse ∧
    (st.all.map (MergedRoute.key upper)).Nodup

section Merged

variable {upper : String → String}

variable {st : MergeState}

theorem MergeState.Sound.push (h : st.Sound upper) {key : String} (hkey : key ∉ st.seen)
    (checked : Except String Unit) {route : MergedRoute} (hroute : route.key upper = key) :
    (st.push key checked route).Sound upper := by
  intro herrors
  obtain ⟨hseen, hnodup⟩ := h (append_eq_nil_iff.mp herrors).1
  rw [hseen, mem_reverse] at hkey
  simp only [MergeState.push, map_append, map_singleton, hroute, hseen, reverse_append,
    reverse_singleton, singleton_append, true_and]
  rw [← concat_eq_append]
  exact hnodup.concat hkey

theorem MergeState.Sound.error (st : MergeState) (message : String) :
    (st.error message).Sound upper := by
  intro herrors
  exact absurd herrors (by simp [MergeState.error])

theorem sound_mergeConfigRoute (h : st.Sound upper) (handlerType : String) (route : RouteConfig) :
    (mergeConfigRoute upper handlerType st route).Sound upper := by
  rw [mergeConfigRoute]
  split_ifs with hseen
  · exact .error st _
  · exact h.push hseen _ rfl

theorem sound_mergePluginRoute (h : st.Sound upper) (pr : PluginRoute) :
    (mergePluginRoute upper st pr).Sound upper := by
  rw [mergePluginRoute]
  split_ifs with hseen
  · exact .error st _
  · exact h.push hseen _ rfl

theorem nodup_keys_of_mergeRoutes {config : ListenerConfig} {pluginRoutes : List PluginRoute}
    {merged : List MergedRoute} (h : mergeRoutes upper config pluginRoutes = .ok merged) :
    (merged.map (MergedRoute.key upper)).Nodup := by
  have hstart : MergeState.Sound upper ⟨[], [], []⟩ :=
    fun _ => ⟨rfl, nodup_nil⟩
  have hsound := foldlRecOn pluginRoutes (mergePluginRoute upper)
    (foldlRecOn config.handlers _ (motive := MergeState.Sound upper) hstart
      fun st hst handler _ => foldlRecOn handler.routes _
        (motive := MergeState.Sound upper) hst
        fun st hst route _ => sound_mergeConfigRoute hst handler.handlerType route)
    fun st hst pr _ => sound_mergePluginRoute hst pr
  simp only [mergeRoutes] at h
  split_ifs at h with herrors
  rw [← Except.ok.inj h]
  exact (hsound herrors).2

end Merged

/-! ## Sound routing -/

def MergedRoute.IsConfig (r : MergedRoute) : Prop :=
  r.source = .config

instance (r : MergedRoute) : Decidable r.IsConfig :=
  inferInstanceAs (Decidable (r.source = .config))

def MergedRoute.Matches (fills : List Char → List Char → Bool) (path : String)
    (r : MergedRoute) : Prop :=
  patternMatches '/' fills (patternOf r.route.path) path.toList = true

/-- Every route is installed, no two of a method have one pattern, the router is built, and it sends
the requests of configured routes where their own router does. -/
structure SoundRouting (fills : List Char → List Char → Bool) (upper : String → String)
    (merged : List MergedRoute) : Prop where
  distinct : merged.Pairwise fun r s => upper r.route.method = upper s.route.method →
    patternOf r.route.path ≠ patternOf s.route.path
  routers : ∃ router configRouter, buildMergedRouter upper merged = some router ∧
    buildMergedRouter upper (merged.filter (·.IsConfig)) = some configRouter ∧
    (∀ r ∈ merged, ∃ e ∈ router, e.route = r) ∧
    ∀ method path r, configRouter.dispatch fills method path = some r →
      router.dispatch fills method path = some r

/-- On a path of a configured route, no plugin route goes before all the configured ones. -/
def PluginsYield (fills : List Char → List Char → Bool) (merged : List MergedRoute) : Prop :=
  ∀ path, (∃ c ∈ merged, c.IsConfig ∧ c.Matches fills path) →
    ∀ p ∈ merged, ¬p.IsConfig → p.Matches fills path →
      ∃ c ∈ merged, c.IsConfig ∧ c.Matches fills path ∧
        moreSpecific (patternOf p.route.path) (patternOf c.route.path) = false

/-- Methods and paths can be installed, patterns that conflict are one path of two methods, and
plugin routes yield. -/
structure Routable (fills : List Char → List Char → Bool) (upper : String → String)
    (merged : List MergedRoute) : Prop where
  methods : ∀ r ∈ merged, (Method.ofText (upper r.route.method)).isSome
  paths : ∀ r ∈ merged, (readPath (toAxumPath r.route.path)).isSome
  conflicts : merged.Pairwise fun r s =>
    conflicts (patternOf r.route.path) (patternOf s.route.path) = true →
      r.route.path = s.route.path ∨ (toAxumPath r.route.path = toAxumPath s.route.path ∧
        upper r.route.method ≠ upper s.route.method)
  yields : PluginsYield fills merged

section Endpoints

variable {fills : List Char → List Char → Bool} {upper : String → String}
  {merged : List MergedRoute}

theorem endpoint_spec {r : MergedRoute} {e : Endpoint} (h : endpoint upper r = some e) :
    e.route = r ∧ e.pattern = patternOf r.route.path ∧ readPath e.path = some e.pattern := by
  obtain ⟨-, hread, hpath, hroute⟩ := endpoint_eq_some_iff.mp h
  refine ⟨hroute, ?_, hpath ▸ hread⟩
  rw [patternOf, hread]
  rfl

theorem built_filterMap (hcoexist : (merged.filterMap (endpoint upper)).Pairwise Endpoint.Coexist) :
    Router.Built (merged.filterMap (endpoint upper)) where
  reads e he := by
    obtain ⟨r, -, hr⟩ := mem_filterMap.mp he
    exact (endpoint_spec hr).2.2
  coexist := hcoexist

theorem mem_filterMap_config {e : Endpoint} :
    e ∈ (merged.filter (·.IsConfig)).filterMap (endpoint upper) ↔
      ∃ r ∈ merged, r.IsConfig ∧ endpoint upper r = some e := by
  simp [mem_filterMap, mem_filter, and_assoc]

/-- The routers of installable routes agree on the requests of configured ones if and only if plugin
routes yield. -/
theorem dispatch_iff_yield
    (hinstalled : ∀ r ∈ merged, ∃ e, endpoint upper r = some e)
    (hbuilt : Router.Built (merged.filterMap (endpoint upper)))
    (hconfig : Router.Built ((merged.filter (·.IsConfig)).filterMap (endpoint upper))) :
    (∀ method path r,
      Router.dispatch fills ((merged.filter (·.IsConfig)).filterMap (endpoint upper)) method path =
        some r → Router.dispatch fills (merged.filterMap (endpoint upper)) method path = some r) ↔
      PluginsYield fills merged := by
  simp only [hbuilt.dispatch_eq_some_iff, hconfig.dispatch_eq_some_iff]
  constructor
  · rintro hdispatch path ⟨c, hc, hcconfig, hcmatches⟩ p hp - hpmatches
    obtain ⟨ec, hec⟩ := hinstalled c hc
    obtain ⟨ep, hep⟩ := hinstalled p hp
    rw [MergedRoute.Matches, ← (endpoint_spec hec).2.1] at hcmatches
    rw [MergedRoute.Matches, ← (endpoint_spec hep).2.1] at hpmatches
    -- the configured route that is selected is still selected
    obtain ⟨pattern, hselect⟩ := exists_selectPattern (mem_map_of_mem
      (mem_filterMap_config.mpr ⟨c, hc, hcconfig, hec⟩)) hcmatches
    obtain ⟨hmem, hmatches, hbest⟩ := selectPattern_spec hselect
    obtain ⟨b, hb, rfl⟩ := mem_map.mp hmem
    obtain ⟨e, he, hroute, -, -, hbest'⟩ := hdispatch b.method path b.route ⟨b, hb, rfl, rfl,
      hmatches, fun other hother => hbest _ (mem_map_of_mem hother)⟩
    obtain ⟨c', hc', hconfig', hb'⟩ := mem_filterMap_config.mp hb
    obtain ⟨r, -, hr⟩ := mem_filterMap.mp he
    obtain ⟨hbroute, hbpattern, -⟩ := endpoint_spec hb'
    obtain ⟨rfl, hepattern, -⟩ := endpoint_spec hr
    refine ⟨c', hc', hconfig', ?_, ?_⟩
    · rwa [MergedRoute.Matches, ← hbpattern]
    · rw [← hbroute, ← hroute, ← hepattern, ← (endpoint_spec hep).2.1]
      exact hbest' ep (mem_filterMap.mpr ⟨p, hp, hep⟩) hpmatches
  · rintro hyield method path r ⟨e, he, rfl, rfl, hmatches, hbest⟩
    obtain ⟨c, hc, hcconfig, hec⟩ := mem_filterMap_config.mp he
    obtain ⟨-, hcpattern, -⟩ := endpoint_spec hec
    refine ⟨e, mem_filterMap.mpr ⟨c, hc, hec⟩, rfl, rfl, hmatches, fun other hother hother' => ?_⟩
    obtain ⟨p, hp, hep⟩ := mem_filterMap.mp hother
    obtain ⟨-, hppattern, -⟩ := endpoint_spec hep
    by_cases hpconfig : p.IsConfig
    · exact hbest other (mem_filterMap_config.mpr ⟨p, hp, hpconfig, hep⟩) hother'
    · -- a configured route that does not yield to the plugin does not go before the selected one
      obtain ⟨c', hc', hconfig', hmatches', hyields⟩ := hyield path
        ⟨c, hc, hcconfig, by rwa [MergedRoute.Matches, ← hcpattern]⟩ p hp hpconfig
        (by rwa [MergedRoute.Matches, ← hppattern])
      obtain ⟨e', he'⟩ := hinstalled c' hc'
      obtain ⟨-, hpattern', -⟩ := endpoint_spec he'
      rw [MergedRoute.Matches, ← hpattern'] at hmatches'
      rw [← hppattern, ← hpattern'] at hyields
      have hbest' := hbest e' (mem_filterMap_config.mpr ⟨c', hc', hconfig', he'⟩) hmatches'
      rcases conflicts_or_moreSpecific hmatches' hother' with hconflict | hbefore | hbefore
      · rw [← hbuilt.pattern_eq (mem_filterMap.mpr ⟨c', hc', he'⟩) hother hconflict]
        exact hbest'
      · rw [← Bool.not_eq_true]
        intro hspecific
        rw [moreSpecific_trans hbefore hspecific] at hbest'
        exact absurd hbest' (by decide)
      · rw [hyields] at hbefore
        exact absurd hbefore (by decide)

end Endpoints

/-- Merged routes are routed soundly if and only if they are routable. -/
theorem soundRouting_iff_routable {fills : List Char → List Char → Bool} {upper : String → String}
    {config : ListenerConfig} {pluginRoutes : List PluginRoute} {merged : List MergedRoute}
    (h : mergeRoutes upper config pluginRoutes = .ok merged) :
    SoundRouting fills upper merged ↔ Routable fills upper merged := by
  have hkeys := pairwise_map.mp (nodup_keys_of_mergeRoutes h)
  constructor
  · rintro ⟨-, router, configRouter, hbuild, hbuildConfig, hinstalled, hdispatch⟩
    obtain ⟨hreads, hcoexist, rfl⟩ := buildMergedRouter_eq_some_iff.mp hbuild
    obtain ⟨-, hcoexistConfig, rfl⟩ := buildMergedRouter_eq_some_iff.mp hbuildConfig
    have hendpoints : ∀ r ∈ merged, ∃ e, endpoint upper r = some e := by
      intro r hr
      obtain ⟨e, he, rfl⟩ := hinstalled r hr
      obtain ⟨s, -, hs⟩ := mem_filterMap.mp he
      rw [(endpoint_spec hs).1]
      exact ⟨e, hs⟩
    refine ⟨?_, ?_, ?_, ?_⟩
    · intro r hr
      obtain ⟨e, he⟩ := hendpoints r hr
      rw [(endpoint_eq_some_iff.mp he).1]
      rfl
    · intro r hr
      obtain ⟨e, he⟩ := hendpoints r hr
      rw [(endpoint_eq_some_iff.mp he).2.1]
      rfl
    · refine (pairwise_filterMap.mp hcoexist).imp_of_mem fun hr hs hpair hconflict => .inr ?_
      obtain ⟨e, he⟩ := hendpoints _ hr
      obtain ⟨e', he'⟩ := hendpoints _ hs
      obtain ⟨hmethod, -, hpath, -⟩ := endpoint_eq_some_iff.mp he
      obtain ⟨hmethod', -, hpath', -⟩ := endpoint_eq_some_iff.mp he'
      rw [← (endpoint_spec he).2.1, ← (endpoint_spec he').2.1] at hconflict
      obtain ⟨hsame, hother⟩ := hpair e he e' he' hconflict
      refine ⟨hpath.symm.trans (hsame.trans hpath'), fun hupper => hother ?_⟩
      rw [hupper, hmethod'] at hmethod
      exact (Option.some.inj hmethod).symm
    · exact (dispatch_iff_yield hendpoints (built_filterMap hcoexist)
        (built_filterMap hcoexistConfig)).mp hdispatch
  · rintro ⟨hmethods, hpaths, hconflicts, hyields⟩
    have hendpoints : ∀ r ∈ merged, ∃ e, endpoint upper r = some e := by
      intro r hr
      obtain ⟨method, hmethod⟩ := Option.isSome_iff_exists.mp (hmethods r hr)
      obtain ⟨pattern, hpattern⟩ := Option.isSome_iff_exists.mp (hpaths r hr)
      exact ⟨⟨toAxumPath r.route.path, pattern, method, r⟩,
        endpoint_eq_some_iff.mpr ⟨hmethod, hpattern, rfl, rfl⟩⟩
    have hpairs := hconflicts.and hkeys
    have hcoexist : (merged.filterMap (endpoint upper)).Pairwise Endpoint.Coexist := by
      refine pairwise_filterMap.mpr (hpairs.imp fun ⟨hpair, hkey⟩ e he e' he' hconflict => ?_)
      obtain ⟨hmethod, -, hpath, -⟩ := endpoint_eq_some_iff.mp he
      obtain ⟨hmethod', -, hpath', -⟩ := endpoint_eq_some_iff.mp he'
      rw [(endpoint_spec he).2.1, (endpoint_spec he').2.1] at hconflict
      rw [hpath, hpath']
      have hupper : e.method = e'.method → upper _ = upper _ := fun hsame =>
        Method.ofText_inj hmethod (hsame ▸ hmethod')
      rcases hpair hconflict with hsame | ⟨hsame, hother⟩
      · -- the keys of routes with one path have different methods
        refine ⟨by rw [hsame], fun hmethods => hkey ?_⟩
        rw [MergedRoute.key, MergedRoute.key, routeKey, routeKey, hupper hmethods, hsame]
      · exact ⟨hsame, fun hmethods => hother (hupper hmethods)⟩
    have hcoexistConfig := hcoexist.sublist
      ((filter_sublist (p := fun r : MergedRoute => decide r.IsConfig)).filterMap (endpoint upper))
    refine ⟨?_, _, _, buildMergedRouter_eq_some_iff.mpr ⟨fun r hr _ => hpaths r hr, hcoexist, rfl⟩,
      buildMergedRouter_eq_some_iff.mpr ⟨fun r hr _ => hpaths r (mem_filter.mp hr).1,
        hcoexistConfig, rfl⟩, ?_, ?_⟩
    · refine hpairs.imp fun ⟨hpair, hkey⟩ hupper hpattern => ?_
      rw [hpattern] at hpair
      rcases hpair (conflicts_self _) with hsame | ⟨-, hother⟩
      · exact hkey (by rw [MergedRoute.key, MergedRoute.key, routeKey, routeKey, hupper, hsame])
      · exact hother hupper
    · intro r hr
      obtain ⟨e, he⟩ := hendpoints r hr
      exact ⟨e, mem_filterMap.mpr ⟨r, hr, he⟩, (endpoint_spec he).1⟩
    · exact (dispatch_iff_yield hendpoints (built_filterMap hcoexist)
        (built_filterMap hcoexistConfig)).mpr hyields

/-- The upper case of ASCII letters. -/
def asciiUpper (s : String) : String :=
  String.ofList (s.toList.map Char.toUpper)

/-- The listing of a collection, as by default. -/
def listRoute : RouteConfig :=
  ⟨"GET", "/api/v1/data/:collection", "collection.list", false⟩

def tasksRoute : RouteConfig :=
  ⟨"GET", "/api/v1/data/tasks", "tasks.list", false⟩

/-- Configured routes, with one route of a plugin. -/
def routesWith (routes : List RouteConfig) (pr : PluginRoute) : List MergedRoute :=
  routes.map (⟨·, "rest", .config⟩) ++
    [⟨⟨pr.method, pr.path, pr.workflow, pr.isPublic⟩, "rest", .plugin pr.pluginId⟩]

def addTaskRoute : PluginRoute :=
  ⟨"tasks", "post", "/api/v1/data/tasks", "tasks.add", true⟩

/-- The plugin has a path of the configuration, with another method. -/
theorem soundRouting_addTaskRoute :
    mergeRoutes asciiUpper ⟨[⟨"rest", [listRoute, tasksRoute]⟩]⟩ [addTaskRoute] =
        .ok (routesWith [listRoute, tasksRoute] addTaskRoute) ∧
      ∀ fills, SoundRouting fills asciiUpper (routesWith [listRoute, tasksRoute] addTaskRoute) := by
  have hmerge : mergeRoutes asciiUpper ⟨[⟨"rest", [listRoute, tasksRoute]⟩]⟩ [addTaskRoute] =
      .ok (routesWith [listRoute, tasksRoute] addTaskRoute) := by decide
  refine ⟨hmerge, fun fills => (soundRouting_iff_routable hmerge).mpr
    ⟨by decide, by decide +kernel, by decide +kernel, ?_⟩⟩
  intro path _ p hp hplugin hmatches
  simp only [routesWith, map_cons, map_nil, cons_append, nil_append, mem_cons, not_mem_nil,
    or_false] at hp
  rcases hp with rfl | rfl | rfl
  · exact absurd rfl hplugin
  · exact absurd rfl hplugin
  · exact ⟨⟨tasksRoute, "rest", .config⟩, by simp [routesWith], rfl, hmatches,
      moreSpecific_self _⟩

def shadowRoute : PluginRoute :=
  ⟨"shadow", "GET", "/api/v1/data/:name", "shadow.list", false⟩

/-- A plugin route with another name for the parameter is accepted, and the router cannot be built.
-/
theorem not_soundRouting_shadowRoute :
    mergeRoutes asciiUpper ⟨[⟨"rest", [listRoute]⟩]⟩ [shadowRoute] =
        .ok (routesWith [listRoute] shadowRoute) ∧
      patternOf listRoute.path = patternOf shadowRoute.path ∧
      buildMergedRouter asciiUpper (routesWith [listRoute] shadowRoute) = none := by
  exact ⟨by decide, by decide +kernel, by decide +kernel⟩

end LifeEngine.Transport
