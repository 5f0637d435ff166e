import LifeEngine.Plugins.Basic
import LifeEngine.Support.Uri

/-!
# Outbound HTTP requests

`host_http_request` checks a request of a plugin and passes it to the HTTP client.
It cuts the domain that it checks out of the URL by itself.  The main result says
for which URLs this domain is the host that the request goes to.
-/

namespace LifeEngine.Plugins

open Support

structure HttpRequest where
  method : String
  url : String
  headers : List (String × String)
  body : Option String
  deriving DecidableEq

structure HttpResponse where
  status : Nat
  headers : List (String × String)
  body : String

/-- `HttpHostContext`, apart from the client. -/
structure HttpHostContext where
  pluginId : String
  capabilities : List Capability
  allowedDomains : Option (List String)

/-- What becomes of a request that is passed to the client. -/
inductive ClientOutcome where
  /-- The URL or a header is not valid, and nothing is sent. -/
  | rejected (message : String)
  /-- The request is sent, and no response comes. -/
  | failed (timedOut : Bool) (message : String)
  /-- The request is sent, and answered. -/
  | answered (status : Nat) (headers : List (String × String)) (body : Except String Bytes)

/-- What the host function takes from other crates. -/
structure HttpEnv where
  decode : Bytes → Except String HttpRequest
  encode : HttpResponse → Except String Bytes
  /-- The lower case of a character outside of ASCII. -/
  unicodeLower : Char → List Char
  validMethod : String → Bool
  client : HttpRequest → ClientOutcome
  /-- The host that the client contacts for a URL. -/
  clientHost : String → Option (List Char)
  /-- `String::from_utf8_lossy`. -/
  lossyText : Bytes → String

/-- What a call returns, and the request that was sent. -/
structure HttpOutcome where
  reply : Except PluginError Bytes
  sent : Option HttpRequest

def requestTimeoutSecs : Nat := 30

def maxResponseBodySize : Nat := 10 * 1024 * 1024

/-! ## The parts of a URL -/

def toLowercase (env : HttpEnv) (text : List Char) : List Char :=
  text.flatMap fun c => if c.toNat < 128 then [c.toLower] else env.unicodeLower c

/-- The scheme of a URL, as the host function reads it. -/
def urlScheme (env : HttpEnv) (url : String) : String :=
  String.ofList (toLowercase env (firstPiece "://".toList url.toList))

/-- The domain of a URL, as the host function reads it. -/
def urlDomain (url : String) : String :=
  match secondPiece "://".toList url.toList with
  -- User information before an `@` is not cut off.
  | some rest => String.ofList (firstField ':' (firstField '/' rest))
  | none => ""

/-! ## The host function -/

def clientReply (env : HttpEnv) (ctx : HttpHostContext) :
    ClientOutcome → Except PluginError Bytes
  | .rejected e => .error (.executionFailed
      ("HTTP request failed for plugin '" ++ ctx.pluginId ++ "': " ++ e))
  | .failed true e => .error (.executionFailed
      ("HTTP request timed out for plugin '" ++ ctx.pluginId ++ "' (" ++
        toString requestTimeoutSecs ++ "s limit): " ++ e))
  | .failed false e => .error (.executionFailed
      ("HTTP request failed for plugin '" ++ ctx.pluginId ++ "': " ++ e))
  | .answered _ _ (.error e) => .error (.executionFailed
      ("failed to read HTTP response body for plugin '" ++ ctx.pluginId ++ "': " ++ e))
  | .answered status headers (.ok bytes) =>
    if maxResponseBodySize < bytes.length then
      .error (.executionFailed ("HTTP response body exceeds maximum size (" ++
        toString maxResponseBodySize ++ " bytes) for plugin '" ++ ctx.pluginId ++ "'"))
    else
      (env.encode ⟨status, headers, env.lossyText bytes⟩).mapError fun e =>
        .executionFailed ("failed to serialize HTTP response for plugin '" ++
          ctx.pluginId ++ "': " ++ e)

def sendRequest (env : HttpEnv) (ctx : HttpHostContext) (request : HttpRequest) :
    HttpOutcome :=
  let outcome := env.client request
  let sent := match outcome with
    | .rejected _ => none
    | .failed _ _ | .answered _ _ _ => some request
  ⟨clientReply env ctx outcome, sent⟩

/-- The domain is declared, if any are. -/
def domainAllowed (ctx : HttpHostContext) (domain : String) : Bool :=
  match ctx.allowedDomains with
  | some allowed => allowed.any (fun d => d = domain)
  | none => true

def hostHttpRequest (env : HttpEnv) (ctx : HttpHostContext) (input : Bytes) :
    HttpOutcome :=
  if .httpOutbound ∉ ctx.capabilities then
    ⟨.error (.runtimeCapabilityViolation
      ("plugin '" ++ ctx.pluginId ++ "' lacks capability 'http:outbound'")), none⟩
  else
    match env.decode input with
    | .error e => ⟨.error (.executionFailed
        ("failed to deserialize HTTP request from plugin '" ++ ctx.pluginId ++ "': " ++ e)),
        none⟩
    | .ok request =>
      let scheme := urlScheme env request.url
      let domain := urlDomain request.url
      if scheme ≠ "http" ∧ scheme ≠ "https" then
        ⟨.error (.executionFailed ("plugin '" ++ ctx.pluginId ++
          "': only http:// and https:// schemes are allowed, got '" ++ scheme ++ "://'")),
          none⟩
      else if !domainAllowed ctx domain then
        ⟨.error (.runtimeCapabilityViolation ("plugin '" ++ ctx.pluginId ++
          "' attempted HTTP request to undeclared domain '" ++ domain ++ "'")), none⟩
      else if !env.validMethod request.method then
        ⟨.error (.executionFailed ("plugin '" ++ ctx.pluginId ++
          "': invalid HTTP method '" ++ request.method ++ "'")), none⟩
      else sendRequest env ctx request

/-! ## Where requests go -/

/-- The request passes all checks but that of its domain, and is sent. -/
def Passes (env : HttpEnv) (ctx : HttpHostContext) (input : Bytes) (request : HttpRequest) :
    Prop :=
  .httpOutbound ∈ ctx.capabilities ∧ env.decode input = .ok request ∧
    (urlScheme env request.url = "http" ∨ urlScheme env request.url = "https") ∧
    env.validMethod request.method = true ∧ ∀ e, env.client request ≠ .rejected e

/-- A request that is sent goes to a declared domain. -/
def StaysInDeclared (env : HttpEnv) (ctx : HttpHostContext) (input : Bytes) : Prop :=
  ∀ allowed request,
    (hostHttpRequest env { ctx with allowedDomains := some allowed } input).sent =
        some request →
      ∃ h, env.clientHost request.url = some h ∧ ∃ d ∈ allowed, Uri.SameHost d.toList h

/-- The client splits the URLs of the input as RFC 3986 does. -/
def SplitsAsRfc (env : HttpEnv) (ctx : HttpHostContext) (input : Bytes) : Prop :=
  ∀ request, Passes env ctx input request →
    env.clientHost request.url = Uri.host request.url.toList

variable {env : HttpEnv} {ctx : HttpHostContext} {request : HttpRequest}

theorem sendRequest_sent_iff {request' : HttpRequest} :
    (sendRequest env ctx request).sent = some request' ↔
      request = request' ∧ ∀ e, env.client request ≠ .rejected e := by
  cases hclient : env.client request with
  | rejected e =>
    simp only [sendRequest, hclient, reduceCtorEq, false_iff]
    exact fun h => h.2 e rfl
  | failed timedOut e => simp [sendRequest, hclient]
  | answered status headers body => simp [sendRequest, hclient]

/-- A request is sent exactly when it passes and its domain is allowed. -/
theorem sent_iff {input : Bytes} :
    (hostHttpRequest env ctx input).sent = some request ↔
      Passes env ctx input request ∧ domainAllowed ctx (urlDomain request.url) = true := by
  unfold hostHttpRequest Passes
  by_cases hcap : .httpOutbound ∈ ctx.capabilities
  · cases hdecode : env.decode input with
    | error e => simp [hcap]
    | ok request' =>
      simp only [hcap, not_true_eq_false, ↓reduceIte, Except.ok.injEq, true_and]
      by_cases hscheme : urlScheme env request'.url ≠ "http" ∧ urlScheme env request'.url ≠ "https"
      · simp only [if_pos hscheme, reduceCtorEq, false_iff]
        rintro ⟨⟨rfl, hok, -⟩, -⟩
        exact hok.elim hscheme.1 hscheme.2
      rw [if_neg hscheme]
      have hweb : urlScheme env request'.url = "http" ∨ urlScheme env request'.url = "https" := by
        by_contra hnot
        exact hscheme (not_or.mp hnot)
      by_cases hdomain : domainAllowed ctx (urlDomain request'.url) = true
      · by_cases hmethod : env.validMethod request'.method = true
        · simp only [hdomain, hmethod, Bool.not_true, Bool.false_eq_true, ↓reduceIte,
            sendRequest_sent_iff]
          constructor
          · rintro ⟨rfl, hclient⟩
            exact ⟨⟨rfl, hweb, hmethod, hclient⟩, hdomain⟩
          · rintro ⟨⟨rfl, -, -, hclient⟩, -⟩
            exact ⟨rfl, hclient⟩
        · simp only [hdomain, hmethod, Bool.not_true, Bool.not_false, ↓reduceIte, reduceCtorEq,
            false_iff]
          rintro ⟨⟨rfl, -, hok, -⟩, -⟩
          exact hmethod hok
      · simp only [hdomain, Bool.not_false, ↓reduceIte, reduceCtorEq, false_iff]
        rintro ⟨⟨rfl, -⟩, hok⟩
        exact hdomain hok
  · simp [hcap]

/-- A text whose lower case is `http` or `https` has no colon. -/
theorem colon_not_mem_of_scheme {text : List Char}
    (h : String.ofList (toLowercase env text) = "http" ∨
      String.ofList (toLowercase env text) = "https") :
    ':' ∉ text := by
  intro hmem
  have hlower : ':' ∈ toLowercase env text := by
    refine List.mem_flatMap.mpr ⟨':', hmem, ?_⟩
    rw [if_pos (by decide)]
    decide
  have hlist : toLowercase env text = "http".toList ∨ toLowercase env text = "https".toList := by
    rcases h with h | h
    · exact .inl (by rw [← h, String.toList_ofList])
    · exact .inr (by rw [← h, String.toList_ofList])
  rcases hlist with hlist | hlist
  · rw [hlist] at hlower
    exact absurd hlower (by decide)
  · rw [hlist] at hlower
    exact absurd hlower (by decide)

/-- The domain stands before the first `/` or `:` behind the scheme. -/
theorem toList_urlDomain {url : String} {scheme rest : List Char}
    (hurl : url.toList = scheme ++ "://".toList ++ rest) (hscheme : ':' ∉ scheme) :
    (urlDomain url).toList = rest.takeWhile (fun c => c ≠ '/' ∧ c ≠ ':') := by
  have hcut : cut "://".toList url.toList = some (scheme, rest) := by
    rw [hurl]
    exact cut_append hscheme rest
  have hpiece : secondPiece "://".toList url.toList = some (firstPiece "://".toList rest) := by
    rw [secondPiece, hcut]
    rfl
  rw [urlDomain, hpiece]
  simp only [String.toList_ofList, firstField, List.takeWhile_takeWhile]
  have hp : (fun c : Char => decide (decide (c ≠ ':') = true ∧ decide (c ≠ '/') = true)) =
      fun c => decide (c ≠ '/' ∧ c ≠ ':') := by
    simp [and_comm]
  rw [hp]
  exact takeWhile_firstPiece (by decide) rest

/-- The URL has a scheme in front of `://`, or no colon at all. -/
theorem Passes.url_cases {input : Bytes} (h : Passes env ctx input request) :
    ':' ∉ request.url.toList ∨ ∃ scheme rest,
      request.url.toList = scheme ++ "://".toList ++ rest ∧ ':' ∉ scheme := by
  obtain ⟨-, -, hscheme, -⟩ := h
  have hcolon := colon_not_mem_of_scheme hscheme
  cases hcut : cut "://".toList request.url.toList with
  | none =>
    left
    simpa only [firstPiece, hcut] using hcolon
  | some parts =>
    right
    obtain ⟨scheme, rest⟩ := parts
    refine ⟨scheme, rest, eq_append_of_cut hcut, ?_⟩
    simpa only [firstPiece, hcut] using hcolon

/-- The host leads the URL exactly when the check reads it as the domain. -/
theorem hostLeads_iff {url : String} {scheme rest : List Char}
    (hurl : url.toList = scheme ++ "://".toList ++ rest) (hscheme : ':' ∉ scheme) :
    Uri.HostLeads url.toList ↔
      ∃ h, Uri.host url.toList = some h ∧ Uri.SameHost (urlDomain url).toList h := by
  constructor
  · rintro ⟨scheme', lead, rest', h, hurl', hscheme', hlead, hrest', hhost, hsame⟩
    refine ⟨h, hhost, ?_⟩
    have hdomain : (urlDomain url).toList = lead := by
      rw [toList_urlDomain hurl' hscheme', List.takeWhile_append_of_pos]
      · cases rest' with
        | nil => simp
        | cons c cs =>
          have hc : ¬ (c ≠ '/' ∧ c ≠ ':') := by
            rintro ⟨hslash, hcolon⟩
            exact (hrest' c rfl).elim hslash hcolon
          simp [hc]
      · intro c hc
        simpa using hlead c hc
    rw [hdomain]
    exact hsame
  · rintro ⟨h, hhost, hsame⟩
    have hdomain := toList_urlDomain hurl hscheme
    refine ⟨scheme, (urlDomain url).toList,
      rest.dropWhile (fun c => c ≠ '/' ∧ c ≠ ':'), h, ?_, hscheme, ?_, ?_, hhost, hsame⟩
    · rw [hdomain, List.takeWhile_append_dropWhile]
      exact hurl
    · intro c hc
      rw [hdomain] at hc
      simpa using List.mem_takeWhile_imp hc
    · intro c hc
      have hnot := List.head?_dropWhile_not (fun c => decide (c ≠ '/' ∧ c ≠ ':')) rest
      rw [Option.mem_def.mp hc] at hnot
      simpa [or_iff_not_imp_left] using hnot

/-- Requests go to declared domains exactly as far as hosts lead their URLs. -/
theorem staysInDeclared_iff (env : HttpEnv) (ctx : HttpHostContext) (input : Bytes)
    (hclient : SplitsAsRfc env ctx input) :
    StaysInDeclared env ctx input ↔
      ∀ request, Passes env ctx input request → Uri.HostLeads request.url.toList := by
  constructor
  · intro h request hpasses
    -- The list with just the domain that the check reads lets the request through.
    have hsent : (hostHttpRequest env
        { ctx with allowedDomains := some [urlDomain request.url] } input).sent = some request :=
      sent_iff.mpr ⟨hpasses, by simp [domainAllowed]⟩
    obtain ⟨host, hhost, d, hd, hsame⟩ := h _ request hsent
    rw [hclient request hpasses] at hhost
    obtain rfl := List.mem_singleton.mp hd
    rcases hpasses.url_cases with hcolon | ⟨scheme, rest, hurl, hscheme⟩
    · rw [Uri.host, Uri.authority_eq_none hcolon] at hhost
      cases hhost
    · exact (hostLeads_iff hurl hscheme).mpr ⟨host, hhost, hsame⟩
  · intro h allowed request hsent
    obtain ⟨hpasses, hdomain⟩ := sent_iff.mp hsent
    have hleads := h request hpasses
    have hmem : urlDomain request.url ∈ allowed := by
      simpa [domainAllowed] using hdomain
    obtain ⟨scheme, lead, rest, -, hurl, hscheme, -⟩ := id hleads
    obtain ⟨host, hhost, hsame⟩ := (hostLeads_iff hurl hscheme).mp hleads
    exact ⟨host, (hclient request hpasses).trans hhost, urlDomain request.url, hmem, hsame⟩

/-- Inputs are the URLs of `GET` requests in ASCII. -/
def asciiHttp : HttpEnv where
  decode bytes := .ok ⟨"GET", latinText bytes, [], none⟩
  encode _ := .ok []
  unicodeLower c := [c]
  validMethod method := method = "GET"
  client _ := .answered 200 [] (.ok [])
  clientHost url := Uri.host url.toList
  lossyText _ := ""

theorem staysInDeclared_port :
    StaysInDeclared asciiHttp ⟨"mail", [.httpOutbound], none⟩
      (latinBytes "https://allowed.com:443/mail") := by
  refine (staysInDeclared_iff asciiHttp _ _ fun _ _ => rfl).mpr fun request hpasses => ?_
  obtain rfl : ⟨"GET", "https://allowed.com:443/mail", [], none⟩ = request :=
    Except.ok.inj ((by decide +kernel : asciiHttp.decode _ = _).symm.trans hpasses.2.1)
  exact ⟨"https".toList, "allowed.com".toList, ":443/mail".toList, "allowed.com".toList,
    by decide +kernel, by decide, by simp, by simp, by decide +kernel, by decide⟩

/-- User information with a colon: the check reads the user. -/
theorem not_staysInDeclared_userinfo :
    (hostHttpRequest asciiHttp ⟨"mail", [.httpOutbound], some ["allowed.com"]⟩
        (latinBytes "http://allowed.com:x@evil.com/")).sent =
      some ⟨"GET", "http://allowed.com:x@evil.com/", [], none⟩ ∧
    Uri.host "http://allowed.com:x@evil.com/".toList = some "evil.com".toList ∧
    ¬ StaysInDeclared asciiHttp ⟨"mail", [.httpOutbound], some ["allowed.com"]⟩
      (latinBytes "http://allowed.com:x@evil.com/") := by
  refine (fun hsent hhost => ⟨hsent, hhost, fun h => ?_⟩) (by decide +kernel) (by decide +kernel)
  obtain ⟨host, hhost', d, hd, hsame⟩ := h ["allowed.com"] _ hsent
  obtain rfl := Option.some.inj (hhost.symm.trans hhost')
  obtain rfl := List.mem_singleton.mp hd
  revert hsame
  decide +kernel

end LifeEngine.Plugins
