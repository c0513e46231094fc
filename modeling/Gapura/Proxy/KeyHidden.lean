import Gapura.Proxy.Admission
import Gapura.Proxy.FormText
import Gapura.Proxy.Served

/-! # An API key stays with the gateway

Two requests that differ in the key alone are followed through the gateway side
by side. Every step up to the key's removal keeps their heads alike but for the
key's header, and after it they are the same head. -/
namespace Gapura.Proxy.KeyHidden
open Gapura.Core Core.ClientIp Core.Store Lib.Checks Lib.Headers Lib.Text Proxy.Plugin Proxy.Access
  Proxy.Request Upstream Served

/-- Heads that are the same but for the lines of one header. -/
structure Similar (header : String) (req req' : RequestHeader) : Prop where
  method : req.method = req'.method
  uri : req.uri = req'.uri
  headers : HeaderMap.AgreeOff header req.headers req'.headers

section Steps
variable {header : String} {req req' : RequestHeader}

theorem Similar.remove (h : Similar header req req') (name : String) :
    Similar header (removeHeader req name) (removeHeader req' name) :=
  ⟨h.method, h.uri, h.headers.remove name⟩

theorem Similar.foldl_remove (h : Similar header req req') (names : List String) :
    Similar header (names.foldl removeHeader req) (names.foldl removeHeader req') := by
  induction names generalizing req req' with
  | nil => exact h
  | cons name rest ih => exact ih (h.remove name)

theorem Similar.insert (h : Similar header req req') (name value : String) :
    Both (Similar header) (insertHeader req name value) (insertHeader req' name value) := by
  unfold insertHeader
  split
  · split
    · exact .ok ⟨h.method, h.uri, h.headers.insert name _⟩
    · exact .error _
  · exact .error _

theorem Similar.append (h : Similar header req req') (name value : String) :
    Both (Similar header) (appendHeader req name value) (appendHeader req' name value) := by
  unfold appendHeader
  split
  · split
    · exact .ok ⟨h.method, h.uri, h.headers.append name _⟩
    · exact .error _
  · exact .error _

variable (px : GapuraProxy)

theorem Similar.setUri (h : Similar header req req') (target : String) :
    Similar header (setUri px req target) (setUri px req' target) := by
  unfold Upstream.setUri
  split
  · exact ⟨h.method, rfl, h.headers⟩
  · exact h

theorem Similar.consumerHeaders (h : Similar header req req') (config : Config)
    (consumer : Option Consumer) : Both (Similar header) (consumerHeaders config consumer req)
      (consumerHeaders config consumer req') := by
  have hremoved := h.foldl_remove Credentials.gatewayHeaders
  unfold Upstream.consumerHeaders
  cases consumer with
  | none => exact .ok hremoved
  | some consumer =>
    refine (hremoved.insert _ _).bind fun req req' h => ?_
    refine Both.bind (R := Similar header) ?_ fun req req' h => ?_
    · unfold nameGroups
      split
      · exact h.insert _ _
      · exact .ok h
    · unfold nameAnonymous
      split
      · exact h.insert _ _
      · exact .ok h

theorem Similar.normalised (h : Similar header req req') (ex : Extracted) :
    Similar header (normalised px ex req) (normalised px ex req') := by
  unfold Upstream.normalised
  split
  · exact h.setUri px _
  · exact h

theorem Similar.rewritten (h : Similar header req req') (ctx : Ctx) :
    Both (Similar header) (rewritten px ctx req) (rewritten px ctx req') := by
  unfold Upstream.rewritten
  split
  · exact .ok h
  · refine Both.bind (R := Similar header) ?_ fun req req' h => ?_
    · unfold rewriteTarget
      split
      · exact .ok h
      · split
        · exact .error _
        · exact .ok (h.setUri px _)
    · unfold rewriteHost
      split
      · exact .ok h
      · exact h.insert _ _

theorem Similar.applyHeaderOps (h : Similar header req req') (ops : HeaderOps) :
    Both (Similar header) (applyHeaderOps ops req) (applyHeaderOps ops req') := by
  unfold Upstream.applyHeaderOps
  refine (Both.foldlM (fun req req' p h => h.insert p.1 p.2) h).bind fun req req' h => ?_
  refine (Both.foldlM (fun req req' p h => h.append p.1 p.2) h).bind fun req req' h => ?_
  exact .ok (h.foldl_remove ops.remove)

/-- With the header gone the heads are one. -/
theorem Similar.eq_of_remove (h : Similar header req req') :
    removeHeader req header = removeHeader req' header := by
  have hheaders : req.headers.remove header = req'.headers.remove header := h.headers
  unfold removeHeader
  rw [hheaders]
  cases req
  cases req'
  cases h.method
  cases h.uri
  rfl

theorem Similar.eq_of_mem (h : Similar header req req') {names : List String}
    (hmem : header ∈ names) : names.foldl removeHeader req = names.foldl removeHeader req' := by
  obtain ⟨before, after, rfl⟩ := List.append_of_mem hmem
  rw [List.foldl_append, List.foldl_append, List.foldl_cons, List.foldl_cons,
    (h.foldl_remove before).eq_of_remove]

theorem Similar.upstreamSteps (h : Similar header req req') {rule : RouteRule}
    {chain : Plugin.Chain} (hcompile : compile rule = .ok chain) {p : KeyAuthPolicy}
    (hp : .keyAuth p ∈ rule.plugins) (hheader : p.header = header) :
    upstreamSteps px rule req = upstreamSteps px rule req' := by
  have hmem : header ∈ (rule.plugins.filterMap Chain.keyAuth?).map KeyAuthPolicy.header :=
    List.mem_map.mpr ⟨p, List.mem_filterMap.mpr ⟨_, hp, rfl⟩, hheader⟩
  rw [upstreamSteps_eq px hcompile, upstreamSteps_eq px hcompile, h.eq_of_mem hmem]

end Steps

/-! ## What is read before the key's removal -/

section Early
variable {header : String} {req req' : RequestHeader}

theorem Similar.headerStr (h : Similar header req req') {name : String}
    (hname : eqIgnoreAsciiCase header name = false) : headerStr req name = headerStr req' name := by
  unfold Plugin.headerStr
  rw [h.headers.get hname]

theorem Similar.dropTunnellingUpgrade (h : Similar header req req')
    (hupgrade : eqIgnoreAsciiCase header "upgrade" = false) :
    Similar header { req with headers := dropTunnellingUpgrade req.headers }
      { req' with headers := dropTunnellingUpgrade req'.headers } := by
  refine ⟨h.method, h.uri, ?_⟩
  have hoffers : offersWebsocket req.headers = offersWebsocket req'.headers := by
    unfold offersWebsocket
    rw [h.headers.getAll hupgrade]
  unfold Request.dropTunnellingUpgrade
  rw [hoffers]
  refine HeaderMap.AgreeOff.remove ?_ "http2-settings"
  split
  · exact h.headers
  · exact h.headers.remove _

variable (px : GapuraProxy)

theorem Similar.received (h : Similar header req req')
    (hupgrade : eqIgnoreAsciiCase header "upgrade" = false) :
    Similar header (received px req) (received px req') := by
  have hdropped := h.dropTunnellingUpgrade hupgrade
  unfold Request.received
  simp only
  split
  · exact hdropped.remove debugHeader
  · exact hdropped

/-- All of what a request is matched on but its headers. -/
theorem Similar.extracted (h : Similar header req req')
    (hhost : eqIgnoreAsciiCase header "host" = false) {ex ex' : Extracted}
    (hex : extracted px req = .ok ex) (hex' : extracted px req' = .ok ex') :
    ex' = { ex with headers := ex'.headers } := by
  have hhostOf : hostOf px req = hostOf px req' := by
    unfold hostOf
    rw [h.headers.getAll hhost, h.uri]
  unfold Request.extracted at hex hex'
  rw [hhostOf, h.uri, h.method] at hex
  split at hex
  · cases hex
  next host hhost =>
    rw [hhost] at hex'
    simp only at hex'
    split at hex
    · cases hex
    next path hpath =>
      rw [hpath] at hex'
      cases hex
      cases hex'
      rfl

end Early

/-- The head depends on what a request was matched on only through its host,
its path and its query. -/
theorem upstreamRequestFilter_congr (px : GapuraProxy) (rt : Runtime) {ctx ctx' : Ctx}
    (consumer : Option Consumer) (peer : Option IpAddr) (req : RequestHeader)
    (hrule : ctx.rule = ctx'.rule) (hmatched : ctx.matched = ctx'.matched)
    (hscheme : ctx.scheme = ctx'.scheme) (hid : ctx.requestId = ctx'.requestId)
    (htrace : ctx.traceparent = ctx'.traceparent)
    (hex : ctx'.extracted = { ctx.extracted with headers := ctx'.extracted.headers }) :
    upstreamRequestFilter px rt ctx consumer peer req =
      upstreamRequestFilter px rt ctx' consumer peer req := by
  simp only [upstreamRequestFilter, normalised, rewritten, rewriteTarget, accounted, forwardHost,
    hrule, hmatched, hscheme, hid, htrace]
  rw [hex]

theorem Similar.upstreamRequestFilter (px : GapuraProxy) (rt : Runtime) (ctx : Ctx)
    (consumer : Option Consumer) (peer : Option IpAddr) {header : String} {req req' : RequestHeader}
    (h : Similar header req req') {chain : Plugin.Chain} (hcompile : compile ctx.rule = .ok chain)
    {p : KeyAuthPolicy} (hp : .keyAuth p ∈ ctx.rule.plugins) (hheader : p.header = header) :
    upstreamRequestFilter px rt ctx consumer peer req =
      upstreamRequestFilter px rt ctx consumer peer req' := by
  apply Both.eq
  unfold Upstream.upstreamRequestFilter
  refine (h.consumerHeaders rt.config consumer).bind fun req req' h => ?_
  refine ((h.normalised px ctx.extracted).rewritten px ctx).bind fun req req' h => ?_
  refine (h.applyHeaderOps _).bind fun req req' h => ?_
  rw [h.upstreamSteps px hcompile hp hheader]
  cases accounted px ctx peer (Upstream.upstreamSteps px ctx.rule req') with
  | ok head => exact .ok rfl
  | error e => exact .error e

/-! ## Two requests that differ in the key -/

/-- The same request with another value on the one line of a header. -/
structure OtherKey (header : String) (raw raw' : RequestHeader) : Prop where
  method : raw.method = raw'.method
  uri : raw.uri = raw'.uri
  line : ∃ before name key key' after, eqIgnoreAsciiCase name header = true ∧
    (∀ line ∈ before ++ after, named header line = false) ∧
    raw.headers.lines = before ++ (name, key) :: after ∧
    raw'.headers.lines = before ++ (name, key') :: after

theorem OtherKey.similar {header : String} {raw raw' : RequestHeader}
    (h : OtherKey header raw raw') : Similar header raw raw' := by
  obtain ⟨before, name, key, key', after, hname, -, hlines, hlines'⟩ := h.line
  refine ⟨h.method, h.uri, ?_⟩
  unfold HeaderMap.AgreeOff HeaderMap.remove
  rw [hlines, hlines']
  simp [named, hname]

/-- No head the gateway sends upstream tells two keys of one consumer apart,
whatever rule of the store the requests match and whatever is random. -/
def Hidden (header : String) : Prop :=
  ∀ (px : GapuraProxy) (rt : Runtime) (sha256 : String → List UInt8) (snap : StoreSnapshot)
    (settings : StoreSettings) (conn : Conn) (ids : Ids) (nowMs nowMs' : Nat) (s s' : State)
    (raw raw' : RequestHeader) (sent sent' : Sent),
    StoreServed sha256 snap settings rt conn → OtherKey header raw raw' →
    forward px rt conn ids nowMs raw s = some sent →
    forward px rt conn ids nowMs' raw' s' = some sent' →
    sent.ctx.listener = sent'.ctx.listener → sent.ctx.rule = sent'.ctx.rule →
    Accepted sent.ctx.rule.plugins → (∀ p, .jwt p ∉ sent.ctx.rule.plugins) →
    (∃ p, .keyAuth p ∈ sent.ctx.rule.plugins ∧ p.header = header) →
    sent.consumer = sent'.consumer → sent.head = sent'.head

variable {value : Option String}

theorem hidden_of_ne {header : String} (haccepted : Control.Consumers.header value = .ok header)
    (hid : header ≠ "x-request-id") (htrace : header ≠ "traceparent") : Hidden header := by
  intro px rt sha256 snap settings conn ids nowMs nowMs' s s' raw raw' sent sent' hstore hkey hsent
    hsent' hlistener hrule _ _ hpolicy hconsumer
  obtain ⟨p, hp, hheader⟩ := hpolicy
  obtain ⟨hit, chain, hpassed⟩ := passed_of_forward hsent
  obtain ⟨hit', chain', hpassed'⟩ := passed_of_forward hsent'
  have hupgrade : eqIgnoreAsciiCase header "upgrade" = false :=
    Control.Consumers.header_ne haccepted (by simp [Control.Consumers.reservedHeaders])
  have hhost : eqIgnoreAsciiCase header "host" = false :=
    Control.Consumers.header_ne haccepted (by simp [Control.Consumers.reservedHeaders])
  have hdropped := hkey.similar.dropTunnellingUpgrade hupgrade
  have hreceived := hkey.similar.received px hupgrade
  have hex := hreceived.extracted px hhost hpassed.extracted hpassed'.extracted
  -- Both requests won through one entry, of one listener.
  have hsame : StoreEntries.SameTarget sent.ctx.extracted.attrs sent'.ctx.extracted.attrs := by
    rw [hex]
    exact ⟨rfl, rfl, rfl, rfl⟩
  have hentry : hit.entry = hit'.entry :=
    StoreEntries.entry_eq_of_rule_eq hstore.port hsame (hstore.match_eq _ ▸ hpassed.matches)
      (hstore.match_eq _ ▸ hpassed'.matches) (by rw [← hpassed.rule, ← hpassed'.rule, hrule])
  have hlistener' : hit.listener = hit'.listener := by
    obtain ⟨_, hwon⟩ := Matcher.won_of_match hpassed.matches
    obtain ⟨_, hwon'⟩ := Matcher.won_of_match hpassed'.matches
    have hindex : hit.listenerIndex = hit'.listenerIndex := by
      rw [← hpassed.listener, ← hpassed'.listener, hlistener]
    have := hwon.listener
    rw [hindex, hwon'.listener] at this
    exact (Option.some.inj this).symm
  have hrequestId : sent.ctx.requestId = sent'.ctx.requestId := by
    rw [hpassed.requestId, hpassed'.requestId]
    unfold requestIdOf
    rw [hdropped.headerStr
      (Control.Consumers.header_ne_of_ne haccepted (by decide +kernel) hid)]
  have htraceparent : sent.ctx.traceparent = sent'.ctx.traceparent := by
    rw [hpassed.traceparent, hpassed'.traceparent]
    unfold traceparentOf
    rw [hdropped.headerStr
      (Control.Consumers.header_ne_of_ne haccepted (by decide +kernel) htrace)]
  rw [hpassed.head, hpassed'.head, ← hconsumer, upstreamRequestFilter_congr px rt _ _ _ hrule
    (by rw [hpassed.matched, hpassed'.matched, hentry])
    (by rw [hpassed.scheme, hpassed'.scheme, hlistener']) hrequestId htraceparent hex]
  rw [hrule] at hp
  exact hreceived.upstreamRequestFilter px rt _ _ _
    (by rw [hpassed'.rule]; exact hpassed'.compiles) hp hheader

/-! ## A shop whose consumer holds two keys

A key's digest is its last byte. -/

def lastByte (v : List UInt8) : List UInt8 := v.getLast?.toList

def plainProxy : GapuraProxy where
  gw := { Admission.plainGateway with sha256 := lastByte }
  ipv6Text := fun _ => none
  ipText := fun _ => ""
  parseUri := fun _ => none
  setPathAndQuery := fun _ _ => none
  form := Transform.formUrlencoded Admission.plainGateway.fromUtf8Lossy

def keyedSnapshot (header : String) (keys : List String) : StoreSnapshot where
  services := [StoreRouting.ordersService "shop"]
  routes := [{ StoreRouting.routeFor "shop" "api" [] with paths := [], methods := [] }]
  plugins := [⟨"shop", none, none, .keyAuth ⟨header, none⟩⟩]
  credentials := keys.map fun key => ⟨hex (lastByte (bytes key)), "mobile", "shop"⟩
  consumers := [⟨"shop", "mobile", []⟩]

def keyedRuntime (header : String) (keys : List String) : Runtime where
  config := { Store.compile StoreRouting.noDigest (keyedSnapshot header keys) {} with
    clusters := .ofList [("orders.internal:8080",
      ({ endpoints := [⟨"10.0.0.1", 8080⟩], tls := none, resolve := none } : Cluster))] }

def keyedConn : Conn := ⟨80, none⟩

def keyedIds : Ids where
  requestId := "random"
  traceId := "0af7651916cd43dd8448eb211c80319c"
  spanId := "b7ad6b7169203331"
  sampled := true
  roll := fun _ => 0

def keyedRequest (header key : String) : RequestHeader where
  method := "GET"
  uri := { path := "/" }
  headers := ⟨[(header, bytes key)]⟩

def keyedSent (header : String) (keys : List String) (key : String) : Option Sent :=
  forward plainProxy (keyedRuntime header keys) keyedConn keyedIds 0 (keyedRequest header key)
    Admission.unseen

/-- What is looked at of a request sent upstream: where it matched, whom it was
taken for, and the values of one header. -/
structure Seen where
  listener : Nat
  rule : RouteRule
  consumer : Option Consumer
  values : Option (List Value)
  deriving DecidableEq

def seen (header : String) (sent : Sent) : Seen where
  listener := sent.ctx.listener
  rule := sent.ctx.rule
  consumer := sent.consumer
  values := sent.head.toOption.map fun head => head.headers.getAll header

def keyedRule (header : String) : RouteRule where
  route := "shop/api"
  ruleIndex := 0
  creationTimestamp := ""
  «matches» := [{ path := .pathPrefix "/", headers := [], query := [], method := none }]
  filters := { rewrite := some ⟨some "orders.internal:8080", none⟩ }
  backends := [⟨some "orders.internal:8080", 1⟩]
  timeouts := {}
  rateLimit := none
  plugins := [.keyAuth ⟨header, some "shop"⟩]

theorem accepted_keyedRule {header : String} (h : Control.Consumers.header value = .ok header) :
    Accepted (keyedRule header).plugins := by
  constructor
  · intro p hp
    cases List.mem_singleton.mp hp
    exact ⟨_, h⟩
  · intro t ht
    cases List.mem_singleton.mp ht

/-- The key goes upstream as the header's value. -/
def Leaks (header : String) (keys : List String) (key : String) : Prop :=
  (keyedSent header keys key).map (seen header) =
    some ⟨0, keyedRule header, some ⟨"mobile", "shop/mobile", false⟩, some [bytes key]⟩

instance (header : String) (keys : List String) (key : String) :
    Decidable (Leaks header keys key) := inferInstanceAs (Decidable (_ = _))

theorem not_hidden_of_leaks {header key key' : String} (hne : bytes key ≠ bytes key')
    (haccepted : Control.Consumers.header (some header) = .ok header)
    (h : Leaks header [key, key'] key) (h' : Leaks header [key, key'] key') : ¬ Hidden header := by
  intro hhidden
  obtain ⟨sent, hsent, hseen⟩ := Option.map_eq_some_iff.mp h
  obtain ⟨sent', hsent', hseen'⟩ := Option.map_eq_some_iff.mp h'
  have hrule : sent.ctx.rule = keyedRule header := congrArg Seen.rule hseen
  have hrule' : sent'.ctx.rule = keyedRule header := congrArg Seen.rule hseen'
  have hlistener := (congrArg Seen.listener hseen).trans (congrArg Seen.listener hseen').symm
  have hconsumer := (congrArg Seen.consumer hseen).trans (congrArg Seen.consumer hseen').symm
  have hkeyed : OtherKey header (keyedRequest header key) (keyedRequest header key') :=
    ⟨rfl, rfl, [], header, bytes key, bytes key', [], eqIgnoreAsciiCase_iff.mpr rfl,
      by simp, rfl, rfl⟩
  have hplugins : Accepted sent.ctx.rule.plugins := hrule ▸ accepted_keyedRule haccepted
  have hjwt : ∀ p, .jwt p ∉ sent.ctx.rule.plugins := by
    rw [hrule]
    intro p hp
    cases List.mem_singleton.mp hp
  have hkeyAuth : ∃ p, .keyAuth p ∈ sent.ctx.rule.plugins ∧ p.header = header := by
    rw [hrule]
    exact ⟨_, List.mem_singleton.mpr rfl, rfl⟩
  have hhead := hhidden plainProxy (keyedRuntime header [key, key']) StoreRouting.noDigest
    (keyedSnapshot header [key, key']) {} keyedConn keyedIds 0 0 _ _ _ _ sent sent'
    ⟨⟨_, rfl⟩, by decide⟩ hkeyed hsent hsent' hlistener (hrule.trans hrule'.symm) hplugins hjwt
    hkeyAuth hconsumer
  have hvalues := congrArg Seen.values hseen
  rw [show (seen header sent).values = (seen header sent').values by simp only [seen, hhead],
    hseen'] at hvalues
  exact hne (by simpa using hvalues.symm)

theorem leaks_requestId : Leaks "x-request-id" ["key-a", "key-b"] "key-a" ∧
    Leaks "x-request-id" ["key-a", "key-b"] "key-b" := by decide +kernel

theorem not_hidden_requestId : ¬ Hidden "x-request-id" :=
  not_hidden_of_leaks (by decide +kernel) (by decide +kernel) leaks_requestId.1 leaks_requestId.2

/-- Keys in the shape of a trace of the caller's. -/
def traceKeys : String × String :=
  ("00-0af7651916cd43dd8448eb211c80319c-b7ad6b7169203331-01",
    "00-0af7651916cd43dd8448eb211c80319c-b7ad6b7169203331-00")

theorem leaks_traceparent :
    Leaks "traceparent" [traceKeys.1, traceKeys.2] traceKeys.1 ∧
    Leaks "traceparent" [traceKeys.1, traceKeys.2] traceKeys.2 := by decide +kernel

theorem not_hidden_traceparent : ¬ Hidden "traceparent" :=
  not_hidden_of_leaks (by decide +kernel) (by decide +kernel) leaks_traceparent.1
    leaks_traceparent.2

/-- Of the names a key may be read from, the two that the gateway reads first
and writes back last hand the key on; every other keeps it. -/
theorem key_hidden_iff (value : Option String) (header : String)
    (haccepted : Control.Consumers.header value = .ok header) :
    Hidden header ↔ header ≠ "x-request-id" ∧ header ≠ "traceparent" := by
  constructor
  · intro hhidden
    constructor
    · rintro rfl
      exact not_hidden_requestId hhidden
    · rintro rfl
      exact not_hidden_traceparent hhidden
  · intro ⟨hid, htrace⟩
    exact hidden_of_ne haccepted hid htrace

/-- Two keys of one consumer, read from `X-Request-Id`, each reach the upstream. -/
theorem key_sent_as_request_id :
    Control.Consumers.header (some "X-Request-Id") = .ok "x-request-id" ∧
    Leaks "x-request-id" ["key-a", "key-b"] "key-a" ∧
    Leaks "x-request-id" ["key-a", "key-b"] "key-b" ∧ ¬ Hidden "x-request-id" :=
  ⟨by decide +kernel, leaks_requestId.1, leaks_requestId.2, not_hidden_requestId⟩

theorem key_hidden_default :
    (keyedSent "x-api-key" ["key-a", "key-b"] "key-a").map (seen "x-api-key") =
      some ⟨0, keyedRule "x-api-key", some ⟨"mobile", "shop/mobile", false⟩, some []⟩ ∧
    Hidden "x-api-key" :=
  ⟨by decide +kernel,
    (key_hidden_iff none "x-api-key" (by decide +kernel)).mpr ⟨by decide, by decide⟩⟩

end Gapura.Proxy.KeyHidden
