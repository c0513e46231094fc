import Gapura.Control.Consumers
import Gapura.Control.Policies
import Gapura.Core.StoreEntries
import Gapura.Proxy.Chain
import Gapura.Proxy.Upstream

/-! # A data plane that serves the store's configuration

Its routing tables are those compiled from the store's rows; the endpoints of
the clusters are whatever the resolver found. -/
namespace Gapura.Proxy.Served
open Gapura.Core Core.Store Core.StoreEntries Proxy.Plugin Proxy.Access Proxy.Request Upstream

structure StoreServed (sha256 : String → List UInt8) (snap : StoreSnapshot)
    (settings : StoreSettings) (rt : Runtime) (conn : Conn) : Prop where
  config : ∃ clusters, rt.config = { Store.compile sha256 snap settings with clusters }
  port : conn.port ∈ settings.httpPorts

/-- Policies the control plane accepts on a write. -/
structure Accepted (plugins : List Plugin) : Prop where
  keyAuth : ∀ p, .keyAuth p ∈ plugins → ∃ value, Control.Consumers.header value = .ok p.header
  transformer : ∀ t, .requestTransformer t ∈ plugins →
    (∃ config, Control.Policies.requestTransformer config = .ok t) ∧
      Control.Policies.newlyReserved (.requestTransformer t) = .ok ()

section Store
variable {sha256 : String → List UInt8} {snap : StoreSnapshot} {settings : StoreSettings}
variable {rt : Runtime} {conn : Conn} {px : GapuraProxy} {ids : Ids}

theorem StoreServed.match_eq (h : StoreServed sha256 snap settings rt conn)
    (attrs : Matcher.RequestAttrs) :
    Matcher.matchPortWith rt.config conn.port attrs rt.regexes =
      Matcher.matchPortWith (Store.compile sha256 snap settings) conn.port attrs rt.regexes := by
  obtain ⟨clusters, hconfig⟩ := h.config
  rw [hconfig]
  rfl

/-- A rule that is served is one route's: it edits no header by itself. -/
theorem rule_of_passed (h : StoreServed sha256 snap settings rt conn) {raw : RequestHeader}
    {sent : Sent} {hit : Matcher.PortMatch} {chain : Plugin.Chain}
    (hpassed : Passed px rt conn ids raw sent hit chain) :
    sent.ctx.rule.filters.requestHeaders = {} := by
  obtain ⟨r, service, -, hrule, -⟩ := rule_of_hit h.port (h.match_eq _ ▸ hpassed.matches)
  rw [hpassed.rule, hrule]
  rfl

end Store

/-- The upstream steps of a rule: every key's header goes, then the edits run. -/
theorem upstreamSteps_eq (px : GapuraProxy) {rule : RouteRule} {chain : Plugin.Chain}
    (h : Plugin.compile rule = .ok chain) (req : RequestHeader) :
    upstreamSteps px rule req =
      (rule.plugins.filterMap Chain.transform?).foldl
        (fun req t => upstreamStep px req (.transform t))
        (((rule.plugins.filterMap Chain.keyAuth?).map KeyAuthPolicy.header).foldl removeHeader
          req) := by
  unfold upstreamSteps
  rw [h]
  simp only [Chain.upstreamRequest_of_compile h, List.foldl_append, List.foldl_map]
  rfl

end Gapura.Proxy.Served
