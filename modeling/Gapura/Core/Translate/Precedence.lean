import Gapura.Core.Intersection
import Gapura.Core.Translate.Tables

/-! # The most specific listener serves

A port's table is sorted by the hostnames of its entries, not by those of the
listeners they belong to. A route's hostname on a listener is kept only if no
more specific listener on the port holds it, so a request is still served by the
most specific listener of its protocol that has an entry for it, whichever
Gateway the listener is of. -/
namespace Gapura.Core.Translate
open Lib.Text Input Status
open Lib.Ordered (pairCmp)
open Matcher (RequestAttrs RegexMap entryMatches hostMatches matchPortWith)
open Std (TreeMap)

/-! ## Hostnames on a listener -/

variable {hosts : List String}

/-- A listener with a hostname leaves a route only hostnames it holds. -/
theorem intersect_within {host : String} {route : List String}
    (h : Hostname.intersect (some host) route = some hosts) :
    hosts ≠ [] ∧ ∀ r ∈ hosts, Hostname.matches host r = true := by
  unfold Hostname.intersect at h
  cases hroute : route.isEmpty with
  | true =>
    simp only [hroute, Option.some.injEq] at h
    subst h
    refine ⟨Hostname.sorted_eq_nil.not.mpr (by simp), fun r hr => ?_⟩
    rw [List.mem_singleton.mp (Hostname.mem_sorted.mp hr), Hostname.matches_lowercase]
    exact Hostname.matches_self host
  | false =>
    simp only [hroute] at h
    split at h
    · cases h
    · rename_i hsome
      obtain rfl := Option.some.inj h
      refine ⟨Hostname.sorted_eq_nil.not.mpr (by simpa using hsome), fun r hr => ?_⟩
      obtain ⟨own, -, hown⟩ := List.mem_filterMap.mp (Hostname.mem_sorted.mp hr)
      split at hown
      · rename_i hmatches
        rw [← Option.some.inj hown, Hostname.matches_lowercase]
        exact hmatches
      · split at hown
        · rw [← Option.some.inj hown, Hostname.matches_lowercase]
          exact Hostname.matches_self host
        · cases hown

theorem yieldToSiblings_eq_some {kept : List String} {pos : Nat × Nat} {own : ListenerBuild}
    {siblings : List Sibling} (h : yieldToSiblings hosts pos own siblings = some kept) :
    (∀ r ∈ kept, r ∈ hosts ∧ claims siblings pos own r = false) ∧ (hosts ≠ [] → kept ≠ []) := by
  unfold yieldToSiblings at h
  split at h
  · rename_i hempty
    rw [List.isEmpty_iff] at hempty
    obtain rfl := Option.some.inj h
    rw [hempty]
    exact ⟨fun r hr => (nomatch hr), fun hne => absurd rfl hne⟩
  · simp only at h
    split at h
    · cases h
    · rename_i hkept
      obtain rfl := Option.some.inj h
      refine ⟨fun r hr => ?_, fun _ => by simpa using hkept⟩
      obtain ⟨hmem, hfree⟩ := List.mem_filter.mp hr
      exact ⟨hmem, by simpa using hfree⟩

/-- The hostnames a route keeps: none is claimed, and on a listener with a
hostname there is one and the listener holds it. -/
theorem hosts_of_hostsAt {siblings : List Sibling} {pos : Nat × Nat} {route : HttpRoute}
    {l : ListenerBuild} (h : hostsAt siblings pos route l = .hosts hosts) :
    (∀ r ∈ hosts, claims siblings pos l r = false) ∧
      ∀ host, l.hostname = some host →
        hosts ≠ [] ∧ ∀ r ∈ hosts, Hostname.matches host r = true := by
  unfold hostsAt at h
  split at h
  · cases h
  · rename_i shared hshared
    split at h
    · cases h
    · rename_i kept hkept
      obtain rfl := Verdict.hosts.inj h
      obtain ⟨hfree, hsome⟩ := yieldToSiblings_eq_some hkept
      refine ⟨fun r hr => (hfree r hr).2, fun host hhost => ?_⟩
      rw [hhost] at hshared
      obtain ⟨hne, hwithin⟩ := intersect_within hshared
      exact ⟨hsome hne, fun r hr => hwithin r (hfree r hr).1⟩

/-! ## Siblings -/

section Siblings
variable {gs : List GatewayBuild} {settings : Settings}

theorem mem_siblings {s : Sibling} : s ∈ siblings gs settings ↔ ∃ gw l, gs[s.pos.1]? = some gw ∧
    gw.listeners[s.pos.2]? = some l ∧ portAt (servingPorts gs settings) s.pos = some s.port ∧
    l.protocol = some s.protocol ∧ l.hostname = s.hostname := by
  simp only [siblings, List.mem_flatMap, List.mem_filterMap, Prod.exists,
    List.mem_zipIdx_iff_getElem?, siblingOf]
  constructor
  · rintro ⟨gw, gi, hgw, l, li, hl, hs⟩
    split at hs
    · rename_i port protocol hport hprotocol
      obtain rfl := Option.some.inj hs
      exact ⟨gw, l, hgw, hl, hport, hprotocol, rfl⟩
    · cases hs
  · rintro ⟨gw, l, hgw, hl, hport, hprotocol, hhost⟩
    refine ⟨gw, s.pos.1, hgw, l, s.pos.2, hl, ?_⟩
    rw [show (s.pos.1, s.pos.2) = s.pos from rfl, hport, hprotocol, hhost]

/-- A more specific listener on the port claims what it holds. -/
theorem claims_of_sibling {pos pos' : Nat × Nat} {gw gw' : GatewayBuild} {l l' : ListenerBuild}
    {port : Nat} {host h : String} (hgw : gs[pos.1]? = some gw) (hl : gw.listeners[pos.2]? = some l)
    (hgw' : gs[pos'.1]? = some gw') (hl' : gw'.listeners[pos'.2]? = some l')
    (hport : portAt (servingPorts gs settings) pos = some port)
    (hport' : portAt (servingPorts gs settings) pos' = some port)
    (hprotocol : l.protocol.isSome = true) (hsame : l'.protocol = l.protocol)
    (hmore : moreSpecific l'.hostname l.hostname = true) (hhost : l'.hostname = some host)
    (hmatches : Hostname.matches host h = true) : claims (siblings gs settings) pos l h = true := by
  obtain ⟨protocol, hprotocol⟩ := Option.isSome_iff_exists.mp hprotocol
  have hown : (⟨pos, port, protocol, l.hostname⟩ : Sibling) ∈ siblings gs settings :=
    mem_siblings.mpr ⟨gw, l, hgw, hl, hport, hprotocol, rfl⟩
  have hother : (⟨pos', port, protocol, l'.hostname⟩ : Sibling) ∈ siblings gs settings :=
    mem_siblings.mpr ⟨gw', l', hgw', hl', hport', hsame.trans hprotocol, rfl⟩
  -- the port it looks for is its own serving port
  have hfound : ((siblings gs settings).find? (·.pos == pos)).map (·.port) = some port := by
    have hsome : ((siblings gs settings).find? (·.pos == pos)).isSome = true :=
      List.find?_isSome.mpr ⟨_, hown, by simp⟩
    obtain ⟨s, hs⟩ := Option.isSome_iff_exists.mp hsome
    obtain ⟨gw₁, l₁, -, -, hport₁, -⟩ := mem_siblings.mp (List.mem_of_find?_eq_some hs)
    have hpos : s.pos = pos := by simpa using List.find?_some hs
    rw [hpos, hport] at hport₁
    rw [hs, Option.map_some, ← hport₁]
  have hne : pos' ≠ pos := by
    intro heq
    subst heq
    obtain rfl : gw = gw' := Option.mem_unique hgw hgw'
    obtain rfl : l = l' := Option.mem_unique hl hl'
    simp [moreSpecific, Std.ReflCmp.compare_self] at hmore
  simp only [claims, hfound, Option.getD_some, List.any_eq_true]
  refine ⟨_, hother, ?_⟩
  simp only [hmore]
  simp [hne, hprotocol, hhost, hmatches]

theorem portAt_congr {gs' : List GatewayBuild} (h : SameShape gs gs') {pos : Nat × Nat} {p : Nat} :
    portAt (servingPorts gs' settings) pos = some p ↔
      portAt (servingPorts gs settings) pos = some p := by
  rw [portAt_servingPorts, portAt_servingPorts]
  unfold servedPort
  rw [placedSlots_congr h]

end Siblings

/-! ## Order of the entries -/

/-- An entry that does not come later has a hostname that is no less specific. -/
theorem not_moreSpecific_of_cmp {a b : Key} (h : (Key.cmp a b).isLE = true) :
    pairCmp (b.hostKind, b.hostLen) (a.hostKind, a.hostLen) ≠ .gt := by
  intro hgt
  have hcmp : Key.cmp a b = (compare b.hostKind a.hostKind).then
      ((compare b.hostLen a.hostLen).then _) := rfl
  have hpair : pairCmp (b.hostKind, b.hostLen) (a.hostKind, a.hostLen) =
      (compare b.hostKind a.hostKind).then (compare b.hostLen a.hostLen) := rfl
  rw [hpair] at hgt
  rw [hcmp] at h
  cases hkind : compare b.hostKind a.hostKind with
  | lt => simp [hkind] at hgt
  | gt => simp [hkind] at h
  | eq => cases hlen : compare b.hostLen a.hostLen with
    | lt => simp [hkind, hlen] at hgt
    | gt => simp [hkind, hlen] at h
    | eq => simp [hkind, hlen] at hgt

theorem moreSpecific_some_none (h : String) : moreSpecific (some h) none = true := by
  show ((compare (Hostname.specificity (some h)).1 0).then _ == .gt) = true
  rw [compare_gt_iff_gt.mpr (Hostname.specificity_pos h)]
  rfl

theorem not_moreSpecific_none (own : Option String) : moreSpecific none own = false := by
  cases own with
  | none => rfl
  | some h =>
    show ((compare 0 (Hostname.specificity (some h)).1).then _ == .gt) = false
    rw [compare_lt_iff_lt.mpr (Hostname.specificity_pos h)]
    rfl

theorem moreSpecific_of_matches {p q : String} (h : Hostname.matches p q = true)
    (hnot : Hostname.matches q p = false) : moreSpecific (some q) (some p) = true := by
  show (pairCmp (Hostname.specificity (some q)) (Hostname.specificity (some p)) == .gt) = true
  rw [beq_iff_eq]
  show (compare (Hostname.specificity (some q)).1 (Hostname.specificity (some p)).1).then
    (compare (len q) (len p)) = .gt
  rcases Hostname.specificity_of_matches h with hsame | hlt | ⟨hkind, hlen, -⟩
  · have hback : Hostname.matches q p = true := by
      rw [Hostname.matches_iff, hsame, ← Hostname.matches_iff]
      exact Hostname.matches_self q
    rw [hback] at hnot
    cases hnot
  · rw [compare_gt_iff_gt.mpr hlt]
    rfl
  · rw [hkind, compare_eq_iff_eq.mpr rfl, compare_gt_iff_gt.mpr hlen]
    rfl

/-! ## The winner -/

section Winner
variable {env : Env} {snap : Snapshot} {settings : Settings}

theorem plainNames_attached (hplain : PlainRefs snap.gateways) :
    PlainNames (attached env snap settings).gateways := by
  intro gw hgw
  have hran : Ran env snap _ _ _ (attached env snap settings) := attached_ran
  obtain ⟨gi, hgi⟩ := List.getElem?_of_mem hgw
  obtain ⟨gw₀, hgw₀, hshape⟩ := hran.shape.symm.gateway hgi
  obtain ⟨gateway, hgateway, -⟩ := gateway_of_mem_build (List.mem_of_getElem? hgw₀)
  rw [show gw.ref = gw₀.ref from (congrArg Shape.ref hshape).symm]
  exact hplain.slashless hgateway

/-- What an entry of a port's table says about its listener, as the listener was
when routes came to it. -/
structure EntryOf (env : Env) (snap : Snapshot) (settings : Settings) (port : Nat) (e : PortEntry)
    (cfg : ListenerConfig) (pos : Nat × Nat) (gw : GatewayBuild) (l : ListenerBuild) : Prop where
  gateway : (ourGateways env snap settings)[pos.1]? = some gw
  listener : gw.listeners[pos.2]? = some l
  port : portAt (servingPorts (ourGateways env snap settings) settings) pos = some port
  protocol : l.protocol = some cfg.protocol
  hostname : l.hostname = cfg.hostname
  free : ∀ h, e.hostname = some h →
    claims (siblings (ourGateways env snap settings) settings) pos l h = false
  within : ∀ host, l.hostname = some host →
    ∃ h, e.hostname = some h ∧ Hostname.matches host h = true

theorem entryOf_of_mem (hplain : PlainRefs snap.gateways) {port : Nat} {entries : List PortEntry}
    {e : PortEntry} {cfg : ListenerConfig}
    (h : (translate env snap settings).config.ports[port]? = some entries) (he : e ∈ entries)
    (hcfg : (translate env snap settings).config.listeners[e.listener]? = some cfg) :
    ∃ pos gw l, EntryOf env snap settings port e cfg pos gw l := by
  have hran : Ran env snap _ _ _ (attached env snap settings) := attached_ran
  obtain ⟨pos, gw', l', cfg', atts, hserves, hport, hmem⟩ := serves_of_entry h he
  obtain rfl : cfg' = cfg := Option.mem_unique hserves.emits.config hcfg
  obtain ⟨a, ha, rule, -, -, hhost, -⟩ := hserves.carries.holds.sound _ hmem
  obtain ⟨pref, -, -, gw, l, hgw, hl, hverdict⟩ := (hserves.carries.genuine a ha).takes
  obtain ⟨-, -, hhosts⟩ := admits_of_hosts hverdict
  obtain ⟨hfree, hwithin⟩ := hosts_of_hostsAt hhosts
  -- attaching left the listener's own fields as they were
  obtain ⟨gw₁, hgw₁, hshape⟩ := hran.shape.gateway hgw
  obtain rfl : gw₁ = gw' := Option.mem_unique hgw₁ hserves.emits.gateway
  obtain ⟨l₁, hl₁, hblank⟩ := listener_of_shape hshape hl
  obtain rfl : l₁ = l' := Option.mem_unique hl₁ hserves.emits.listener
  have hprotocol : l.protocol = l₁.protocol := (congrArg ListenerBuild.protocol hblank).symm
  have hhostname : l.hostname = l₁.hostname := (congrArg ListenerBuild.hostname hblank).symm
  have hserving : portAt (servingPorts (attached env snap settings).gateways settings) pos =
      some port := (portAt_iff_emits (plainNames_attached hplain)).mpr
    ⟨e.listener, gw₁, l₁, cfg', hserves.emits, hport⟩
  have hhost : e.hostname ∈ hostsOf a.hosts := hhost
  refine ⟨pos, gw, l, hgw, hl, (portAt_congr hran.shape).mp hserving,
    hprotocol.trans hserves.emits.protocol, hhostname.trans hserves.emits.hostname.symm, ?_, ?_⟩
  · intro r hr
    refine hfree r ?_
    rw [hr] at hhost
    unfold hostsOf at hhost
    split at hhost
    · simp at hhost
    · simpa using hhost
  · intro host hown
    obtain ⟨hne, hall⟩ := hwithin host hown
    unfold hostsOf at hhost
    rw [if_neg (by simpa using hne)] at hhost
    obtain ⟨r, hr, heq⟩ := List.mem_map.mp hhost
    exact ⟨r, heq.symm, hall r hr⟩

/-- No entry that matches belongs to a listener of the winner's protocol with a
more specific hostname. -/
theorem winner_most_specific (env : Env) (snap : Snapshot) (settings : Settings)
    (hplain : PlainRefs snap.gateways) {port : Nat} {req : RequestAttrs} {regexes : RegexMap}
    {hit : Matcher.PortMatch}
    (h : matchPortWith (translate env snap settings).config port req regexes = some hit)
    {entries : List PortEntry}
    (hentries : (translate env snap settings).config.ports[port]? = some entries) {e : PortEntry}
    (he : e ∈ entries) (hmatch : entryMatches req regexes e = true) {l : ListenerConfig}
    (hl : (translate env snap settings).config.listeners[e.listener]? = some l)
    (hprotocol : l.protocol = hit.listener.protocol) :
    moreSpecific l.hostname hit.listener.hostname = false := by
  rw [Bool.eq_false_iff]
  intro hmore
  obtain ⟨table, hwon⟩ := Matcher.won_of_match h
  obtain rfl : table = entries := Option.mem_unique hwon.table hentries
  have hlistener := hwon.listener
  rw [hwon.index] at hlistener
  have hfirst := List.find?_some hwon.first
  simp only [entryMatches, Bool.and_eq_true] at hfirst hmatch
  obtain ⟨pos, gw, lw, hw⟩ := entryOf_of_mem hplain hentries
    (List.mem_of_find?_eq_some hwon.first) hlistener
  obtain ⟨pos', gw', le, hent⟩ := entryOf_of_mem hplain hentries he hl
  have hmore' : moreSpecific le.hostname lw.hostname = true := by
    rw [hw.hostname, hent.hostname]
    exact hmore
  -- a more specific hostname would have been sorted first
  have horder : moreSpecific e.hostname hit.entry.hostname = false := by
    obtain ⟨l₁, rule, hl₁, -, hrule, -⟩ := entry_in_range hentries he
    have hle := cmp_of_first hentries hwon.first he (by simpa [entryMatches] using hmatch)
    rw [entryCmp, entryKey_eq hlistener hwon.rule, entryKey_eq hl₁ hrule] at hle
    have hnot := not_moreSpecific_of_cmp hle
    exact beq_eq_false_iff_ne.mpr hnot
  cases hhost : le.hostname with
  | none =>
    rw [hhost, not_moreSpecific_none] at hmore'
    cases hmore'
  | some host =>
    obtain ⟨h₁, hname₁, hin⟩ := hent.within host hhost
    have hreq₁ : Hostname.matches h₁ req.host = true := by simpa [hname₁, hostMatches] using hmatch.1
    have hreq : Hostname.matches host req.host = true := Hostname.matches_trans hin hreq₁
    cases hname : hit.entry.hostname with
    | none =>
      rw [hname₁, hname, moreSpecific_some_none] at horder
      cases horder
    | some h₂ =>
      have hreq₂ : Hostname.matches h₂ req.host = true := by
        simpa [hname, hostMatches] using hfirst.1
      by_cases hclaimed : Hostname.matches host h₂ = true
      · -- then the winner's listener yielded its hostname
        have hclaims := claims_of_sibling hw.gateway hw.listener hent.gateway hent.listener
          hw.port hent.port (by simp [hw.protocol]) (by rw [hw.protocol, hent.protocol, hprotocol])
          hmore' hhost hclaimed
        rw [hw.free h₂ hname] at hclaims
        cases hclaims
      · have houter : Hostname.matches h₂ host = true :=
          (Hostname.matches_nested hreq hreq₂).resolve_left hclaimed
        have hstrict : Hostname.matches h₁ h₂ = false := by
          rw [Bool.eq_false_iff]
          intro hback
          exact hclaimed (Hostname.matches_trans hin hback)
        have hspecific := moreSpecific_of_matches (Hostname.matches_trans houter hin) hstrict
        rw [hname₁, hname, hspecific] at horder
        cases horder

end Winner

def hostListener (host : String) : Listener := { webListener with hostname := some host }

/-- A route for `a.x.com` under a path. -/
def routeAt (gateway path : String) : HttpRoute :=
  { parentRefs := [{ name := gateway }]
    hostnames := ["a.x.com"]
    rules := [{ «matches» := [{ path := some { value := some path } }] }] }

/-- Gateways of one namespace for `a.x.com` and `*.x.com`, each with a route. -/
def nestedHosts (ns : String) : Snapshot :=
  { gatewayClasses := gapuraClass
    gateways := TreeMap.ofList [(⟨ns, "inner"⟩, httpGateway [hostListener "a.x.com"]),
      (⟨ns, "outer"⟩, httpGateway [hostListener "*.x.com"])] _
    httpRoutes := TreeMap.ofList [(⟨ns, "all"⟩, routeAt "inner" "/"),
      (⟨ns, "secret"⟩, routeAt "outer" "/secret")] _ }

/-- Each of the two has an address of its own. -/
def ownAddresses (ns : String) : Settings :=
  { httpPorts := [80, 10000, 10001]
    gatewayAddressOverrides := TreeMap.ofList [(ns ++ "/inner", ["192.0.2.1"]),
      (ns ++ "/outer", ["192.0.2.2"])] }

def secretRequest : RequestAttrs :=
  { host := "a.x.com", path := "/secret", method := "GET", headers := [], query := [] }

theorem winner_most_specific_nested :
    let config := (translate bareEnv (nestedHosts "infra") {}).config
    PlainRefs (nestedHosts "infra").gateways ∧
    ∃ hit entries, matchPortWith config 80 secretRequest ∅ = some hit ∧
      config.ports[80]? = some entries ∧ ∀ e ∈ entries, entryMatches secretRequest ∅ e = true →
        ∀ l, config.listeners[e.listener]? = some l → l.protocol = hit.listener.protocol →
          moreSpecific l.hostname hit.listener.hostname = false := by
  have hplain : PlainRefs (nestedHosts "infra").gateways := by decide +kernel
  have hserved : (matchPortWith (translate bareEnv (nestedHosts "infra") {}).config 80
      secretRequest ∅).isSome = true := by decide +kernel
  obtain ⟨hit, hhit⟩ := Option.isSome_iff_exists.mp hserved
  obtain ⟨entries, hwon⟩ := Matcher.won_of_match hhit
  exact ⟨hplain, hit, entries, hhit, hwon.table, fun e he hmatch l hl hprotocol =>
    winner_most_specific bareEnv (nestedHosts "infra") {} hplain hhit hwon.table he hmatch hl
      hprotocol⟩

/-- The listener of a port's entry that outranks the winner's, if there is one. -/
def outranking (config : Config) (port : Nat) (req : RequestAttrs) : Option PortEntry := do
  let hit ← matchPortWith config port req ∅
  let entries ← config.ports[port]?
  entries.find? fun e => entryMatches req ∅ e && config.listeners[e.listener]?.any fun l =>
    l.protocol == hit.listener.protocol && moreSpecific l.hostname hit.listener.hostname

theorem outranking_eq_some {config : Config} {port : Nat} {req : RequestAttrs} {e : PortEntry}
    (h : outranking config port req = some e) :
    ∃ hit entries l, matchPortWith config port req ∅ = some hit ∧
      config.ports[port]? = some entries ∧ e ∈ entries ∧ entryMatches req ∅ e = true ∧
      config.listeners[e.listener]? = some l ∧ l.protocol = hit.listener.protocol ∧
      moreSpecific l.hostname hit.listener.hostname = true := by
  obtain ⟨hit, hhit, h⟩ := Option.bind_eq_some_iff.mp h
  obtain ⟨entries, hentries, h⟩ := Option.bind_eq_some_iff.mp h
  have hfound := List.find?_some h
  simp only [Bool.and_eq_true, Option.any_eq_true, beq_iff_eq] at hfound
  obtain ⟨hmatch, l, hl, hprotocol, hmore⟩ := hfound
  exact ⟨hit, entries, l, hhit, hentries, List.mem_of_find?_eq_some h, hmatch, hl, hprotocol, hmore⟩

/-- In the namespace `a/b` both Gateways read as `a/b` off their listeners' ids.
They are moved to one port after routes attached as if to two. -/
theorem wildcard_outranks_exact :
    let config := (translate bareEnv (nestedHosts "a/b") (ownAddresses "a/b")).config
    ∃ hit entries e l, matchPortWith config 10000 secretRequest ∅ = some hit ∧
      config.ports[10000]? = some entries ∧ e ∈ entries ∧ entryMatches secretRequest ∅ e = true ∧
      config.listeners[e.listener]? = some l ∧ l.protocol = hit.listener.protocol ∧
      moreSpecific l.hostname hit.listener.hostname = true := by
  have hsome : (outranking (translate bareEnv (nestedHosts "a/b") (ownAddresses "a/b")).config 10000
      secretRequest).isSome = true := by decide +kernel
  obtain ⟨e, he⟩ := Option.isSome_iff_exists.mp hsome
  obtain ⟨hit, entries, l, hrest⟩ := outranking_eq_some he
  exact ⟨hit, entries, e, l, hrest⟩

end Gapura.Core.Translate
