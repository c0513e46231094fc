import Gapura.Core.Translate.AttachRun
import Gapura.Core.Translate.Compiled
import Gapura.Core.Translate.Serving
import Gapura.Core.Matcher

/-! # The tables a translation serves

Entries are made per listener with indices of its own; then listeners are
filtered, numbered again, moved to other ports, merged per port and sorted.
What comes out is closed: every entry points at a rule that is there, every
match of every rule has its entry, and the clusters are those the rules name. -/
namespace Gapura.Core.Translate
open Lib.Stateful Input Status
open Lib.Ordered (mem_sortBy pairwise_sortBy)
open Matcher (RequestAttrs RegexMap entryMatches matchPortWith)
open Std (TreeMap)

/-! ## One table per port -/

theorem getD_portTables (listeners : List ListenerConfig) (tables : List (List MatchEntry))
    (port : Nat) : (portTables listeners tables)[port]?.getD [] =
      ((listeners.zip tables).zipIdx.filter fun p => p.1.1.port == port).flatMap fun p =>
        indexed p.2 p.1.2 := by
  refine foldl_prefix (p := fun (done : List ((ListenerConfig × List MatchEntry) × Nat))
    (ports : TreeMap Nat (List PortEntry)) => ports[port]?.getD [] =
      (done.filter fun p => p.1.1.port == port).flatMap fun p => indexed p.2 p.1.2)
    ?_ ?_ _
  · rfl
  intro done p ports h
  rw [pushTable, TreeMap.getElem?_insert, List.filter_append, List.flatMap_append, ← h]
  by_cases hport : p.1.1.port = port
  · subst hport
    simp
  · simp [hport]

theorem mem_portTables {listeners : List ListenerConfig} {tables : List (List MatchEntry)}
    {port : Nat} {e : PortEntry} : e ∈ (portTables listeners tables)[port]?.getD [] ↔
      ∃ cfg table, listeners[e.listener]? = some cfg ∧ tables[e.listener]? = some table ∧
        cfg.port = port ∧ ⟨e.hostname, e.matcher, e.rule⟩ ∈ table := by
  simp only [getD_portTables, List.mem_flatMap, List.mem_filter, Prod.exists,
    List.mem_zipIdx_iff_getElem?, List.getElem?_zip_eq_some, beq_iff_eq]
  constructor
  · rintro ⟨cfg, table, k, ⟨⟨hcfg, htable⟩, hport⟩, he⟩
    obtain ⟨m, hm, rfl⟩ := List.mem_map.mp he
    exact ⟨cfg, table, hcfg, htable, hport, hm⟩
  · rintro ⟨cfg, table, hcfg, htable, hport, hm⟩
    exact ⟨cfg, table, e.listener, ⟨⟨hcfg, htable⟩, hport⟩, List.mem_map.mpr ⟨_, hm, rfl⟩⟩

/-! ## From the run to the configuration -/

section Translate
variable {env : Env} {snap : Snapshot} {settings : Settings}

/-- The Gateways and clusters once every route is attached. -/
def attached (env : Env) (snap : Snapshot) (settings : Settings) : AttachState :=
  attach env snap settings (ourGateways env snap settings)

theorem fresh_ourGateways : Fresh (ourGateways env snap settings) := by
  intro gw hgw l hl
  obtain ⟨gateway, -, heq⟩ := gateway_of_mem_build hgw
  obtain ⟨li, hli⟩ := List.getElem?_of_mem hl
  rw [heq] at hli
  obtain ⟨declared, -, hl⟩ := listener_of_buildGateway hli
  rw [hl]
  exact ⟨rfl, rfl⟩

theorem attached_ran : Ran env snap (siblings (ourGateways env snap settings) settings)
    (ourGateways env snap settings) snap.httpRoutes.toList (attached env snap settings) :=
  attach_ran env snap settings fresh_ourGateways

/-- The `k`-th listener served is the one at `pos`, with the routes `atts` on it. -/
structure Serves (env : Env) (snap : Snapshot) (settings : Settings) (k : Nat) (pos : Nat × Nat)
    (gw : GatewayBuild) (l : ListenerBuild) (cfg : ListenerConfig) (atts : List Att) : Prop where
  emits : Emits (attached env snap settings).gateways
    (translate env snap settings).config.listeners k pos gw l cfg
  carries : Carries env snap (siblings (ourGateways env snap settings) settings)
    (ourGateways env snap settings) snap.httpRoutes.toList (attached env snap settings).clusters
    pos l atts

/-- The tables of the served listeners, before they are merged. -/
def servedTables (env : Env) (snap : Snapshot) (settings : Settings) : List (List MatchEntry) :=
  (emitted settings (attached env snap settings).gateways).map (·.table)

/-- A programmed listener is served, with its table at its index. -/
theorem serves_of_placed {k : Nat} {pos : Nat × Nat} {gw : GatewayBuild} {l : ListenerBuild}
    (h : (placedListeners (attached env snap settings).gateways)[k]? = some (pos, gw, l)) :
    ∃ cfg atts, Serves env snap settings k pos gw l cfg atts ∧
      (servedTables env snap settings)[k]? = some l.table := by
  have hmem := List.mem_of_getElem? h
  obtain ⟨e, he, hget, hemits⟩ := emits_of_order settings h
  obtain ⟨e', he', -, -, -, -, -, -, -, -, htable⟩ := emit_of_placed settings hmem
  obtain rfl : e = e' := Option.mem_unique he he'
  obtain ⟨atts, hcarries⟩ := attached_ran.carries hemits.gateway hemits.listener
  refine ⟨_, atts, ⟨hemits, hcarries⟩, ?_⟩
  rw [servedTables, List.getElem?_map, hget, ← htable]
  rfl

theorem serves_of_getElem {k : Nat} {cfg : ListenerConfig}
    (h : (translate env snap settings).config.listeners[k]? = some cfg) :
    ∃ pos gw l atts, Serves env snap settings k pos gw l cfg atts ∧
      (servedTables env snap settings)[k]? = some l.table := by
  have hk : (emitted settings (attached env snap settings).gateways)[k]?.isSome = true := by
    have hlisteners : (translate env snap settings).config.listeners =
        remapOverriddenListeners (emitted settings (attached env snap settings).gateways)
          settings := rfl
    rw [hlisteners, remapOverriddenListeners_eq, List.getElem?_map, Option.map_eq_some_iff] at h
    obtain ⟨e, he, -⟩ := h
    simp [he]
  rw [getElem?_emitted] at hk
  obtain ⟨e, he⟩ := Option.isSome_iff_exists.mp hk
  obtain ⟨⟨pos, gw, l⟩, hplaced, -⟩ := Option.bind_eq_some_iff.mp he
  obtain ⟨cfg', atts, hserves, htable⟩ := serves_of_placed hplaced
  obtain rfl : cfg' = cfg := Option.mem_unique hserves.emits.config h
  exact ⟨pos, gw, l, atts, hserves, htable⟩

theorem getElem?_ports (port : Nat) : (translate env snap settings).config.ports[port]? =
    (portTables (translate env snap settings).config.listeners
      (servedTables env snap settings))[port]?.map
      (sortPortTable (translate env snap settings).config.listeners) :=
  TreeMap.getElem?_map

variable {e : PortEntry} {entries : List PortEntry} {port : Nat}

theorem mem_ports : (∃ entries, (translate env snap settings).config.ports[port]? = some entries ∧
      e ∈ entries) ↔ ∃ cfg table,
    (translate env snap settings).config.listeners[e.listener]? = some cfg ∧
      (servedTables env snap settings)[e.listener]? = some table ∧ cfg.port = port ∧
      ⟨e.hostname, e.matcher, e.rule⟩ ∈ table := by
  rw [← mem_portTables, getElem?_ports]
  generalize (portTables _ _)[port]? = merged
  cases merged <;> simp [sortPortTable, mem_sortBy]

/-- Where an entry of a port's table comes from. -/
theorem serves_of_entry
    (h : (translate env snap settings).config.ports[port]? = some entries) (he : e ∈ entries) :
    ∃ pos gw l cfg atts, Serves env snap settings e.listener pos gw l cfg atts ∧
      cfg.port = port ∧ ⟨e.hostname, e.matcher, e.rule⟩ ∈ l.table := by
  obtain ⟨cfg, table, hcfg, htable, hport, hm⟩ := mem_ports.mp ⟨entries, h, he⟩
  obtain ⟨pos, gw, l, atts, hserves, htable'⟩ := serves_of_getElem hcfg
  obtain rfl : table = l.table := Option.mem_unique htable htable'
  exact ⟨pos, gw, l, cfg, atts, hserves, hport, hm⟩

/-- Every entry of a served listener's own table is in its port's table. -/
theorem entry_of_serves {k : Nat} {cfg : ListenerConfig}
    (h : (translate env snap settings).config.listeners[k]? = some cfg) {table : List MatchEntry}
    (htable : (servedTables env snap settings)[k]? = some table) {m : MatchEntry} (hm : m ∈ table) :
    ∃ entries, (translate env snap settings).config.ports[cfg.port]? = some entries ∧
      ⟨k, m.hostname, m.matcher, m.rule⟩ ∈ entries :=
  mem_ports.mpr ⟨cfg, table, h, htable, rfl, hm⟩

/-! ## The rules on a listener -/

section Served
variable {k : Nat} {pos : Nat × Nat} {gw : GatewayBuild} {l : ListenerBuild} {cfg : ListenerConfig}
  {atts : List Att}

section
variable (h : Serves env snap settings k pos gw l cfg atts)

include h

theorem Serves.rules : cfg.rules = atts.flatMap (·.rules) :=
  h.emits.rules.trans h.carries.holds.rules

theorem Serves.route {a : Att} (ha : a ∈ atts) : snap.httpRoutes[a.rref]? = some a.route :=
  TreeMap.mem_toList_iff_getElem?_eq_some.mp
    (h.carries.sources.subset (List.mem_map_of_mem ha))

theorem Serves.nodup : (atts.map (·.rref)).Nodup := by
  have hkeys : (snap.httpRoutes.toList.map (·.1)).Nodup := by
    rw [TreeMap.map_fst_toList_eq_keys]
    exact TreeMap.nodup_keys
  have hsub : ((atts.map Att.source).map (·.1)).Sublist (snap.httpRoutes.toList.map (·.1)) :=
    h.carries.sources.map Prod.fst
  rw [List.map_map] at hsub
  exact hkeys.sublist hsub

/-- Every rule on a listener comes from a route that got to it. -/
theorem Serves.exists_of_rule {rule : RouteRule}
    (hrule : rule ∈ cfg.rules) : ∃ a ∈ atts, rule ∈ a.rules ∧ rule.route = a.rref.text := by
  rw [h.rules] at hrule
  obtain ⟨a, ha, hmem⟩ := List.mem_flatMap.mp hrule
  exact ⟨a, ha, hmem, (h.carries.genuine a ha).rules.route rule hmem⟩

/-- A route's rules on a listener, told apart from the others' by their text. -/
theorem Serves.filter_rules (hplain : PlainNamespaces snap.httpRoutes) {rref : ObjectRef}
    {route : HttpRoute} (hroute : snap.httpRoutes[rref]? = some route) :
    cfg.rules.filter (fun rule => rule.route = rref.text) =
      atts.flatMap fun a => if a.rref = rref then a.rules else [] := by
  rw [h.rules, List.filter_flatMap]
  refine List.flatMap_congr fun a ha => ?_
  have htext := (h.carries.genuine a ha).rules.route
  split
  · rename_i hsame
    exact List.filter_eq_self.mpr fun rule hrule => by simp [htext rule hrule, hsame]
  · rename_i hother
    refine List.filter_eq_nil_iff.mpr fun rule hrule => ?_
    have hne : a.rref.text ≠ rref.text := fun heq =>
      hother (text_inj (hplain.slashless (h.route ha)) (hplain.slashless hroute) heq)
    simpa [htext rule hrule] using hne

/-- The rules of a route that got to a listener stand there once. -/
theorem Serves.rules_of_mem
    (hroutes : PlainNamespaces snap.httpRoutes) (hservices : PlainNamespaces snap.services)
    {a : Att} (ha : a ∈ atts) : ∃ c, (compile env snap a.route a.rref ∅).1 = .ok c ∧
      cfg.rules.filter (fun rule => rule.route = a.rref.text) = c.rules := by
  obtain ⟨t, c, hfilled, hcompiled, hrules⟩ := (h.carries.genuine a ha).compiled
  rw [compile_of_filled hservices hfilled] at hcompiled
  refine ⟨c, hcompiled, ?_⟩
  rw [h.filter_rules hroutes (h.route ha), hrules]
  exact Lib.Keys.flatMap_of_key h.nodup (·.rules) ha

/-- A route's rules on a listener: all that it compiles to, or none. -/
theorem Serves.rules_of_route
    (hroutes : PlainNamespaces snap.httpRoutes) (hservices : PlainNamespaces snap.services)
    {rref : ObjectRef} {route : HttpRoute} (hroute : snap.httpRoutes[rref]? = some route) :
    cfg.rules.filter (fun rule => rule.route = rref.text) = [] ∨
      ∃ c, (compile env snap route rref ∅).1 = .ok c ∧
        cfg.rules.filter (fun rule => rule.route = rref.text) = c.rules := by
  by_cases hin : ∃ a ∈ atts, a.rref = rref
  · obtain ⟨a, ha, rfl⟩ := hin
    obtain rfl : a.route = route := Option.some.inj ((h.route ha).symm.trans hroute)
    exact .inr (h.rules_of_mem hroutes hservices ha)
  · left
    rw [h.filter_rules hroutes hroute, List.flatMap_eq_nil_iff]
    exact fun a ha => if_neg fun heq => hin ⟨a, ha, heq⟩

end

end Served

/-! ## Clusters -/

theorem mem_usedClusters {es : List Emitted} {key : String} : key ∈ usedClusters es ↔
    ∃ l ∈ remapOverriddenListeners es settings, ∃ rule ∈ l.rules, key ∈ clusterRefs rule := by
  have hrules : ∀ (l : ListenerConfig) move, (moved l move).rules = l.rules := by
    intro l move
    cases move <;> rfl
  simp only [usedClusters, remapOverriddenListeners_eq, List.mem_flatMap, List.mem_map,
    exists_exists_and_eq_and, hrules]

/-- The clusters served: those built that some rule names. -/
theorem getElem?_clusters {key : String} {c : Cluster} :
    (translate env snap settings).config.clusters[key]? = some c ↔
      (attached env snap settings).clusters[key]? = some c ∧
        ∃ l ∈ (translate env snap settings).config.listeners, ∃ rule ∈ l.rules,
          key ∈ clusterRefs rule := by
  have hfilter : (translate env snap settings).config.clusters[key]? =
      (attached env snap settings).clusters[key]?.filter fun _ =>
        (usedClusters (emitted settings (attached env snap settings).gateways)).contains key :=
    TreeMap.getElem?_filter'
  rw [hfilter, Option.filter_eq_some_iff, List.contains_iff_mem, mem_usedClusters]
  rfl

/-- Every cluster a rule served sends to is served. -/
theorem contains_clusters {l : ListenerConfig}
    (hl : l ∈ (translate env snap settings).config.listeners) {rule : RouteRule}
    (hrule : rule ∈ l.rules) {key : String} (hkey : key ∈ clusterRefs rule) :
    (translate env snap settings).config.clusters.contains key = true := by
  obtain ⟨k, hk⟩ := List.getElem?_of_mem hl
  obtain ⟨pos, gw, build, atts, hserves, -⟩ := serves_of_getElem hk
  obtain ⟨a, ha, hmem, -⟩ := hserves.exists_of_rule hrule
  have hin := ((hserves.carries.genuine a ha).rules.reaches rule hmem key hkey).1
  rw [TreeMap.contains_eq_isSome_getElem?, Option.isSome_iff_exists] at hin ⊢
  obtain ⟨c, hc⟩ := hin
  exact ⟨c, getElem?_clusters.mpr ⟨hc, l, hl, rule, hrule, hkey⟩⟩

/-! ## Matching -/

theorem entry_in_range
    (h : (translate env snap settings).config.ports[port]? = some entries) (he : e ∈ entries) :
    ∃ l rule, (translate env snap settings).config.listeners[e.listener]? = some l ∧
      l.port = port ∧ l.rules[e.rule]? = some rule ∧ e.matcher ∈ rule.matches := by
  obtain ⟨pos, gw, l, cfg, atts, hserves, hport, hmem⟩ := serves_of_entry h he
  obtain ⟨a, -, rule, -, hrule, -, hm⟩ := hserves.carries.holds.sound _ hmem
  exact ⟨cfg, rule, hserves.emits.config, hport, hserves.emits.rules ▸ hrule, hm⟩

theorem entryKey_eq {listeners : List ListenerConfig} {l : ListenerConfig}
    {rule : RouteRule} (hl : listeners[e.listener]? = some l) (hrule : l.rules[e.rule]? = some rule) :
    entryKey listeners e = key e.hostname e.matcher rule l.id := by
  simp [entryKey, entryRule, hl, hrule]

/-- A search that finds nothing: nothing matches. -/
theorem not_matches_of_none {req : RequestAttrs} {regexes : RegexMap}
    (h : matchPortWith (translate env snap settings).config port req regexes = none)
    (hentries : (translate env snap settings).config.ports[port]? = some entries)
    (he : e ∈ entries) : entryMatches req regexes e = false := by
  rw [Bool.eq_false_iff]
  intro hmatches
  obtain ⟨first, hfirst⟩ := Option.isSome_iff_exists.mp
    (List.find?_isSome.mpr ⟨e, he, hmatches⟩)
  obtain ⟨l, rule, hl, -, hrule, -⟩ := entry_in_range hentries (List.mem_of_find?_eq_some hfirst)
  simp [matchPortWith, hentries, hfirst, hl, hrule] at h

/-- The order a port's table is in. -/
theorem pairwise_entries (h : (translate env snap settings).config.ports[port]? = some entries) :
    entries.Pairwise fun a b =>
      (entryCmp (translate env snap settings).config.listeners a b).isLE = true := by
  rw [getElem?_ports, Option.map_eq_some_iff] at h
  obtain ⟨merged, -, rfl⟩ := h
  exact pairwise_sortBy merged

/-- The first match of a table comes before every other in precedence. -/
theorem cmp_of_first {q : PortEntry → Bool}
    {e' : PortEntry} (h : (translate env snap settings).config.ports[port]? = some entries)
    (hfirst : entries.find? q = some e) (he' : e' ∈ entries) (hq : q e' = true) :
    (entryCmp (translate env snap settings).config.listeners e e').isLE = true := by
  rcases Lib.Ordered.find?_le (pairwise_entries h) hfirst he' hq with heq | hle
  · rw [heq]
    exact Std.ReflCmp.isLE_rfl
  · exact hle

/-- Lengths order the hostnames that match one host as labels do. -/
theorem specificity_documented {a b : Option String} {host : String}
    (ha : Matcher.hostMatches a host = true) (hb : Matcher.hostMatches b host = true) :
    Lib.Ordered.pairCmp (Hostname.specificity a) (Hostname.specificity b) =
      Lib.Ordered.pairCmp (Hostname.documentedRank a) (Hostname.documentedRank b) := by
  simp only [Lib.Ordered.pairCmp, compareLex, compareOn]
  cases a with
  | none => cases b with
    | none => rfl
    | some q =>
      have hlt : compare 0 (Hostname.specificity (some q)).1 = .lt :=
        compare_lt_iff_lt.mpr (Hostname.specificity_pos q)
      show (compare 0 (Hostname.specificity (some q)).1).then _ =
        (compare 0 (Hostname.specificity (some q)).1).then _
      rw [hlt]
      rfl
  | some p => cases b with
    | none =>
      have hgt : compare (Hostname.specificity (some p)).1 0 = .gt :=
        compare_gt_iff_gt.mpr (Hostname.specificity_pos p)
      show (compare (Hostname.specificity (some p)).1 0).then _ =
        (compare (Hostname.specificity (some p)).1 0).then _
      rw [hgt]
      rfl
    | some q =>
      show (compare (Hostname.specificity (some p)).1 (Hostname.specificity (some q)).1).then
          (compare (Lib.Text.len p) (Lib.Text.len q)) =
        (compare (Hostname.specificity (some p)).1 (Hostname.specificity (some q)).1).then
          (compare (Hostname.labels p) (Hostname.labels q))
      cases hkind : compare (Hostname.specificity (some p)).1 (Hostname.specificity (some q)).1 with
      | lt => rfl
      | gt => rfl
      | eq => exact Hostname.compare_len_of_matches ha hb (compare_eq_iff_eq.mp hkind)

/-! ## The tables as a whole -/

/-- Tables, rules and clusters fit together, and a port's search finds the first
in precedence of all that match. -/
theorem tables_closed (env : Env) (snap : Snapshot) (settings : Settings)
    (hroutes : PlainNamespaces snap.httpRoutes) (hservices : PlainNamespaces snap.services) :
    let config := (translate env snap settings).config
    (∀ (port : Nat) entries, config.ports[port]? = some entries → ∀ e ∈ entries, ∃ l rule,
      config.listeners[e.listener]? = some l ∧ l.port = port ∧ l.rules[e.rule]? = some rule ∧
        e.matcher ∈ rule.matches) ∧
    (∀ (k : Nat) l, config.listeners[k]? = some l → ∀ (j : Nat) rule, l.rules[j]? = some rule →
      ∀ m ∈ rule.matches, ∃ entries, config.ports[l.port]? = some entries ∧
        ∃ e ∈ entries, e.listener = k ∧ e.rule = j ∧ e.matcher = m) ∧
    (∀ l ∈ config.listeners,
      (∀ rule ∈ l.rules, ∃ (rref : ObjectRef) (route : HttpRoute),
        snap.httpRoutes[rref]? = some route ∧ rule.route = rref.text) ∧
      ∀ (rref : ObjectRef) route, snap.httpRoutes[rref]? = some route →
        l.rules.filter (fun rule => rule.route = rref.text) = [] ∨
        ∃ c, (compile env snap route rref ∅).1 = .ok c ∧
          l.rules.filter (fun rule => rule.route = rref.text) = c.rules) ∧
    (∀ l ∈ config.listeners, ∀ rule ∈ l.rules, ∀ key ∈ clusterRefs rule,
      config.clusters.contains key = true) ∧
    (∀ (key : String) c, config.clusters[key]? = some c →
      (∃ l ∈ config.listeners, ∃ rule ∈ l.rules, key ∈ clusterRefs rule) ∧
      (∃ sref port, key = clusterKey sref port ∧ BuiltFor snap sref port c) ∧
      ∀ sref port, snap.services.contains sref = true → key = clusterKey sref port →
        BuiltFor snap sref port c) ∧
    (∀ port req regexes, matchPortWith config port req regexes = none →
      ∀ entries, config.ports[port]? = some entries → ∀ e ∈ entries,
        entryMatches req regexes e = false) ∧
    (∀ port req regexes hit, matchPortWith config port req regexes = some hit →
      ∃ entries, config.ports[port]? = some entries ∧ hit.entry ∈ entries ∧
        entryMatches req regexes hit.entry = true ∧
        config.listeners[hit.entry.listener]? = some hit.listener ∧
        hit.listener.rules[hit.entry.rule]? = some hit.rule ∧
        ∀ e ∈ entries, entryMatches req regexes e = true → ∃ l rule,
          config.listeners[e.listener]? = some l ∧ l.rules[e.rule]? = some rule ∧
          (Key.cmp (key hit.entry.hostname hit.entry.matcher hit.rule hit.listener.id)
            (key e.hostname e.matcher rule l.id)).isLE = true ∧
          Lib.Ordered.pairCmp (Hostname.specificity hit.entry.hostname)
              (Hostname.specificity e.hostname) =
            Lib.Ordered.pairCmp (Hostname.documentedRank hit.entry.hostname)
              (Hostname.documentedRank e.hostname)) := by
  have hran : Ran env snap _ _ _ (attached env snap settings) := attached_ran
  refine ⟨fun port entries h e he => entry_in_range h he, ?_, ?_, ?_, ?_, ?_, ?_⟩
  · intro k l hl j rule hrule m hm
    obtain ⟨pos, gw, build, atts, hserves, htable⟩ := serves_of_getElem hl
    obtain ⟨e, he, rfl, rfl⟩ := hserves.carries.holds.complete j rule
      (hserves.emits.rules ▸ hrule) m hm
    obtain ⟨entries, hentries, hmem⟩ := entry_of_serves hl htable he
    exact ⟨entries, hentries, _, hmem, rfl, rfl, rfl⟩
  · intro l hl
    obtain ⟨k, hk⟩ := List.getElem?_of_mem hl
    obtain ⟨pos, gw, build, atts, hserves, -⟩ := serves_of_getElem hk
    constructor
    · intro rule hrule
      obtain ⟨a, ha, -, htext⟩ := hserves.exists_of_rule hrule
      exact ⟨a.rref, a.route, hserves.route ha, htext⟩
    · exact fun rref route hroute => hserves.rules_of_route hroutes hservices hroute
  · exact fun l hl rule hrule key hkey => contains_clusters hl hrule hkey
  · intro key c hc
    obtain ⟨hbuilt, hused⟩ := getElem?_clusters.mp hc
    refine ⟨hused, hran.built.from_empty hbuilt, fun sref port hsvc hkey => ?_⟩
    rw [TreeMap.contains_eq_isSome_getElem?, Option.isSome_iff_exists] at hsvc
    obtain ⟨svc, hsvc⟩ := hsvc
    exact hran.built.built_of_key hservices hsvc (hkey ▸ hbuilt)
  · intro port req regexes h entries hentries e he
    exact not_matches_of_none h hentries he
  · intro port req regexes hit h
    obtain ⟨entries, hwon⟩ := Matcher.won_of_match h
    have hmatches := List.find?_some hwon.first
    have hlistener := hwon.listener
    rw [hwon.index] at hlistener
    refine ⟨entries, hwon.table, List.mem_of_find?_eq_some hwon.first, hmatches, hlistener,
      hwon.rule, fun e he hmatch => ?_⟩
    obtain ⟨l, rule, hl, -, hrule, -⟩ := entry_in_range hwon.table he
    refine ⟨l, rule, hl, hrule, ?_, ?_⟩
    · have hle := cmp_of_first hwon.table hwon.first he hmatch
      rw [entryCmp, entryKey_eq hlistener hwon.rule, entryKey_eq hl hrule] at hle
      exact hle
    · simp only [entryMatches, Bool.and_eq_true] at hmatches hmatch
      exact specificity_documented hmatches.1 hmatch.1

end Translate

/-- A listener that admits routes of every namespace. -/
def openListener : Listener :=
  { webListener with allowedRoutes := some { namespaces := some { «from» := some "All" } } }

/-- A route to port 80 of a Service of its namespace. -/
def routeTo (service : String) : HttpRoute :=
  { parentRefs := [{ «namespace» := some "infra", name := "edge" }]
    rules := [{ backendRefs := [{ name := service, port := some 80 }] }] }

def plainService : Service := { ports := [{ port := 80 }] }

/-- A Service dialled over TLS. -/
def tlsService : Service :=
  { plainService with metadata := { annotations := TreeMap.ofList [( annotation, "insecure")] } }

def oneEdge : ObjectMap Gateway :=
  TreeMap.ofList [(⟨"infra", "edge"⟩, httpGateway [openListener])] _

/-- Everything to a Service of its own namespace, `/pay` to another's. -/
def cartRoute : HttpRoute :=
  { routeTo "cart" with
    rules := [{ backendRefs := [{ name := "cart", port := some 80 }] },
      { «matches» := [{ path := some { type := some "Exact", value := some "/pay" } }]
        backendRefs := [{ «namespace» := some "bank", name := "pay", port := some 80 }] }] }

/-- A route on a Gateway that admits its own namespace only. -/
def strayRoute : HttpRoute :=
  { routeTo "stray" with parentRefs := [{ «namespace» := some "infra", name := "inner" }] }

/-- The bank lets the shop's routes send to its Services. -/
def bankGrant : ReferenceGrant :=
  { metadata := { «namespace» := some "bank" }
    «from» := [{ group := gatewayGroup, kind := "HTTPRoute", «namespace» := "shop" }]
    «to» := [{ kind := "Service" }] }

def cartSnapshot : Snapshot :=
  { gatewayClasses := gapuraClass
    gateways := oneEdge.insert ⟨"infra", "inner"⟩ (httpGateway [webListener])
    httpRoutes := TreeMap.ofList [(⟨"shop", "cart"⟩, cartRoute), (⟨"shop", "stray"⟩, strayRoute)] _
    services := TreeMap.ofList [(⟨"shop", "cart"⟩, plainService), (⟨"bank", "pay"⟩, plainService),
      (⟨"shop", "stray"⟩, plainService)] _
    referenceGrants := TreeMap.ofList [(⟨"bank", "shop"⟩, bankGrant)] _ }

def payRequest : RequestAttrs :=
  { host := "shop.test", path := "/pay", method := "GET", headers := [], query := [] }

/-- Every cluster is there; of the two rules that take `/pay` the exact one is found. -/
theorem tables_closed_cart :
    let config := (translate bareEnv cartSnapshot {}).config
    PlainNamespaces cartSnapshot.httpRoutes ∧ PlainNamespaces cartSnapshot.services ∧
    (∀ l ∈ config.listeners, ∀ rule ∈ l.rules, ∀ key ∈ clusterRefs rule,
      config.clusters.contains key = true) ∧
    ∃ hit entries, matchPortWith config 80 payRequest ∅ = some hit ∧
      clusterRefs hit.rule = ["bank/pay:80"] ∧ config.ports[80]? = some entries ∧
      entries.countP (entryMatches payRequest ∅) = 2 ∧
      ∀ e ∈ entries, entryMatches payRequest ∅ e = true → ∃ l rule,
        config.listeners[e.listener]? = some l ∧ l.rules[e.rule]? = some rule ∧
        (Key.cmp (key hit.entry.hostname hit.entry.matcher hit.rule hit.listener.id)
          (key e.hostname e.matcher rule l.id)).isLE = true := by
  intro config
  have hroutes : PlainNamespaces cartSnapshot.httpRoutes := by decide +kernel
  have hservices : PlainNamespaces cartSnapshot.services := by decide +kernel
  obtain ⟨-, -, -, hpresent, -, -, hfound⟩ :=
    tables_closed bareEnv cartSnapshot {} hroutes hservices
  have hpays : (matchPortWith config 80 payRequest ∅).map (fun hit => clusterRefs hit.rule) =
      some ["bank/pay:80"] := by decide +kernel
  have htwo : (config.ports[80]?).map (·.countP (entryMatches payRequest ∅)) = some 2 := by
    decide +kernel
  obtain ⟨hit, hhit, hkey⟩ := Option.map_eq_some_iff.mp hpays
  obtain ⟨entries, hentries, -, -, -, -, hfirst⟩ := hfound 80 payRequest ∅ hit hhit
  rw [hentries] at htwo
  refine ⟨hroutes, hservices, hpresent, hit, entries, hhit, hkey, hentries, Option.some.inj htwo,
    fun e he hmatches => ?_⟩
  obtain ⟨l, rule, hl, hrule, hle, -⟩ := hfirst e he hmatches
  exact ⟨l, rule, hl, hrule, hle⟩

/-- Services `b/c` of namespace `a` and `c` of namespace `a/b`, each with a route. -/
def slashSnapshot : Snapshot :=
  { gatewayClasses := gapuraClass
    gateways := oneEdge
    httpRoutes := TreeMap.ofList [(⟨"a", "first"⟩, routeTo "b/c"),
      (⟨"a/b", "second"⟩, routeTo "c")] _
    services := TreeMap.ofList [(⟨"a", "b/c"⟩, tlsService), (⟨"a/b", "c"⟩, plainService)] _ }

/-- Both Services have one key: the second route sends to the first's cluster,
which is not the one built for its own Service. -/
theorem cluster_of_other_service :
    let config := (translate bareEnv slashSnapshot {}).config
    (∃ l ∈ config.listeners, ∃ rule ∈ l.rules, rule.route = "a/b/second" ∧
      clusterKey ⟨"a/b", "c"⟩ 80 ∈ clusterRefs rule) ∧
    slashSnapshot.services.contains ⟨"a/b", "c"⟩ = true ∧
    ∃ c, config.clusters[clusterKey ⟨"a/b", "c"⟩ 80]? = some c ∧
      BuiltFor slashSnapshot ⟨"a", "b/c"⟩ 80 c ∧ ¬ BuiltFor slashSnapshot ⟨"a/b", "c"⟩ 80 c := by
  refine ⟨by decide +kernel, by decide +kernel,
    ⟨[], some { sni := "b/c.a.svc", caPem := none, insecure := true }, none⟩, ?_, ?_, ?_⟩
  · decide +kernel
  · decide +kernel
  · decide +kernel

end Gapura.Core.Translate
