import Gapura.Core.StoreRouting

/-! # What a store's table picks

The rule of a winning entry is one the compiler built, the entry's match is one
of that rule's, and all of a rule's matches ask for the same headers: which of
them wins is for the path and the method to say. -/
namespace Gapura.Core.StoreEntries
open Matcher Store StoreRouting

variable {e : Option String × RouteMatch × Nat} {r : StoreRoute} {hit : PortMatch} {port : Nat}
  {regexes : RegexMap} {req : RequestAttrs} {settings : StoreSettings}
  {sha256 : String → List UInt8} {snap : StoreSnapshot}

theorem expand_of_routeEntries {i : Nat} (h : e ∈ routeEntries r i) : e.2.1 ∈ expand r := by
  obtain ⟨m, hm, he⟩ := List.mem_flatMap.mp h
  split at he
  · rw [List.mem_singleton.mp he]
    exact hm
  · obtain ⟨host, -, rfl⟩ := List.mem_map.mp he
    exact hm

theorem exists_of_mem_tableFrom {routes : List StoreRoute} {n : Nat} (h : e ∈ tableFrom n routes) :
    ∃ k r, routes[k]? = some r ∧ e.2.2 = n + k ∧ e.2.1 ∈ expand r := by
  induction routes generalizing n with
  | nil => cases h
  | cons r rest ih =>
    rcases List.mem_append.mp h with h | h
    · exact ⟨0, r, rfl, routeEntries_position h, expand_of_routeEntries h⟩
    · obtain ⟨k, r', hk, hpos, hm⟩ := ih h
      exact ⟨k + 1, r', by simpa using hk, by omega, hm⟩

/-- Only a bound port has a table. -/
theorem bound_of_hit
    (h : matchPortWith (compile sha256 snap settings) port req regexes = some hit) :
    port ∈ settings.httpPorts := by
  obtain ⟨entries, hwon⟩ := won_of_match h
  have htable := hwon.table
  simp only [compile, Lib.Ordered.getElem?_collect, Option.map_eq_some_iff] at htable
  obtain ⟨p, hp, -⟩ := htable
  have hport : p.1 = port := by simpa using List.find?_some hp
  obtain ⟨⟨listener, i⟩, hl, rfl⟩ := List.mem_map.mp
    (List.mem_reverse.mp (List.mem_of_find?_eq_some hp))
  rw [List.mk_mem_zipIdx_iff_getElem?, List.getElem?_map, Option.map_eq_some_iff] at hl
  obtain ⟨q, hq, rfl⟩ := hl
  obtain rfl : q = port := hport
  exact List.mem_of_getElem? hq

/-- A winning entry's rule is some served route's, and its match one of that
route's. -/
theorem rule_of_hit (hp : port ∈ settings.httpPorts)
    (h : matchPortWith (compile sha256 snap settings) port req regexes = some hit) :
    ∃ r service, Served snap r ∧ hit.rule = ruleOf sha256 snap (consumerTable snap) r service ∧
      hit.entry.matcher ∈ expand r := by
  obtain ⟨i, listener, htable⟩ := matchPortWith_table sha256 snap hp req regexes
  rw [htable, Option.bind_eq_some_iff] at h
  obtain ⟨e, he, hrule⟩ := h
  obtain ⟨rule, hat, rfl⟩ := Option.map_eq_some_iff.mp hrule
  obtain ⟨k, r, hk, hpos, hm⟩ := exists_of_mem_tableFrom (List.mem_of_find?_eq_some he)
  rw [hpos, Nat.zero_add, hk, Option.bind_some, compiledRule, Option.map_eq_some_iff] at hat
  obtain ⟨service, -, rfl⟩ := hat
  exact ⟨r, service, mem_servedRoutes.mp (List.mem_of_getElem? hk), rfl, hm⟩

theorem headers_of_expand {m m' : RouteMatch} (h : m ∈ expand r)
    (h' : m' ∈ expand r) : m.headers = m'.headers := by
  simp only [expand, List.mem_flatMap, List.mem_map] at h h'
  obtain ⟨_, -, _, -, rfl⟩ := h
  obtain ⟨_, -, _, -, rfl⟩ := h'
  rfl

/-- Two requests that agree on all a match reads but its headers. -/
structure SameTarget (req req' : RequestAttrs) : Prop where
  host : req.host = req'.host
  path : req.path = req'.path
  method : req.method = req'.method
  query : req.query = req'.query

variable {req' : RequestAttrs}

theorem entryMatches_of_headers (h : SameTarget req req') {e : PortEntry}
    (he : entryMatches req regexes e = true)
    (hh : e.matcher.headers.all (headerMatches req'.headers) = true) :
    entryMatches req' regexes e = true := by
  simp only [entryMatches, «matches», Bool.and_eq_true] at he ⊢
  rw [← h.host, ← h.path, ← h.method, ← h.query]
  exact ⟨he.1, he.2.1, he.2.2.1, hh, he.2.2.2.2⟩

theorem headers_of_entryMatches {e : PortEntry} (he : entryMatches req regexes e = true) :
    e.matcher.headers.all (headerMatches req.headers) = true := by
  simp only [entryMatches, «matches», Bool.and_eq_true] at he
  exact he.2.2.2.1

/-- Two searches that would each accept the other's find agree. -/
theorem find?_eq_of_cross {α : Type} {p q : α → Bool} {l : List α} {a b : α}
    (ha : l.find? p = some a) (hb : l.find? q = some b) (hpb : p b = true) (hqa : q a = true) :
    a = b := by
  induction l with
  | nil => cases ha
  | cons x rest ih =>
    rw [List.find?_cons] at ha hb
    cases hp : p x with
    | true =>
      rw [hp] at ha
      cases ha
      rw [hqa] at hb
      exact Option.some.inj hb
    | false =>
      cases hq : q x with
      | true =>
        rw [hq] at hb
        cases hb
        rw [hp] at hpb
        cases hpb
      | false =>
        rw [hp] at ha
        rw [hq] at hb
        exact ih ha hb

/-- Two requests for one target that a store's table gives to one rule of one
listener win through one entry. -/
theorem entry_eq_of_rule_eq (hp : port ∈ settings.httpPorts) (hsame : SameTarget req req')
    {hit' : PortMatch}
    (h : matchPortWith (compile sha256 snap settings) port req regexes = some hit)
    (h' : matchPortWith (compile sha256 snap settings) port req' regexes = some hit')
    (hrule : hit.rule = hit'.rule) : hit.entry = hit'.entry := by
  obtain ⟨r, service, -, hr, hm⟩ := rule_of_hit hp h
  obtain ⟨r', service', -, hr', hm'⟩ := rule_of_hit hp h'
  -- A rule lists its route's matches, so the two routes have the same ones.
  have hexpand : expand r = expand r' :=
    congrArg RouteRule.matches (hr.symm.trans (hrule.trans hr'))
  have hheaders := headers_of_expand hm (hexpand ▸ hm')
  obtain ⟨entries, hwon⟩ := won_of_match h
  obtain ⟨entries', hwon'⟩ := won_of_match h'
  have hentries : entries' = entries :=
    Option.mem_unique hwon'.table hwon.table
  rw [hentries] at hwon'
  have hmatch := List.find?_some hwon.first
  have hmatch' := List.find?_some hwon'.first
  apply find?_eq_of_cross hwon.first hwon'.first
  · apply entryMatches_of_headers ⟨hsame.host.symm, hsame.path.symm, hsame.method.symm,
      hsame.query.symm⟩ hmatch'
    rw [← hheaders]
    exact headers_of_entryMatches hmatch
  · apply entryMatches_of_headers hsame hmatch
    rw [hheaders]
    exact headers_of_entryMatches hmatch'

end Gapura.Core.StoreEntries
