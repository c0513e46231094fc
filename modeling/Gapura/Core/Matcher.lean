import Gapura.Core.Hostname
import Gapura.Lib.Ordered

/-! # Matching a request

A port's table is searched for the first entry whose hostname and match accept
the request. Regular expressions are the regex crate's: a parameter that says,
for a pattern and the limits it is built under, whether it builds and then
which paths it matches, always with the same answer. -/
namespace Gapura.Core.Matcher
open Lib.Text
open Std (TreeMap)

inductive RegexError where
  | malformed
  | compiledTooBig
  deriving DecidableEq, Repr

/-- A built expression, as what it matches. -/
def Regex := String → Bool

/-- `build pattern sizeLimit dfaSizeLimit`, the crate's builder. -/
structure RegexCrate where
  build : String → Nat → Option Nat → Except RegexError Regex

def pathRegexSizeLimit : Nat := 4 * 1024 * 1024

def pathRegexDfaSizeLimit : Nat := 1024 * 1024

/-- A crate that compiles no pattern. -/
def noRegex : RegexCrate := ⟨fun _ _ _ => .error .malformed⟩

/-- The raw pattern must parse on its own, so that an unbalanced bracket cannot
escape the anchoring group; then the anchored one is built. -/
def compilePathRegex (rx : RegexCrate) (pattern : String) : Except RegexError Regex :=
  match rx.build pattern 0 none with
  | .error .malformed => .error .malformed
  | _ => rx.build ("^(?:" ++ pattern ++ ")$") pathRegexSizeLimit (some pathRegexDfaSizeLimit)

abbrev RegexMap := TreeMap String Regex

/-- One entry's pattern, compiled unless it was seen before. -/
def compileEntry (rx : RegexCrate) (acc : RegexMap × List String) (e : PortEntry) :
    RegexMap × List String :=
  match e.matcher.path with
  | .regex pattern =>
    if acc.1.contains pattern || acc.2.contains pattern then acc
    else match compilePathRegex rx pattern with
      | .ok re => (acc.1.insert pattern re, acc.2)
      | .error _ => (acc.1, acc.2 ++ [pattern])
  | _ => acc

def portEntries (config : Config) : List PortEntry := config.ports.toList.flatMap Prod.snd

/-- Every pattern of the port tables, compiled once, and those that do not
compile. -/
def compileRegexes (rx : RegexCrate) (config : Config) : RegexMap × List String :=
  (portEntries config).foldl (compileEntry rx) (∅, [])

/-- What the proxy reads off a request before matching. The first occurrence
of a header or query name counts. -/
structure RequestAttrs where
  host : String
  path : String
  method : String
  headers : List (String × String)
  query : List (String × String)
  deriving DecidableEq, Repr

/-- A prefix matches on `/` boundaries. -/
def prefixMatches (value path : String) : Bool :=
  value == "/" || path == value ||
    match path.toList.dropPrefix? value.toList with
    | some ('/' :: _) => true
    | _ => false

/-- A pattern missing from the map could not be compiled and matches nothing. -/
def pathMatches (regexes : RegexMap) (m : PathMatch) (path : String) : Bool :=
  match m with
  | .exact value => path == value
  | .pathPrefix value => prefixMatches value path
  | .regex pattern => match regexes[pattern]? with
    | some re => re path
    | none => false

def headerMatches (headers : List (String × String)) (h : KvMatch) : Bool :=
  match headers.find? fun p => eqIgnoreAsciiCase p.1 h.name with
  | some p => p.2 == h.value
  | none => false

def queryMatches (query : List (String × String)) (q : KvMatch) : Bool :=
  match query.find? fun p => p.1 == q.name with
  | some p => p.2 == q.value
  | none => false

def methodMatches (m : Option String) (method : String) : Bool :=
  m.all fun name => eqIgnoreAsciiCase name method

def «matches» (m : RouteMatch) (req : RequestAttrs) (regexes : RegexMap) : Bool :=
  pathMatches regexes m.path req.path && (methodMatches m.method req.method &&
    (m.headers.all (headerMatches req.headers) && m.query.all (queryMatches req.query)))

def hostMatches (hostname : Option String) (host : String) : Bool :=
  hostname.all fun h => Hostname.matches h host

def entryMatches (req : RequestAttrs) (regexes : RegexMap) (e : PortEntry) : Bool :=
  hostMatches e.hostname req.host && «matches» e.matcher req regexes

/-- The winning entry on a port, its listener and the rule it points at. -/
structure PortMatch where
  listenerIndex : Nat
  listener : ListenerConfig
  entry : PortEntry
  rule : RouteRule
  deriving DecidableEq, Repr

def matchPortWith (config : Config) (port : Nat) (req : RequestAttrs) (regexes : RegexMap) :
    Option PortMatch := do
  let entries ← config.ports[port]?
  let entry ← entries.find? (entryMatches req regexes)
  let listener ← config.listeners[entry.listener]?
  let rule ← listener.rules[entry.rule]?
  return { listenerIndex := entry.listener, listener, entry, rule }

/-- What a winning entry is: the first of the port's table that matches. -/
structure Won (config : Config) (port : Nat) (req : RequestAttrs) (regexes : RegexMap)
    (entries : List PortEntry) (hit : PortMatch) : Prop where
  table : config.ports[port]? = some entries
  first : entries.find? (entryMatches req regexes) = some hit.entry
  index : hit.listenerIndex = hit.entry.listener
  listener : config.listeners[hit.listenerIndex]? = some hit.listener
  rule : hit.listener.rules[hit.entry.rule]? = some hit.rule

variable {config : Config} {acc : RegexMap × List String} {e : PortEntry} {rx : RegexCrate}
  {seen : List PortEntry}

theorem won_of_match {port : Nat} {req : RequestAttrs} {regexes : RegexMap}
    {hit : PortMatch} (h : matchPortWith config port req regexes = some hit) :
    ∃ entries, Won config port req regexes entries hit := by
  simp only [matchPortWith, Option.bind_eq_bind, Option.bind_eq_some_iff] at h
  obtain ⟨entries, hentries, entry, hfirst, listener, hlistener, rule, hrule, hhit⟩ := h
  cases hhit
  exact ⟨entries, hentries, hfirst, rfl, hlistener, hrule⟩

/-! ## The regex map answers for every pattern of the tables -/

/-- What the side map knows is what compiling says, and `seen` patterns are
known one way or the other. -/
structure RegexInv (rx : RegexCrate) (seen : List PortEntry) (acc : RegexMap × List String) :
    Prop where
  compiled : ∀ p re, acc.1[p]? = some re → compilePathRegex rx p = .ok re
  skipped : ∀ p ∈ acc.2, ∀ re, compilePathRegex rx p ≠ .ok re
  known : ∀ e ∈ seen, ∀ p, e.matcher.path = .regex p → acc.1.contains p = true ∨ p ∈ acc.2

/-- A side map that knows all that another did, and the pattern of one more
entry. -/
theorem RegexInv.known_cons {acc' : RegexMap × List String} (h : RegexInv rx seen acc)
    (hold : ∀ p, acc.1.contains p = true ∨ p ∈ acc.2 → acc'.1.contains p = true ∨ p ∈ acc'.2)
    (hnew : ∀ p, e.matcher.path = .regex p → acc'.1.contains p = true ∨ p ∈ acc'.2) :
    ∀ e' ∈ e :: seen, ∀ p, e'.matcher.path = .regex p →
      acc'.1.contains p = true ∨ p ∈ acc'.2 := by
  intro e' he' p hp
  rcases List.mem_cons.mp he' with rfl | he'
  · exact hnew p hp
  · exact hold p (h.known e' he' p hp)

theorem RegexInv.step (h : RegexInv rx seen acc) (e : PortEntry) :
    RegexInv rx (e :: seen) (compileEntry rx acc e) := by
  unfold compileEntry
  split
  · rename_i pattern hpath
    have hown : ∀ p, e.matcher.path = .regex p → p = pattern := by
      intro p hp
      simpa [hpath] using hp.symm
    split
    · rename_i hseen
      refine ⟨h.compiled, h.skipped, h.known_cons (fun _ hp => hp) fun p hp => ?_⟩
      rw [hown p hp]
      simpa using hseen
    · split
      · rename_i re hok
        refine ⟨?_, h.skipped, h.known_cons (fun p hp => ?_) fun p hp => ?_⟩
        · intro p re' hget
          rw [TreeMap.getElem?_insert] at hget
          split at hget
          · rename_i heq
            obtain rfl : pattern = p := by simpa using heq
            obtain rfl : re = re' := by simpa using hget
            exact hok
          · exact h.compiled p re' hget
        · rw [TreeMap.contains_insert]
          exact hp.imp (fun hk => by simp [hk]) id
        · rw [TreeMap.contains_insert, hown p hp]
          simp
      · rename_i err herr
        refine ⟨h.compiled, ?_, h.known_cons (fun p hp => ?_) fun p hp => ?_⟩
        · intro p hp re hre
          rcases List.mem_append.mp hp with hp | hp
          · exact h.skipped p hp re hre
          · obtain rfl : p = pattern := by simpa using hp
            rw [herr] at hre
            cases hre
        · exact hp.imp id (List.mem_append_left _)
        · rw [hown p hp]
          simp
  · rename_i hpath
    exact ⟨h.compiled, h.skipped, h.known_cons (fun _ hp => hp) fun p hp => absurd hp (hpath p)⟩

theorem RegexInv.run (entries : List PortEntry) (h : RegexInv rx seen acc) :
    RegexInv rx (entries.reverse ++ seen) (entries.foldl (compileEntry rx) acc) := by
  induction entries generalizing seen acc with
  | nil => exact h
  | cons e rest ih =>
    have := ih (h.step e)
    simpa using this

/-- For a pattern of the tables, the side map holds exactly what compiling the
pattern gives. -/
theorem compileRegexes_getElem? (rx : RegexCrate) {p : String}
    (he : e ∈ portEntries config) (hp : e.matcher.path = .regex p) :
    (compileRegexes rx config).1[p]? = (compilePathRegex rx p).toOption := by
  have h0 : RegexInv rx [] (∅, []) := ⟨by simp, by simp, by simp⟩
  have hinv : RegexInv rx ((portEntries config).reverse ++ []) (compileRegexes rx config) :=
    h0.run (portEntries config)
  rcases hinv.known e (by simpa using he) p hp with hk | hk
  · rw [TreeMap.contains_eq_isSome_getElem?] at hk
    obtain ⟨re, hre⟩ := Option.isSome_iff_exists.mp hk
    rw [hre, hinv.compiled p re hre]
    rfl
  · cases hc : compilePathRegex rx p with
    | ok re => exact absurd hc (hinv.skipped p hk re)
    | error err =>
      cases hget : (compileRegexes rx config).1[p]? with
      | none => rfl
      | some re =>
        have := hinv.compiled p re hget
        rw [hc] at this
        cases this

end Gapura.Core.Matcher
