import Gapura.Source.Control

/-! # A resolver that does not answer

Every tick looks up each backend name once. A lookup that outlives its tick is
kept and waited for again on the next one, and its answer is used when it comes.
Until then, and after an error, a cluster keeps the addresses served for it. A
name that is no longer configured loses its lookup, which runs on by itself. -/
namespace Gapura.Source.Control
open Gapura.Core Jwks Lib.Ordered
open Core.Translate (endpointCmp)
open Std (TreeSet)

/-! ## Lookups across ticks -/

/-- Every distinct `host:port` a configuration asks for. -/
def targets (config : Config) : TreeSet String :=
  TreeSet.ofList (config.clusters.toList.filterMap fun (_, cluster) => cluster.resolve.map targetText)

/-- The lookups still running when their tick ended. The other fields are kept
for the record: how many lookups of each name were started, were seen to end,
and were let go. -/
structure Resolver where
  inFlight : TreeSet String := ∅
  started : String → Nat := fun _ => 0
  ended : String → Nat := fun _ => 0
  detached : String → Nat := fun _ => 0

/-- One resolution: a name is looked up unless its lookup still runs, and one
that gives no answer in time is kept. An error and a panic are answers. -/
def Resolver.resolve (r : Resolver) (config : Config) (lookups : Lookups) : Resolver where
  inFlight := (targets config).filter fun text => (lookups text).isNone
  started text := r.started text +
    ((targets config).contains text && !r.inFlight.contains text).toNat
  ended text := r.ended text + ((targets config).contains text && (lookups text).isSome).toNat
  detached text := r.detached text +
    (!(targets config).contains text && r.inFlight.contains text).toNat

/-- A process and its lookups. -/
structure Polling where
  process : Process
  resolver : Resolver

section
variable (cachePath : Bool)

def Polling.prime (disk : Option Cached) (now : Nat) (lookups : Lookups) : Polling where
  process := (Process.new disk).prime cachePath now lookups
  resolver := match if cachePath then disk else none with
    | none => {}
    | some cached => ({} : Resolver).resolve cached.config lookups

/-- The configuration a tick resolves. -/
def Polling.config? (s : Polling) (t : Tick) : Option Config := (s.process.polled t).1.latest

def Polling.tick (s : Polling) (t : Tick) : Polling where
  process := s.process.tick cachePath t
  resolver := match s.config? t with
    | none => s.resolver
    | some config => s.resolver.resolve config t.lookups

def Polling.run (s : Polling) (ticks : List Tick) : Polling :=
  ticks.foldl (Polling.tick cachePath) s

/-- The configurations of a sequence of ticks. -/
def Polling.configs (s : Polling) : List Tick → List (Option Config)
  | [] => []
  | t :: rest => s.config? t :: (s.tick cachePath t).configs rest

end

/-! ## What is read and what is kept -/

/-- The successful answers read for a name, oldest first. -/
def answersRead (text : String) (ticks : List Tick) : List (List Endpoint) :=
  ticks.filterMap fun t => match t.lookups text with
    | some (.ok addrs) => some addrs
    | _ => none

def sorted (addrs : List Endpoint) : List Endpoint :=
  (sortBy endpointCmp addrs).destutter (· ≠ ·)

/-- What a key is served with while its target is not answered for. -/
def keptFor (served : Config) (key : String) (target : ResolveTarget) : List Endpoint :=
  (((served.clusters.get? key).filter fun c => c.resolve == some target).map (·.endpoints)).getD []

/-- A configuration was at hand and names the target under the key. -/
def Names (key : String) (target : ResolveTarget) (config? : Option Config) : Prop :=
  ∃ config cluster, config? = some config ∧ config.clusters.get? key = some cluster ∧
    cluster.resolve = some target

section
variable {cachePath : Bool} {s : Polling} {t : Tick} {key : String} {target : ResolveTarget}

theorem get?_of_listing_eq {a b : Config} (h : listing a = listing b) (key : String) :
    a.clusters.get? key = b.clusters.get? key := by
  have hlist : a.clusters.toList = b.clusters.toList := congrArg Listing.clusters h
  simp only [Std.TreeMap.get?_eq_getElem?]
  exact (Std.TreeMap.equiv_iff_toList_eq.mpr hlist).getElem?_eq

theorem served_serve (p : Process) (config : Config) (t : Tick) (key : String) :
    (p.serve config t).served.clusters.get? key =
      (config.clusters.get? key).map (resolveCluster p.served t.lookups key) := by
  have hresolved : (fill p.keys (Control.resolve config p.served t.lookups)).clusters.get? key =
      (config.clusters.get? key).map (resolveCluster p.served t.lookups key) := by
    simp only [Std.TreeMap.get?_eq_getElem?]
    exact Std.TreeMap.getElem?_map
  unfold Process.serve
  simp only
  split
  · exact hresolved
  · rename_i hequal
    rw [get?_of_listing_eq (not_not.mp hequal), hresolved]

/-- A tick that has a configuration serves its clusters, resolved. -/
theorem served_tick {config : Config} (h : s.config? t = some config) (key : String) :
    (s.tick cachePath t).process.served.clusters.get? key =
      (config.clusters.get? key).map (resolveCluster s.process.served t.lookups key) := by
  have hserved : (s.process.polled t).1.served = s.process.served := by
    unfold Process.polled
    split <;> rfl
  unfold Polling.config? at h
  unfold Polling.tick Process.tick Process.moments
  generalize s.process.polled t = q at h hserved
  obtain ⟨q, changed⟩ := q
  simp only at h hserved ⊢
  rw [h, ← hserved]
  simp only [List.getLastD_cons, List.getLastD_nil]
  rw [served_serve]
  split
  · unfold Process.writeCache
    split <;> rfl
  · rfl

variable (cachePath) in
/-- What one tick makes of a cluster whose target it names. -/
theorem endpoints_tick (h : Names key target (s.config? t)) :
    ∃ cluster, (s.tick cachePath t).process.served.clusters.get? key = some cluster ∧
      cluster.resolve = some target ∧
      cluster.endpoints = ((answersRead (targetText target) [t]).getLast?.map sorted).getD
        (keptFor s.process.served key target) := by
  obtain ⟨config, cluster, hconfig, hcluster, htarget⟩ := h
  refine ⟨resolveCluster s.process.served t.lookups key cluster, ?_, ?_, ?_⟩
  · rw [served_tick hconfig, hcluster]
    rfl
  · unfold resolveCluster
    simp only [htarget]
    split <;> rfl
  · unfold resolveCluster answersRead
    simp only [htarget]
    split
    · rename_i addrs hanswer
      simp [hanswer, sorted]
    · rename_i hanswer
      have hnone : [t].filterMap (fun t => match t.lookups (targetText target) with
          | some (.ok addrs) => some addrs
          | _ => none) = [] := by
        rw [List.filterMap_cons_none, List.filterMap_nil]
        split
        · rename_i addrs hok
          exact absurd hok (hanswer addrs)
        · rfl
      rw [hnone]
      simp [keptFor, kept, htarget]

variable {ticks : List Tick}

/-- Over ticks that all name the target: the last answer, else what was kept. -/
theorem endpoints_run
    (h : ∀ config? ∈ s.configs cachePath ticks, Names key target config?) (hne : ticks ≠ []) :
    ∃ cluster, (s.run cachePath ticks).process.served.clusters.get? key = some cluster ∧
      cluster.resolve = some target ∧
      cluster.endpoints = ((answersRead (targetText target) ticks).getLast?.map sorted).getD
        (keptFor s.process.served key target) := by
  induction ticks generalizing s with
  | nil => exact absurd rfl hne
  | cons t rest ih =>
    obtain ⟨hfirst, hrest⟩ := List.forall_mem_cons.mp h
    obtain ⟨cluster, hcluster, htarget, hendpoints⟩ := endpoints_tick cachePath hfirst
    by_cases hlast : rest = []
    · subst hlast
      exact ⟨cluster, hcluster, htarget, hendpoints⟩
    · -- what the rest keeps is what the first tick served
      obtain ⟨cluster', hcluster', htarget', hendpoints'⟩ := ih hrest hlast
      refine ⟨cluster', hcluster', htarget', ?_⟩
      have hkept : keptFor (s.tick cachePath t).process.served key target = cluster.endpoints := by
        unfold keptFor
        rw [hcluster, Option.filter_some, htarget, beq_self_eq_true, if_pos rfl]
        rfl
      have hsplit : answersRead (targetText target) (t :: rest) =
          answersRead (targetText target) [t] ++ answersRead (targetText target) rest := by
        unfold answersRead
        rw [← List.filterMap_append]
        rfl
      rw [hendpoints', hkept, hendpoints, hsplit, List.getLast?_append]
      cases (answersRead (targetText target) rest).getLast? <;> rfl

/-! ## The books of lookups -/

/-- Every lookup started has ended, was let go, or is waited for. -/
def Resolver.Balanced (r : Resolver) : Prop :=
  ∀ text, r.started text = r.ended text + r.detached text + (r.inFlight.contains text).toNat

theorem contains_inFlight (r : Resolver) (config : Config) (lookups : Lookups) (text : String) :
    (r.resolve config lookups).inFlight.contains text =
      ((targets config).contains text && (lookups text).isNone) := by
  rw [Bool.eq_iff_iff, Bool.and_eq_true]
  simp only [Resolver.resolve, ← TreeSet.mem_iff_contains, TreeSet.mem_filter, TreeSet.get_eq,
    exists_prop]

theorem Resolver.Balanced.resolve {r : Resolver} (h : r.Balanced) (config : Config)
    (lookups : Lookups) : (r.resolve config lookups).Balanced := by
  intro text
  have hbefore := h text
  rw [contains_inFlight]
  simp only [Resolver.resolve]
  generalize r.inFlight.contains text = running at hbefore ⊢
  cases (targets config).contains text <;> cases running <;> cases lookups text <;>
    simp only [Bool.and_true, Bool.and_false, Bool.not_true, Bool.not_false, Bool.toNat_true,
      Bool.toNat_false, Option.isSome_none, Option.isSome_some, Option.isNone_none,
      Option.isNone_some] at hbefore ⊢ <;>
    omega

theorem Resolver.Balanced.tick (h : s.resolver.Balanced) (t : Tick) :
    (s.tick cachePath t).resolver.Balanced := by
  unfold Polling.tick
  simp only
  split
  · exact h
  · exact h.resolve _ _

theorem balanced_prime (cachePath : Bool) (disk : Option Cached) (now : Nat) (lookups : Lookups) :
    (Polling.prime cachePath disk now lookups).resolver.Balanced := by
  have hempty : ({} : Resolver).Balanced := by
    intro text
    simp
  unfold Polling.prime
  simp only
  split
  · exact hempty
  · exact hempty.resolve _ _

theorem Resolver.Balanced.run (h : s.resolver.Balanced) (ticks : List Tick) :
    (s.run cachePath ticks).resolver.Balanced :=
  List.foldlRecOn ticks _ (motive := fun s : Polling => s.resolver.Balanced) h
    fun _ hs t _ => hs.tick t

/-- A configuration was at hand and some cluster of it asks for the name. -/
def Asks (text : String) (config? : Option Config) : Prop :=
  ∃ config, config? = some config ∧ (targets config).contains text = true

/-- No lookup of a name is let go while the name stays configured. -/
theorem detached_run {text : String}
    (h : ∀ config? ∈ s.configs cachePath ticks, Asks text config?) :
    (s.run cachePath ticks).resolver.detached text = s.resolver.detached text := by
  induction ticks generalizing s with
  | nil => rfl
  | cons t rest ih =>
    obtain ⟨⟨config, hconfig, hasked⟩, hrest⟩ := List.forall_mem_cons.mp h
    refine (ih hrest).trans ?_
    simp [Polling.tick, hconfig, Resolver.resolve, hasked]

theorem sorted_eq_nil {addrs : List Endpoint} (h : sorted addrs = []) : addrs = [] := by
  have hsorted : sortBy endpointCmp addrs = [] := (List.destutter_eq_nil (· ≠ ·)).mp h
  have hperm : (sortBy endpointCmp addrs).Perm addrs := sortBy_perm addrs
  rw [hsorted] at hperm
  exact hperm.symm.eq_nil

end

/-- While a key names one target, it is served with the last successful answer
read for it, or with what it was served with for that target before; so it is
emptied by an empty answer only. While a name stays configured, of the lookups
started for it all but one have ended, apart from those let go before. -/
theorem outage_keeps_backends (cachePath : Bool) (disk : Option Cached) (now : Nat)
    (lookups : Lookups) (earlier ticks : List Tick) (s : Polling)
    (hs : s = (Polling.prime cachePath disk now lookups).run cachePath earlier) :
    (∀ key target, ticks ≠ [] →
      (∀ config? ∈ s.configs cachePath ticks, Names key target config?) →
      ∃ cluster, (s.run cachePath ticks).process.served.clusters.get? key = some cluster ∧
        cluster.resolve = some target ∧
        cluster.endpoints = ((answersRead (targetText target) ticks).getLast?.map sorted).getD
          (keptFor s.process.served key target) ∧
        (cluster.endpoints = [] → (answersRead (targetText target) ticks).getLast? = some [] ∨
          keptFor s.process.served key target = [])) ∧
    ∀ text, (∀ config? ∈ s.configs cachePath ticks, Asks text config?) →
      (s.run cachePath ticks).resolver.started text ≤
        (s.run cachePath ticks).resolver.ended text + s.resolver.detached text + 1 := by
  constructor
  · intro key target hne hnames
    obtain ⟨cluster, hcluster, htarget, hendpoints⟩ := endpoints_run hnames hne
    refine ⟨cluster, hcluster, htarget, hendpoints, fun hempty => ?_⟩
    rw [hendpoints] at hempty
    cases hlast : (answersRead (targetText target) ticks).getLast? with
    | none =>
      rw [hlast] at hempty
      exact .inr hempty
    | some addrs =>
      rw [hlast] at hempty
      exact .inl (congrArg some (sorted_eq_nil hempty))
  · intro text hasks
    have hbalanced : (s.run cachePath ticks).resolver.Balanced := by
      rw [hs]
      exact ((balanced_prime cachePath disk now lookups).run earlier).run ticks
    have htext := hbalanced text
    have hone := ((s.run cachePath ticks).resolver.inFlight.contains text).toNat_le
    rw [detached_run hasks] at htext
    omega

/-! ## Ticks of one backend -/

def hostCluster (host : String) : Cluster where
  endpoints := []
  tls := none
  resolve := some ⟨host, 80⟩

def hostConfig (host : String) : Config :=
  { defaultConfig with clusters := Std.TreeMap.empty.insert "shop/orders" (hostCluster host) }

def hostTick (host : String) (answer : Option (Except String (List Endpoint))) : Tick where
  response := .ok { status := 200, etag := none, missing := .error "", config := .ok (hostConfig host) }
  now := 0
  kidMiss := false
  fetching := { outcome := fun _ => none, usable := .ok, nowSecs := 0 }
  writable := false
  lookups := fun _ => answer

def endpointsOf (s : Polling) : Option (List Endpoint) :=
  (s.process.served.clusters.get? "shop/orders").map (·.endpoints)

def unprimed : Polling := Polling.prime false none 0 fun _ => none

/-- An answer, then a timeout, an error and a timeout. -/
def outage : List Tick :=
  [hostTick "orders" (some (.ok [⟨"10.0.0.2", 80⟩, ⟨"10.0.0.1", 80⟩, ⟨"10.0.0.2", 80⟩])),
    hostTick "orders" none, hostTick "orders" (some (.error "SERVFAIL")), hostTick "orders" none]

theorem outage_keeps_backends_orders :
    endpointsOf (unprimed.run false outage) = some [⟨"10.0.0.1", 80⟩, ⟨"10.0.0.2", 80⟩] ∧
    (unprimed.run false outage).resolver.started "orders:80" ≤
      (unprimed.run false outage).resolver.ended "orders:80" + 1 := by
  obtain ⟨hserved, hone⟩ :=
    outage_keeps_backends false none 0 (fun _ => none) [] outage unprimed rfl
  have hconfigs : unprimed.configs false outage = List.replicate 4 (some (hostConfig "orders")) := rfl
  have hnames : ∀ config? ∈ unprimed.configs false outage,
      Names "shop/orders" ⟨"orders", 80⟩ config? := by
    intro config? hmem
    rw [hconfigs] at hmem
    rw [List.eq_of_mem_replicate hmem]
    exact ⟨_, _, rfl, rfl, rfl⟩
  have hasks : ∀ config? ∈ unprimed.configs false outage, Asks "orders:80" config? := by
    intro config? hmem
    rw [hconfigs] at hmem
    rw [List.eq_of_mem_replicate hmem]
    exact ⟨_, rfl, by decide +kernel⟩
  obtain ⟨cluster, hcluster, -, hendpoints, -⟩ :=
    hserved "shop/orders" ⟨"orders", 80⟩ (by decide) hnames
  refine ⟨?_, hone "orders:80" hasks⟩
  rw [endpointsOf, hcluster, Option.map_some, hendpoints]
  decide +kernel

/-- A key whose target changes while the new name does not resolve loses the
addresses it was served with, though no answer was read for the new name. And a name
that is left out and configured again while its lookup hangs has a second one. -/
theorem changed_target_not_kept :
    endpointsOf (unprimed.run false (outage.take 1)) =
      some [⟨"10.0.0.1", 80⟩, ⟨"10.0.0.2", 80⟩] ∧
    answersRead "baskets:80" [hostTick "baskets" none] = [] ∧
    endpointsOf ((unprimed.run false (outage.take 1)).run false [hostTick "baskets" none]) =
      some [] ∧
    (unprimed.run false [hostTick "orders" none, hostTick "baskets" none,
      hostTick "orders" none]).resolver.started "orders:80" = 2 ∧
    (unprimed.run false [hostTick "orders" none, hostTick "baskets" none,
      hostTick "orders" none]).resolver.ended "orders:80" = 0 := by
  decide +kernel

end Gapura.Source.Control
