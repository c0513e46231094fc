import Gapura.Source.Control

/-! # What the disk cache holds

A tick writes the cache before it resolves and swaps. Whole ticks keep the cache
to configurations that were served; a process that stops between the write and
the swap leaves one behind that was not. -/
namespace Gapura.Source.Control
open Gapura.Core Jwks

/-- A cache this run wrote holds a configuration this run has swapped in. -/
def CacheServed (p : Process) : Prop :=
  p.wrote = true → ∀ cached, p.cache = some cached → ∃ c ∈ p.swapped, Same c cached.config

/-! ## One tick -/

/-- Nothing but the record of the cache and the store is compared. -/
structure SameStores (p q : Process) : Prop where
  served : q.served = p.served
  cache : q.cache = p.cache
  swapped : q.swapped = p.swapped
  wrote : q.wrote = p.wrote

theorem CacheServed.congr {p q : Process} (h : SameStores p q) (hp : CacheServed p) :
    CacheServed q := by
  intro hwrote cached hcached
  rw [h.wrote] at hwrote
  rw [h.cache] at hcached
  rw [h.swapped]
  exact hp hwrote cached hcached

theorem polled_stores (p : Process) (t : Tick) : SameStores p (p.polled t).1 := by
  unfold Process.polled
  split <;> exact ⟨rfl, rfl, rfl, rfl⟩

section
variable {cachePath : Bool}

/-- What the moments of a tick are. -/
inductive TickSpec (cachePath : Bool) (p : Process) (t : Tick) : List Process → Prop where
  /-- Nothing was ever received. -/
  | idle {polled : Process} (hstores : SameStores p polled)
      (hwrites : p.writes cachePath t = none) : TickSpec cachePath p t [polled]
  | kept {polled refreshed : Process} {config : Config} (hstores : SameStores p polled)
      (hrefreshed : SameStores p refreshed) (hwrites : p.writes cachePath t = none) :
      TickSpec cachePath p t [polled, refreshed, refreshed, refreshed.serve config t]
  | written {polled refreshed cached : Process} {config : Config}
      {file : Cached} (hstores : SameStores p polled)
      (hrefreshed : SameStores p refreshed) (hwrites : p.writes cachePath t = some config)
      (hfile : file.config = config)
      (hcached : cached = { refreshed with cache := some file, wrote := true }) :
      TickSpec cachePath p t [polled, refreshed, cached, cached.serve config t]

theorem moments_spec (cachePath : Bool) (p : Process) (t : Tick) :
    TickSpec cachePath p t (p.moments cachePath t) := by
  have hpolled := polled_stores p t
  unfold Process.moments
  generalize hq : p.polled t = q at hpolled
  obtain ⟨q, changed⟩ := q
  cases hlatest : q.latest with
  | none =>
    simp only [hlatest]
    exact .idle hpolled (by simp [Process.writes, hq, hlatest])
  | some config =>
    simp only [hlatest]
    generalize hr : refresh q.keys config t.now t.kidMiss t.fetching = r
    obtain ⟨keys, fetched⟩ := r
    have hrefreshed : SameStores p { q with keys, latest := some config } :=
      ⟨hpolled.served, hpolled.cache, hpolled.swapped, hpolled.wrote⟩
    have hwrites : p.writes cachePath t =
        if (changed || fetched) && cachePath && t.writable then some config else none := by
      simp [Process.writes, hq, hlatest, hr, Option.filter]
    by_cases hasked : (changed || fetched) = true
    · by_cases hfile : (cachePath && t.writable) = true
      · simp only [hasked, if_true, Process.writeCache, hfile]
        refine .written hpolled hrefreshed ?_ rfl rfl
        rw [hwrites, hasked, Bool.true_and, hfile, if_pos rfl]
      · simp only [hasked, if_true, Process.writeCache, hfile]
        refine .kept hpolled hrefreshed ?_
        rw [hwrites, hasked, Bool.true_and, if_neg hfile]
    · simp only [hasked]
      refine .kept hpolled hrefreshed ?_
      rw [hwrites, Bool.and_assoc]
      simp [hasked]

theorem serve_cache (p : Process) (config : Config) (t : Tick) :
    (p.serve config t).cache = p.cache ∧ (p.serve config t).wrote = p.wrote := by
  simp only [Process.serve]
  split <;> exact ⟨rfl, rfl⟩

theorem serve_swapped (p : Process) (config : Config) (t : Tick) :
    p.swapped ⊆ (p.serve config t).swapped := by
  simp only [Process.serve]
  split
  · exact List.subset_cons_self _ _
  · exact List.Subset.refl _

/-- Whether or not it swaps, the configuration is served afterwards. -/
theorem same_serve (p : Process) (config : Config) (t : Tick) :
    Same (p.serve config t).served config := by
  have hresolved := (same_fill p.keys _).trans (same_resolve config p.served t.lookups)
  simp only [Process.serve]
  split
  · exact hresolved
  · rename_i hequal
    exact (Same.of_listing_eq (not_not.mp hequal)).trans hresolved

variable {p : Process}

theorem CacheServed.serve (h : CacheServed p) (config : Config) (t : Tick) :
    CacheServed (p.serve config t) := by
  obtain ⟨hcache, hwrote⟩ := serve_cache p config t
  intro hw cached hcached
  rw [hwrote] at hw
  rw [hcache] at hcached
  obtain ⟨c, hc, hsame⟩ := h hw cached hcached
  exact ⟨c, serve_swapped p config t hc, hsame⟩

/-- The tick replaces the file, if it does, by a configuration served before. -/
def WritesServed (cachePath : Bool) (p : Process) (t : Tick) : Prop :=
  ∀ config, p.writes cachePath t = some config → ∃ c ∈ p.swapped, Same c config

variable {t : Tick}

theorem CacheServed.moments (h : CacheServed p)
    (hwrites : WritesServed cachePath p t) : ∀ m ∈ p.moments cachePath t, CacheServed m := by
  have hspec := moments_spec cachePath p t
  generalize p.moments cachePath t = l at hspec
  cases hspec with
  | idle hstores _ => simpa using h.congr hstores
  | kept hstores hrefreshed _ =>
    have hkept := h.congr hrefreshed
    simpa using ⟨h.congr hstores, hkept, hkept.serve _ t⟩
  | @written polled refreshed cached config file hstores hrefreshed hwritten hfile hcached =>
    have hserved : CacheServed cached := by
      intro _ file' hfile'
      obtain ⟨c, hc, hsame⟩ := hwrites config hwritten
      subst hcached
      obtain rfl : file = file' := Option.some.inj hfile'
      exact ⟨c, hrefreshed.swapped ▸ hc, hfile ▸ hsame⟩
    simpa using ⟨h.congr hstores, h.congr hrefreshed, hserved, hserved.serve config t⟩

/-- The moment after the write is one of the tick's. -/
theorem writesServed_of_moments
    (h : ∀ m ∈ p.moments cachePath t, CacheServed m) : WritesServed cachePath p t := by
  intro config hconfig
  have hspec := moments_spec cachePath p t
  generalize p.moments cachePath t = l at hspec h
  cases hspec with
  | idle _ hnone => rw [hnone] at hconfig; nomatch hconfig
  | kept _ _ hnone => rw [hnone] at hconfig; nomatch hconfig
  | @written polled refreshed cached config' file _ hrefreshed hwritten hfile hcached =>
    obtain rfl : config' = config := Option.mem_unique hwritten hconfig
    have hmoment := h cached (by simp)
    subst hcached
    obtain ⟨c, hc, hsame⟩ := hmoment rfl file rfl
    exact ⟨c, hrefreshed.swapped ▸ hc, hfile ▸ hsame⟩

theorem tick_mem (p : Process) (t : Tick) : p.tick cachePath t ∈ p.moments cachePath t := by
  have hspec := moments_spec cachePath p t
  unfold Process.tick
  generalize p.moments cachePath t = l at hspec
  cases hspec <;> simp

/-! ## Whole ticks -/

/-- What holds between ticks: the cache this run wrote is the configuration the
store started with, or one it has swapped in. -/
structure Settled (p : Process) : Prop where
  served : p.served = defaultConfig ∨ p.served ∈ p.swapped
  cache : p.wrote = true → ∀ cached, p.cache = some cached →
    ∃ c, (c = defaultConfig ∨ c ∈ p.swapped) ∧ Same c cached.config

theorem Settled.congr {q : Process} (h : SameStores p q) (hp : Settled p) : Settled q := by
  refine ⟨?_, ?_⟩
  · rw [h.served, h.swapped]
    exact hp.served
  · rw [h.wrote, h.cache, h.swapped]
    exact hp.cache

theorem serve_served (h : p.served = defaultConfig ∨ p.served ∈ p.swapped)
    (config : Config) (t : Tick) :
    (p.serve config t).served = defaultConfig ∨
      (p.serve config t).served ∈ (p.serve config t).swapped := by
  simp only [Process.serve]
  split
  · exact .inr List.mem_cons_self
  · exact h

theorem Settled.serve (h : Settled p) (config : Config) (t : Tick) : Settled (p.serve config t) := by
  obtain ⟨hcache, hwrote⟩ := serve_cache p config t
  refine ⟨serve_served h.served config t, ?_⟩
  intro hw cached hcached
  rw [hwrote] at hw
  rw [hcache] at hcached
  obtain ⟨c, hc, hsame⟩ := h.cache hw cached hcached
  exact ⟨c, hc.imp_right fun hmem => serve_swapped p config t hmem, hsame⟩

theorem Settled.tick (h : Settled p) (t : Tick) : Settled (p.tick cachePath t) := by
  have hspec := moments_spec cachePath p t
  unfold Process.tick
  generalize p.moments cachePath t = l at hspec
  cases hspec with
  | idle hstores _ => exact h.congr hstores
  | kept _ hrefreshed _ => exact (h.congr hrefreshed).serve _ t
  | @written polled refreshed cached config file _ hrefreshed _ hfile hcached =>
    -- what was written is what the tick ends up serving
    have hserved : cached.served = defaultConfig ∨ cached.served ∈ cached.swapped := by
      rw [hcached]
      exact (h.congr hrefreshed).served
    have hcache : cached.cache = some file := by rw [hcached]
    show Settled (cached.serve config t)
    refine ⟨serve_served hserved config t, ?_⟩
    intro _ file' hfile'
    rw [(serve_cache cached config t).1, hcache] at hfile'
    obtain rfl : file = file' := Option.some.inj hfile'
    exact ⟨_, serve_served hserved config t, hfile ▸ same_serve cached config t⟩

theorem settled_prime (disk : Option Cached) (now : Nat) (lookups : Lookups) :
    Settled ((Process.new disk).prime cachePath now lookups) := by
  unfold Process.prime
  split
  · exact ⟨.inl rfl, fun h => nomatch h⟩
  · exact ⟨.inr List.mem_cons_self, fun h => nomatch h⟩

/-- A run that stops between ticks leaves a cache that was served. -/
theorem settled_ticks (disk : Option Cached) (now : Nat) (lookups : Lookups) (ticks : List Tick) :
    Settled (ticks.foldl (Process.tick cachePath)
      ((Process.new disk).prime cachePath now lookups)) :=
  List.foldlRecOn ticks _ (motive := Settled) (settled_prime disk now lookups)
    fun _ h t _ => h.tick t

/-! ## Every moment -/

theorem during_iff (h : CacheServed p) (ticks : List Tick) :
    (∀ m ∈ p.during cachePath ticks, CacheServed m) ↔
      ∀ before t after, ticks = before ++ t :: after →
        WritesServed cachePath (before.foldl (Process.tick cachePath) p) t := by
  induction ticks generalizing p with
  | nil => simp [Process.during]
  | cons t rest ih =>
    constructor
    · intro hall before u after hticks
      have hmoments : ∀ m ∈ p.moments cachePath t, CacheServed m :=
        fun m hm => hall m (List.mem_append_left _ hm)
      cases before with
      | nil =>
        obtain ⟨rfl, rfl⟩ := List.cons.inj hticks
        exact writesServed_of_moments hmoments
      | cons t' before =>
        obtain ⟨rfl, hrest⟩ := List.cons.inj hticks
        have hlater : ∀ m ∈ (p.tick cachePath t).during cachePath rest, CacheServed m :=
          fun m hm => hall m (List.mem_append_right _ hm)
        exact (ih (hmoments _ (tick_mem p t))).mp hlater before u after hrest
    · intro hwrites m hm
      have hmoments := h.moments (hwrites [] t rest rfl)
      rcases List.mem_append.mp hm with hin | hlater
      · exact hmoments m hin
      · refine (ih (hmoments _ (tick_mem p t))).mpr ?_ m hlater
        intro before u after hticks
        exact hwrites (t :: before) u after (by rw [hticks]; rfl)

end

theorem cacheServed_prime (cachePath : Bool) (disk : Option Cached) (now : Nat)
    (lookups : Lookups) : CacheServed ((Process.new disk).prime cachePath now lookups) := by
  unfold Process.prime
  split <;> exact fun h => nomatch h

/-- In a run that may stop at any moment the cache only ever holds what was
served exactly when no tick writes a configuration that is new to the store. -/
theorem cache_holds_served_iff (cachePath : Bool) (disk : Option Cached) (now : Nat)
    (lookups : Lookups) (ticks : List Tick) :
    (∀ p ∈ run cachePath disk now lookups ticks, CacheServed p) ↔
      ∀ before t after, ticks = before ++ t :: after →
        WritesServed cachePath (before.foldl (Process.tick cachePath)
          ((Process.new disk).prime cachePath now lookups)) t := by
  have hprime := cacheServed_prime cachePath disk now lookups
  rw [← during_iff hprime ticks]
  constructor
  · intro hall m hm
    exact hall m (List.mem_cons_of_mem _ (List.mem_cons_of_mem _ hm))
  · intro hall m hm
    rcases List.mem_cons.mp hm with rfl | hm
    · exact fun h => nomatch h
    · rcases List.mem_cons.mp hm with rfl | hm
      · exact hprime
      · exact hall m hm

/-- One listener, no rules: a configuration that differs from the default. -/
def oneListener : Config :=
  { defaultConfig with
    listeners := [{ id := "http", port := 8080, clientPort := none, protocol := .http,
                    hostname := none, tls := none, rules := [] }] }

/-- A poll that brings `oneListener`, on a disk that takes the cache. -/
def firstPoll : Tick where
  response := .ok { status := 200, etag := some "1", missing := .ok [], config := .ok oneListener }
  now := 0
  kidMiss := false
  fetching := { outcome := fun _ => none, usable := .ok, nowSecs := 0 }
  writable := true
  lookups := fun _ => none

/-- The first poll of a fresh data plane: between its write and its swap the cache
holds the configuration, and nothing was ever served. -/
theorem cached_before_swap :
    ¬ ∀ p ∈ run true none 0 (fun _ => none) [firstPoll], CacheServed p := by
  have hmoment : (run true none 0 (fun _ => none) [firstPoll]).any
      (fun p => p.wrote && p.cache.isSome && p.swapped.isEmpty) = true := by decide +kernel
  obtain ⟨p, hp, hbad⟩ := List.any_eq_true.mp hmoment
  simp only [Bool.and_eq_true, List.isEmpty_iff] at hbad
  obtain ⟨⟨hwrote, hcache⟩, hswapped⟩ := hbad
  intro h
  obtain ⟨cached, hcached⟩ := Option.isSome_iff_exists.mp hcache
  obtain ⟨c, hc, -⟩ := h p hp hwrote cached hcached
  rw [hswapped] at hc
  nomatch hc

/-- A restart whose first poll brings the configuration the cache already held. -/
theorem cache_holds_served_restart :
    ∀ p ∈ run true (some { version := "0", config := oneListener, jwks := [] }) 0
      (fun _ => none) [firstPoll], CacheServed p := by
  refine (cache_holds_served_iff _ _ _ _ _).mpr ?_
  intro before t after hticks
  cases before with
  | nil =>
    obtain ⟨rfl, -⟩ := List.cons.inj hticks
    intro config hconfig
    obtain rfl : oneListener = config := Option.some.inj hconfig
    exact ⟨_, List.mem_cons_self, by decide +kernel⟩
  | cons _ before => simp at hticks

end Gapura.Source.Control
