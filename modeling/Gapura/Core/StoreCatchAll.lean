import Gapura.Core.StoreRouting

/-! # Routes for any host

A route with no hosts is exempt from the rule that keeps workspaces apart, on
the ground that it takes only what no named host matches. The compiler orders
by priority, workspace and name and never by host, so that holds of a request
exactly when the order happens to put a named route first. -/
namespace Gapura.Core.StoreCatchAll
open Store Matcher StoreRouting

/-- A served route that names hosts and takes the request. -/
def NamedTakes (rx : RegexCrate) (snap : StoreSnapshot) (req : RequestAttrs) (r : StoreRoute) :
    Prop :=
  Served snap r ∧ r.hosts ≠ [] ∧ takes (pathTakes rx) r req = true

/-- When a named route takes the request, the route picked is not a catch-all. -/
def CatchAllYields (rx : RegexCrate) (sha256 : String → List UInt8) (snap : StoreSnapshot)
    (settings : StoreSettings) (port : Nat) (req : RequestAttrs) : Prop :=
  (∃ r, NamedTakes rx snap req r) →
    ∀ r, pickedRoute snap (matchPortWith (compile sha256 snap settings) port req
      (compileRegexes rx (compile sha256 snap settings)).1) = some r → r.hosts ≠ []

/-- When a named route takes the request, one of those is ahead of every
catch-all that takes it too. -/
def NamedAhead (rx : RegexCrate) (snap : StoreSnapshot) (req : RequestAttrs) : Prop :=
  (∃ r, NamedTakes rx snap req r) →
    ∃ r, NamedTakes rx snap req r ∧ ∀ r', Served snap r' → r'.hosts = [] →
      takes (pathTakes rx) r' req = true → Ahead snap r r'

theorem catchAllYields_iff (rx : RegexCrate) (sha256 : String → List UInt8) (snap : StoreSnapshot)
    (settings : StoreSettings) {port : Nat} (hp : port ∈ settings.httpPorts) (req : RequestAttrs) :
    CatchAllYields rx sha256 snap settings port req ↔ NamedAhead rx snap req := by
  have hpick := route_compile sha256 snap rx hp req
  constructor
  · intro h hnamed
    have hyields := h hnamed
    rw [hpick] at hyields
    obtain ⟨r, hs, -, ht⟩ := hnamed
    cases hf : (servedRoutes snap).find? fun r => takes (pathTakes rx) r req with
    | none =>
      have := List.find?_eq_none.mp hf r (mem_servedRoutes.mpr hs)
      exact absurd ht this
    | some r₀ =>
      have hn₀ := hyields r₀ hf
      have hs₀ := mem_servedRoutes.mp (List.mem_of_find?_eq_some hf)
      have ht₀ := List.find?_some (p := fun r => takes (pathTakes rx) r req) hf
      refine ⟨r₀, ⟨hs₀, hn₀, ht₀⟩, ?_⟩
      intro r' hs' hempty ht'
      apply ahead_of_find? hf hs' ht'
      rintro rfl
      exact hn₀ hempty
  · intro h hnamed r₀ hr₀ hempty
    rw [hpick] at hr₀
    obtain ⟨r, ⟨hs, hn, ht⟩, hahead⟩ := h hnamed
    have hs₀ := mem_servedRoutes.mp (List.mem_of_find?_eq_some hr₀)
    have ht₀ := List.find?_some (p := fun r => takes (pathTakes rx) r req) hr₀
    have hne : r ≠ r₀ := by
      rintro rfl
      exact hn hempty
    exact ahead_asymm (hahead r₀ hs₀ hempty ht₀) (ahead_of_find? hr₀ hs ht hne)

/-- A catch-all of workspace `ops` beside the shop's own named route. -/
def opsAndShop : StoreSnapshot where
  services := [ordersService "ops", ordersService "shop"]
  routes := [routeFor "ops" "fallback" [], routeFor "shop" "api" ["*.shop.test"]]

theorem named_shop : NamedTakes noRegex opsAndShop getOrders (routeFor "shop" "api" ["*.shop.test"]) :=
  ⟨⟨by simp [opsAndShop], ⟨ordersService "shop", by simp [opsAndShop], rfl, rfl⟩, by decide⟩,
    by decide, by decide⟩

/-- Equal priorities, and `ops` comes before `shop`. -/
theorem catchAll_takes_named_host : ¬ CatchAllYields noRegex noDigest opsAndShop {} 80 getOrders := by
  intro h
  exact h ⟨_, named_shop⟩ (routeFor "ops" "fallback" []) (by decide +kernel) rfl

/-- The shop's route at a higher priority than the catch-all. -/
def urgent : StoreRoute := { routeFor "shop" "api" ["*.shop.test"] with priority := 1 }

def urgentShop : StoreSnapshot :=
  { opsAndShop with routes := [routeFor "ops" "fallback" [], urgent] }

theorem catchAllYields_shop : CatchAllYields noRegex noDigest urgentShop {} 80 getOrders := by
  apply (catchAllYields_iff noRegex noDigest urgentShop {} (by decide) getOrders).mpr
  intro _
  have hserved : Served urgentShop urgent :=
    ⟨by simp [urgentShop], ⟨ordersService "shop", by simp [urgentShop, opsAndShop], rfl, rfl⟩,
      by decide⟩
  refine ⟨urgent, ⟨hserved, by decide, by decide⟩, ?_⟩
  intro r' hs hempty _
  have hmem : r' = routeFor "ops" "fallback" [] ∨ r' = urgent := by
    simpa [urgentShop] using hs.1
  rcases hmem with rfl | rfl
  · exact .inl (.inl (by decide))
  · cases hempty

end Gapura.Core.StoreCatchAll
