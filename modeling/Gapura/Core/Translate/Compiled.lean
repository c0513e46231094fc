import Gapura.Core.Translate.Rules

/-! # A route compiles to the same rules whenever it is compiled

All routes share one table of clusters, and a reference whose key is in it is
not looked at again. As long as keys tell Services apart, what is in the table
was built for the same Service port, so the rules and the condition of a route
depend on the snapshot alone. -/
namespace Gapura.Core.Translate
open Lib.Stateful Input Status
open Std (TreeMap)

variable {t : ClusterTable}

variable {c : Cluster}

/-- What a table that only compiling filled holds. -/
theorem Grows.from_empty {snap : Snapshot} (h : Grows snap ∅ t) {key : String} (hc : t[key]? = some c) :
    ∃ sref port, key = clusterKey sref port ∧ BuiltFor snap sref port c := by
  rcases h.built key c hc with hnone | hbuilt
  · simp at hnone
  · exact hbuilt

/-- The cluster under a key was built for the Service port of that key. -/
theorem Grows.built_of_key {snap : Snapshot} (hplain : PlainNamespaces snap.services)
    (h : Grows snap ∅ t) {sref : ObjectRef} {port : Nat} {svc : Service}
    (hsvc : snap.services[sref]? = some svc) (hc : t[clusterKey sref port]? = some c) :
    BuiltFor snap sref port c := by
  obtain ⟨sref', port', hkey, hbuilt⟩ := h.from_empty hc
  obtain ⟨svc', svcPort', hsvc', -⟩ := id hbuilt
  obtain ⟨rfl, rfl⟩ := clusterKey_inj (hplain.slashless hsvc) (hplain.slashless hsvc') hkey
  exact hbuilt

/-- The key a reference resolves to, from the snapshot alone. -/
def resolvedKey (b : HttpBackendRef) (route : ObjectRef) (snap : Snapshot) :
    Except Rejection String := do
  let (sref, svc, port, svcPort) ← servicePort b route snap
  let _ ← serviceCluster sref svc svcPort snap
  return clusterKey sref port

theorem resolve_key {snap : Snapshot} (hplain : PlainNamespaces snap.services)
    (h : Grows snap ∅ t) (b : HttpBackendRef) (route : ObjectRef) :
    (resolve b route snap t).map Prod.fst = resolvedKey b route snap := by
  unfold resolve resolvedKey
  cases htarget : servicePort b route snap with
  | error rejection => rfl
  | ok target =>
    obtain ⟨sref, svc, port, svcPort⟩ := target
    obtain ⟨-, -, -, hsvc, hport⟩ := servicePort_eq_ok htarget
    simp only [bind, Except.bind]
    split
    · -- found in the table, so it was built once and builds again
      rename_i hin
      rw [TreeMap.contains_eq_isSome_getElem?, Option.isSome_iff_exists] at hin
      obtain ⟨c, hc⟩ := hin
      obtain ⟨svc', svcPort', hsvc', hport', hcluster⟩ := h.built_of_key hplain hsvc hc
      obtain rfl : svc = svc' := Option.mem_unique hsvc hsvc'
      obtain rfl : svcPort = svcPort' := Option.mem_unique hport hport'
      rw [hcluster]
      rfl
    · cases serviceCluster sref svc svcPort snap <;> rfl

/-! ## The same answer from any table -/

section Blind
variable {env : Env} {snap : Snapshot} {route : HttpRoute} {rref : ObjectRef}

/-- The table was filled by compiling. -/
def Filled (snap : Snapshot) (s : Refs) : Prop := Grows snap ∅ s.clusters

abbrev BlindToTable (snap : Snapshot) {α : Type} (m : CompileM α) : Prop :=
  Blind (Filled snap) Refs.firstRefError m

section
variable (hplain : PlainNamespaces snap.services)

include hplain

variable (b : HttpBackendRef)

theorem resolveRef_blind : BlindToTable snap (resolveRef snap rref b) := by
  constructor
  · intro s hs
    exact Grows.trans hs (resolveRef_along b s).1
  · intro s s' hs hs' hview
    have hkey := resolve_key hplain hs b rref
    have hkey' := resolve_key hplain hs' b rref
    rw [← hkey'] at hkey
    simp only [resolveRef, result_update, after_update]
    cases hres : resolve b rref snap s.clusters with
    | error rejection =>
      cases hres' : resolve b rref snap s'.clusters with
      | error rejection' =>
        obtain rfl : rejection = rejection' := by simpa [hres, hres', Except.map] using hkey
        exact ⟨rfl, congrArg (·.or (some rejection)) hview⟩
      | ok out' => simp [hres, hres', Except.map] at hkey
    | ok out =>
      cases hres' : resolve b rref snap s'.clusters with
      | error rejection' => simp [hres, hres', Except.map] at hkey
      | ok out' =>
        obtain ⟨key, clusters⟩ := out
        obtain ⟨key', clusters'⟩ := out'
        obtain rfl : key = key' := by simpa [hres, hres', Except.map] using hkey
        exact ⟨rfl, hview⟩

theorem resolveMirror_blind (r : HttpRouteRule) :
    BlindToTable snap (resolveMirror snap rref r) := by
  unfold resolveMirror
  cases mirrorRef r with
  | none => exact Blind.pure none
  | some b => exact resolveRef_blind hplain b

theorem compileBackend_blind : BlindToTable snap (compileBackend snap rref b) :=
  (Blind.answer _).bind fun _ => (resolveRef_blind hplain b).bind fun _ => Blind.pure _

theorem compileRule_blind (source : HttpRouteRule × Nat) :
    BlindToTable snap (compileRule env snap route rref source) :=
  (Blind.answer _).bind fun _ => (resolveMirror_blind hplain source.1).bind fun _ =>
    (Blind.answer _).bind fun _ => (Blind.mapM (compileBackend_blind hplain) _).bind fun _ =>
    (Blind.answer _).bind fun _ => (Blind.answer _).bind fun _ => Blind.pure _

/-- What a route compiles to does not depend on what was compiled before it. -/
theorem compile_of_filled {t : ClusterTable} (h : Grows snap ∅ t) :
    (compile env snap route rref t).1 = (compile env snap route rref ∅).1 := by
  have hblind : BlindToTable snap (compileRules env snap route rref) :=
    Blind.mapM (compileRule_blind hplain) _
  obtain ⟨hres, hview⟩ : (compileRules env snap route rref { clusters := t }).1 =
      (compileRules env snap route rref { clusters := ∅ }).1 ∧
      (compileRules env snap route rref { clusters := t }).2.firstRefError =
      (compileRules env snap route rref { clusters := ∅ }).2.firstRefError :=
    hblind.same { clusters := t } { clusters := ∅ } h (.refl snap ∅) rfl
  simp only [compile, hres, hview]

end

end Blind

end Gapura.Core.Translate
