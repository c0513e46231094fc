import Gapura.Core.StoreRouting
import Gapura.Lib.Keys

/-! # Clusters are told apart by their keys

Services that reach one address alike share a cluster, and the first served
route to name a key fills it. The key is a text, so that it says everything the
cluster carries rests on its parts being read back: a host and an SNI hold no
character the key puts between its parts. -/
namespace Gapura.Core.StoreClusters
open Lib.Text Lib.Keys Store StoreRouting
open Std (TreeMap)

/-! ## The key says what the cluster carries -/

/-- Letters, digits, dots and hyphens, as in a host name or an IPv4 address. -/
def HostText (host : String) : Prop :=
  ∀ c ∈ host.toList, c.isAlphanum = true ∨ c = '.' ∨ c = '-'

variable {c : Char}

theorem HostText.not_mem {host : String} (h : HostText host)
    (hc : c.isAlphanum = false ∧ c ≠ '.' ∧ c ≠ '-') : c ∉ host.toList := by
  intro hmem
  rcases h c hmem with halnum | hdot | hdash
  · rw [hc.1] at halnum
    cases halnum
  · exact hc.2.1 hdot
  · exact hc.2.2 hdash

variable {sha256 : String → List UInt8} {s s' : StoreService}

/-- The settings of an HTTPS key, each only when it is not the default. -/
def sniSetting (s : StoreService) : List String :=
  if sni s != s.host then ["sni=" ++ sni s] else []

def caSetting (sha256 : String → List UInt8) (s : StoreService) : List String :=
  match caPem s with
  | some pem => ["ca=" ++ hex ((sha256 pem).take 8)]
  | none => []

def verifySetting (s : StoreService) : List String := if s.tlsVerify then [] else ["insecure"]

def settingsOf (sha256 : String → List UInt8) (s : StoreService) : List String :=
  sniSetting s ++ caSetting sha256 s ++ verifySetting s

/-- What follows the port of an HTTPS key, after a `?`. -/
def settingsText (settings : List String) : Option (List Char) :=
  if settings.isEmpty then none else some (['&'].intercalate (settings.map String.toList))

theorem toList_clusterKey_http (h : s.protocol = .http) :
    (clusterKey sha256 s).toList = s.host.toList ++ ':' :: (toString s.port).toList := by
  simp [clusterKey, h]

theorem toList_clusterKey_https (h : s.protocol = .https) :
    (clusterKey sha256 s).toList = "https".toList ++ ':' :: ("//".toList ++ s.host.toList ++ ':' ::
      ((toString s.port).toList ++ (settingsText (settingsOf sha256 s)).elim [] ('?' :: ·))) := by
  have hkey : clusterKey sha256 s = if (settingsOf sha256 s).isEmpty then
      "https://" ++ (s.host ++ ":" ++ toString s.port)
      else "https://" ++ (s.host ++ ":" ++ toString s.port) ++ "?" ++
        "&".intercalate (settingsOf sha256 s) := by
    simp only [clusterKey, h]
    rfl
  rw [hkey, settingsText]
  split
  · simp
  · simp [String.toList_intercalate]

/-- One setting is told from the others by its first letter. -/
def startsWith (c : Char) (setting : String) : Bool := setting.toList.head? == some c

theorem filter_settings (sha256 : String → List UInt8) (s : StoreService) :
    (settingsOf sha256 s).filter (startsWith 's') = sniSetting s ∧
    (settingsOf sha256 s).filter (startsWith 'c') = caSetting sha256 s ∧
    (settingsOf sha256 s).filter (startsWith 'i') = verifySetting s := by
  have hsni : ∀ c, (sniSetting s).filter (startsWith c) =
      if c = 's' then sniSetting s else [] := by
    intro c
    unfold sniSetting
    split
    · by_cases hc : c = 's'
      · simp [startsWith, hc]
      · simp [startsWith, hc, Ne.symm hc]
    · simp
  have hca : ∀ c, (caSetting sha256 s).filter (startsWith c) =
      if c = 'c' then caSetting sha256 s else [] := by
    intro c
    unfold caSetting
    split
    · by_cases hc : c = 'c'
      · simp [startsWith, hc]
      · simp [startsWith, hc, Ne.symm hc]
    · simp
  have hverify : ∀ c, (verifySetting s).filter (startsWith c) =
      if c = 'i' then verifySetting s else [] := by
    intro c
    unfold verifySetting
    split
    · simp
    · by_cases hc : c = 'i'
      · simp [startsWith, hc]
      · simp [startsWith, hc, Ne.symm hc]
  simp [settingsOf, List.filter_append, hsni, hca, hverify]

theorem not_mem_hex (hc : c = '&') (bytes : List UInt8) : c ∉ (hex bytes).toList := by
  have hdigit : ∀ i < 16, hexDigit i ≠ '&' := by decide
  subst hc
  rw [hex, String.toList_ofList, List.mem_flatMap]
  rintro ⟨b, -, hb⟩
  have hlt := b.toNat_lt
  simp only [List.mem_cons, List.not_mem_nil, or_false] at hb
  rcases hb with h | h
  · exact hdigit (b.toNat / 16) (by omega) h.symm
  · exact hdigit (b.toNat % 16) (by omega) h.symm

/-- What the validation of a service's host and SNI leaves. -/
structure Spelled (s : StoreService) : Prop where
  host : HostText s.host
  sni : ∀ sni ∈ s.tlsSni, HostText sni

theorem Spelled.hostText_sni (h : Spelled s) : HostText (Store.sni s) := by
  unfold Store.sni
  split
  · rename_i sni hsni
    split
    · exact h.host
    · exact h.sni sni hsni
  · exact h.host

theorem not_mem_settings (h : Spelled s) :
    ∀ setting ∈ settingsOf sha256 s, '&' ∉ setting.toList := by
  intro setting hmem
  rw [settingsOf, List.mem_append, List.mem_append] at hmem
  rcases hmem with (hmem | hmem) | hmem
  · unfold sniSetting at hmem
    split at hmem
    · rw [List.mem_singleton.mp hmem, String.toList_append, List.mem_append, not_or]
      exact ⟨by decide, h.hostText_sni.not_mem (by decide)⟩
    · cases hmem
  · unfold caSetting at hmem
    split at hmem
    · rw [List.mem_singleton.mp hmem, String.toList_append, List.mem_append, not_or]
      exact ⟨by decide, not_mem_hex rfl _⟩
    · cases hmem
  · unfold verifySetting at hmem
    split at hmem
    · cases hmem
    · rw [List.mem_singleton.mp hmem]
      decide

theorem settings_inj (hs : Spelled s) (hs' : Spelled s')
    (h : settingsText (settingsOf sha256 s) = settingsText (settingsOf sha256 s')) :
    settingsOf sha256 s = settingsOf sha256 s' := by
  unfold settingsText at h
  cases he : (settingsOf sha256 s).isEmpty <;> cases he' : (settingsOf sha256 s').isEmpty
  · rw [he, he'] at h
    simp only [Bool.false_eq_true, if_false, Option.some.injEq] at h
    have hread : ∀ {s : StoreService}, Spelled s → (settingsOf sha256 s).isEmpty = false →
        (['&'].intercalate ((settingsOf sha256 s).map String.toList)).splitOn '&' =
          (settingsOf sha256 s).map String.toList := fun hs he =>
      List.splitOn_intercalate '&' (by simpa using not_mem_settings hs) (by simpa using he)
    have hmap : (settingsOf sha256 s).map String.toList =
        (settingsOf sha256 s').map String.toList := by
      rw [← hread hs he, ← hread hs' he', h]
    exact List.map_injective_iff.mpr (fun _ _ => String.toList_inj.mp) hmap
  · simp [he, he'] at h
  · simp [he, he'] at h
  · rw [List.isEmpty_iff.mp he, List.isEmpty_iff.mp he']

/-! ## What a key tells -/

theorem sni_of_setting (hhost : s.host = s'.host) (h : sniSetting s = sniSetting s') :
    sni s = sni s' := by
  unfold sniSetting at h
  split at h <;> split at h
  · simpa using h
  · cases h
  · cases h
  · rename_i hd hd'
    simp only [bne_iff_ne, ne_eq, not_not] at hd hd'
    rw [hd, hd', hhost]

theorem caPem_of_setting (hdigest : ∀ pem ∈ caPem s, ∀ pem' ∈ caPem s',
      (sha256 pem).take 8 = (sha256 pem').take 8 → pem = pem')
    (h : caSetting sha256 s = caSetting sha256 s') : caPem s = caPem s' := by
  unfold caSetting at h
  cases hpem : caPem s with
  | none => cases hpem' : caPem s' with
    | none => rfl
    | some pem' => simp [hpem, hpem'] at h
  | some pem => cases hpem' : caPem s' with
    | none => simp [hpem, hpem'] at h
    | some pem' =>
      have hhex : hex ((sha256 pem).take 8) = hex ((sha256 pem').take 8) := by
        simpa [hpem, hpem'] using h
      rw [hdigest pem hpem pem' hpem' (hex_inj hhex)]

theorem tlsVerify_of_setting (h : verifySetting s = verifySetting s') :
    s.tlsVerify = s'.tlsVerify := by
  unfold verifySetting at h
  cases hv : s.tlsVerify <;> cases hv' : s'.tlsVerify <;> simp [hv, hv'] at h ⊢

theorem not_mem_port (h : c.isDigit = false) (n : Nat) : c ∉ (toString n).toList := by
  intro hmem
  rw [isDigit_of_mem_toString hmem] at h
  cases h

theorem Spelled.colonless (hs : Spelled s) : ':' ∉ s.host.toList := hs.host.not_mem (by decide)

/-- The key of an https service holds its host, its port and its settings. -/
theorem clusterOf_eq_https (hs : Spelled s) (hs' : Spelled s')
    (hdigest : ∀ pem ∈ caPem s, ∀ pem' ∈ caPem s',
      (sha256 pem).take 8 = (sha256 pem').take 8 → pem = pem')
    (hp : s.protocol = .https) (hp' : s'.protocol = .https)
    (h : clusterKey sha256 s = clusterKey sha256 s') : clusterOf s = clusterOf s' := by
  have hl := congrArg String.toList h
  rw [toList_clusterKey_https hp, toList_clusterKey_https hp'] at hl
  obtain ⟨-, hrest⟩ := append_cons_inj (by decide) (by decide) hl
  have hslashes : ∀ {s : StoreService}, Spelled s → ':' ∉ "//".toList ++ s.host.toList := by
    intro s hs
    rw [List.mem_append, not_or]
    exact ⟨by decide, hs.colonless⟩
  obtain ⟨hhost, hrest⟩ := append_cons_inj (hslashes hs) (hslashes hs') hrest
  have hhost : s.host = s'.host := String.toList_inj.mp (List.append_cancel_left hhost)
  obtain ⟨hnum, hsettings⟩ :=
    append_tail_inj (not_mem_port (by decide) _) (not_mem_port (by decide) _) hrest
  have hsettings := settings_inj hs hs' hsettings
  -- each setting is the only one of its kind, so equal lists have equal settings
  obtain ⟨hsni, hca, hverify⟩ := filter_settings sha256 s
  obtain ⟨hsni', hca', hverify'⟩ := filter_settings sha256 s'
  rw [hsettings] at hsni hca hverify
  simp only [clusterOf, hp, hp', hhost, toString_inj hnum,
    sni_of_setting hhost (hsni.symm.trans hsni'), caPem_of_setting hdigest (hca.symm.trans hca'),
    tlsVerify_of_setting (hverify.symm.trans hverify')]

/-- Services with one key carry one cluster, when their bundles are told apart
by the first bytes of their digests. -/
theorem clusterOf_eq (hs : Spelled s) (hs' : Spelled s')
    (hdigest : ∀ pem ∈ caPem s, ∀ pem' ∈ caPem s',
      (sha256 pem).take 8 = (sha256 pem').take 8 → pem = pem')
    (h : clusterKey sha256 s = clusterKey sha256 s') : clusterOf s = clusterOf s' := by
  have hl := congrArg String.toList h
  cases hp : s.protocol <;> cases hp' : s'.protocol
  · rw [toList_clusterKey_http hp, toList_clusterKey_http hp'] at hl
    obtain ⟨hhost, hnum⟩ := append_cons_inj hs.colonless hs'.colonless hl
    simp only [clusterOf, hp, hp', String.toList_inj.mp hhost, toString_inj hnum]
  · rw [toList_clusterKey_http hp, toList_clusterKey_https hp'] at hl
    obtain ⟨-, hnum⟩ := append_cons_inj hs.colonless (by decide) hl
    exact absurd (hnum ▸ by simp) (not_mem_port (c := '/') (by decide) s.port)
  · rw [toList_clusterKey_https hp, toList_clusterKey_http hp'] at hl
    obtain ⟨-, hnum⟩ := append_cons_inj (by decide) hs'.colonless hl
    exact absurd (hnum ▸ by simp) (not_mem_port (c := '/') (by decide) s'.port)
  · exact clusterOf_eq_https hs hs' hdigest hp hp' h

/-! ## Shared first-wins -/

/-- The service a route names in its own workspace. -/
def serviceOf (snap : StoreSnapshot) (r : StoreRoute) : Option StoreService :=
  (servicesOf snap)[(r.workspace, r.service)]?

theorem clusters_foldl (snap : StoreSnapshot) (routes : List StoreRoute) (b : Build) (key : String) :
    (routes.foldl (compileRoute sha256 snap (servicesOf snap) (consumerTable snap)) b).clusters[key]? =
      b.clusters[key]?.or (((routes.filterMap (serviceOf snap)).find?
        fun s => clusterKey sha256 s = key).map clusterOf) := by
  induction routes generalizing b with
  | nil => simp
  | cons r rest ih =>
    rw [List.foldl_cons, ih]
    cases hs : serviceOf snap r with
    | none =>
      have hstep : compileRoute sha256 snap (servicesOf snap) (consumerTable snap) b r = b := by
        rw [compileRoute, show (servicesOf snap)[(r.workspace, r.service)]? = none from hs]
      rw [List.filterMap_cons_none hs, hstep]
    | some service =>
      have hstep : (compileRoute sha256 snap (servicesOf snap) (consumerTable snap) b r).clusters =
          b.clusters.insertIfNew (clusterKey sha256 service) (clusterOf service) := by
        rw [compileRoute, show (servicesOf snap)[(r.workspace, r.service)]? = some service from hs]
      rw [List.filterMap_cons_some hs, List.find?_cons, hstep, TreeMap.getElem?_insertIfNew]
      by_cases hk : clusterKey sha256 service = key
      · subst hk
        cases hb : b.clusters[clusterKey sha256 service]? with
        | none => simp [TreeMap.mem_iff_isSome_getElem?, hb]
        | some c => simp [TreeMap.mem_iff_isSome_getElem?, hb]
      · simp [hk]

/-- Under a served route's key stands the cluster of the route's own service. -/
theorem clusters_compile {snap : StoreSnapshot} {settings : StoreSettings} {r : StoreRoute}
    (hspelled : ∀ s ∈ snap.services, Spelled s)
    (hdigest : ∀ s ∈ snap.services, ∀ s' ∈ snap.services, ∀ pem ∈ caPem s, ∀ pem' ∈ caPem s',
      (sha256 pem).take 8 = (sha256 pem').take 8 → pem = pem')
    (hr : Served snap r) {service : StoreService}
    (hservice : serviceOf snap r = some service) :
    (compile sha256 snap settings).clusters[clusterKey sha256 service]? =
      some (clusterOf service) := by
  have hmem : ∀ {r : StoreRoute} {s : StoreService}, serviceOf snap r = some s →
      s ∈ snap.services := by
    intro r s hs
    rw [serviceOf, getElem?_servicesOf] at hs
    simpa using List.mem_of_find?_eq_some hs
  show (buildOf sha256 snap).clusters[_]? = _
  rw [buildOf, clusters_foldl]
  have hsome : (((servedRoutes snap).filterMap (serviceOf snap)).find? fun s =>
      clusterKey sha256 s = clusterKey sha256 service).isSome := by
    rw [List.find?_isSome]
    exact ⟨service, List.mem_filterMap.mpr ⟨r, mem_servedRoutes.mpr hr, hservice⟩, by simp⟩
  obtain ⟨first, hfirst⟩ := Option.isSome_iff_exists.mp hsome
  have hkey : clusterKey sha256 first = clusterKey sha256 service := by
    simpa using List.find?_some hfirst
  obtain ⟨r', -, hr'⟩ := List.mem_filterMap.mp (List.mem_of_find?_eq_some hfirst)
  have hcluster := clusterOf_eq (hspelled _ (hmem hr')) (hspelled _ (hmem hservice))
    (hdigest _ (hmem hr') _ (hmem hservice)) hkey
  simp [hfirst, hcluster]

end Gapura.Core.StoreClusters
