import Gapura.Lib.BitPrefix
import Gapura.Control.Rows

/-! # What a network holds

An IPv4 address has two spellings, its own and the mapped IPv6 one, and a
network holds both or neither. Each network is then one of two kinds of set:
the IPv4 addresses that share its leading bits, or the IPv6 addresses that do
and are nobody's mapped spelling. -/
namespace Gapura.Control.Networks
open Core.ClientIp Lib.BitPrefix
open Policies (width fromStr_bits_le fromStr_text)

/-! ## Mapped addresses -/

variable (p : BitVec 96) {a : BitVec 32} {n : BitVec 128} {ip : IpAddr}

theorem extractLsb_high (a : BitVec 32) : (p ++ a).extractLsb (32 + 95) 32 = p := by
  refine BitVec.eq_of_getLsbD_eq fun i hi => ?_
  have hlt : i < 96 := by omega
  rw [BitVec.getLsbD_extractLsb, BitVec.getLsbD_append, if_neg (by omega)]
  simp [hlt]

theorem extractLsb_low (a : BitVec 32) : (p ++ a).extractLsb 31 0 = a := by
  refine BitVec.eq_of_getLsbD_eq fun i hi => ?_
  have hlt : i < 32 := by omega
  rw [BitVec.getLsbD_extractLsb, BitVec.getLsbD_append, if_pos (by omega)]
  simp [hlt]

theorem append_halves (n : BitVec 128) : n.extractLsb (32 + 95) 32 ++ n.extractLsb 31 0 = n := by
  refine BitVec.eq_of_getLsbD_eq fun i hi => ?_
  simp only [BitVec.getLsbD_append, BitVec.getLsbD_extractLsb]
  grind

theorem toIpv4Mapped_eq_some : toIpv4Mapped n = some a ↔ n = toIpv6Mapped a := by
  unfold toIpv4Mapped toIpv6Mapped
  constructor
  · intro h
    split at h
    · rename_i hhigh
      cases h
      rw [← hhigh]
      exact (append_halves n).symm
    · cases h
  · rintro rfl
    rw [extractLsb_high, if_pos rfl, extractLsb_low]

theorem toIpv4Mapped_mapped (a : BitVec 32) : toIpv4Mapped (toIpv6Mapped a) = some a :=
  toIpv4Mapped_eq_some.mpr rfl

/-- An IPv6 address that spells an IPv4 one. -/
def Mapped (n : BitVec 128) : Prop := ∃ a, n = toIpv6Mapped a

theorem toIpv4Mapped_eq_none : toIpv4Mapped n = none ↔ ¬ Mapped n := by
  rw [Option.eq_none_iff_forall_ne_some]
  exact ⟨fun h ⟨a, ha⟩ => h a (toIpv4Mapped_eq_some.mpr ha),
    fun h a ha => h ⟨a, toIpv4Mapped_eq_some.mp ha⟩⟩

/-! ## Address sets -/

/-- The addresses a network holds. -/
def holds (c : Cidr) : Set IpAddr := {ip | c.contains ip = true}

/-- The IPv4 addresses of a set of words, in both spellings. -/
def ipv4 (words : Set (BitVec 32)) : Set IpAddr :=
  {ip | ∃ a ∈ words, ip = .v4 a ∨ ip = .v6 (toIpv6Mapped a)}

/-- The IPv6 addresses of a set of words that spell no IPv4 address. -/
def ipv6 (words : Set (BitVec 128)) : Set IpAddr :=
  {ip | ∃ a ∈ words, ip = .v6 a ∧ ¬ Mapped a}

theorem ipv4_mono {s t : Set (BitVec 32)} (h : s ⊆ t) : ipv4 s ⊆ ipv4 t := by
  rintro ip ⟨a, ha, hip⟩
  exact ⟨a, h ha, hip⟩

theorem ipv6_mono {s t : Set (BitVec 128)} (h : s ⊆ t) : ipv6 s ⊆ ipv6 t := by
  rintro ip ⟨a, ha, hip⟩
  exact ⟨a, h ha, hip⟩

theorem toCanonical_eq_v4 : ip.toCanonical = .v4 a ↔ ip = .v4 a ∨ ip = .v6 (toIpv6Mapped a) := by
  cases ip with
  | v4 b => simp [IpAddr.toCanonical]
  | v6 n =>
    simp only [IpAddr.toCanonical, reduceCtorEq, false_or, IpAddr.v6.injEq,
      ← toIpv4Mapped_eq_some]
    cases toIpv4Mapped n <;> simp

theorem toCanonical_eq_v6 : ip.toCanonical = .v6 n ↔ ip = .v6 n ∧ ¬ Mapped n := by
  cases ip with
  | v4 b => simp [IpAddr.toCanonical]
  | v6 m =>
    cases hm : toIpv4Mapped m with
    | none =>
      have hnot := toIpv4Mapped_eq_none.mp hm
      simp only [IpAddr.toCanonical, hm, IpAddr.v6.injEq]
      exact ⟨fun h => ⟨h, h ▸ hnot⟩, And.left⟩
    | some a =>
      simp only [IpAddr.toCanonical, hm, reduceCtorEq, IpAddr.v6.injEq, false_iff]
      rintro ⟨rfl, hnot⟩
      exact hnot ⟨a, toIpv4Mapped_eq_some.mp hm⟩

theorem samePrefix_iff {w b : Nat} (hb : b ≤ w) (x y : BitVec w) :
    samePrefix x y b = true ↔ y ∈ withPrefix x b := by
  have hzero : b = 0 → SharesFirst b x y := by rintro rfl i hi; omega
  simp only [samePrefix, Bool.or_eq_true, beq_iff_eq, shiftRight_eq_iff hb]
  exact ⟨fun h => h.elim hzero id, .inr⟩

theorem mem_ipv4 {words : Set (BitVec 32)} :
    ip ∈ ipv4 words ↔ ∃ a ∈ words, ip.toCanonical = .v4 a := by
  simp only [toCanonical_eq_v4]
  exact Iff.rfl

theorem mem_ipv6 {words : Set (BitVec 128)} :
    ip ∈ ipv6 words ↔ ∃ a ∈ words, ip.toCanonical = .v6 a := by
  simp only [toCanonical_eq_v6]
  exact Iff.rfl

theorem disjoint_ipv4_ipv6 (s : Set (BitVec 32)) (t : Set (BitVec 128)) :
    Disjoint (ipv4 s) (ipv6 t) := by
  refine Set.disjoint_left.mpr fun ip h4 h6 => ?_
  obtain ⟨a, -, ha⟩ := mem_ipv4.mp h4
  obtain ⟨n, -, hn⟩ := mem_ipv6.mp h6
  cases ha.symm.trans hn

theorem disjoint_ipv4 {s t : Set (BitVec 32)} (h : Disjoint s t) : Disjoint (ipv4 s) (ipv4 t) := by
  refine Set.disjoint_left.mpr fun ip hs ht => ?_
  obtain ⟨a, ha, hip⟩ := mem_ipv4.mp hs
  obtain ⟨b, hb, hip'⟩ := mem_ipv4.mp ht
  obtain rfl : a = b := by simpa [hip] using hip'
  exact Set.disjoint_left.mp h ha hb

theorem disjoint_ipv6 {s t : Set (BitVec 128)} (h : Disjoint s t) : Disjoint (ipv6 s) (ipv6 t) := by
  refine Set.disjoint_left.mpr fun ip hs ht => ?_
  obtain ⟨a, ha, hip⟩ := mem_ipv6.mp hs
  obtain ⟨b, hb, hip'⟩ := mem_ipv6.mp ht
  obtain rfl : a = b := by simpa [hip] using hip'
  exact Set.disjoint_left.mp h ha hb

/-! ## The three kinds of network -/

variable {c : Cidr}

theorem holds_v4 {n : BitVec 32} (haddr : c.addr = .v4 n) (hbits : c.bits ≤ 32) :
    holds c = ipv4 (withPrefix n c.bits) := by
  ext ip
  rw [mem_ipv4]
  show c.contains ip = true ↔ _
  cases hip : ip.toCanonical with
  | v4 a => simp [Cidr.contains, Cidr.containsExactly, haddr, hip, samePrefix_iff hbits]
  | v6 a => simp [Cidr.contains, Cidr.containsExactly, haddr, hip]

/-- A prefix that does not lie inside the mapped range. -/
theorem holds_v6 (haddr : c.addr = .v6 n) (hbits : c.bits ≤ 128)
    (hout : ¬ (96 ≤ c.bits ∧ Mapped n)) : holds c = ipv6 (withPrefix n c.bits) := by
  have hno : (decide (96 ≤ c.bits) && (toIpv4Mapped n).isSome) = false := by
    rw [Bool.and_eq_false_iff, decide_eq_false_iff_not, Option.isSome_eq_false_iff,
      Option.isNone_iff_eq_none, toIpv4Mapped_eq_none]
    exact not_and_or.mp hout
  ext ip
  rw [mem_ipv6]
  show c.contains ip = true ↔ _
  cases hip : ip.toCanonical with
  | v4 a => simp [Cidr.contains, haddr, hip, hno]
  | v6 a => simp [Cidr.contains, Cidr.containsExactly, haddr, hip, samePrefix_iff hbits]

/-- A prefix inside the mapped range is the IPv4 network it spells: no IPv6
address shares its first 96 bits without being mapped itself. -/
theorem holds_mapped {low : BitVec 32} (haddr : c.addr = .v6 (toIpv6Mapped low))
    (hbits : c.bits ≤ 128) (hin : 96 ≤ c.bits) : holds c = ipv4 (withPrefix low (c.bits - 96)) := by
  have hlow : ∀ a, samePrefix (toIpv6Mapped low) (toIpv6Mapped a) c.bits = true ↔
      a ∈ withPrefix low (c.bits - 96) := by
    intro a
    rw [samePrefix_iff hbits]
    show SharesFirst c.bits _ _ ↔ SharesFirst (c.bits - 96) low a
    obtain ⟨b, hb⟩ := Nat.exists_eq_add_of_le hin
    rw [hb, toIpv6Mapped, toIpv6Mapped, sharesFirst_append]
    simp
  ext ip
  rw [mem_ipv4]
  show c.contains ip = true ↔ _
  cases hip : ip.toCanonical with
  | v4 a =>
    simp [Cidr.contains, Cidr.containsExactly, haddr, hip, hin, toIpv4Mapped_mapped, hlow]
  | v6 a =>
    obtain ⟨-, hnot⟩ := toCanonical_eq_v6.mp hip
    simp only [Cidr.contains, Cidr.containsExactly, haddr, hip, samePrefix_iff hbits]
    refine iff_of_false (fun hshare => hnot ⟨a.extractLsb 31 0, ?_⟩) (by simp)
    have hhigh : SharesFirst 96 (toIpv6Mapped low) a := SharesFirst.mono hshare hin
    rw [← append_halves a, toIpv6Mapped] at hhigh
    obtain ⟨h, -⟩ := (sharesFirst_append (b := 0) _ _ _ _).mp hhigh
    rw [toIpv6Mapped, h]
    exact (append_halves a).symm

/-- Every network is of one of the two kinds. -/
theorem holds_kind (hbits : c.bits ≤ width c.addr) :
    (∃ n b, holds c = ipv4 (withPrefix n b)) ∨ ∃ n b, holds c = ipv6 (withPrefix n b) := by
  cases haddr : c.addr with
  | v4 n =>
    rw [haddr] at hbits
    exact .inl ⟨n, _, holds_v4 haddr hbits⟩
  | v6 n =>
    rw [haddr] at hbits
    by_cases hin : 96 ≤ c.bits ∧ Mapped n
    · obtain ⟨low, rfl⟩ := hin.2
      exact .inl ⟨low, _, holds_mapped haddr hbits hin.1⟩
    · exact .inr ⟨n, _, holds_v6 haddr hbits hin⟩

theorem holds_nested_or_disjoint {d : Cidr} (hc : c.bits ≤ width c.addr)
    (hd : d.bits ≤ width d.addr) :
    holds c ⊆ holds d ∨ holds d ⊆ holds c ∨ Disjoint (holds c) (holds d) := by
  obtain ⟨n, b, hn⟩ | ⟨n, b, hn⟩ := holds_kind hc <;>
    obtain ⟨m, e, hm⟩ | ⟨m, e, hm⟩ := holds_kind hd <;> rw [hn, hm]
  · exact (withPrefix_nested_or_disjoint n m b e).imp ipv4_mono (Or.imp ipv4_mono disjoint_ipv4)
  · exact .inr (.inr (disjoint_ipv4_ipv6 _ _))
  · exact .inr (.inr (disjoint_ipv4_ipv6 _ _).symm)
  · exact (withPrefix_nested_or_disjoint n m b e).imp ipv6_mono (Or.imp ipv6_mono disjoint_ipv6)

theorem contains_mapped (c : Cidr) (a : BitVec 32) :
    c.contains (.v6 (toIpv6Mapped a)) = c.contains (.v4 a) := by
  have hsame : (IpAddr.v6 (toIpv6Mapped a)).toCanonical = (IpAddr.v4 a).toCanonical :=
    toCanonical_eq_v4.mpr (.inr rfl)
  unfold Cidr.contains
  rw [hsame]

/-- A network means the set of addresses that share its leading bits. -/
theorem network_holds (debug : String → String) (s : String) (c : Cidr)
    (h : Policies.Cidr.fromStr debug s = .ok c) :
    (∀ a, c.contains (.v6 (toIpv6Mapped a)) = c.contains (.v4 a)) ∧
    (∀ n, c.addr = .v4 n → holds c = ipv4 {a | SharesFirst c.bits n a}) ∧
    (∀ n, c.addr = .v6 n → ¬ (96 ≤ c.bits ∧ Mapped n) →
      holds c = ipv6 {a | SharesFirst c.bits n a}) ∧
    (∀ low, c.addr = .v6 (toIpv6Mapped low) → 96 ≤ c.bits →
      holds c = ipv4 {a | SharesFirst (c.bits - 96) low a}) ∧
    (∀ s' d, Policies.Cidr.fromStr debug s' = .ok d →
      holds c ⊆ holds d ∨ holds d ⊆ holds c ∨ Disjoint (holds c) (holds d)) ∧
    Policies.Cidr.fromStr debug (Policies.Cidr.text c) = .ok c := by
  have hbits := fromStr_bits_le h
  refine ⟨contains_mapped c, ?_, ?_, ?_, ?_, fromStr_text hbits⟩
  · intro n haddr
    rw [haddr] at hbits
    exact holds_v4 haddr hbits
  · intro n haddr hout
    rw [haddr] at hbits
    exact holds_v6 haddr hbits hout
  · intro low haddr hin
    rw [haddr] at hbits
    exact holds_mapped haddr hbits hin
  · intro s' d hd
    exact holds_nested_or_disjoint hbits (fromStr_bits_le hd)

/-- 10.0.0.0/8 and its mapped spelling ::ffff:10.0.0.0/104. -/
theorem network_holds_ten : holds { addr := .v4 0x0a000000, bits := 8 } =
      ipv4 {a | SharesFirst 8 (0x0a000000 : BitVec 32) a} ∧
    holds { addr := .v6 (toIpv6Mapped 0x0a000000), bits := 104 } =
      ipv4 {a | SharesFirst 8 (0x0a000000 : BitVec 32) a} :=
  ⟨(network_holds id "10.0.0.0/8" { addr := .v4 0x0a000000, bits := 8 }
      (by decide +kernel)).2.1 _ rfl,
    (network_holds id "::ffff:10.0.0.0/104"
      { addr := .v6 (toIpv6Mapped 0x0a000000), bits := 104 }
      (by decide +kernel)).2.2.2.1 _ rfl (by decide)⟩

end Gapura.Control.Networks
