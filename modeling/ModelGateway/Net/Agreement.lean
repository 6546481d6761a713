import ModelGateway.Net.IpaddressLemmas
import ModelGateway.Net.NetipLemmas

namespace ModelGateway

open List
open Option (some)
open AddressText

def Canonical (cidr : Str) : Prop :=
  ∃ addr bits n, cidr = addr ++ 47 :: bits ∧ 37 ∉ addr ∧ Netip.PrefixLength bits n

def Addr.zoned : Addr → Bool
  | .v4 _ => false
  | .v6 _ zone => zone ≠ []

theorem Ipaddress.and_netmask_eq_iff {w : Nat} (a b : BitVec w) {n : Nat} (hn : n ≤ w)
    : a &&& netmask w n = b &&& netmask w n ↔ b >>> (w - n) = a >>> (w - n) := by
  unfold netmask
  constructor
  . intro h
    ext i hi
    have hbit := congrArg (·.getLsbD (w - n + i)) h
    rw [BitVec.getElem_ushiftRight, BitVec.getElem_ushiftRight]
    by_cases hlt : w - n + i < w
    . have hout : ¬ n + (w - n + i) < w := by omega
      simpa [hlt, hout] using hbit.symm
    . rw [BitVec.getLsbD_of_ge _ _ (by omega), BitVec.getLsbD_of_ge _ _ (by omega)]
  . intro h
    ext i hi
    by_cases hlt : n + i < w
    . simp [hlt]
    . have hbit := congrArg (·.getLsbD (i - (w - n))) h
      simp only [BitVec.getLsbD_ushiftRight] at hbit
      have hindex : w - n + (i - (w - n)) = i := by omega
      rw [hindex, BitVec.getLsbD_eq_getElem hi, BitVec.getLsbD_eq_getElem hi] at hbit
      simp [hlt, hbit]

theorem Ipaddress.mkV4_contains (n : Nat) {bits : Nat} (hbits : bits ≤ 32) (ip : Addr)
    : (mkV4 n bits).contains ip = Prefix.contains ⟨.v4 (BitVec.ofNat 32 n), bits⟩ ip := by
  cases ip with
  | v4 a =>
    simpa [mkV4, Network.contains, Prefix.contains] using and_netmask_eq_iff a _ hbits
  | v6 => rfl

theorem Ipaddress.mkV6_contains (n : Nat) {bits : Nat} (hbits : bits ≤ 128) {ip : Addr}
    (hip : ip.zoned = false)
    : (mkV6 n bits).contains ip = Prefix.contains ⟨.v6 (BitVec.ofNat 128 n) [], bits⟩ ip := by
  cases ip with
  | v4 => rfl
  | v6 a zone =>
    have hzone : zone = [] := by simpa [Addr.zoned] using hip
    simpa [mkV6, Network.contains, Prefix.contains, hzone] using and_netmask_eq_iff a _ hbits

variable {addr bits : Str}

theorem splitOn_slash (hbits : 47 ∉ bits)
    : (addr ++ 47 :: bits).splitOn 47 = [addr, bits] ∨ 2 < ((addr ++ 47 :: bits).splitOn 47).length := by
  rw [splitOn_append_cons_self, splitOn_eq_singleton hbits]
  have haddr := Ipaddress.intercalate_parts 47 addr
  have hne := splitOn_ne_nil 47 addr
  generalize addr.splitOn 47 = parts at haddr hne ⊢
  match parts, hne with
  | [a], _ =>
    rw [intercalate_singleton] at haddr
    exact .inl (by rw [haddr]; rfl)
  | _ :: _ :: _, _ => exact .inr (by simp)

namespace Ipaddress

variable {n : Nat}

theorem prefixFromPrefixString_eq_some {maxPrefixlen : Nat} {s : Str} {m : Nat}
    (h : prefixFromPrefixString maxPrefixlen s = some m) (hn : Netip.PrefixLength s n)
    : m = n ∧ n ≤ maxPrefixlen := by
  rcases hn.digits with ⟨ds, hds, rfl⟩
  unfold prefixFromPrefixString at h
  rw [if_neg hn.nonempty, mapM_eq_some_iff_forall₂.mpr hds] at h
  rw [Option.ite_none_left_eq_some, Option.ite_none_right_eq_some, some.injEq] at h
  exact ⟨h.2.2.symm, h.2.1⟩

theorem prefixFromIpString_eq_none {s : Str} (hn : Netip.PrefixLength s n)
    : prefixFromIpString s = none := by
  rcases hn.digits with ⟨ds, hds, _⟩
  have hdot : 46 ∉ s := fun hmem => hds.digit?_ne_none hmem (by decide)
  have hint : ipv4IntFromString s = none := by
    unfold ipv4IntFromString
    rw [if_neg hn.nonempty, splitOn_eq_singleton hdot]
    rfl
  unfold prefixFromIpString
  rw [hint]
  rfl

theorem ipv4Network_eq_some {net : Network}
    (h : ipv4Network (addr ++ 47 :: bits) = some net) (hbits : Netip.PrefixLength bits n)
    : ∃ ns, DottedQuad addr ns ∧ net = mkV4 (value 256 ns) n ∧ n ≤ 32 := by
  unfold ipv4Network at h
  rcases splitOn_slash hbits.slash_not_mem with hsplit | hsplit
  . rw [hsplit] at h
    simp only [bind, Option.bind_eq_some_iff, pure, some.injEq] at h
    rcases h with ⟨_, haddress, _, hprefixlen, rfl⟩
    rw [prefixFromIpString_eq_none hbits, Option.orElse_eq_orElse, Option.orElse_eq_or, Option.or_none] at hprefixlen
    rcases prefixFromPrefixString_eq_some hprefixlen hbits with ⟨rfl, hle⟩
    rcases ipv4Address_eq_some haddress with ⟨ns, hns, rfl⟩
    exact ⟨ns, hns, rfl, hle⟩
  . split at h
    . next heq => simp [heq] at hsplit
    . next heq => simp [heq] at hsplit
    . simp at h

theorem ipv6Address_eq_some {s : Str} (h : ipv6Address s = some n) (hzone : 37 ∉ s) : IPv6 s n := by
  unfold ipv6Address at h
  rw [Option.ite_none_left_eq_some, cut_eq_none_iff.mpr hzone] at h
  exact ipv6IntFromString_eq_some h.2

theorem ipv6Network_eq_some {net : Network}
    (h : ipv6Network (addr ++ 47 :: bits) = some net) (hzone : 37 ∉ addr)
    (hbits : Netip.PrefixLength bits n)
    : ∃ m, IPv6 addr m ∧ net = mkV6 m n ∧ n ≤ 128 := by
  unfold ipv6Network at h
  rcases splitOn_slash hbits.slash_not_mem with hsplit | hsplit
  . rw [hsplit] at h
    simp only [bind, Option.bind_eq_some_iff, pure, some.injEq] at h
    rcases h with ⟨address, haddress, _, hprefixlen, rfl⟩
    rcases prefixFromPrefixString_eq_some hprefixlen hbits with ⟨rfl, hle⟩
    exact ⟨address, ipv6Address_eq_some haddress hzone, rfl, hle⟩
  . split at h
    . next heq => simp [heq] at hsplit
    . next heq => simp [heq] at hsplit
    . simp at h

end Ipaddress

theorem canonical_of_parsePrefix {cidr : Str} {p : Prefix} (h : Netip.parsePrefix cidr = .ok p)
    : Canonical cidr :=
  Netip.parsePrefix_eq_ok h

theorem parsePrefix_of_canonical {cidr : Str} {net : Ipaddress.Network}
    (hnet : Ipaddress.ipNetwork cidr = some net) (hcanonical : Canonical cidr)
    : ∃ p, Netip.parsePrefix cidr = .ok p ∧
        ∀ ip : Addr, ip.zoned = false → p.contains ip = net.contains ip := by
  rcases hcanonical with ⟨addr, bits, n, rfl, hzone, hbits⟩
  unfold Ipaddress.ipNetwork at hnet
  rw [Option.orElse_eq_orElse] at hnet
  cases hv4 : Ipaddress.ipv4Network (addr ++ 47 :: bits) with
  | some net' =>
    rw [hv4, Option.orElse_some, some.injEq] at hnet
    subst hnet
    rcases Ipaddress.ipv4Network_eq_some hv4 hbits with ⟨ns, hns, rfl, hle⟩
    refine ⟨_, Netip.parsePrefix_of_v4 (Netip.parseAddr_of_dottedQuad hns) hbits hle, ?_⟩
    intro ip _
    rw [Ipaddress.mkV4_contains _ hle]
  | none =>
    rw [hv4, Option.orElse_none] at hnet
    rcases Ipaddress.ipv6Network_eq_some hnet hzone hbits with ⟨m, hm, rfl, hle⟩
    refine ⟨_, Netip.parsePrefix_of_v6 (Netip.parseAddr_of_iPv6 hm hzone) hbits hle, ?_⟩
    intro ip hip
    rw [Ipaddress.mkV6_contains _ hle hip]

theorem Prefix.contains_of_zoned (p : Prefix) {ip : Addr} (h : ip.zoned = true)
    : p.contains ip = false := by
  cases ip with
  | v4 => simp [Addr.zoned] at h
  | v6 a zone =>
    have hzone : zone ≠ [] := by simpa [Addr.zoned] using h
    unfold Prefix.contains
    split
    . next heq => simp at heq
    . next heq =>
      simp only [Addr.v6.injEq] at heq
      simp [← heq.2, hzone]
    . rfl

end ModelGateway
