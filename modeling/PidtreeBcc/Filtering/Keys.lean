import PidtreeBcc.Filtering.Rules
import PidtreeBcc.Python.Netmasks

/-!
# Keys — when a trie key stands for its network

A network definition selects the addresses that agree with its ip under its netmask; the kernel compares
the first `prefixlen` bits of the key's data.  The two are the same set just when the netmask consists of
ones followed by zeros, and then equal keys mean equal networks.  `ipaddress` also takes host masks, zeros
followed by ones.
-/

namespace PidtreeBcc

/-- The network definition selects the address. -/
def Selects (netmask ip : String) (a : Ipv4) : Prop :=
  ∃ m n, inetAton netmask = .ok m ∧ inetAton ip = .ok n ∧ a.and m = n.and m

/-- The first bits of the address are those of the key's data. -/
def CFilterKey.Covers (e : Endian) (k : CFilterKey) (a : Ipv4) : Prop :=
  a.bits.take k.prefixlen = k.path e

/-- The key covers the addresses that the definition selects, and its data has no further bit set. -/
structure StandsFor (e : Endian) (netmask ip : String) (k : CFilterKey) : Prop where
  selected : ∀ a, Selects netmask ip a ↔ k.Covers e a
  masked : k.Canonical e

/-- Each of two keys stands for its network, and the keys are equal just when the networks are. -/
structure KeysCanonical (e : Endian) (netmask ip netmask' ip' : String) (k k' : CFilterKey) :
    Prop where
  standsFor : StandsFor e netmask ip k
  standsFor' : StandsFor e netmask' ip' k'
  eq_iff : k = k' ↔ ∀ a, Selects netmask ip a ↔ Selects netmask' ip' a

section Definition

variable {e : Endian} {netmask ip netmask' ip' : String} {k k' : CFilterKey}

theorem fromNetworkDefinition_eq_ok :
    CFilterKey.fromNetworkDefinition e netmask ip = .ok k ↔
      ∃ m n len, inetAton netmask = .ok m ∧ inetAton ip = .ok n ∧
        netmaskToPrefixlen netmask = .ok len ∧ k = ⟨len, unpackL e (n.and m)⟩ := by
  constructor
  · intro h
    rcases bind_eq_ok.1 h with ⟨data, hdata, h⟩
    rcases bind_eq_ok.1 h with ⟨bitmask, hbitmask, h⟩
    rcases bind_eq_ok.1 h with ⟨len, hlen, h⟩
    rcases ipToInt_eq_ok.1 hdata with ⟨n, hn, rfl⟩
    rcases ipToInt_eq_ok.1 hbitmask with ⟨m, hm, rfl⟩
    cases h
    exact ⟨m, n, len, hm, hn, hlen, by rw [unpackL_and]⟩
  · rintro ⟨m, n, len, hm, hn, hlen, rfl⟩
    apply bind_eq_ok.2 ⟨_, ipToInt_eq_ok.2 ⟨n, hn, rfl⟩, _⟩
    apply bind_eq_ok.2 ⟨_, ipToInt_eq_ok.2 ⟨m, hm, rfl⟩, _⟩
    apply bind_eq_ok.2 ⟨_, hlen, _⟩
    rw [unpackL_and]
    rfl

theorem selects_iff {m n a : Ipv4} (hm : inetAton netmask = .ok m) (hn : inetAton ip = .ok n) :
    Selects netmask ip a ↔ a.and m = n.and m := by
  constructor
  · rintro ⟨m', n', hm', hn', hEq⟩
    rw [hm] at hm'
    rw [hn] at hn'
    cases hm'
    cases hn'
    exact hEq
  · exact fun hEq => ⟨m, n, hm, hn, hEq⟩

/-- A network whose addresses are given by their first bits has a mask of that many ones. -/
theorem contiguous_of_covers {m n : Ipv4} (hm : inetAton netmask = .ok m)
    (hn : inetAton ip = .ok n) (hk : k.prefixlen ≤ 32)
    (h : ∀ a, Selects netmask ip a ↔ k.Covers e a) :
    m.Contiguous k.prefixlen ∧ n.bits.take k.prefixlen = k.path e := by
  have hown : n.bits.take k.prefixlen = k.path e := (h n).1 ((selects_iff hm hn).2 rfl)
  refine ⟨Ipv4.contiguous_of_prefix n hk ?_, hown⟩
  intro a
  rw [← selects_iff hm hn, h a, hown]
  exact Iff.rfl

/-- A key stands for its network just when the netmask consists of ones followed by zeros. -/
theorem standsFor_iff (h : CFilterKey.fromNetworkDefinition e netmask ip = .ok k) :
    StandsFor e netmask ip k ↔ PrefixMask netmask := by
  rcases fromNetworkDefinition_eq_ok.1 h with ⟨m, n, len, hm, hn, hlen, rfl⟩
  constructor
  · intro hstands
    exact ⟨m, len, hm, (contiguous_of_covers hm hn hstands.masked.1 hstands.selected).1⟩
  · rintro ⟨m', ones, hm', hones⟩
    rw [hm] at hm'
    cases hm'
    have hlenEq : len = ones := prefixlen_of_contiguous hlen hm hones
    subst hlenEq
    have hpath : CFilterKey.path e ⟨len, unpackL e (n.and m)⟩ = n.bits.take len := by
      simp [CFilterKey.path, hones.take_bits_and]
    refine ⟨?_, hones.1, ?_⟩
    · intro a
      rw [selects_iff hm hn, hones.and_eq_and_iff, CFilterKey.Covers, hpath]
    · rw [hpath]
      simp [hones.bits_and]

/-- Networks that are equal, and whose keys stand for them, have equal keys. -/
theorem StandsFor.eq_of_same (h : StandsFor e netmask ip k) (h' : StandsFor e netmask' ip' k')
    (hk : CFilterKey.fromNetworkDefinition e netmask ip = .ok k)
    (hsame : ∀ a, Selects netmask ip a ↔ Selects netmask' ip' a) : k = k' := by
  rcases fromNetworkDefinition_eq_ok.1 hk with ⟨m, n, _, hm, hn, _, _⟩
  rcases contiguous_of_covers hm hn h.masked.1 h.selected with ⟨hones, hpath⟩
  rcases contiguous_of_covers hm hn h'.masked.1 fun a => (hsame a).trans (h'.selected a) with
    ⟨hones', hpath'⟩
  have hlen : k.prefixlen = k'.prefixlen := hones.unique hones'
  refine h.masked.eq_of_path h'.masked ?_
  rw [← hpath, ← hpath', hlen]

/-- Keys are canonical just when both netmasks consist of ones followed by zeros. -/
theorem keys_canonical_iff (h : CFilterKey.fromNetworkDefinition e netmask ip = .ok k)
    (h' : CFilterKey.fromNetworkDefinition e netmask' ip' = .ok k') :
    KeysCanonical e netmask ip netmask' ip' k k' ↔ PrefixMask netmask ∧ PrefixMask netmask' := by
  constructor
  · intro hcanonical
    exact ⟨(standsFor_iff h).1 hcanonical.standsFor, (standsFor_iff h').1 hcanonical.standsFor'⟩
  · rintro ⟨hmask, hmask'⟩
    have hstands := (standsFor_iff h).2 hmask
    have hstands' := (standsFor_iff h').2 hmask'
    refine ⟨hstands, hstands', ?_, hstands.eq_of_same hstands' h⟩
    intro hEq a
    rw [hstands.selected, hstands'.selected, hEq]

end Definition

/-! ### Two addresses of one network, and a host mask -/

theorem same_network_keys_canonical :
    KeysCanonical .little "255.255.0.0" "192.168.0.0" "255.255.0.0" "192.168.2.3" ⟨16, 43200⟩
      ⟨16, 43200⟩ := by
  have hmask : PrefixMask "255.255.0.0" := ⟨⟨255, 255, 0, 0⟩, 16, by decide, by decide⟩
  exact (keys_canonical_iff (by decide +kernel) (by decide +kernel)).2 ⟨hmask, hmask⟩

/-- The addresses of `0.0.0.0/8` and those that end in `.0.0.0` have one key. -/
theorem host_mask_shares_key :
    CFilterKey.fromNetworkDefinition .little "255.0.0.0" "0.0.0.0" = .ok ⟨8, 0⟩ ∧
      CFilterKey.fromNetworkDefinition .little "0.255.255.255" "10.0.0.0" = .ok ⟨8, 0⟩ ∧
      ¬ KeysCanonical .little "255.0.0.0" "0.0.0.0" "0.255.255.255" "10.0.0.0" ⟨8, 0⟩ ⟨8, 0⟩ := by
  refine ⟨by decide +kernel, by decide +kernel, ?_⟩
  intro hcanonical
  have hsame := hcanonical.eq_iff.1 rfl ⟨0, 0, 0, 1⟩
  rw [selects_iff (m := ⟨255, 0, 0, 0⟩) (n := ⟨0, 0, 0, 0⟩) (by decide) (by decide),
    selects_iff (m := ⟨0, 255, 255, 255⟩) (n := ⟨10, 0, 0, 0⟩) (by decide) (by decide)] at hsame
  exact absurd hsame (by decide)

end PidtreeBcc
