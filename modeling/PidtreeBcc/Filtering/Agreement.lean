import Mathlib.Data.Int.Interval
import PidtreeBcc.Filtering.NetFilter
import PidtreeBcc.Python.Netmasks
import PidtreeBcc.Support.Cover

/-!
# Agreement — when the userland filter agrees with the trie

The condition is one on the entries of the list: on the numbers of their ports, and on how far the network
of one is covered by the networks of others.  A network is a pattern here, that of a prefix for the kernel
and that of a mask for userland.

- `within` and `beyond` say that userland filters no more than the kernel;
- `covered` says that it filters no less.
-/

namespace PidtreeBcc

open Support Support.Pattern

/-! ## The ports of an entry -/

/-- The numbers that `int()` makes of the elements. -/
def PortsField.numbers (field : PortsField) : List Int :=
  field.truthy.filterMap fun spec => spec.toInt.toOption

theorem PortsField.mem_numbers_iff {field : PortsField} {n : Int} :
    n ∈ field.numbers ↔ ∃ spec ∈ field.truthy, spec.toInt = .ok n := by
  unfold PortsField.numbers
  rw [List.mem_filterMap]
  refine exists_congr fun spec => and_congr_right fun _ => ?_
  cases spec.toInt <;> simp [Except.toOption]

theorem PortsField.Plain.numbers_eq_nil_iff {field : PortsField} (h : field.Plain) :
    field.numbers = [] ↔ field.truthy = [] := by
  constructor
  · intro hnil
    rw [List.eq_nil_iff_forall_not_mem]
    intro spec hspec
    rcases h.2 spec hspec with ⟨n, hn⟩
    have hmem : n ∈ field.numbers := mem_numbers_iff.2 ⟨spec, hspec, hn⟩
    rw [hnil] at hmem
    cases hmem
  · intro hnil
    simp [PortsField.numbers, hnil]

theorem PortsField.length_numbers_le (field : PortsField) :
    field.numbers.length ≤ field.truthy.length :=
  List.length_filterMap_le _ _

/-- The numbers as the 16-bit fields of a range keep them. -/
def inSixteenBits (ns : List Int) : List Int := ns.map (· % 65536)

namespace FilterEntry

variable {e : Endian} {entry other : FilterEntry}

/-- Userland filters the port by the two lists. -/
def userSelects (entry : FilterEntry) (port : BitVec 16) : Bool :=
  decide ((port.toNat : Int) ∉ entry.exceptPorts.numbers) &&
    (decide (entry.includePorts.numbers = []) ||
      decide ((port.toNat : Int) ∈ entry.includePorts.numbers))

/-- The kernel filters the port by the list that it uses. -/
def kernelSelects (entry : FilterEntry) (port : BitVec 16) : Bool :=
  match entry.exceptPorts.numbers, entry.includePorts.numbers with
  | [], [] => true
  | [], listed => decide ((port.toNat : Int) ∈ inSixteenBits listed)
  | spared, _ => decide ((port.toNat : Int) ∉ inSixteenBits spared)

/-- The entry lists some port from 1 to 65535 for userland. -/
def SelectsSome (entry : FilterEntry) : Prop :=
  entry.includePorts.numbers = [] ∨
    ∃ n ∈ entry.includePorts.numbers, 1 ≤ n ∧ n ≤ 65535 ∧ n ∉ entry.exceptPorts.numbers

/-- By the lists, the ports of `other` in userland are ports of `entry` in the kernel: `entry` has no list;
or all that `other` includes is listed; or what `entry` spares is spared by `other` as well. -/
def PortsWithin (other entry : FilterEntry) : Prop :=
  match entry.exceptPorts.numbers, entry.includePorts.numbers with
  | [], [] => True
  | [], listed =>
      other.includePorts.numbers ≠ [] ∧
        ∀ n ∈ other.includePorts.numbers, 1 ≤ n → n ≤ 65535 →
          n ∈ other.exceptPorts.numbers ∨ n ∈ inSixteenBits listed
  | spared, _ =>
      ∀ n ∈ inSixteenBits spared, n = 0 ∨ n ∈ other.exceptPorts.numbers ∨
        (other.includePorts.numbers ≠ [] ∧ n ∉ other.includePorts.numbers)

theorem userSelects_iff (h : entry.Plain) {port : BitVec 16} :
    entry.userSelects port = true ↔ entry.UserPorts port := by
  unfold userSelects UserPorts
  simp only [Bool.and_eq_true, Bool.or_eq_true, decide_eq_true_eq, PortsField.mem_numbers_iff,
    h.2.numbers_eq_nil_iff, PortSpec.Is, not_exists, not_and]

/-- What the loader takes and `int()` as well is an integer. -/
theorem int_of_fromConfValue {spec : PortSpec} {r : CPortRange} {n : Int}
    (hr : CPortRange.fromConfValue spec = .ok r) (hn : spec.toInt = .ok n) : spec = .int n := by
  cases spec with
  | int k =>
      cases hn
      rfl
  | str s =>
      rcases map_eq_ok.1 hr with ⟨b, hb, _⟩
      simp only [PortSpec.bounds] at hb
      split at hb
      · rename_i hdash
        exact absurd hn (pyInt_of_range hdash hb n)
      · cases hb

theorem covers_int_iff {n : Int} {port : BitVec 16} :
    (PortSpec.int n).Covers port ↔ n % 65536 = (port.toNat : Int) := by
  have hmod : n % 65536 = ((BitVec.ofInt 16 n).toNat : Int) := by
    rw [BitVec.toNat_ofInt]
    omega
  rw [hmod, Int.natCast_inj]
  simp only [PortSpec.Covers, CPortRange.fromConfValue, PortSpec.bounds, Except.map, Except.ok.injEq,
    exists_eq_left', CPortRange.matches, Bool.and_eq_true, decide_eq_true_eq, BitVec.le_def]
  omega

/-- The list that the kernel uses covers the ports of its numbers. -/
theorem exists_covers_iff {field : PortsField} (h : field.Plain) {rs : List CPortRange}
    (hrs : field.truthy.mapM CPortRange.fromConfValue = .ok rs) (port : BitVec 16) :
    (∃ spec ∈ field.truthy, spec.Covers port) ↔
      (port.toNat : Int) ∈ inSixteenBits field.numbers := by
  have hints : ∀ spec ∈ field.truthy, ∃ n, spec.toInt = .ok n ∧ spec = .int n := by
    intro spec hspec
    rcases h.2 spec hspec with ⟨n, hn⟩
    rcases (exists_mapM_eq_ok.1 ⟨rs, hrs⟩) spec hspec with ⟨r, hr⟩
    exact ⟨n, hn, int_of_fromConfValue hr hn⟩
  unfold inSixteenBits
  rw [List.mem_map]
  constructor
  · rintro ⟨spec, hspec, hcovers⟩
    rcases hints spec hspec with ⟨n, hn, rfl⟩
    exact ⟨n, PortsField.mem_numbers_iff.2 ⟨_, hspec, hn⟩, covers_int_iff.1 hcovers⟩
  · rintro ⟨n, hn, hmod⟩
    rcases PortsField.mem_numbers_iff.1 hn with ⟨spec, hspec, hint⟩
    rcases hints spec hspec with ⟨n', hn', rfl⟩
    rw [hint] at hn'
    cases hn'
    exact ⟨_, hspec, covers_int_iff.2 hmod⟩

/-- The loader takes the entry. -/
def Accepted (e : Endian) (entry : FilterEntry) : Prop := ∃ item, filterItem e entry = .ok item

/-- The list that is used is parsed, and is short. -/
theorem Accepted.usedPorts (h : entry.Accepted e) :
    (entry.exceptPorts.truthy ≠ [] → ∃ rs, entry.exceptPorts.truthy.mapM CPortRange.fromConfValue =
        .ok rs ∧ entry.exceptPorts.truthy.length ≤ NET_FILTER_MAX_PORT_RANGES) ∧
      (entry.exceptPorts.truthy = [] → ∃ rs, entry.includePorts.truthy.mapM CPortRange.fromConfValue =
        .ok rs ∧ entry.includePorts.truthy.length ≤ NET_FILTER_MAX_PORT_RANGES) := by
  rcases h with ⟨item, hitem⟩
  rcases filterItem_eq_ok hitem with ⟨parts⟩
  have hports := parts.entryPorts_eq
  have hlen := parts.length_le
  unfold entryPorts at hports
  have hused : ∀ {specs : List PortSpec} {mode : PortFilterMode},
      (specs.mapM CPortRange.fromConfValue).map (fun rs => (mode, rs)) = .ok (parts.mode, parts.ranges) →
        ∃ rs, specs.mapM CPortRange.fromConfValue = .ok rs ∧
          specs.length ≤ NET_FILTER_MAX_PORT_RANGES := by
    intro specs mode hmap
    rcases map_eq_ok.1 hmap with ⟨rs, hrs, heq⟩
    cases heq
    exact ⟨_, hrs, (mapM_eq_ok.1 hrs).length_eq ▸ hlen⟩
  constructor
  · intro hexcept
    cases hspecs : entry.exceptPorts.truthy with
    | nil => exact absurd hspecs hexcept
    | cons spec specs =>
        rw [hspecs] at hports
        exact hused hports
  · intro hexcept
    rw [hexcept] at hports
    cases hspecs : entry.includePorts.truthy with
    | nil => exact ⟨[], rfl, Nat.zero_le _⟩
    | cons spec specs =>
        rw [hspecs] at hports
        exact hused hports

theorem kernelSelects_iff (h : entry.Plain) (hentry : entry.Accepted e) {port : BitVec 16} :
    entry.kernelSelects port = true ↔ entry.KernelPorts port := by
  rcases hentry.usedPorts with ⟨hexcept, hinclude⟩
  unfold kernelSelects KernelPorts
  cases hspared : entry.exceptPorts.truthy with
  | nil =>
      rcases hinclude hspared with ⟨rs, hrs, _⟩
      have hnil := h.1.numbers_eq_nil_iff.2 hspared
      have hcovers := exists_covers_iff h.2 hrs port
      cases hlisted : entry.includePorts.truthy with
      | nil =>
          simp [hnil, h.2.numbers_eq_nil_iff.2 hlisted]
      | cons spec specs =>
          have hne : entry.includePorts.numbers ≠ [] := by
            rw [Ne, h.2.numbers_eq_nil_iff, hlisted]
            simp
          rw [hlisted] at hcovers
          cases hnumbers : entry.includePorts.numbers with
          | nil => exact absurd hnumbers hne
          | cons n ns =>
              rw [hnumbers] at hcovers
              simp only [hnil, decide_eq_true_eq, ← hcovers]
  | cons spec specs =>
      rcases hexcept (by simp [hspared]) with ⟨rs, hrs, _⟩
      have hcovers := exists_covers_iff h.1 hrs port
      have hne : entry.exceptPorts.numbers ≠ [] := by
        rw [Ne, h.1.numbers_eq_nil_iff, hspared]
        simp
      rw [hspared] at hcovers
      cases hnumbers : entry.exceptPorts.numbers with
      | nil => exact absurd hnumbers hne
      | cons n ns =>
          rw [hnumbers] at hcovers
          simp only [decide_eq_true_eq, ← hcovers, not_exists, not_and]

/-- The list of exceptions is short, as it is the one that is used unless it is empty. -/
theorem Accepted.length_except_le (h : entry.Accepted e) :
    entry.exceptPorts.numbers.length ≤ NET_FILTER_MAX_PORT_RANGES := by
  refine (PortsField.length_numbers_le _).trans ?_
  by_cases hnil : entry.exceptPorts.truthy = []
  · simp [hnil]
  · rcases h.usedPorts.1 hnil with ⟨_, _, hlen⟩
    exact hlen

theorem Accepted.length_include_le (h : entry.Accepted e) (hplain : entry.Plain)
    (hnil : entry.exceptPorts.numbers = []) :
    entry.includePorts.numbers.length ≤ NET_FILTER_MAX_PORT_RANGES := by
  refine (PortsField.length_numbers_le _).trans ?_
  rcases h.usedPorts.2 (hplain.1.numbers_eq_nil_iff.1 hnil) with ⟨_, _, hlen⟩
  exact hlen

end FilterEntry

section Ports

theorem exists_port {n : Int} (h₁ : 1 ≤ n) (h₂ : n ≤ 65535) :
    ∃ port : BitVec 16, port ≠ 0 ∧ (port.toNat : Int) = n := by
  have hnat : (BitVec.ofNat 16 n.toNat).toNat = n.toNat := Nat.mod_eq_of_lt (by omega)
  refine ⟨BitVec.ofNat 16 n.toNat, ?_, by omega⟩
  intro hzero
  rw [hzero] at hnat
  simp at hnat
  omega

theorem port_bounds {port : BitVec 16} (h : port ≠ 0) :
    1 ≤ (port.toNat : Int) ∧ (port.toNat : Int) ≤ 65535 := by
  have hpos : port.toNat ≠ 0 := fun hzero => h (BitVec.eq_of_toNat_eq hzero)
  have hlt := port.isLt
  omega

/-- A short list of numbers leaves a port out. -/
theorem exists_port_not_mem {ns : List Int} (h : ns.length ≤ 16) :
    ∃ port : BitVec 16, port ≠ 0 ∧ (port.toNat : Int) ∉ ns := by
  have hcard : ns.toFinset.card < (Finset.Icc (1 : Int) 17).card := by
    calc
      ns.toFinset.card ≤ ns.length := ns.toFinset_card_le
      _ ≤ 16 := h
      _ < (Finset.Icc (1 : Int) 17).card := by simp
  rcases Finset.exists_mem_notMem_of_card_lt_card hcard with ⟨n, hn, hfree⟩
  rcases Finset.mem_Icc.1 hn with ⟨h₁, h₂⟩
  rcases exists_port h₁ (by omega) with ⟨port, hport, heq⟩
  exact ⟨port, hport, heq ▸ fun hmem => hfree (List.mem_toFinset.2 hmem)⟩

end Ports

namespace FilterEntry

variable {e : Endian} {entry other : FilterEntry}

theorem selectsSome_iff (h : entry.Plain) (hentry : entry.Accepted e) :
    entry.SelectsSome ↔ ∃ port ≠ 0, entry.UserPorts port := by
  simp only [← userSelects_iff h]
  unfold SelectsSome userSelects
  simp only [Bool.and_eq_true, Bool.or_eq_true, decide_eq_true_eq]
  constructor
  · rintro (hnil | ⟨n, hn, h₁, h₂, hspared⟩)
    · -- The exceptions are too few to spare every port.
      have hlen := hentry.length_except_le
      rcases exists_port_not_mem (hlen.trans (by decide)) with ⟨port, hport, hfree⟩
      exact ⟨port, hport, hfree, Or.inl hnil⟩
    · rcases exists_port h₁ h₂ with ⟨port, hport, rfl⟩
      exact ⟨port, hport, hspared, Or.inr hn⟩
  · rintro ⟨port, hport, hspared, hnil | hlisted⟩
    · exact Or.inl hnil
    · exact Or.inr ⟨_, hlisted, (port_bounds hport).1, (port_bounds hport).2, hspared⟩

theorem mem_inSixteenBits_bounds {ns : List Int} {n : Int} (h : n ∈ inSixteenBits ns) :
    0 ≤ n ∧ n ≤ 65535 := by
  rcases List.mem_map.1 h with ⟨m, _, rfl⟩
  omega

/-- The lists tell whether every port of the one is a port of the other. -/
theorem portsWithin_iff (h : other.Plain) (hother : other.Accepted e) (h' : entry.Plain)
    (hentry : entry.Accepted e) :
    other.PortsWithin entry ↔ ∀ port ≠ 0, other.UserPorts port → entry.KernelPorts port := by
  simp only [← userSelects_iff h, ← kernelSelects_iff h' hentry]
  unfold PortsWithin kernelSelects userSelects
  simp only [Bool.and_eq_true, Bool.or_eq_true, decide_eq_true_eq]
  cases hexcept : entry.exceptPorts.numbers with
  | nil =>
      have hlen := hentry.length_include_le h' hexcept
      cases hinclude : entry.includePorts.numbers with
      | nil => simp
      | cons k ks =>
          rw [hinclude] at hlen
          simp only [decide_eq_true_eq]
          constructor
          · rintro ⟨hne, hall⟩ port hport ⟨hspared, hnil | hlisted⟩
            · exact absurd hnil hne
            · rcases hall _ hlisted (port_bounds hport).1 (port_bounds hport).2 with hmem | hmem
              · exact absurd hmem hspared
              · exact hmem
          · intro hall
            constructor
            · -- Two short lists cannot hold every port.
              intro hnil
              have hboth : (other.exceptPorts.numbers ++ inSixteenBits (k :: ks)).length ≤ 16 := by
                have hle := Nat.add_le_add hother.length_except_le hlen
                simpa [inSixteenBits, NET_FILTER_MAX_PORT_RANGES] using hle
              rcases exists_port_not_mem hboth with ⟨port, hport, hfree⟩
              rw [List.mem_append, not_or] at hfree
              exact hfree.2 (hall port hport ⟨hfree.1, Or.inl hnil⟩)
            · intro n hn h₁ h₂
              rcases exists_port h₁ h₂ with ⟨port, hport, rfl⟩
              by_cases hspared : (port.toNat : Int) ∈ other.exceptPorts.numbers
              · exact Or.inl hspared
              · exact Or.inr (hall port hport ⟨hspared, Or.inr hn⟩)
  | cons k ks =>
      simp only [decide_eq_true_eq]
      constructor
      · rintro hall port hport ⟨hspared, hlists⟩ hmem
        rcases hall _ hmem with hzero | hmem' | ⟨hne, hnot⟩
        · have hbounds := port_bounds hport
          omega
        · exact hspared hmem'
        · exact hlists.elim hne hnot
      · intro hall n hn
        by_cases hzero : n = 0
        · exact Or.inl hzero
        have hbounds := mem_inSixteenBits_bounds hn
        rcases exists_port (n := n) (by omega) hbounds.2 with ⟨port, hport, rfl⟩
        by_cases hspared : (port.toNat : Int) ∈ other.exceptPorts.numbers
        · exact Or.inr (Or.inl hspared)
        refine Or.inr (Or.inr ⟨?_, ?_⟩)
        · exact fun hnil => hall port hport ⟨hspared, Or.inl hnil⟩ hn
        · exact fun hlisted => hall port hport ⟨hspared, Or.inr hlisted⟩ hn

/-! ## The networks of an entry -/

/-- The addresses for which the kernel may find the entry. -/
def kernelNetwork (e : Endian) (entry : FilterEntry) : Pattern := .ofPrefix 32 (entry.path e)

/-- The addresses that pass the mask test in userland. -/
def userNetwork (entry : FilterEntry) : Pattern :=
  match entry.network.map inetAton, entry.networkMask.map inetAton with
  | some (.ok network), some (.ok mask) => .masked mask.bits network.bits
  | _, _ => []

/-- The kernel networks that go before that of entry number `i`: those with a longer prefix, and those as
long that are listed later. -/
def overruling (e : Endian) (filters : List FilterEntry) (i : Nat) (entry : FilterEntry) :
    List Pattern :=
  (filters.zipIdx.filter fun p =>
      decide ((entry.path e).length < (p.1.path e).length) ||
        (decide ((p.1.path e).length = (entry.path e).length) && decide (i < p.2))).map fun p =>
    p.1.kernelNetwork e

theorem length_path_le (e : Endian) (entry : FilterEntry) : (entry.path e).length ≤ 32 := by
  unfold path
  split
  · simp [CFilterKey.path]
  · simp

@[simp] theorem length_kernelNetwork (e : Endian) (entry : FilterEntry) :
    (entry.kernelNetwork e).length = 32 :=
  length_ofPrefix (length_path_le e entry)

theorem fits_kernelNetwork_iff {a : Ipv4} :
    Fits a.bits (entry.kernelNetwork e) ↔ entry.path e <+: a.bits :=
  fits_ofPrefix_iff (length_path_le e entry) a.length_bits

theorem Accepted.length_userNetwork (h : entry.Accepted e) : entry.userNetwork.length = 32 := by
  rcases h with ⟨item, hitem⟩
  rcases filterItem_eq_ok hitem with ⟨parts⟩
  simp [userNetwork, parts.network_eq, parts.mask_eq, parts.inetAton_network, parts.inetAton_mask]

theorem fits_userNetwork_iff (h : entry.Accepted e) {a : Ipv4} :
    Fits a.bits entry.userNetwork ↔ entry.Matches a := by
  rcases h with ⟨item, hitem⟩
  rcases filterItem_eq_ok hitem with ⟨parts⟩
  have hmatches : entry.Matches a ↔ a.and parts.mask = parts.network.and parts.mask := by
    simp only [Matches, parts.network_eq, parts.mask_eq, Option.some.injEq]
    constructor
    · rintro ⟨s, network, t, mask, rfl, hnetwork, rfl, hmask, heq⟩
      rw [parts.inetAton_network] at hnetwork
      rw [parts.inetAton_mask] at hmask
      cases hnetwork
      cases hmask
      exact heq
    · exact fun heq => ⟨_, _, _, _, rfl, parts.inetAton_network, rfl, parts.inetAton_mask, heq⟩
  rw [hmatches]
  simp only [userNetwork, parts.network_eq, parts.mask_eq, Option.map_some, parts.inetAton_network,
    parts.inetAton_mask]
  rw [fits_masked_iff (by simp) (by simp), ← Ipv4.bits_and, ← Ipv4.bits_and]
  exact Ipv4.bits_injective.eq_iff

theorem mem_overruling_iff {filters : List FilterEntry} {i : Nat} {q : Pattern} :
    q ∈ overruling e filters i entry ↔ ∃ j other, filters[j]? = some other ∧
      other.kernelNetwork e = q ∧ ((entry.path e).length < (other.path e).length ∨
        ((other.path e).length = (entry.path e).length ∧ i < j)) := by
  unfold overruling
  simp only [List.mem_map, List.mem_filter, Bool.or_eq_true, Bool.and_eq_true, decide_eq_true_eq,
    Prod.exists, List.mem_zipIdx_iff_getElem?]
  constructor
  · rintro ⟨other, j, ⟨hj, hbefore⟩, rfl⟩
    exact ⟨j, other, hj, rfl, hbefore⟩
  · rintro ⟨j, other, hj, rfl, hbefore⟩
    exact ⟨other, j, ⟨hj, hbefore⟩, rfl⟩

/-- An entry decides the addresses of its network that no network before it has. -/
theorem decides_iff {filters : List FilterEntry} {i : Nat} {a : Ipv4} :
    Decides e filters i entry a ↔ filters[i]? = some entry ∧
      Fits a.bits (entry.kernelNetwork e) ∧
        ¬ ∃ s ∈ overruling e filters i entry, Fits a.bits s := by
  unfold Decides
  rw [fits_kernelNetwork_iff]
  refine and_congr_right fun _ => and_congr_right fun _ => ?_
  constructor
  · rintro hfirst ⟨s, hs, hfits⟩
    rcases mem_overruling_iff.1 hs with ⟨j, other, hj, rfl, hbefore⟩
    have hafter := hfirst j other hj (fits_kernelNetwork_iff.1 hfits)
    omega
  · intro hnone j other hj hpre
    by_contra hnot
    refine hnone ⟨other.kernelNetwork e, mem_overruling_iff.2 ⟨j, other, hj, rfl, ?_⟩,
      fits_kernelNetwork_iff.2 hpre⟩
    omega

end FilterEntry

/-- The words of a network are addresses. -/
theorem covers_iff_addresses {q : Pattern} {S : List Pattern} (hq : q.length = 32) :
    covers q S = true ↔ ∀ a : Ipv4, Fits a.bits q → ∃ s ∈ S, Fits a.bits s := by
  rw [covers_iff]
  constructor
  · exact fun h a ha => h a.bits ha
  · intro h w hw
    rcases Ipv4.exists_bits (hw.length_eq.trans hq) with ⟨a, rfl⟩
    exact h a hw

/-! ## Agreement -/

/-- When the two filters agree on a list. -/
structure Agreeable (e : Endian) (filters : List FilterEntry) : Prop where
  plain : ∀ entry ∈ filters, entry.Plain
  /-- Where the mask test of one entry holds in the network of another one, and no network goes before
  that, the ports of the first are ports of the second. -/
  within : ∀ (i : Nat) (entry : FilterEntry), filters[i]? = some entry →
    ∀ other ∈ filters, ¬ other.PortsWithin entry →
      ∀ common, meet (entry.kernelNetwork e) other.userNetwork = some common →
        covers common (FilterEntry.overruling e filters i entry) = true
  /-- For each port of an entry, its network is covered by those before it and those of the entries that
  have the port in userland. -/
  covered : ∀ (i : Nat) (entry : FilterEntry), filters[i]? = some entry →
    ∀ port ≠ 0, entry.kernelSelects port = true →
      covers (entry.kernelNetwork e) (FilterEntry.overruling e filters i entry ++
        (filters.filter (·.userSelects port)).map FilterEntry.userNetwork) = true
  /-- An entry with a port has no address outside the networks of the kernel. -/
  beyond : ∀ entry ∈ filters, entry.SelectsSome →
    covers entry.userNetwork (filters.map (FilterEntry.kernelNetwork e)) = true

/-- `NetFilter` accepts the list, and filters the addresses and ports that the kernel filters. -/
def FiltersAgree (e : Endian) (m : NetFilterMap) (filters : List FilterEntry) : Prop :=
  ∃ fs, NetFilter.init e filters = .ok fs ∧ ∀ (a : Ipv4) (port : BitVec 16), port ≠ 0 →
    fs.isFiltered (unpackL e a) port.toNat = isAddrPortFiltered e m (unpackL e a) port

/-- The same address by address: what the deciding entry filters is what the entries with the address
filter together. -/
structure AgreesByAddress (e : Endian) (filters : List FilterEntry) : Prop where
  plain : ∀ entry ∈ filters, entry.Plain
  within : ∀ i deciding a, FilterEntry.Decides e filters i deciding a →
    ∀ entry ∈ filters, entry.Matches a → ∀ port ≠ 0, entry.UserPorts port → deciding.KernelPorts port
  covered : ∀ i deciding a, FilterEntry.Decides e filters i deciding a →
    ∀ port ≠ 0, deciding.KernelPorts port → ∃ entry ∈ filters, entry.Matches a ∧ entry.UserPorts port
  beyond : ∀ a, (∀ entry ∈ filters, ¬ entry.path e <+: a.bits) →
    ∀ entry ∈ filters, entry.Matches a → ∀ port ≠ 0, ¬ entry.UserPorts port

section Agreement

variable {e : Endian} {filters : List FilterEntry}

theorem Items.accepted {items : List (CFilterKey × CFilterValue)} (h : Items e filters items) :
    ∀ entry ∈ filters, entry.Accepted e := by
  intro entry hentry
  rcases List.mem_iff_getElem?.1 hentry with ⟨i, hi⟩
  rcases h.item_of_entry hi with ⟨item, _, hitem⟩
  exact ⟨item, hitem⟩

/-- The conditions on the entries say what happens at their addresses. -/
theorem agreeable_iff (haccepted : ∀ entry ∈ filters, entry.Accepted e) :
    Agreeable e filters ↔ AgreesByAddress e filters := by
  have hmeet : ∀ {entry other : FilterEntry} {common : Pattern},
      meet (entry.kernelNetwork e) other.userNetwork = some common → common.length = 32 := by
    intro entry other common h
    rw [length_meet h, FilterEntry.length_kernelNetwork]
  constructor
  · intro h
    refine ⟨h.plain, ?_, ?_, ?_⟩
    · intro i deciding a hdecides other hother hmatches
      rcases FilterEntry.decides_iff.1 hdecides with ⟨hi, hfits, hfirst⟩
      have hdeciding := List.mem_of_getElem? hi
      rw [← FilterEntry.portsWithin_iff (h.plain _ hother) (haccepted _ hother)
        (h.plain _ hdeciding) (haccepted _ hdeciding)]
      by_contra hports
      -- The address is common to both networks, and nothing covers it.
      rcases fits_meet_iff.2 ⟨hfits, (FilterEntry.fits_userNetwork_iff (haccepted _ hother)).2 hmatches⟩
        with ⟨common, hcommon, hcommonFits⟩
      have hcovers := h.within i deciding hi other hother hports common hcommon
      exact hfirst ((covers_iff_addresses (hmeet hcommon)).1 hcovers a hcommonFits)
    · intro i deciding a hdecides port hport hkernel
      rcases FilterEntry.decides_iff.1 hdecides with ⟨hi, hfits, hfirst⟩
      have hdeciding := List.mem_of_getElem? hi
      rw [← FilterEntry.kernelSelects_iff (h.plain _ hdeciding) (haccepted _ hdeciding)] at hkernel
      have hcovers := h.covered i deciding hi port hport hkernel
      rcases (covers_iff_addresses (by simp)).1 hcovers a hfits with ⟨s, hs, hsfits⟩
      rcases List.mem_append.1 hs with hs | hs
      · exact absurd ⟨s, hs, hsfits⟩ hfirst
      · rcases List.mem_map.1 hs with ⟨entry, hentry, rfl⟩
        rcases List.mem_filter.1 hentry with ⟨hentry, hselects⟩
        exact ⟨entry, hentry, (FilterEntry.fits_userNetwork_iff (haccepted _ hentry)).1 hsfits,
          (FilterEntry.userSelects_iff (h.plain _ hentry)).1 hselects⟩
    · intro a hnone entry hentry hmatches port hport huser
      have hsome := (FilterEntry.selectsSome_iff (h.plain _ hentry) (haccepted _ hentry)).2
        ⟨port, hport, huser⟩
      have hcovers := h.beyond entry hentry hsome
      rcases (covers_iff_addresses (haccepted _ hentry).length_userNetwork).1 hcovers a
        ((FilterEntry.fits_userNetwork_iff (haccepted _ hentry)).2 hmatches) with ⟨s, hs, hsfits⟩
      rcases List.mem_map.1 hs with ⟨other, hother, rfl⟩
      exact hnone other hother (FilterEntry.fits_kernelNetwork_iff.1 hsfits)
  · intro h
    refine ⟨h.plain, ?_, ?_, ?_⟩
    · intro i entry hi other hother hports common hcommon
      have hentry := List.mem_of_getElem? hi
      rw [FilterEntry.portsWithin_iff (h.plain _ hother) (haccepted _ hother) (h.plain _ hentry)
        (haccepted _ hentry)] at hports
      rw [covers_iff_addresses (hmeet hcommon)]
      intro a ha
      rcases fits_meet_iff.1 ⟨common, hcommon, ha⟩ with ⟨hkernel, huser⟩
      by_contra hfirst
      refine hports ?_
      exact h.within i entry a (FilterEntry.decides_iff.2 ⟨hi, hkernel, hfirst⟩) other hother
        ((FilterEntry.fits_userNetwork_iff (haccepted _ hother)).1 huser)
    · intro i entry hi port hport hselects
      have hentry := List.mem_of_getElem? hi
      rw [FilterEntry.kernelSelects_iff (h.plain _ hentry) (haccepted _ hentry)] at hselects
      rw [covers_iff_addresses (by simp)]
      intro a ha
      by_cases hfirst : ∃ s ∈ FilterEntry.overruling e filters i entry, Fits a.bits s
      · rcases hfirst with ⟨s, hs, hsfits⟩
        exact ⟨s, List.mem_append_left _ hs, hsfits⟩
      · rcases h.covered i entry a (FilterEntry.decides_iff.2 ⟨hi, ha, hfirst⟩) port hport hselects with
          ⟨other, hother, hmatches, huser⟩
        refine ⟨other.userNetwork, List.mem_append_right _ (List.mem_map_of_mem ?_),
          (FilterEntry.fits_userNetwork_iff (haccepted _ hother)).2 hmatches⟩
        exact List.mem_filter.2 ⟨hother, (FilterEntry.userSelects_iff (h.plain _ hother)).2 huser⟩
    · intro entry hentry hsome
      rcases (FilterEntry.selectsSome_iff (h.plain _ hentry) (haccepted _ hentry)).1 hsome with
        ⟨port, hport, huser⟩
      rw [covers_iff_addresses (haccepted _ hentry).length_userNetwork]
      intro a ha
      by_contra hnone
      refine h.beyond a ?_ entry hentry
        ((FilterEntry.fits_userNetwork_iff (haccepted _ hentry)).1 ha) port hport huser
      intro other hother hpre
      exact hnone ⟨_, List.mem_map_of_mem hother, FilterEntry.fits_kernelNetwork_iff.2 hpre⟩

end Agreement

section Prefixes

variable {e : Endian} {filters : List FilterEntry}

/-- Some address is left to an entry that the networks before it do not cover. -/
theorem exists_decides_iff {i : Nat} {entry : FilterEntry} (hi : filters[i]? = some entry) :
    (∃ a, FilterEntry.Decides e filters i entry a) ↔
      covers (entry.kernelNetwork e) (FilterEntry.overruling e filters i entry) = false := by
  rw [← Bool.not_eq_true, covers_iff_addresses (by simp), not_forall]
  refine exists_congr fun a => ?_
  rw [FilterEntry.decides_iff, Classical.not_imp]
  exact and_iff_right hi

/-- With masks that are prefixes, the entries of an address are those whose network contains the
network of the deciding entry. -/
theorem matches_iff_of_decides (hpre : ∀ entry ∈ filters, ∀ a, entry.Matches a ↔ entry.path e <+: a.bits)
    {i : Nat} {deciding : FilterEntry} {a : Ipv4}
    (hdecides : FilterEntry.Decides e filters i deciding a) :
    ∀ entry ∈ filters, (entry.Matches a ↔ entry.path e <+: deciding.path e) := by
  intro entry hentry
  rw [hpre entry hentry]
  refine ⟨?_, fun h => h.trans hdecides.2.1⟩
  intro h
  rcases List.mem_iff_getElem?.1 hentry with ⟨j, hj⟩
  refine List.prefix_of_prefix_length_le h hdecides.2.1 ?_
  rcases hdecides.2.2 j entry hj h with hlt | ⟨heq, _⟩
  · exact Nat.le_of_lt hlt
  · exact Nat.le_of_eq heq

/-- With such masks, an entry that is not covered by the networks before it has to have the ports of the
entries around it, and no others. -/
theorem agreeable_iff_of_prefixes (haccepted : ∀ entry ∈ filters, entry.Accepted e)
    (hpre : ∀ entry ∈ filters, ∀ a, entry.Matches a ↔ entry.path e <+: a.bits) :
    Agreeable e filters ↔ (∀ entry ∈ filters, entry.Plain) ∧
      ∀ (i : Nat) (entry : FilterEntry), filters[i]? = some entry →
        covers (entry.kernelNetwork e) (FilterEntry.overruling e filters i entry) = false →
          (∀ other ∈ filters, other.path e <+: entry.path e → other.PortsWithin entry) ∧
            ∀ port ≠ 0, entry.kernelSelects port = true →
              ∃ other ∈ filters, other.path e <+: entry.path e ∧ other.userSelects port = true := by
  rw [agreeable_iff haccepted]
  constructor
  · intro h
    refine ⟨h.plain, ?_⟩
    intro i entry hi hleft
    have hentry := List.mem_of_getElem? hi
    rcases (exists_decides_iff hi).2 hleft with ⟨a, hdecides⟩
    have hnested := matches_iff_of_decides hpre hdecides
    constructor
    · intro other hother hpath
      rw [FilterEntry.portsWithin_iff (h.plain _ hother) (haccepted _ hother) (h.plain _ hentry)
        (haccepted _ hentry)]
      exact h.within i entry a hdecides other hother ((hnested other hother).2 hpath)
    · intro port hport hselects
      rw [FilterEntry.kernelSelects_iff (h.plain _ hentry) (haccepted _ hentry)] at hselects
      rcases h.covered i entry a hdecides port hport hselects with ⟨other, hother, hmatches, huser⟩
      exact ⟨other, hother, (hnested other hother).1 hmatches,
        (FilterEntry.userSelects_iff (h.plain _ hother)).2 huser⟩
  · rintro ⟨hplain, h⟩
    refine ⟨hplain, ?_, ?_, ?_⟩
    · intro i deciding a hdecides other hother hmatches
      have hdeciding := List.mem_of_getElem? hdecides.1
      rw [← FilterEntry.portsWithin_iff (hplain _ hother) (haccepted _ hother) (hplain _ hdeciding)
        (haccepted _ hdeciding)]
      exact (h i deciding hdecides.1 ((exists_decides_iff hdecides.1).1 ⟨a, hdecides⟩)).1 other hother
        ((matches_iff_of_decides hpre hdecides other hother).1 hmatches)
    · intro i deciding a hdecides port hport hkernel
      have hdeciding := List.mem_of_getElem? hdecides.1
      rw [← FilterEntry.kernelSelects_iff (hplain _ hdeciding) (haccepted _ hdeciding)] at hkernel
      rcases (h i deciding hdecides.1 ((exists_decides_iff hdecides.1).1 ⟨a, hdecides⟩)).2 port hport
        hkernel with ⟨other, hother, hpath, huser⟩
      exact ⟨other, hother, (matches_iff_of_decides hpre hdecides other hother).2 hpath,
        (FilterEntry.userSelects_iff (hplain _ hother)).1 huser⟩
    · intro a hbeyond entry hentry hmatches port _ _
      exact hbeyond entry hentry ((hpre entry hentry a).1 hmatches)

end Prefixes

/-- One list of plain port numbers, or none. -/
structure FilterEntry.SimplePorts (entry : FilterEntry) : Prop where
  one_list : entry.exceptPorts.truthy = [] ∨ entry.includePorts.truthy = []
  except_ne_null : entry.exceptPorts ≠ .null
  include_ne_null : entry.includePorts ≠ .null
  except_numbers : ∀ spec ∈ entry.exceptPorts.truthy, ∃ n : Nat, n < 2 ^ 16 ∧ spec = .int n
  include_numbers : ∀ spec ∈ entry.includePorts.truthy, ∃ n : Nat, n < 2 ^ 16 ∧ spec = .int n

/-- The kernel and userland read a port number alike. -/
theorem covers_iff_is {n : Nat} (h : n < 2 ^ 16) (port : BitVec 16) :
    (PortSpec.int n).Covers port ↔ (PortSpec.int n).Is port := by
  have hrange := fromConfValue_of_portDenotes (portDenotes_int n h)
  unfold PortSpec.Covers PortSpec.Is
  simp only [hrange, Except.ok.injEq, exists_eq_left', PortInterval.matches_toRange,
    PortInterval.contains, PortSpec.toInt, Bool.and_eq_true, decide_eq_true_eq, Int.natCast_inj]
  exact ⟨fun hle => Nat.le_antisymm hle.1 hle.2, fun heq => ⟨Nat.le_of_eq heq, Nat.le_of_eq heq.symm⟩⟩

namespace FilterEntry.SimplePorts

variable {entry : FilterEntry}

theorem plain (h : entry.SimplePorts) : entry.Plain := by
  refine ⟨⟨h.except_ne_null, ?_⟩, ⟨h.include_ne_null, ?_⟩⟩
  · intro spec hspec
    rcases h.except_numbers spec hspec with ⟨n, _, rfl⟩
    exact ⟨n, rfl⟩
  · intro spec hspec
    rcases h.include_numbers spec hspec with ⟨n, _, rfl⟩
    exact ⟨n, rfl⟩

theorem kernelPorts_iff (h : entry.SimplePorts) (port : BitVec 16) :
    entry.KernelPorts port ↔ entry.UserPorts port := by
  have hexcept : ∀ spec ∈ entry.exceptPorts.truthy, (spec.Covers port ↔ spec.Is port) := by
    intro spec hspec
    rcases h.except_numbers spec hspec with ⟨n, hn, rfl⟩
    exact covers_iff_is hn port
  have hinclude : ∀ spec ∈ entry.includePorts.truthy, (spec.Covers port ↔ spec.Is port) := by
    intro spec hspec
    rcases h.include_numbers spec hspec with ⟨n, hn, rfl⟩
    exact covers_iff_is hn port
  have hone := h.one_list
  unfold FilterEntry.KernelPorts FilterEntry.UserPorts
  cases hexceptList : entry.exceptPorts.truthy with
  | nil =>
      cases hincludeList : entry.includePorts.truthy with
      | nil => simp
      | cons spec specs =>
          rw [hincludeList] at hinclude
          simp only [List.not_mem_nil, false_imp_iff, implies_true, true_and, reduceCtorEq, false_or]
          exact exists_congr fun s => and_congr_right fun hs => hinclude s hs
  | cons spec specs =>
      rw [hexceptList] at hexcept hone
      have hnil : entry.includePorts.truthy = [] := by simpa using hone
      simp only [hnil, true_or, and_true]
      exact forall₂_congr fun s hs => not_congr (hexcept s hs)

end FilterEntry.SimplePorts

/-- Simple entries of which no network lies in another one's are agreeable. -/
theorem agreeable_of_disjoint {e : Endian} {filters : List FilterEntry}
    (haccepted : ∀ entry ∈ filters, entry.Accepted e)
    (hpre : ∀ entry ∈ filters, ∀ a, entry.Matches a ↔ entry.path e <+: a.bits)
    (hsimple : ∀ entry ∈ filters, entry.SimplePorts)
    (hdisjoint : ∀ r ∈ filters, ∀ s ∈ filters, r.path e <+: s.path e → r = s) :
    Agreeable e filters := by
  have hplain : ∀ entry ∈ filters, entry.Plain := fun entry hentry => (hsimple entry hentry).plain
  rw [agreeable_iff_of_prefixes haccepted hpre]
  refine ⟨hplain, ?_⟩
  intro i entry hi _
  have hentry := List.mem_of_getElem? hi
  have hports := (hsimple entry hentry).kernelPorts_iff
  constructor
  · intro other hother hpath
    rw [hdisjoint other hother entry hentry hpath, FilterEntry.portsWithin_iff (hplain _ hentry)
      (haccepted _ hentry) (hplain _ hentry) (haccepted _ hentry)]
    exact fun port _ huser => (hports port).2 huser
  · intro port _ hselects
    rw [FilterEntry.kernelSelects_iff (hplain _ hentry) (haccepted _ hentry), hports,
      ← FilterEntry.userSelects_iff (hplain _ hentry)] at hselects
    exact ⟨entry, hentry, List.prefix_refl _, hselects⟩

/-! ### Two separate networks, and two nested ones -/

namespace Example

theorem tenAll_simple : tenAll.SimplePorts := by
  refine ⟨Or.inl rfl, by decide, by decide, ?_, ?_⟩ <;> simp [tenAll, PortsField.truthy]

theorem lanButHttps_simple : lanButHttps.SimplePorts := by
  refine ⟨Or.inr rfl, by decide, by decide, ?_, ?_⟩
  · intro spec hspec
    exact ⟨443, by decide, by simpa [lanButHttps, PortsField.truthy] using hspec⟩
  · simp [lanButHttps, PortsField.truthy]

end Example

end PidtreeBcc
