import PidtreeBcc.Filtering.Rules

/-!
# NetFilter — the userland filter beside the trie

`NetFilter` tests an address against every entry of the list, while the kernel asks only the entry that
decides the address.  Both verdicts are given here by the networks and the ports of the entries.
-/

namespace PidtreeBcc

open Support

/-! ## The userland filter -/

/-- `int(value)` of a configured port. -/
def PortSpec.toInt : PortSpec → Except PyErr Int
  | .int n => .ok n
  | .str s => pyInt s.toList

/-- `set(map(int, f.get(key, [])))`, of which only membership is used. -/
def PortsField.toInts : PortsField → Except PyErr (List Int)
  | .absent => .ok []
  -- `f.get` gives the `None` that is there, which cannot be iterated.
  | .null => .error (.builtin .TypeError)
  | .ports specs => specs.mapM PortSpec.toInt

structure IpPortFilter where
  subnet : BitVec 32
  netmask : BitVec 32
  exceptPorts : List Int
  includePorts : List Int
  deriving DecidableEq, Repr

def IpPortFilter.ofEntry (e : Endian) (f : FilterEntry) : Except PyErr IpPortFilter := do
  let network ← subscript f.network
  let ip ← ipToInt e network
  let networkMask ← subscript f.networkMask
  let netmask ← ipToInt e networkMask
  let exceptPorts ← f.exceptPorts.toInts
  let includePorts ← f.includePorts.toInts
  return ⟨ip &&& netmask, netmask, exceptPorts, includePorts⟩

/-- The condition of one filter. -/
def IpPortFilter.test (f : IpPortFilter) (ipAddress : BitVec 32) (port : Int) : Bool :=
  decide (f.netmask &&& ipAddress = f.subnet) && decide (port ∉ f.exceptPorts) &&
    (decide (f.includePorts = []) || decide (port ∈ f.includePorts))

abbrev NetFilter := List IpPortFilter

namespace NetFilter

/-- `NetFilter(filters)`. -/
def init (e : Endian) (filters : List FilterEntry) : Except PyErr NetFilter :=
  filters.mapM (IpPortFilter.ofEntry e)

def isFiltered (filters : NetFilter) (ipAddress : BitVec 32) (port : Int) : Bool :=
  filters.any fun f => f.test ipAddress port

/-- `is_filtered` with the address as a string. -/
def isFilteredStr (e : Endian) (filters : NetFilter) (ipAddress : String) (port : Int) :
    Except PyErr Bool :=
  (ipToInt e ipAddress).map fun ip => filters.isFiltered ip port

end NetFilter

/-! ## The two readings of an entry -/

/-- The specification, stored in 16-bit bounds, covers the port. -/
def PortSpec.Covers (spec : PortSpec) (port : BitVec 16) : Prop :=
  ∃ r, CPortRange.fromConfValue spec = .ok r ∧ r.matches port = true

/-- The specification is the number of the port. -/
def PortSpec.Is (spec : PortSpec) (port : BitVec 16) : Prop := spec.toInt = .ok (port.toNat : Int)

/-- `int()` takes every element, and the field is not null. -/
def PortsField.Plain (field : PortsField) : Prop :=
  field ≠ .null ∧ ∀ spec ∈ field.truthy, ∃ n, spec.toInt = .ok n

namespace FilterEntry

/-- The path of the trie key of an entry that the loader accepts. -/
def path (e : Endian) (entry : FilterEntry) : List Bool :=
  match filterItem e entry with
  | .ok item => item.1.path e
  | .error _ => []

/-- The ports that the entry filters in the kernel: `except_ports` goes before `include_ports`. -/
def KernelPorts (entry : FilterEntry) (port : BitVec 16) : Prop :=
  match entry.exceptPorts.truthy, entry.includePorts.truthy with
  | [], [] => True
  | [], specs => ∃ spec ∈ specs, spec.Covers port
  | specs, _ => ∀ spec ∈ specs, ¬ spec.Covers port

/-- The ports that the entry filters in userland: both lists count. -/
def UserPorts (entry : FilterEntry) (port : BitVec 16) : Prop :=
  (∀ spec ∈ entry.exceptPorts.truthy, ¬ spec.Is port) ∧
    (entry.includePorts.truthy = [] ∨ ∃ spec ∈ entry.includePorts.truthy, spec.Is port)

/-- The address is in the network, under the mask of the entry. -/
def Matches (entry : FilterEntry) (a : Ipv4) : Prop :=
  ∃ s network t mask, entry.network = some s ∧ inetAton s = .ok network ∧
    entry.networkMask = some t ∧ inetAton t = .ok mask ∧ a.and mask = network.and mask

/-- `NetFilter` accepts the port lists. -/
def Plain (entry : FilterEntry) : Prop := entry.exceptPorts.Plain ∧ entry.includePorts.Plain

/-- Entry number `i` decides the address in the kernel: its path is a prefix of the address, and no
entry with that property has a longer path, nor one as long and a later place. -/
def Decides (e : Endian) (filters : List FilterEntry) (i : Nat) (entry : FilterEntry) (a : Ipv4) :
    Prop :=
  filters[i]? = some entry ∧ entry.path e <+: a.bits ∧
    ∀ j other, filters[j]? = some other → other.path e <+: a.bits →
      (other.path e).length < (entry.path e).length ∨
        ((other.path e).length = (entry.path e).length ∧ j ≤ i)

end FilterEntry

/-! ## What the loader accepts -/

/-- The parts that an item is made of. -/
structure MadeOf (e : Endian) (entry : FilterEntry) (item : CFilterKey × CFilterValue) where
  (networkText maskText : String)
  (network mask : Ipv4)
  prefixlen : Nat
  mode : PortFilterMode
  ranges : List CPortRange
  length_le : ranges.length ≤ NET_FILTER_MAX_PORT_RANGES
  network_eq : entry.network = some networkText
  mask_eq : entry.networkMask = some maskText
  inetAton_network : inetAton networkText = .ok network
  inetAton_mask : inetAton maskText = .ok mask
  prefixlen_eq : netmaskToPrefixlen maskText = .ok prefixlen
  entryPorts_eq : entryPorts entry = .ok (mode, ranges)
  item_eq : item = (⟨prefixlen, unpackL e network &&& unpackL e mask⟩,
    ⟨mode.value, BitVec.ofNat 8 ranges.length, padRanges ranges length_le⟩)

theorem filterItem_eq_ok {e : Endian} {entry : FilterEntry} {item : CFilterKey × CFilterValue}
    (h : filterItem e entry = .ok item) : Nonempty (MadeOf e entry item) := by
  rcases bind_eq_ok.1 h with ⟨maskText, hmask, h⟩
  rcases bind_eq_ok.1 h with ⟨networkText, hnetwork, h⟩
  rcases bind_eq_ok.1 h with ⟨key, hkey, h⟩
  rcases bind_eq_ok.1 h with ⟨⟨mode, ranges⟩, hports, h⟩
  rcases bind_eq_ok.1 h with ⟨array, harray, h⟩
  rcases bind_eq_ok.1 hkey with ⟨data, hdata, hkey⟩
  rcases bind_eq_ok.1 hkey with ⟨bitmask, hbitmask, hkey⟩
  rcases bind_eq_ok.1 hkey with ⟨prefixlen, hprefixlen, hkey⟩
  rcases ipToInt_eq_ok.1 hdata with ⟨network, hnet, rfl⟩
  rcases ipToInt_eq_ok.1 hbitmask with ⟨mask, hmask', rfl⟩
  rcases rangeArray_eq_ok.1 harray with ⟨hlen, rfl⟩
  cases hkey
  cases h
  exact ⟨⟨networkText, maskText, network, mask, prefixlen, mode, ranges, hlen,
    subscript_eq_ok.1 hnetwork, subscript_eq_ok.1 hmask, hnet, hmask', hprefixlen, hports, rfl⟩⟩

/-- An accepted list was parsed entry by entry. -/
theorem items_of_storeEntries {e : Endian} {filters : List FilterEntry} :
    ∀ {m : NetFilterMap} {leftovers : List CFilterKey},
      (storeEntries e filters m leftovers).1.error = none → ∃ items, Items e filters items ∧
        ∀ p, (storeEntries e filters m leftovers).1.final.nodes.get? p =
          (lastItem e items p).or (m.nodes.get? p) := by
  induction filters with
  | nil =>
      intro m leftovers _
      exact ⟨[], .nil, fun p => by simp [storeEntries, lastItem]⟩
  | cons entry rest ih =>
      intro m leftovers herror
      cases hitem : filterItem e entry with
      | error err => simp [storeEntries, hitem] at herror
      | ok item =>
          rcases item with ⟨mapKey, value⟩
          cases hinsert : m.insert? (mapKey.path e) mapKey value with
          | none => simp [storeEntries, hitem, hinsert] at herror
          | some m' =>
              simp only [storeEntries, hitem, hinsert] at herror ⊢
              rcases ih herror with ⟨items, hitems, hget⟩
              refine ⟨(mapKey, value) :: items, .cons hitem hitems, ?_⟩
              intro p
              rw [hget, lastItem_cons, LpmTrie.insert?_eq_some hinsert, Dict.get?_set,
                Option.or_assoc]
              by_cases hp : mapKey.path e = p <;> simp [hp]

theorem storeEntries_no_leftovers {e : Endian} {filters : List FilterEntry} :
    ∀ {m : NetFilterMap}, (storeEntries e filters m []).2 = [] := by
  induction filters with
  | nil => exact rfl
  | cons entry rest ih =>
      intro m
      unfold storeEntries
      cases filterItem e entry with
      | error err => rfl
      | ok item =>
          cases hinsert : m.insert? (item.1.path e) item.1 item.2 with
          | none => simp [hinsert]
          | some m' => simpa [hinsert] using ih

/-- A load into an empty trie only stores the entries. -/
theorem load_empty (e : Endian) (order : IterOrder CFilterKey) (filters : List FilterEntry)
    (capacity : Option Nat) (doDiff : Bool) :
    (loadFiltersIntoMap e order filters (LpmTrie.empty capacity) doDiff).final =
        (storeEntries e filters (LpmTrie.empty capacity) []).1.final ∧
      (loadFiltersIntoMap e order filters (LpmTrie.empty capacity) doDiff).error =
        (storeEntries e filters (LpmTrie.empty capacity) []).1.error := by
  have hleftovers : (if doDiff then (LpmTrie.empty capacity : NetFilterMap).storedKeys.dedup
      else []) = [] := by
    cases doDiff <;> rfl
  have hnil : order.run [] = [] := List.perm_nil.1 (order.perm [])
  simp only [loadFiltersIntoMap, hleftovers, storeEntries_no_leftovers, hnil, deleteKeys]
  cases herror : (storeEntries e filters (LpmTrie.empty capacity) []).1.error with
  | some err => exact ⟨rfl, herror⟩
  | none => exact ⟨rfl, rfl⟩

/-- What a load into an empty trie leaves. -/
theorem items_of_load {e : Endian} {order : IterOrder CFilterKey} {filters : List FilterEntry}
    {capacity : Option Nat} {doDiff : Bool}
    (h : (loadFiltersIntoMap e order filters (LpmTrie.empty capacity) doDiff).error = none) :
    ∃ items, Items e filters items ∧ ∀ p,
      (loadFiltersIntoMap e order filters (LpmTrie.empty capacity) doDiff).final.nodes.get? p =
        lastItem e items p := by
  rcases load_empty e order filters capacity doDiff with ⟨hfinal, herror⟩
  rw [herror] at h
  rcases items_of_storeEntries h with ⟨items, hitems, hget⟩
  refine ⟨items, hitems, ?_⟩
  intro p
  rw [hfinal]
  simpa [LpmTrie.empty] using hget p

/-! ## The kernel side of an entry -/

/-- Some parsed range matches just when some specification covers the port. -/
theorem any_matches_iff {specs : List PortSpec} {rs : List CPortRange}
    (h : specs.mapM CPortRange.fromConfValue = .ok rs) (port : BitVec 16) :
    rs.any (fun r => r.matches port) = true ↔ ∃ spec ∈ specs, spec.Covers port := by
  have hall := mapM_eq_ok.1 h
  clear h
  induction hall with
  | nil => simp
  | @cons spec r specs rs hspec _ ih =>
      have hcovers : spec.Covers port ↔ r.matches port = true := by
        unfold PortSpec.Covers
        simp [hspec]
      simp [hcovers, ih]

theorem entryPorts_verdict {entry : FilterEntry} {mode : PortFilterMode} {rs : List CPortRange}
    (h : entryPorts entry = .ok (mode, rs)) (hlen : rs.length ≤ NET_FILTER_MAX_PORT_RANGES)
    (port : BitVec 16) :
    CFilterValue.verdict ⟨mode.value, BitVec.ofNat 8 rs.length, padRanges rs hlen⟩ port = true ↔
      entry.KernelPorts port := by
  rw [verdict_padRanges]
  unfold entryPorts at h
  unfold FilterEntry.KernelPorts
  cases hexcept : entry.exceptPorts.truthy with
  | nil =>
      cases hinclude : entry.includePorts.truthy with
      | nil =>
          rw [hexcept, hinclude] at h
          cases h
          simp
      | cons spec specs =>
          rw [hexcept, hinclude] at h
          rcases map_eq_ok.1 h with ⟨rs', hrs', heq⟩
          cases heq
          exact any_matches_iff hrs' port
  | cons spec specs =>
      rw [hexcept] at h
      rcases map_eq_ok.1 h with ⟨rs', hrs', heq⟩
      cases heq
      have hany := any_matches_iff hrs' port
      simp only [Bool.not_eq_true']
      rw [← Bool.not_eq_true, hany]
      simp only [not_exists, not_and]

theorem verdict_iff {e : Endian} {entry : FilterEntry} {item : CFilterKey × CFilterValue}
    (h : filterItem e entry = .ok item) (port : BitVec 16) :
    item.2.verdict port = true ↔ entry.KernelPorts port := by
  rcases filterItem_eq_ok h with ⟨parts⟩
  rw [parts.item_eq]
  exact entryPorts_verdict parts.entryPorts_eq parts.length_le port

/-! ## The deciding entry -/

namespace FilterEntry

theorem Decides.unique {e : Endian} {filters : List FilterEntry} {i j : Nat} {r s : FilterEntry}
    {a : Ipv4} (hr : Decides e filters i r a) (hs : Decides e filters j s a) : r = s :=
  (lastLongest_unique (fun entry : FilterEntry => entry.path e <+: a.bits)
    (fun entry => (entry.path e).length) hr hs).2

end FilterEntry

theorem path_of_item {e : Endian} {entry : FilterEntry} {item : CFilterKey × CFilterValue}
    (h : filterItem e entry = .ok item) : entry.path e = item.1.path e := by
  simp [FilterEntry.path, h]

/-- Entries and items correspond by their places. -/
theorem Items.getElem? {e : Endian} {filters : List FilterEntry}
    {items : List (CFilterKey × CFilterValue)} (h : Items e filters items) :
    ∀ i : Nat, (filters[i]?).map (filterItem e) = (items[i]?).map .ok := by
  induction h with
  | nil => simp
  | cons hitem _ ih =>
      intro i
      cases i with
      | zero => simpa using hitem
      | succ i => simpa using ih i

theorem Items.item_of_entry {e : Endian} {filters : List FilterEntry}
    {items : List (CFilterKey × CFilterValue)} (h : Items e filters items) {i : Nat}
    {entry : FilterEntry} (hentry : filters[i]? = some entry) :
    ∃ item, items[i]? = some item ∧ filterItem e entry = .ok item := by
  have hi := h.getElem? i
  rw [hentry, Option.map_some, eq_comm, Option.map_eq_some_iff] at hi
  rcases hi with ⟨item, hitem, heq⟩
  exact ⟨item, hitem, heq.symm⟩

theorem Items.entry_of_item {e : Endian} {filters : List FilterEntry}
    {items : List (CFilterKey × CFilterValue)} (h : Items e filters items) {i : Nat}
    {item : CFilterKey × CFilterValue} (hitem : items[i]? = some item) :
    ∃ entry, filters[i]? = some entry ∧ filterItem e entry = .ok item := by
  have hi := h.getElem? i
  rw [hitem, Option.map_some, Option.map_eq_some_iff] at hi
  exact hi

theorem Items.decides {e : Endian} {filters : List FilterEntry}
    {items : List (CFilterKey × CFilterValue)} (h : Items e filters items) {i : Nat}
    {item : CFilterKey × CFilterValue} {a : Ipv4} (hdecides : DecidesItem e items i item a) :
    ∃ entry, FilterEntry.Decides e filters i entry a ∧ filterItem e entry = .ok item := by
  rcases hdecides with ⟨hitem, hpre, hlongest⟩
  rcases h.entry_of_item hitem with ⟨entry, hentry, hparse⟩
  refine ⟨entry, ⟨hentry, ?_, ?_⟩, hparse⟩
  · rw [path_of_item hparse]
    exact hpre
  · intro j other hother hpre'
    rcases h.item_of_entry hother with ⟨item', hitem', hparse'⟩
    rw [path_of_item hparse', path_of_item hparse]
    rw [path_of_item hparse'] at hpre'
    exact hlongest j item' hitem' hpre'

/-- The kernel filters a port of an address when the deciding entry does. -/
theorem kernel_verdict {e : Endian} {m : NetFilterMap} {filters : List FilterEntry}
    {items : List (CFilterKey × CFilterValue)} (hitems : Items e filters items)
    (hm : ∀ p, m.nodes.get? p = lastItem e items p) (a : Ipv4) (port : BitVec 16) :
    ((∀ entry ∈ filters, ¬ entry.path e <+: a.bits) ∧
        isAddrPortFiltered e m (unpackL e a) port = false) ∨
      ∃ i deciding, FilterEntry.Decides e filters i deciding a ∧
        (isAddrPortFiltered e m (unpackL e a) port = true ↔ deciding.KernelPorts port) := by
  rcases verdict_of_items hm a port with ⟨hnone, hsome⟩
  by_cases hcovered : ∃ item ∈ items, item.1.path e <+: a.bits
  · rcases hsome hcovered with ⟨i, item, hdecides, hverdict⟩
    rcases hitems.decides hdecides with ⟨deciding, hentry, hparse⟩
    refine Or.inr ⟨i, deciding, hentry, ?_⟩
    rw [hverdict]
    exact verdict_iff hparse port
  · refine Or.inl ⟨?_, hnone fun item hitem hpre => hcovered ⟨item, hitem, hpre⟩⟩
    intro entry hentry hpre
    rcases List.mem_iff_getElem?.1 hentry with ⟨i, hi⟩
    rcases hitems.item_of_entry hi with ⟨item, hitem, hparse⟩
    rw [path_of_item hparse] at hpre
    exact hcovered ⟨item, List.mem_of_getElem? hitem, hpre⟩

/-! ## The userland side of an entry -/

theorem toInts_eq_ok {field : PortsField} {ns : List Int} :
    field.toInts = .ok ns ↔ field ≠ .null ∧
      List.Forall₂ (fun spec n => PortSpec.toInt spec = .ok n) field.truthy ns := by
  cases field with
  | absent => cases ns <;> simp [PortsField.toInts, PortsField.truthy]
  | null => simp [PortsField.toInts]
  | ports specs => simp [PortsField.toInts, PortsField.truthy, mapM_eq_ok]

theorem exists_toInts_eq_ok {field : PortsField} :
    (∃ ns, field.toInts = .ok ns) ↔ field.Plain := by
  cases field with
  | absent => simp [PortsField.toInts, PortsField.Plain, PortsField.truthy]
  | null => simp [PortsField.toInts, PortsField.Plain]
  | ports specs => simp [PortsField.toInts, PortsField.Plain, PortsField.truthy, exists_mapM_eq_ok]

/-- A parsed list holds a port just when a specification of the list is that port. -/
theorem mem_toInts_iff {field : PortsField} {ns : List Int} (h : field.toInts = .ok ns)
    (port : BitVec 16) : (port.toNat : Int) ∈ ns ↔ ∃ spec ∈ field.truthy, spec.Is port := by
  have hall := (toInts_eq_ok.1 h).2
  clear h
  generalize field.truthy = specs at hall ⊢
  induction hall with
  | nil => simp
  | @cons spec n specs ns hspec _ ih =>
      have his : spec.Is port ↔ (port.toNat : Int) = n := by
        unfold PortSpec.Is
        simp [hspec, eq_comm]
      simp [his, ih]

theorem toInts_eq_nil_iff {field : PortsField} {ns : List Int} (h : field.toInts = .ok ns) :
    ns = [] ↔ field.truthy = [] := by
  have hlength := (toInts_eq_ok.1 h).2.length_eq
  rw [← List.length_eq_zero_iff, ← hlength, List.length_eq_zero_iff]

/-- Of an accepted entry, `NetFilter` takes just what the port lists allow. -/
theorem exists_ofEntry_iff {e : Endian} {entry : FilterEntry} {item : CFilterKey × CFilterValue}
    (h : filterItem e entry = .ok item) :
    (∃ f, IpPortFilter.ofEntry e entry = .ok f) ↔ entry.Plain := by
  rcases filterItem_eq_ok h with ⟨parts⟩
  have hip : ipToInt e parts.networkText = .ok (unpackL e parts.network) :=
    ipToInt_eq_ok.2 ⟨_, parts.inetAton_network, rfl⟩
  have hmask : ipToInt e parts.maskText = .ok (unpackL e parts.mask) :=
    ipToInt_eq_ok.2 ⟨_, parts.inetAton_mask, rfl⟩
  unfold FilterEntry.Plain
  rw [← exists_toInts_eq_ok, ← exists_toInts_eq_ok]
  simp only [IpPortFilter.ofEntry, bind_eq_ok, subscript_eq_ok, parts.network_eq, parts.mask_eq]
  constructor
  · rintro ⟨f, _, _, _, _, _, _, _, _, except, hexcept, include', hinclude, _⟩
    exact ⟨⟨except, hexcept⟩, ⟨include', hinclude⟩⟩
  · rintro ⟨⟨except, hexcept⟩, ⟨include', hinclude⟩⟩
    exact ⟨_, _, rfl, _, hip, _, rfl, _, hmask, except, hexcept, include', hinclude, rfl⟩

/-- A userland filter tests the network and the ports of its entry. -/
theorem test_iff {e : Endian} {entry : FilterEntry} {f : IpPortFilter}
    (h : IpPortFilter.ofEntry e entry = .ok f) (a : Ipv4) (port : BitVec 16) :
    f.test (unpackL e a) port.toNat = true ↔ entry.Matches a ∧ entry.UserPorts port := by
  simp only [IpPortFilter.ofEntry, bind_eq_ok, subscript_eq_ok] at h
  rcases h with ⟨s, hs, n, hn, t, ht, k, hk, except, hexcept, include', hinclude, hf⟩
  rcases ipToInt_eq_ok.1 hn with ⟨network, hnetwork, rfl⟩
  rcases ipToInt_eq_ok.1 hk with ⟨mask, hmask, rfl⟩
  cases hf
  have hmatches : entry.Matches a ↔ a.and mask = network.and mask := by
    constructor
    · rintro ⟨s', network', t', mask', hs', hnetwork', ht', hmask', heq⟩
      rw [hs] at hs'
      cases hs'
      rw [hnetwork] at hnetwork'
      cases hnetwork'
      rw [ht] at ht'
      cases ht'
      rw [hmask] at hmask'
      cases hmask'
      exact heq
    · exact fun heq => ⟨s, network, t, mask, hs, hnetwork, ht, hmask, heq⟩
  have hsubnet : unpackL e mask &&& unpackL e a = unpackL e network &&& unpackL e mask ↔
      a.and mask = network.and mask := by
    rw [BitVec.and_comm, ← unpackL_and, ← unpackL_and]
    exact (unpackL_injective e).eq_iff
  unfold IpPortFilter.test FilterEntry.UserPorts
  simp only [Bool.and_eq_true, Bool.or_eq_true, decide_eq_true_eq, hsubnet, hmatches,
    mem_toInts_iff hexcept, mem_toInts_iff hinclude, toInts_eq_nil_iff hinclude, not_exists, not_and,
    and_assoc]

/-- `NetFilter` takes an accepted list just when all its port lists are plain. -/
theorem exists_init_iff {e : Endian} {filters : List FilterEntry}
    {items : List (CFilterKey × CFilterValue)} (h : Items e filters items) :
    (∃ fs, NetFilter.init e filters = .ok fs) ↔ ∀ entry ∈ filters, entry.Plain := by
  unfold NetFilter.init
  rw [exists_mapM_eq_ok]
  refine forall₂_congr fun entry hentry => ?_
  rcases List.mem_iff_getElem?.1 hentry with ⟨i, hi⟩
  rcases h.item_of_entry hi with ⟨item, _, hparse⟩
  exact exists_ofEntry_iff hparse

-- The loader takes port ranges, which `int()` refuses.
example : NetFilter.init .little [⟨some "10.0.0.0", some "255.0.0.0", .absent,
    .ports [.str "100-200"]⟩] = .error (.builtin .ValueError) := by decide +kernel

/-- Userland filters a port of an address when some entry does. -/
theorem isFiltered_iff {e : Endian} {filters : List FilterEntry} {fs : NetFilter}
    (h : NetFilter.init e filters = .ok fs) (a : Ipv4) (port : BitVec 16) :
    fs.isFiltered (unpackL e a) port.toNat = true ↔
      ∃ entry ∈ filters, entry.Matches a ∧ entry.UserPorts port := by
  have hall := mapM_eq_ok.1 h
  clear h
  unfold NetFilter.isFiltered
  induction hall with
  | nil => simp
  | @cons entry f filters fs hentry _ ih =>
      simp [test_iff hentry, ih]

/-- The address may be given as a string. -/
theorem isFilteredStr_inetNtoa (e : Endian) (fs : NetFilter) (a : Ipv4) (port : Int) :
    fs.isFilteredStr e (inetNtoa a) port = .ok (fs.isFiltered (unpackL e a) port) := by
  have hip : ipToInt e (inetNtoa a) = .ok (unpackL e a) :=
    ipToInt_eq_ok.2 ⟨a, inetAton_inetNtoa a, rfl⟩
  simp [NetFilter.isFilteredStr, hip, Except.map]

/-! ## Entries that stand for rules -/

/-- The mask of an entry that stands for a rule is a prefix. -/
theorem matches_iff_of_denotes {e : Endian} {entry : FilterEntry} {r : NetRule}
    (h : Denotes entry r) (a : Ipv4) : entry.Matches a ↔ entry.path e <+: a.bits := by
  rw [path_of_item (filterItem_of_denotes e h)]
  rw [show (r.item e).1.path e = r.network.bits.take r.len from r.path_key e, ← r.contains_iff]
  rcases h.network with ⟨s, hs, hnetwork⟩
  constructor
  · rintro ⟨s', network, t, mask, hs', hnetwork', ht, hmask, heq⟩
    rw [hs] at hs'
    cases hs'
    rw [hnetwork] at hnetwork'
    cases hnetwork'
    rw [h.mask] at ht
    cases ht
    rw [inetAton_inetNtoa] at hmask
    cases hmask
    exact heq
  · exact fun heq => ⟨s, r.network, _, r.mask, hs, hnetwork, h.mask, inetAton_inetNtoa _, heq⟩

namespace Example

def tenAll : FilterEntry := ⟨some "10.0.0.0", some "255.0.0.0", .absent, .absent⟩

def lanButHttps : FilterEntry :=
  ⟨some "192.168.0.0", some "255.255.0.0", .ports [.int 443], .absent⟩

/-- The network `10.1.0.0/16`, which lies in `10.0.0.0/8`, without its port 80. -/
def tenOneButHttp : FilterEntry :=
  ⟨some "10.1.0.0", some "255.255.0.0", .ports [.int 80], .absent⟩

def lanRule : NetRule :=
  ⟨⟨192, 168, 0, 0⟩, ⟨255, 255, 0, 0⟩, 16, narrow.contiguous, [⟨443, 443, https_lt, https_lt⟩], [],
    wideButHttps.except_le, wide.include_le⟩

theorem tenAll_denotes : Denotes tenAll wide := ⟨⟨_, rfl, by decide⟩, by decide, .nil, .nil⟩

theorem lanButHttps_denotes : Denotes lanButHttps lanRule :=
  ⟨⟨_, rfl, by decide⟩, by decide, .cons (by decide) .nil, .nil⟩

end Example

end PidtreeBcc
