import PidtreeBcc.Filtering.NetMap

/-!
# Rules — what a list of network filters means

A rule is a network with a contiguous mask and two lists of port intervals.  Of the rules that
contain an address the one with the longest mask decides, the last-listed one among equals.

`Denotes` connects an entry of a configuration to its rule, and the theorems below say that the trie
filled from a list of entries answers as the rules do.
-/

namespace PidtreeBcc

open Support

/-! ## Rules -/

/-- A closed interval of port numbers. -/
structure PortInterval where
  lower : Nat
  upper : Nat
  lower_lt : lower < 2 ^ 16
  upper_lt : upper < 2 ^ 16
  deriving DecidableEq

def PortInterval.contains (iv : PortInterval) (port : BitVec 16) : Bool :=
  decide (iv.lower ≤ port.toNat) && decide (port.toNat ≤ iv.upper)

structure NetRule where
  network : Ipv4
  mask : Ipv4
  len : Nat
  contiguous : mask.Contiguous len
  exceptPorts : List PortInterval
  includePorts : List PortInterval
  except_le : exceptPorts.length ≤ NET_FILTER_MAX_PORT_RANGES
  include_le : includePorts.length ≤ NET_FILTER_MAX_PORT_RANGES

namespace NetRule

/-- The network of the rule contains the address. -/
def Contains (r : NetRule) (a : Ipv4) : Prop := a.and r.mask = r.network.and r.mask

instance (r : NetRule) (a : Ipv4) : Decidable (r.Contains a) :=
  inferInstanceAs (Decidable (_ = _))

/-- Whether the rule filters a port. -/
def filtersPort (r : NetRule) (port : BitVec 16) : Bool :=
  match r.exceptPorts, r.includePorts with
  | [], [] => true
  | [], incl => incl.any (fun iv => iv.contains port)
  | excl, _ => !excl.any (fun iv => iv.contains port)

end NetRule

/-- Rule `r`, the `i`-th of `rules`, decides the address: no rule containing it has a longer mask,
nor the same mask length and a later place. -/
def Decides (rules : List NetRule) (i : Nat) (r : NetRule) (a : Ipv4) : Prop :=
  rules[i]? = some r ∧ r.Contains a ∧
    ∀ j s, rules[j]? = some s → s.Contains a → s.len < r.len ∨ (s.len = r.len ∧ j ≤ i)

theorem Decides.unique {rules : List NetRule} {i j : Nat} {r s : NetRule} {a : Ipv4}
    (hr : Decides rules i r a) (hs : Decides rules j s a) : i = j ∧ r = s :=
  lastLongest_unique (fun rule : NetRule => rule.Contains a) NetRule.len hr hs

/-! ## From entries to rules -/

/-- The specification stands for the interval. -/
def PortDenotes (spec : PortSpec) (iv : PortInterval) : Prop :=
  spec.bounds = .ok ((iv.lower : Int), (iv.upper : Int))

/-- The entry stands for the rule. -/
structure Denotes (entry : FilterEntry) (r : NetRule) : Prop where
  network : ∃ s, entry.network = some s ∧ inetAton s = .ok r.network
  mask : entry.networkMask = some (inetNtoa r.mask)
  exceptPorts : List.Forall₂ PortDenotes entry.exceptPorts.truthy r.exceptPorts
  includePorts : List.Forall₂ PortDenotes entry.includePorts.truthy r.includePorts

/-- A port number stands for the interval that holds just itself. -/
theorem portDenotes_int (n : Nat) (h : n < 2 ^ 16) :
    PortDenotes (.int n) ⟨n, n, h, h⟩ := rfl

instance (spec : PortSpec) (iv : PortInterval) : Decidable (PortDenotes spec iv) :=
  inferInstanceAs (Decidable (_ = _))

/-- A string `a-b` of two numerals stands for the interval from `a` to `b`. -/
theorem portDenotes_str (a b : Nat) (ha : a < 2 ^ 16) (hb : b < 2 ^ 16) :
    PortDenotes (.str (String.ofList (Nat.toDigits 10 a ++ '-' :: Nat.toDigits 10 b)))
      ⟨a, b, ha, hb⟩ := by
  simp [PortDenotes, PortSpec.bounds, splitRange_toDigits]

/-! ## The item of a rule -/

namespace PortInterval

def toRange (iv : PortInterval) : CPortRange := ⟨BitVec.ofNat 16 iv.lower, BitVec.ofNat 16 iv.upper⟩

theorem matches_toRange (iv : PortInterval) (port : BitVec 16) :
    iv.toRange.matches port = iv.contains port := by
  have hlower : iv.lower % 65536 = iv.lower := Nat.mod_eq_of_lt iv.lower_lt
  have hupper : iv.upper % 65536 = iv.upper := Nat.mod_eq_of_lt iv.upper_lt
  simp [CPortRange.matches, toRange, contains, BitVec.le_def, hlower, hupper]

end PortInterval

theorem fromConfValue_of_portDenotes {spec : PortSpec} {iv : PortInterval}
    (h : PortDenotes spec iv) : CPortRange.fromConfValue spec = .ok iv.toRange := by
  unfold CPortRange.fromConfValue
  rw [h]
  simp [Except.map, PortInterval.toRange]

theorem mapM_fromConfValue {specs : List PortSpec} {ivs : List PortInterval}
    (h : List.Forall₂ PortDenotes specs ivs) :
    specs.mapM CPortRange.fromConfValue = .ok (ivs.map PortInterval.toRange) := by
  induction h with
  | nil => rfl
  | cons hspec _ ih =>
      rw [List.mapM_cons, fromConfValue_of_portDenotes hspec, ih]
      rfl

namespace NetRule

def mode (r : NetRule) : PortFilterMode :=
  match r.exceptPorts, r.includePorts with
  | [], [] => .all
  | [], _ => .include
  | _, _ => .exclude

/-- The intervals that reach the trie. -/
def usedPorts (r : NetRule) : List PortInterval :=
  match r.exceptPorts with
  | [] => r.includePorts
  | excl => excl

theorem length_usedPorts_le (r : NetRule) : r.usedPorts.length ≤ NET_FILTER_MAX_PORT_RANGES := by
  unfold usedPorts
  split
  · exact r.include_le
  · exact r.except_le

theorem length_ranges_le (r : NetRule) :
    (r.usedPorts.map PortInterval.toRange).length ≤ NET_FILTER_MAX_PORT_RANGES := by
  rw [List.length_map]
  exact r.length_usedPorts_le

def key (e : Endian) (r : NetRule) : CFilterKey := ⟨r.len, unpackL e (r.network.and r.mask)⟩

def value (r : NetRule) : CFilterValue :=
  { mode := r.mode.value
    rangeSize := BitVec.ofNat 8 r.usedPorts.length
    ranges := padRanges (r.usedPorts.map PortInterval.toRange)
      (by simpa using r.length_usedPorts_le) }

def item (e : Endian) (r : NetRule) : CFilterKey × CFilterValue := (r.key e, r.value)

end NetRule

theorem entryPorts_of_denotes {entry : FilterEntry} {r : NetRule} (h : Denotes entry r) :
    entryPorts entry = .ok (r.mode, r.usedPorts.map PortInterval.toRange) := by
  have hexcl := h.exceptPorts
  have hincl := h.includePorts
  have hexclM := mapM_fromConfValue hexcl
  have hinclM := mapM_fromConfValue hincl
  unfold entryPorts NetRule.mode NetRule.usedPorts
  generalize entry.exceptPorts.truthy = excl at *
  generalize entry.includePorts.truthy = incl at *
  generalize r.exceptPorts = exclIvs at *
  generalize r.includePorts = inclIvs at *
  cases hexcl with
  | nil =>
      cases hincl with
      | nil => rfl
      | cons _ _ =>
          simp only
          rw [hinclM]
          rfl
  | cons _ _ =>
      simp only
      rw [hexclM]
      rfl

theorem filterItem_of_denotes (e : Endian) {entry : FilterEntry} {r : NetRule}
    (h : Denotes entry r) : filterItem e entry = .ok (r.item e) := by
  obtain ⟨s, hs, hnet⟩ := h.network
  have hip : ipToInt e s = .ok (unpackL e r.network) := ipToInt_eq_ok.2 ⟨_, hnet, rfl⟩
  have hmask : ipToInt e (inetNtoa r.mask) = .ok (unpackL e r.mask) :=
    ipToInt_eq_ok.2 ⟨_, inetAton_inetNtoa _, rfl⟩
  have hlen : netmaskToPrefixlen (inetNtoa r.mask) = .ok r.len :=
    ipNetworkPrefixlen_inetNtoa r.contiguous
  have hkey : CFilterKey.fromNetworkDefinition e (inetNtoa r.mask) s = .ok (r.key e) := by
    simp only [CFilterKey.fromNetworkDefinition, hip, hmask, hlen, NetRule.key, unpackL_and]
    rfl
  have harray : rangeArray (r.usedPorts.map PortInterval.toRange) = .ok r.value.ranges :=
    rangeArray_eq_ok.2 ⟨r.length_ranges_le, rfl⟩
  have hitem : r.item e = (r.key e, ⟨r.mode.value,
      BitVec.ofNat 8 (r.usedPorts.map PortInterval.toRange).length, r.value.ranges⟩) := by
    simp [NetRule.item, NetRule.value]
  -- The statements of the loop body one after the other.
  apply bind_eq_ok.2 ⟨_, subscript_eq_ok.2 h.mask, _⟩
  apply bind_eq_ok.2 ⟨_, subscript_eq_ok.2 hs, _⟩
  apply bind_eq_ok.2 ⟨_, hkey, _⟩
  apply bind_eq_ok.2 ⟨_, entryPorts_of_denotes h, _⟩
  apply bind_eq_ok.2 ⟨_, harray, _⟩
  rw [hitem]
  rfl

theorem items_of_denotes (e : Endian) {filters : List FilterEntry} {rules : List NetRule}
    (h : List.Forall₂ Denotes filters rules) : Items e filters (rules.map (NetRule.item e)) := by
  induction h with
  | nil => exact List.Forall₂.nil
  | cons hentry _ ih => exact List.Forall₂.cons (filterItem_of_denotes e hentry) ih

/-! ## The verdict of a value -/

theorem scanRanges_eq (mode : Nat) (size : BitVec 8) (port : BitVec 16) :
    ∀ (rs : List CPortRange) (i : Nat),
      scanRanges mode size port i rs =
        if (rs.take (size.toNat - i)).any (fun r => r.matches port) then
          decide (mode = PortFilterMode.include.value)
        else decide (mode = PortFilterMode.exclude.value)
  | [], i => by simp [scanRanges]
  | curr :: rest, i => by
      have ih := scanRanges_eq mode size port rest (i + 1)
      by_cases hi : size.toNat ≤ i
      · simp [scanRanges, hi]
      · have hsub : size.toNat - i = (size.toNat - (i + 1)) + 1 := by omega
        cases hm : curr.matches port with
        | true => simp [scanRanges, hi, hsub, hm]
        | false => simp [scanRanges, hi, hsub, hm, ih]

/-- The verdict of a value whose ranges fit. -/
theorem verdict_padRanges (mode : PortFilterMode) {rs : List CPortRange}
    (h : rs.length ≤ NET_FILTER_MAX_PORT_RANGES) (port : BitVec 16) :
    CFilterValue.verdict ⟨mode.value, BitVec.ofNat 8 rs.length, padRanges rs h⟩ port =
      match mode with
      | .all => true
      | .include => rs.any (fun r => r.matches port)
      | .exclude => !rs.any (fun r => r.matches port) := by
  have hsize : (BitVec.ofNat 8 rs.length).toNat = rs.length := by
    have hlt : rs.length < 2 ^ 8 := Nat.lt_of_le_of_lt h (by decide)
    rw [BitVec.toNat_ofNat, Nat.mod_eq_of_lt hlt]
  have htake : (padRanges rs h).toList.take ((BitVec.ofNat 8 rs.length).toNat - 0) = rs := by
    rw [hsize, Nat.sub_zero, padRanges]
    exact List.take_left
  unfold CFilterValue.verdict
  rw [scanRanges_eq, htake]
  cases mode with
  | all => rfl
  | «include» => cases rs.any (fun r => r.matches port) <;> rfl
  | exclude => cases rs.any (fun r => r.matches port) <;> rfl

theorem NetRule.verdict_value (r : NetRule) (port : BitVec 16) :
    r.value.verdict port = r.filtersPort port := by
  have hany : (r.usedPorts.map PortInterval.toRange).any (fun c => c.matches port) =
      r.usedPorts.any (fun iv => iv.contains port) := by
    rw [List.any_map]
    congr 1
    funext iv
    exact iv.matches_toRange port
  have hvalue := verdict_padRanges r.mode r.length_ranges_le port
  rw [hany, List.length_map] at hvalue
  unfold NetRule.value
  rw [hvalue]
  unfold NetRule.filtersPort NetRule.mode NetRule.usedPorts
  cases r.exceptPorts with
  | nil =>
      cases r.includePorts with
      | nil => rfl
      | cons _ _ => rfl
  | cons _ _ => rfl

/-! ## Keys in normal form -/

/-- No data bit is set beyond the prefix length. -/
def CFilterKey.Canonical (e : Endian) (k : CFilterKey) : Prop :=
  k.prefixlen ≤ 32 ∧
    (packL e k.data).bits = k.path e ++ List.replicate (32 - k.prefixlen) false

/-- The kernel tells two keys in normal form apart just when their fields differ. -/
theorem CFilterKey.Canonical.eq_of_path {e : Endian} {k k' : CFilterKey} (h : k.Canonical e)
    (h' : k'.Canonical e) (hpath : k.path e = k'.path e) : k = k' := by
  have hlen : ∀ q : CFilterKey, q.Canonical e → (q.path e).length = q.prefixlen := by
    intro q hq
    simpa [CFilterKey.path] using hq.1
  have hpfx : k.prefixlen = k'.prefixlen := by
    rw [← hlen k h, ← hlen k' h', hpath]
  have hbits : packL e k.data = packL e k'.data := by
    apply Ipv4.bits_injective
    rw [h.2, h'.2, hpath, hpfx]
  have hdata : k.data = k'.data := by
    simpa using congrArg (unpackL e) hbits
  cases k
  cases k'
  simp_all

namespace NetRule

theorem path_key (e : Endian) (r : NetRule) : (r.key e).path e = r.network.bits.take r.len := by
  simp [CFilterKey.path, key, r.contiguous.take_bits_and]

theorem canonical_key (e : Endian) (r : NetRule) : (r.key e).Canonical e := by
  refine ⟨r.contiguous.1, ?_⟩
  rw [path_key]
  simp [key, r.contiguous.bits_and]

theorem length_path (r : NetRule) : (r.network.bits.take r.len).length = r.len := by
  simpa using r.contiguous.1

theorem contains_iff (r : NetRule) (a : Ipv4) :
    r.Contains a ↔ r.network.bits.take r.len <+: a.bits := by
  unfold Contains
  rw [r.contiguous.and_eq_and_iff, List.prefix_iff_eq_take, length_path]
  exact eq_comm

end NetRule

/-! ## Loads of rules -/

/-- The trie holds exactly the items of the rules. -/
def HoldsRules (e : Endian) (m : NetFilterMap) (rules : List NetRule) : Prop :=
  ∀ p, m.nodes.get? p = lastItem e (rules.map (NetRule.item e)) p

theorem HoldsRules.key_canonical {e : Endian} {m : NetFilterMap} {rules : List NetRule}
    (h : HoldsRules e m rules) {p : List Bool} {k : CFilterKey} {v : CFilterValue}
    (hp : m.nodes.get? p = some (k, v)) : k.Canonical e ∧ k.path e = p := by
  rw [h p] at hp
  rcases mem_of_lastItem hp with ⟨hmem, hpath⟩
  rcases List.mem_map.1 hmem with ⟨r, _, hr⟩
  cases hr
  exact ⟨r.canonical_key e, hpath⟩

theorem HoldsRules.wellKeyed {e : Endian} {m : NetFilterMap} {rules : List NetRule}
    (h : HoldsRules e m rules) : WellKeyed e m := by
  intro p k v hp
  exact (h.key_canonical hp).2.symm

/-- The first load of a list of rules. -/
theorem load_fresh_rules {e : Endian} (order : IterOrder CFilterKey) {filters : List FilterEntry}
    {rules : List NetRule} {capacity : Option Nat} (hrules : List.Forall₂ Denotes filters rules)
    (hroom : HasRoom (LpmTrie.empty capacity) (paths e (rules.map (NetRule.item e)))) :
    (loadFiltersIntoMap e order filters (LpmTrie.empty capacity) false).error = none ∧
      (loadFiltersIntoMap e order filters (LpmTrie.empty capacity) false).final.capacity =
        capacity ∧
      HoldsRules e (loadFiltersIntoMap e order filters (LpmTrie.empty capacity) false).final
        rules := by
  rcases load_fresh order (items_of_denotes e hrules) hroom with ⟨herror, hcap, hget⟩
  refine ⟨herror, hcap, ?_⟩
  intro p
  simpa [LpmTrie.empty] using hget p

/-- A later load of a list of rules: what was there before does not matter. -/
theorem load_diff_rules {e : Endian} (order : IterOrder CFilterKey) {filters : List FilterEntry}
    {rules rules' : List NetRule} {m : NetFilterMap} (hrules : List.Forall₂ Denotes filters rules)
    (hroom : HasRoom m (paths e (rules.map (NetRule.item e)))) (hold : HoldsRules e m rules') :
    (loadFiltersIntoMap e order filters m true).error = none ∧
      (loadFiltersIntoMap e order filters m true).final.capacity = m.capacity ∧
      HoldsRules e (loadFiltersIntoMap e order filters m true).final rules := by
  rcases load_diff order (items_of_denotes e hrules) hroom hold.wellKeyed with
    ⟨herror, hcap, hget⟩
  refine ⟨herror, hcap, ?_⟩
  intro p
  rw [hget]
  cases hlast : lastItem e (rules.map (NetRule.item e)) p with
  | none => simp
  | some item =>
      refine if_neg ?_
      rintro ⟨k, hleft, hk⟩
      -- The leftover key and the new one lie at one path, so they are one key.
      rcases mem_of_lastItem hlast with ⟨hmem, hpath⟩
      rcases List.mem_map.1 hmem with ⟨r, _, rfl⟩
      rcases mem_storedKeys_iff.1 hleft.1 with ⟨q, v, hq⟩
      have hkr : k = r.key e :=
        (hold.key_canonical hq).1.eq_of_path (r.canonical_key e) (hk.trans hpath.symm)
      exact hleft.2 (List.mem_map.2 ⟨_, hmem, hkr.symm⟩)

/-! ## The verdict of a trie -/

/-- A trie that holds the rules answers as the deciding rule does. -/
theorem HoldsRules.verdict {e : Endian} {m : NetFilterMap} {rules : List NetRule}
    (h : HoldsRules e m rules) (a : Ipv4) (port : BitVec 16) :
    ((∀ r ∈ rules, ¬ r.Contains a) → isAddrPortFiltered e m (unpackL e a) port = false) ∧
      ((∃ r ∈ rules, r.Contains a) →
        ∃ i r, Decides rules i r a ∧
          isAddrPortFiltered e m (unpackL e a) port = r.filtersPort port) := by
  have hpath : ∀ r : NetRule, (r.item e).1.path e <+: a.bits ↔ r.Contains a := by
    intro r
    rw [r.contains_iff, ← r.path_key e]
    exact Iff.rfl
  rcases verdict_of_items h a port with ⟨hnone, hsome⟩
  constructor
  · intro hr
    refine hnone ?_
    intro item hitem
    rcases List.mem_map.1 hitem with ⟨r, hmem, rfl⟩
    exact fun hp => hr r hmem ((hpath r).1 hp)
  · rintro ⟨r₀, hr₀, hc₀⟩
    rcases hsome ⟨r₀.item e, List.mem_map.2 ⟨r₀, hr₀, rfl⟩, (hpath r₀).2 hc₀⟩ with
      ⟨i, item, ⟨hi, hp, hmax⟩, hverdict⟩
    rw [List.getElem?_map, Option.map_eq_some_iff] at hi
    rcases hi with ⟨r, hri, rfl⟩
    have hlen : ∀ s : NetRule, ((s.item e).1.path e).length = s.len := by
      intro s
      have hkey := s.path_key e
      simpa [NetRule.item, hkey] using s.length_path
    refine ⟨i, r, ⟨hri, (hpath r).1 hp, ?_⟩, hverdict.trans (r.verdict_value port)⟩
    intro j s hsj hcs
    simpa [hlen] using hmax j (s.item e) (by simp [List.getElem?_map, hsj]) ((hpath s).2 hcs)

/-! ## Runs of loads -/

/-- One call of the loader. -/
structure NetLoad where
  order : IterOrder CFilterKey
  filters : List FilterEntry

/-- The calls after the first one, each with a diff. -/
def reloadAll (e : Endian) : List NetLoad → NetFilterMap → Except PyErr NetFilterMap
  | [], m => .ok m
  | l :: rest, m =>
      let r := loadFiltersIntoMap e l.order l.filters m true
      match r.error with
      | some err => .error err
      | none => reloadAll e rest r.final

/-- A sequence of loads into one trie that starts out empty. -/
def loadSequence (e : Endian) (capacity : Option Nat) : List NetLoad → Except PyErr NetFilterMap
  | [] => .ok (LpmTrie.empty capacity)
  | l :: rest =>
      let r := loadFiltersIntoMap e l.order l.filters (LpmTrie.empty capacity) false
      match r.error with
      | some err => .error err
      | none => reloadAll e rest r.final

theorem reloadAll_holdsRules {e : Endian} {loads : List NetLoad} {rules : List (List NetRule)}
    (h : List.Forall₂ (fun l rs => List.Forall₂ Denotes l.filters rs) loads rules) :
    ∀ {m : NetFilterMap} {current : List NetRule}, m.capacity = none → HoldsRules e m current →
      ∃ m', reloadAll e loads m = .ok m' ∧ HoldsRules e m' (rules.getLast?.getD current) := by
  induction h with
  | nil =>
      intro m current _ hold
      exact ⟨m, rfl, hold⟩
  | @cons l rs loads rules hl _ ih =>
      intro m current hcap hold
      rcases load_diff_rules l.order hl (HasRoom.of_capacity_none hcap _) hold with
        ⟨herror, hcap', hold'⟩
      rcases ih (hcap'.trans hcap) hold' with ⟨m', hm', hold''⟩
      refine ⟨m', by simpa [reloadAll, herror] using hm', ?_⟩
      simpa [List.getLast?_cons] using hold''

/-- After any sequence of loads the kernel's verdict is the one of the last list: nothing is
filtered outside its networks, and inside them the deciding rule of the list answers. -/
theorem kernel_verdict_after_reloads (e : Endian) (loads : List NetLoad)
    (rules : List (List NetRule)) (last : List NetRule)
    (hrules : List.Forall₂ (fun l rs => List.Forall₂ Denotes l.filters rs) loads rules)
    (hlast : rules.getLast? = some last) :
    ∃ m, loadSequence e none loads = .ok m ∧
      ∀ (a : Ipv4) (port : BitVec 16),
        ((∀ r ∈ last, ¬ r.Contains a) → isAddrPortFiltered e m (unpackL e a) port = false) ∧
        ((∃ r ∈ last, r.Contains a) →
          ∃ i r, Decides last i r a ∧
            isAddrPortFiltered e m (unpackL e a) port = r.filtersPort port) := by
  cases hrules with
  | nil => simp at hlast
  | @cons l rs loads rules hl hrest =>
      have hroom : HasRoom (LpmTrie.empty none) (paths e (rs.map (NetRule.item e))) :=
        HasRoom.of_capacity_none rfl _
      rcases load_fresh_rules l.order hl hroom with ⟨herror, hcap, hold⟩
      rcases reloadAll_holdsRules hrest hcap hold with ⟨m, hm, hold'⟩
      have hlast' : rules.getLast?.getD rs = last := by
        rw [List.getLast?_cons] at hlast
        exact Option.some.inj hlast
      rw [hlast'] at hold'
      exact ⟨m, by simpa [loadSequence, herror] using hm, hold'.verdict⟩

/-! ### A reload of two overlapping networks -/

namespace Example

/-- `10.0.0.0/8`, all ports. -/
def wide : NetRule :=
  ⟨⟨10, 0, 0, 0⟩, ⟨255, 0, 0, 0⟩, 8, by decide, [], [], by decide, by decide⟩

theorem https_lt : 443 < 2 ^ 16 := by decide

/-- `10.0.0.0/8`, all ports but 443. -/
def wideButHttps : NetRule :=
  ⟨⟨10, 0, 0, 0⟩, ⟨255, 0, 0, 0⟩, 8, by decide, [⟨443, 443, by decide, by decide⟩], [],
    by decide, by decide⟩

/-- `10.1.0.0/16`, ports 100 to 200. -/
def narrow : NetRule :=
  ⟨⟨10, 1, 0, 0⟩, ⟨255, 255, 0, 0⟩, 16, by decide, [], [⟨100, 200, by decide, by decide⟩],
    by decide, by decide⟩

def loads : List NetLoad :=
  [⟨.listed, [⟨some "10.0.0.0", some "255.0.0.0", .ports [.int 443], .absent⟩]⟩,
    ⟨.listed,
      [⟨some "10.0.0.0", some "255.0.0.0", .absent, .null⟩,
        ⟨some "10.1.0.0", some "255.255.0.0", .absent, .ports [.str "100-200"]⟩]⟩]

theorem loads_denote :
    List.Forall₂ (fun l rs => List.Forall₂ Denotes l.filters rs) loads
      [[wideButHttps], [wide, narrow]] := by
  have hhttps : Denotes ⟨some "10.0.0.0", some "255.0.0.0", .ports [.int 443], .absent⟩
      wideButHttps :=
    ⟨⟨_, rfl, by decide⟩, by decide, .cons (by decide) .nil, .nil⟩
  have hwide : Denotes ⟨some "10.0.0.0", some "255.0.0.0", .absent, .null⟩ wide :=
    ⟨⟨_, rfl, by decide⟩, by decide, .nil, .nil⟩
  have hnarrow : Denotes ⟨some "10.1.0.0", some "255.255.0.0", .absent, .ports [.str "100-200"]⟩
      narrow :=
    ⟨⟨_, rfl, by decide⟩, by decide, .nil,
      .cons (portDenotes_str 100 200 (by decide) (by decide)) .nil⟩
  exact .cons (.cons hhttps .nil) (.cons (.cons hwide (.cons hnarrow .nil)) .nil)

theorem narrow_decides : Decides [wide, narrow] 1 narrow ⟨10, 1, 2, 3⟩ := by
  refine ⟨rfl, by decide, ?_⟩
  intro j s hs _
  rcases j with _ | _ | j
  · cases hs
    exact Or.inl (by decide)
  · cases hs
    exact Or.inr ⟨rfl, Nat.le_refl _⟩
  · cases hs

end Example

/-- Port 80 of `10.1.2.3` is not filtered after the reload, though `10.0.0.0/8` filters it. -/
theorem kernel_verdict_after_two_loads :
    ∃ m, loadSequence .little none Example.loads = .ok m ∧
      isAddrPortFiltered .little m (unpackL .little ⟨10, 1, 2, 3⟩) 80 = false := by
  rcases kernel_verdict_after_reloads .little Example.loads
    [[Example.wideButHttps], [Example.wide, Example.narrow]] [Example.wide, Example.narrow]
    Example.loads_denote rfl with ⟨m, hm, hverdict⟩
  rcases (hverdict ⟨10, 1, 2, 3⟩ 80).2 ⟨Example.wide, by simp, by decide⟩ with ⟨i, r, hr, hport⟩
  refine ⟨m, hm, ?_⟩
  rw [hport, (hr.unique Example.narrow_decides).2]
  decide

end PidtreeBcc
