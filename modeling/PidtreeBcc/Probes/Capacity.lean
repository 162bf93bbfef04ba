import PidtreeBcc.Probes.Probe

/-!
# Capacity — the size of the trie is that of the first list

`buildProbeConfig` sizes the trie once, with some headroom over the first list of filters.  A reload
stores the new keys before it deletes the old ones, so what has to fit is both lists together, not the
new one alone.
-/

namespace PidtreeBcc

open Support

namespace Probes

/-! ## Refused writes -/

/-- The first loop of the loader comes to a new key while the trie is full. -/
def Refused (e : Endian) : List FilterEntry → NetFilterMap → Prop
  | [], _ => False
  | entry :: rest, m =>
      match filterItem e entry with
      -- A malformed entry ends the loop before the trie is asked.
      | .error _ => False
      | .ok (mapKey, value) =>
          match m.insert? (mapKey.path e) mapKey value with
          | none => True
          | some m' => Refused e rest m'

/-- For entries that parse, a refused write is the only error of the first loop. -/
theorem refused_iff {e : Endian} {filters : List FilterEntry}
    {items : List (CFilterKey × CFilterValue)} (hitems : Items e filters items) :
    ∀ {m : NetFilterMap} (leftovers : List CFilterKey),
      Refused e filters m ↔ (storeEntries e filters m leftovers).1.error ≠ none := by
  induction hitems with
  | nil =>
      intro m leftovers
      simp [Refused, storeEntries]
  | @cons entry item filters items hitem _ ih =>
      intro m leftovers
      rcases item with ⟨mapKey, value⟩
      cases hinsert : m.insert? (mapKey.path e) mapKey value with
      | none => simp [Refused, storeEntries, hitem, hinsert]
      | some m' =>
          simp only [Refused, storeEntries, hitem, hinsert]
          exact ih _

/-- One write adds one node at most. -/
theorem size_insert_le {m m' : NetFilterMap} {p : List Bool} {k : CFilterKey} {v : CFilterValue}
    (h : m.insert? p k v = some m') : m'.nodes.size ≤ m.nodes.size + 1 := by
  rw [LpmTrie.insert?_eq_some h]
  show (m.nodes.set p (k, v)).size ≤ m.nodes.size + 1
  by_cases hp : p ∈ m.nodes.keys
  · rw [← Dict.length_keys, Dict.keys_set_of_mem hp, Dict.length_keys]
    exact Nat.le_succ _
  · rw [← Dict.length_keys, Dict.keys_set_of_not_mem hp, List.length_append, Dict.length_keys]
    exact Nat.le_refl _

/-- A trie that has a free node for every entry refuses none, whatever the entries are. -/
theorem not_refused_of_length {e : Endian} {capacity : Nat} {filters : List FilterEntry} :
    ∀ {m : NetFilterMap}, m.capacity = some capacity →
      m.nodes.size + filters.length ≤ capacity → ¬ Refused e filters m := by
  induction filters with
  | nil => exact fun _ _ => id
  | cons entry rest ih =>
      intro m hcapacity hsize
      rw [List.length_cons] at hsize
      cases hitem : filterItem e entry with
      | error err => simp [Refused, hitem]
      | ok item =>
          rcases item with ⟨mapKey, value⟩
          have hfull : ¬ m.Full := by
            simp only [LpmTrie.Full, hcapacity]
            omega
          have hinsert := LpmTrie.insert?_of_not_full hfull (mapKey.path e) mapKey value
          have hgrown := size_insert_le hinsert
          simp only [Refused, hitem, hinsert]
          refine ih (m := { m with nodes := m.nodes.set (mapKey.path e) (mapKey, value) }) hcapacity ?_
          omega

/-! ## The tries of a running probe -/

/-- The tries that the successful loads of a probe leave: a first load into the trie sized for its
list, and reloads with diff. -/
inductive Loaded (e : Endian) (filters : List FilterEntry) : NetFilterMap → Prop
  | first {order : IterOrder CFilterKey}
      (h : (loadFiltersIntoMap e order filters
        (LpmTrie.empty (some (netFilterMapSize filters.length))) false).error = none) :
      Loaded e filters (loadFiltersIntoMap e order filters
        (LpmTrie.empty (some (netFilterMapSize filters.length))) false).final
  | reload {m : NetFilterMap} (hm : Loaded e filters m) {order : IterOrder CFilterKey}
      {filters' : List FilterEntry}
      (h : (loadFiltersIntoMap e order filters' m true).error = none) :
      Loaded e filters (loadFiltersIntoMap e order filters' m true).final

/-- A trie of the given capacity, with every node at the path of its key and no more nodes than fit. -/
structure Sound (e : Endian) (capacity : Nat) (m : NetFilterMap) : Prop where
  keyed : WellKeyed e m
  within : m.nodes.size ≤ capacity
  capacity_eq : m.capacity = some capacity

theorem Sound.withinCapacity {e : Endian} {capacity : Nat} {m : NetFilterMap}
    (h : Sound e capacity m) : WithinCapacity m := by
  intro c hc
  rw [h.capacity_eq] at hc
  cases hc
  exact h.within

/-- A trie whose content is that of some items, and that grew out of one with room for them. -/
theorem sound_of_items {e : Endian} {capacity : Nat} {m m' : NetFilterMap}
    {items : List (CFilterKey × CFilterValue)} (hcapacity : m.capacity = some capacity)
    (hcapacity' : m'.capacity = m.capacity) (hroom : HasRoom m (paths e items))
    (hget : ∀ p kv, m'.nodes.get? p = some kv → lastItem e items p = some kv) :
    Sound e capacity m' := by
  refine ⟨?_, ?_, hcapacity'.trans hcapacity⟩
  · intro p k v hp
    exact (mem_of_lastItem (hget p (k, v) hp)).2.symm
  · -- Every node is at the path of an item, and those fit.
    have hsub : m'.nodes.keys.toFinset ⊆ (m.nodes.keys ++ paths e items).toFinset := by
      intro p hp
      rcases Dict.mem_keys_iff.1 (List.mem_toFinset.1 hp) with ⟨kv, hkv⟩
      have hpath : p ∈ paths e items := lastItem_isSome_iff.1 ⟨kv, hget p kv hkv⟩
      simp [hpath]
    calc
      m'.nodes.size = m'.nodes.keys.length := m'.nodes.length_keys.symm
      _ = m'.nodes.keys.toFinset.card :=
        (List.toFinset_card_of_nodup m'.nodes.keys_nodup).symm
      _ ≤ (m.nodes.keys ++ paths e items).toFinset.card := Finset.card_le_card hsub
      _ ≤ capacity := hroom capacity hcapacity

theorem Loaded.sound {e : Endian} {filters : List FilterEntry} {m : NetFilterMap}
    (h : Loaded e filters m) : Sound e (netFilterMapSize filters.length) m := by
  induction h with
  | @first order hfirst =>
      rcases items_of_load hfirst with ⟨items, hitems, hget⟩
      rcases load_empty e order filters (some (netFilterMapSize filters.length)) false with
        ⟨_, herror⟩
      have hroom := (hasRoom_of_stored hitems (withinCapacity_empty _) (herror ▸ hfirst)).1
      apply sound_of_items rfl (load_fresh order hitems hroom).2.1 hroom
      intro p kv hp
      exact (hget p).symm.trans hp
  | @reload m _ order filters' hreload ih =>
      have hstored := stored_of_load hreload
      rcases items_of_storeEntries hstored with ⟨items, hitems, _⟩
      have hroom := (hasRoom_of_stored hitems ih.withinCapacity hstored).1
      rcases load_diff order hitems hroom ih.keyed with ⟨_, hcapacity, hget⟩
      apply sound_of_items ih.capacity_eq hcapacity hroom
      intro p kv hp
      rw [hget] at hp
      split at hp
      · cases hp
      · exact hp

/-! ## When a reload completes -/

/-- The loader never asks a full trie for a new node, raises nothing, and leaves just the new keys. -/
structure Completes (e : Endian) (order : IterOrder CFilterKey) (filters' : List FilterEntry)
    (m : NetFilterMap) : Prop where
  notRefused : ¬ Refused e filters' m
  error : (loadFiltersIntoMap e order filters' m true).error = none
  keys : ∀ p, p ∈ (loadFiltersIntoMap e order filters' m true).final.nodes.keys ↔
    p ∈ filters'.map (FilterEntry.path e)

/-- The new list fits beside what the trie holds. -/
structure FitsBeside (e : Endian) (capacity : Nat) (filters' : List FilterEntry) (m : NetFilterMap) :
    Prop where
  room : (m.nodes.keys ++ filters'.map (FilterEntry.path e)).toFinset.card ≤ capacity
  /-- An old key that names the node of a new entry is a new key itself. -/
  keys : ∀ k ∈ m.storedKeys, k.path e ∈ filters'.map (FilterEntry.path e) →
    ∃ entry ∈ filters', entry.key e = some k

theorem length_le_netFilterMapSize {n : Nat} (h : n ≤ NET_FILTER_MAP_SIZE_MAX) :
    n ≤ netFilterMapSize n := by
  have hround := lt_roundNearestMultiple (show 0 < NET_FILTER_MAP_SIZE_SCALING by decide) n 128
  unfold netFilterMapSize
  omega

/-- A first list that parses is loaded. -/
theorem first_load_error {e : Endian} (order : IterOrder CFilterKey) {filters : List FilterEntry}
    (hlen : filters.length ≤ NET_FILTER_MAP_SIZE_MAX)
    (hparse : ∀ entry ∈ filters, ∃ item, filterItem e entry = .ok item) :
    (loadFiltersIntoMap e order filters
      (LpmTrie.empty (some (netFilterMapSize filters.length))) false).error = none := by
  rcases exists_mapM_eq_ok.2 hparse with ⟨items, hitems⟩
  rw [(load_empty e order filters _ false).2]
  by_contra herror
  refine not_refused_of_length rfl ?_ ((refused_iff (mapM_eq_ok.1 hitems) []).2 herror)
  exact (Nat.zero_add _).trans_le (length_le_netFilterMapSize hlen)

/-- The keys that a reload with room leaves. -/
theorem mem_keys_load_diff {e : Endian} {order : IterOrder CFilterKey} {filters : List FilterEntry}
    {items : List (CFilterKey × CFilterValue)} {m : NetFilterMap} (hitems : Items e filters items)
    (hroom : HasRoom m (paths e items)) (hkeyed : WellKeyed e m) {p : List Bool} :
    p ∈ (loadFiltersIntoMap e order filters m true).final.nodes.keys ↔
      p ∈ paths e items ∧ ¬ ∃ k, Leftover m items k ∧ k.path e = p := by
  rw [Dict.mem_keys_iff, (load_diff order hitems hroom hkeyed).2.2, ← lastItem_isSome_iff]
  by_cases hp : ∃ k, Leftover m items k ∧ k.path e = p
  · simp [hp]
  · simp [hp]

/-- A reload completes just when the new list fits beside the old content. -/
theorem completes_iff {e : Endian} {capacity : Nat} {m : NetFilterMap} (hm : Sound e capacity m)
    (order : IterOrder CFilterKey) {filters' : List FilterEntry}
    {items : List (CFilterKey × CFilterValue)} (hitems : Items e filters' items) :
    Completes e order filters' m ↔ FitsBeside e capacity filters' m := by
  have hroom_iff : HasRoom m (paths e items) ↔
      (m.nodes.keys ++ filters'.map (FilterEntry.path e)).toFinset.card ≤ capacity := by
    unfold HasRoom
    simp [hm.capacity_eq, hitems.paths_eq]
  have hleftover : ∀ k, Leftover m items k ↔
      k ∈ m.storedKeys ∧ ¬ ∃ entry ∈ filters', entry.key e = some k := by
    intro k
    unfold Leftover
    rw [hitems.mem_keys_iff]
  constructor
  · intro hcompletes
    -- What is not refused is stored, so there was room for it.
    have hstored : (storeEntries e filters' m m.storedKeys.dedup).1.error = none := by
      by_contra herror
      exact hcompletes.notRefused ((refused_iff hitems _).2 herror)
    have hroom := (hasRoom_of_stored hitems hm.withinCapacity hstored).1
    refine ⟨hroom_iff.1 hroom, ?_⟩
    -- A key at the path of an entry is kept only if it is that of an entry.
    intro k hk hpath
    by_contra hnone
    have hkept := (hcompletes.keys (k.path e)).2 hpath
    rw [mem_keys_load_diff hitems hroom hm.keyed] at hkept
    exact hkept.2 ⟨k, (hleftover k).2 ⟨hk, hnone⟩, rfl⟩
  · -- With room for all of it the load does not raise, and deletes only what is left over.
    intro hfits
    have hroom := hroom_iff.2 hfits.room
    refine ⟨?_, (load_diff order hitems hroom hm.keyed).1, ?_⟩
    · rw [refused_iff hitems []]
      exact fun hrefused => hrefused (storeEntries_of_items hitems [] hroom).1
    · intro p
      rw [mem_keys_load_diff hitems hroom hm.keyed, hitems.paths_eq]
      refine and_iff_left_of_imp ?_
      rintro hp ⟨k, hk, rfl⟩
      rcases (hleftover k).1 hk with ⟨hstored, hnone⟩
      exact hnone (hfits.keys k hstored hp)

/-- The first load of at most 4096 entries refuses none.  A later list that parses is loaded, with just
its own keys left in the end, when and only when it fits beside the keys that are there. -/
theorem reload_completes_iff {e : Endian} {filters : List FilterEntry}
    (hlen : filters.length ≤ NET_FILTER_MAP_SIZE_MAX) :
    ¬ Refused e filters (LpmTrie.empty (some (netFilterMapSize filters.length))) ∧
      ∀ m, Loaded e filters m → ∀ (order : IterOrder CFilterKey) (filters' : List FilterEntry),
        (∀ entry ∈ filters', ∃ item, filterItem e entry = .ok item) →
          (Completes e order filters' m ↔
            FitsBeside e (netFilterMapSize filters.length) filters' m) := by
  constructor
  · refine not_refused_of_length rfl ?_
    calc
      0 + filters.length = filters.length := Nat.zero_add _
      _ ≤ netFilterMapSize filters.length := length_le_netFilterMapSize hlen
  · intro m hm order filters' hparse
    rcases exists_mapM_eq_ok.2 hparse with ⟨items, hitems⟩
    exact completes_iff hm.sound order (mapM_eq_ok.1 hitems)

/-- For keys and entries of prefix networks the room alone decides. -/
theorem fitsBeside_iff_of_denotes {e : Endian} {capacity : Nat} {filters' : List FilterEntry}
    {m : NetFilterMap} (hm : ∀ k ∈ m.storedKeys, k.Canonical e)
    (h' : ∀ entry ∈ filters', ∃ r, Denotes entry r) :
    FitsBeside e capacity filters' m ↔
      (m.nodes.keys ++ filters'.map (FilterEntry.path e)).toFinset.card ≤ capacity := by
  constructor
  · exact FitsBeside.room
  · intro hroom
    refine ⟨hroom, ?_⟩
    intro k hk hpath
    rcases List.mem_map.1 hpath with ⟨entry, hentry, hsame⟩
    rcases h' entry hentry with ⟨r, hr⟩
    have hkey := key_of_item (filterItem_of_denotes e hr)
    rw [path_of_key hkey] at hsame
    have hEq : r.key e = k := (r.canonical_key e).eq_of_path (hm k hk) hsame
    exact ⟨entry, hentry, by rw [hkey, ← hEq]; rfl⟩

/-- A later list that does not fit beside the first one is refused. -/
theorem first_load_refuses {e : Endian} {filters filters' : List FilterEntry}
    (hlen : filters.length ≤ NET_FILTER_MAP_SIZE_MAX)
    (hparse : ∀ entry ∈ filters, ∃ item, filterItem e entry = .ok item)
    (hparse' : ∀ entry ∈ filters', ∃ item, filterItem e entry = .ok item)
    (hcard : netFilterMapSize filters.length <
      ((filters ++ filters').map (FilterEntry.path e)).toFinset.card) :
    ∃ m, Loaded e filters m ∧ Refused e filters' m ∧
      ∀ order, (loadFiltersIntoMap e order filters' m true).error ≠ none := by
  have hfirst := first_load_error .listed hlen hparse
  have hwithin := (Loaded.first hfirst).sound.withinCapacity
  rcases exists_mapM_eq_ok.2 hparse' with ⟨items, hmapM⟩
  have hitems := mapM_eq_ok.1 hmapM
  have hroom := (first_load_spec hfirst hitems).2.2.1
  have hnotStored : ∀ leftovers, (storeEntries e filters' (loadFiltersIntoMap e .listed filters
      (LpmTrie.empty (some (netFilterMapSize filters.length))) false).final leftovers).1.error ≠
        none := by
    intro leftovers hstored
    have hle := hroom.1 (hasRoom_of_stored hitems hwithin hstored).1
    exact Nat.not_le_of_lt hcard hle
  refine ⟨_, Loaded.first hfirst, (refused_iff hitems []).2 (hnotStored []), ?_⟩
  intro order herror
  exact hnotStored _ (stored_of_load herror)

/-! ### Two lists of some three hundred networks -/

namespace Example

/-- The `n`-th network `10.x.y.0/24`. -/
def subnet (n : Nat) : FilterEntry :=
  ⟨some (inetNtoa ⟨10, BitVec.ofNat 8 (n / 256), BitVec.ofNat 8 n, 0⟩), some "255.255.255.0",
    .absent, .absent⟩

def subnetRule (n : Nat) : NetRule :=
  ⟨⟨10, BitVec.ofNat 8 (n / 256), BitVec.ofNat 8 n, 0⟩, ⟨255, 255, 255, 0⟩, 24, by decide, [], [],
    PidtreeBcc.Example.wide.include_le, PidtreeBcc.Example.wide.include_le⟩

theorem subnet_denotes (n : Nat) : Denotes (subnet n) (subnetRule n) := by
  have hmask : some "255.255.255.0" = some (inetNtoa ⟨255, 255, 255, 0⟩) := by decide
  exact ⟨⟨_, rfl, inetAton_inetNtoa _⟩, hmask, .nil, .nil⟩

theorem path_subnet (n : Nat) :
    (subnet n).path .little =
      byteBits 10 ++ byteBits (BitVec.ofNat 8 (n / 256)) ++ byteBits (BitVec.ofNat 8 n) := by
  rw [path_of_item (filterItem_of_denotes .little (subnet_denotes n))]
  -- The mask cuts off the last byte.
  calc
    ((subnetRule n).key .little).path .little = (subnetRule n).network.bits.take 24 :=
      (subnetRule n).path_key .little
    _ = byteBits 10 ++ byteBits (BitVec.ofNat 8 (n / 256)) ++ byteBits (BitVec.ofNat 8 n) :=
      List.take_left' (by simp)

theorem path_subnet_inj {n k : Nat} (hn : n < 65536) (hk : k < 65536)
    (h : (subnet n).path .little = (subnet k).path .little) : n = k := by
  rw [path_subnet, path_subnet] at h
  rcases List.append_inj' h rfl with ⟨hhead, hlow⟩
  have hhigh := (List.append_inj' hhead rfl).2
  have hlow' := congrArg BitVec.toNat (byteBits_injective hlow)
  have hhigh' := congrArg BitVec.toNat (byteBits_injective hhigh)
  simp only [BitVec.toNat_ofNat] at hlow' hhigh'
  omega

/-- `n` of the networks, from number `start` on. -/
def subnets (start n : Nat) : List FilterEntry := (List.range' start n).map subnet

theorem subnets_parse (start n : Nat) :
    ∀ entry ∈ subnets start n, ∃ item, filterItem .little entry = .ok item := by
  intro entry hentry
  rcases List.mem_map.1 hentry with ⟨i, _, rfl⟩
  exact ⟨_, filterItem_of_denotes .little (subnet_denotes i)⟩

/-- As many nodes as networks. -/
theorem card_subnets {start n : Nat} (h : start + n ≤ 65536) :
    ((subnets start n).map (FilterEntry.path .little)).toFinset.card = n := by
  rw [List.toFinset_card_of_nodup]
  · simp [subnets]
  · unfold subnets
    rw [List.map_map]
    refine List.Nodup.map_on ?_ List.nodup_range'
    intro i hi j hj hpath
    rw [List.mem_range'_1] at hi hj
    rw [Function.comp_apply, Function.comp_apply] at hpath
    exact path_subnet_inj (by omega) (by omega) hpath

end Example

/-- A first list of 256 networks, and a later one of 257 others, fewer than there are nodes: the first
loop of the reload is refused all the same. -/
theorem later_list_overflows :
    (Example.subnets 0 256).length ≤ NET_FILTER_MAP_SIZE_MAX ∧
      (∀ entry ∈ Example.subnets 256 257, ∃ item, filterItem .little entry = .ok item) ∧
      ((Example.subnets 256 257).map (FilterEntry.path .little)).toFinset.card ≤
        netFilterMapSize (Example.subnets 0 256).length ∧
      ∃ m, Loaded .little (Example.subnets 0 256) m ∧
        Refused .little (Example.subnets 256 257) m ∧
        ∀ order, (loadFiltersIntoMap .little order (Example.subnets 256 257) m true).error ≠
          none := by
  have hlen : (Example.subnets 0 256).length = 256 := by simp [Example.subnets]
  have hle : (Example.subnets 0 256).length ≤ NET_FILTER_MAP_SIZE_MAX := by
    rw [hlen]
    decide
  have hsize : netFilterMapSize (Example.subnets 0 256).length = 512 := by
    rw [hlen]
    decide
  refine ⟨hle, Example.subnets_parse 256 257, ?_, ?_⟩
  · rw [Example.card_subnets (by decide), hsize]
    decide
  · apply first_load_refuses hle (Example.subnets_parse 0 256) (Example.subnets_parse 256 257)
    -- Together they would take 513 nodes.
    have hboth : Example.subnets 0 256 ++ Example.subnets 256 257 = Example.subnets 0 513 := by
      unfold Example.subnets
      rw [← List.map_append, List.range'_append]
    rw [hboth, Example.card_subnets (by decide), hsize]
    decide

/-- A second network beside a first one completes. -/
theorem larger_list_completes :
    ∃ m, Loaded .little [PidtreeBcc.Example.tenAll] m ∧
      Completes .little .listed [PidtreeBcc.Example.tenAll, PidtreeBcc.Example.lanButHttps] m := by
  have hlen : [PidtreeBcc.Example.tenAll].length ≤ NET_FILTER_MAP_SIZE_MAX := by decide
  have hten := filterItem_of_denotes .little PidtreeBcc.Example.tenAll_denotes
  have hlan := filterItem_of_denotes .little PidtreeBcc.Example.lanButHttps_denotes
  have hparse : ∀ entry ∈ [PidtreeBcc.Example.tenAll, PidtreeBcc.Example.lanButHttps],
      ∃ item, filterItem .little entry = .ok item := by
    intro entry hentry
    rcases List.mem_pair.1 hentry with rfl | rfl
    · exact ⟨_, hten⟩
    · exact ⟨_, hlan⟩
  have hfirst := first_load_error .listed hlen fun entry hentry =>
    hparse entry (List.mem_of_mem_head? (List.mem_singleton.1 hentry ▸ rfl))
  refine ⟨_, Loaded.first hfirst,
    ((reload_completes_iff hlen).2 _ (Loaded.first hfirst) .listed _ hparse).2 ?_⟩
  exact ⟨by decide +kernel, by decide +kernel⟩

end Probes

end PidtreeBcc
