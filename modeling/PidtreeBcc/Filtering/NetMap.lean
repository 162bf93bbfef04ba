import Mathlib.Data.Finset.Card
import PidtreeBcc.Filtering.Structs
import PidtreeBcc.Support.LongestMatch

/-!
# NetMap — loading network filters into the LPM trie

`loadFiltersIntoMap` writes the entries of a filter list one by one and, when asked to diff, deletes
the keys that were there before and were not written again.  The kernel identifies a node by the
path of its key, while the Python side compares the fields of keys.

A run of the loader is recorded with every intermediate state of the map (`LoadRun`).
-/

namespace PidtreeBcc

open Support

abbrev NetFilterMap := LpmTrie Bool CFilterKey CFilterValue

/-- What a loader did to a map: its state after each write, its last state, and the exception that
ended the load, if any. -/
structure LoadRun (μ : Type*) where
  states : List μ
  final : μ
  error : Option PyErr

/-! ## The loader -/

/-- Mode and ranges of an entry: `except_ports` goes before `include_ports`. -/
def entryPorts (entry : FilterEntry) : Except PyErr (PortFilterMode × List CPortRange) :=
  match entry.exceptPorts.truthy, entry.includePorts.truthy with
  | [], [] => .ok (.all, [])
  | [], specs => (specs.mapM CPortRange.fromConfValue).map (fun rs => (.include, rs))
  | specs, _ => (specs.mapM CPortRange.fromConfValue).map (fun rs => (.exclude, rs))

/-- Key and value that one entry writes. -/
def filterItem (e : Endian) (entry : FilterEntry) : Except PyErr (CFilterKey × CFilterValue) := do
  let netmask ← subscript entry.networkMask
  let ip ← subscript entry.network
  let mapKey ← CFilterKey.fromNetworkDefinition e netmask ip
  let (mode, portRanges) ← entryPorts entry
  let ranges ← rangeArray portRanges
  return (mapKey, ⟨mode.value, BitVec.ofNat 8 portRanges.length, ranges⟩)

/-- The first loop of the loader, with the leftovers it keeps. -/
def storeEntries (e : Endian) :
    List FilterEntry → NetFilterMap → List CFilterKey → LoadRun NetFilterMap × List CFilterKey
  | [], m, leftovers => (⟨[], m, none⟩, leftovers)
  | entry :: rest, m, leftovers =>
      match filterItem e entry with
      -- The entries before this one are in the map already.
      | .error err => (⟨[], m, some err⟩, leftovers)
      | .ok (mapKey, value) =>
          match m.insert? (mapKey.path e) mapKey value with
          -- The kernel refuses a new key in a full trie, which bcc turns into an exception.
          | none => (⟨[], m, some (.builtin .Exception)⟩, leftovers)
          | some m' =>
              let r := storeEntries e rest m' (leftovers.filter (· ≠ mapKey))
              (⟨m' :: r.1.states, r.1.final, r.1.error⟩, r.2)

/-- The second loop of the loader. -/
def deleteKeys (e : Endian) : List CFilterKey → NetFilterMap → LoadRun NetFilterMap
  | [], m => ⟨[], m, none⟩
  | key :: rest, m =>
      match m.delete? (key.path e) with
      | none => ⟨[], m, some (.builtin .KeyError)⟩
      | some m' =>
          let r := deleteKeys e rest m'
          ⟨m' :: r.states, r.final, r.error⟩

/-- `load_filters_into_map`; `order` is the iteration order of the leftovers. -/
def loadFiltersIntoMap (e : Endian) (order : IterOrder CFilterKey) (filters : List FilterEntry)
    (m : NetFilterMap) (doDiff : Bool) : LoadRun NetFilterMap :=
  let leftovers := if doDiff then m.storedKeys.dedup else []
  match storeEntries e filters m leftovers with
  | (r, leftovers) =>
      match r.error with
      | some _ => r
      | none =>
          -- What is left is only deleted once every entry has been written.
          let d := deleteKeys e (order.run leftovers) r.final
          ⟨r.states ++ d.states, d.final, d.error⟩

/-! ## The kernel side -/

/-- The loop over the ranges of a value, from index `i` on. -/
def scanRanges (mode : Nat) (rangesSize : BitVec 8) (port : BitVec 16) :
    Nat → List CPortRange → Bool
  | _, [] => mode = PortFilterMode.exclude.value
  | i, curr :: rest =>
      if rangesSize.toNat ≤ i then mode = PortFilterMode.exclude.value
      else if curr.matches port then mode = PortFilterMode.include.value
      else scanRanges mode rangesSize port (i + 1) rest

/-- What `is_addr_port_filtered` does with the value it found. -/
def CFilterValue.verdict (v : CFilterValue) (port : BitVec 16) : Bool :=
  if v.mode = PortFilterMode.all.value then true
  else scanRanges v.mode v.rangeSize port 0 v.ranges.toList

/-- `is_addr_port_filtered`, with `addr` as the host holds it. -/
def isAddrPortFiltered (e : Endian) (m : NetFilterMap) (addr : BitVec 32) (port : BitVec 16) :
    Bool :=
  match m.lookup (packL e addr).bits with
  | some v => v.verdict port
  | none => false

/-! ## Items -/

/-- `items` are the keys and values that the entries of `filters` write. -/
def Items (e : Endian) (filters : List FilterEntry) (items : List (CFilterKey × CFilterValue)) :
    Prop :=
  List.Forall₂ (fun entry item => filterItem e entry = .ok item) filters items

/-- The last item written at a path. -/
def lastItem (e : Endian) (items : List (CFilterKey × CFilterValue)) (p : List Bool) :
    Option (CFilterKey × CFilterValue) :=
  items.reverse.find? (fun item => item.1.path e = p)

theorem lastItem_cons (e : Endian) (item : CFilterKey × CFilterValue)
    (items : List (CFilterKey × CFilterValue)) (p : List Bool) :
    lastItem e (item :: items) p =
      (lastItem e items p).or (if item.1.path e = p then some item else none) := by
  by_cases h : item.1.path e = p <;> simp [lastItem, List.find?_append, h]

theorem lastItem_append (e : Endian) (items items' : List (CFilterKey × CFilterValue))
    (p : List Bool) :
    lastItem e (items ++ items') p = (lastItem e items' p).or (lastItem e items p) := by
  simp [lastItem, List.find?_append]

theorem lastItem_eq_none_iff {e : Endian} {items : List (CFilterKey × CFilterValue)}
    {p : List Bool} : lastItem e items p = none ↔ ∀ item ∈ items, item.1.path e ≠ p := by
  simp [lastItem]

theorem mem_of_lastItem {e : Endian} {items : List (CFilterKey × CFilterValue)} {p : List Bool}
    {item : CFilterKey × CFilterValue} (h : lastItem e items p = some item) :
    item ∈ items ∧ item.1.path e = p := by
  constructor
  · simpa using List.mem_of_find?_eq_some h
  · simpa using List.find?_some h

/-- The paths of the keys that the items write. -/
def paths (e : Endian) (items : List (CFilterKey × CFilterValue)) : List (List Bool) :=
  items.map (fun item => item.1.path e)

theorem lastItem_isSome_iff {e : Endian} {items : List (CFilterKey × CFilterValue)}
    {p : List Bool} : (∃ item, lastItem e items p = some item) ↔ p ∈ paths e items := by
  constructor
  · rintro ⟨item, h⟩
    rcases mem_of_lastItem h with ⟨hmem, hpath⟩
    exact List.mem_map.2 ⟨item, hmem, hpath⟩
  · intro h
    rcases List.mem_map.1 h with ⟨item, hmem, hpath⟩
    cases hlast : lastItem e items p with
    | some item' => exact ⟨item', rfl⟩
    | none => exact absurd hpath (lastItem_eq_none_iff.1 hlast item hmem)

/-! ## What the first loop does -/

/-- The trie has room for every path of `ps` that it does not hold yet. -/
def HasRoom (m : NetFilterMap) (ps : List (List Bool)) : Prop :=
  ∀ c, m.capacity = some c → (m.nodes.keys ++ ps).toFinset.card ≤ c

theorem HasRoom.of_capacity_none {m : NetFilterMap} (h : m.capacity = none)
    (ps : List (List Bool)) : HasRoom m ps := by
  intro c hc
  rw [h] at hc
  cases hc

/-- A trie with room for a path accepts it, and keeps its room for the paths after it. -/
theorem HasRoom.insert {m : NetFilterMap} {p : List Bool} {ps : List (List Bool)}
    (h : HasRoom m (p :: ps)) (k : CFilterKey) (v : CFilterValue) :
    m.insert? p k v = some { m with nodes := m.nodes.set p (k, v) } ∧
      HasRoom { m with nodes := m.nodes.set p (k, v) } ps := by
  have hkeys : ((m.nodes.set p (k, v)).keys ++ ps).toFinset = (m.nodes.keys ++ p :: ps).toFinset := by
    ext q
    simp only [List.mem_toFinset, List.mem_append, List.mem_cons, Dict.mem_keys_set]
    grind
  refine ⟨?_, ?_⟩
  · by_cases hp : p ∈ m.nodes.keys
    · simp [LpmTrie.insert?, hp]
    · refine LpmTrie.insert?_of_not_full ?_ p k v
      intro hfull
      cases hc : m.capacity with
      | none => simp [LpmTrie.Full, hc] at hfull
      | some c =>
          have hle : c ≤ m.nodes.size := by
            simpa [LpmTrie.Full, hc] using hfull
          -- The keys of the trie with `p` are one more than its size, and they fit.
          have hnodup : (m.nodes.keys ++ [p]).Nodup := by
            simpa [← Dict.keys_set_of_not_mem hp (k, v)] using
              (m.nodes.set p (k, v)).keys_nodup
          have hsub : (m.nodes.keys ++ [p]).toFinset ⊆ (m.nodes.keys ++ p :: ps).toFinset := by
            intro q hq
            simp only [List.mem_toFinset, List.mem_append, List.mem_cons] at hq ⊢
            grind
          have hcard := (Finset.card_le_card hsub).trans (h c hc)
          rw [List.toFinset_card_of_nodup hnodup] at hcard
          have hsize : m.nodes.size + 1 ≤ c := by
            simpa [Dict.length_keys] using hcard
          omega
  · intro c hc
    simpa [hkeys] using h c hc

/-- Every entry is stored when the entries parse and the trie has room for them. -/
theorem storeEntries_of_items {e : Endian} {filters : List FilterEntry}
    {items : List (CFilterKey × CFilterValue)} (hitems : Items e filters items) :
    ∀ (leftovers : List CFilterKey) {m : NetFilterMap}, HasRoom m (paths e items) →
      (storeEntries e filters m leftovers).1.error = none ∧
        (storeEntries e filters m leftovers).2 =
          leftovers.filter (· ∉ items.map Prod.fst) ∧
        (storeEntries e filters m leftovers).1.final.capacity = m.capacity ∧
        ∀ p, (storeEntries e filters m leftovers).1.final.nodes.get? p =
          (lastItem e items p).or (m.nodes.get? p) := by
  induction hitems with
  | nil =>
      intro leftovers m _
      simp [storeEntries, lastItem]
  | @cons entry item filters items hitem _ ih =>
      intro leftovers m hroom
      rcases item with ⟨mapKey, value⟩
      rcases HasRoom.insert hroom mapKey value with ⟨hinsert, hroom'⟩
      rcases ih (leftovers.filter (· ≠ mapKey)) hroom' with
        ⟨herror, hleft, hcap, hget⟩
      simp only [storeEntries, hitem, hinsert]
      refine ⟨herror, ?_, hcap, ?_⟩
      · rw [hleft, List.filter_filter]
        refine List.filter_congr ?_
        intro k _
        by_cases hk : k = mapKey <;> simp [hk]
      · intro p
        rw [hget, lastItem_cons, Dict.get?_set, Option.or_assoc]
        by_cases hp : mapKey.path e = p <;> simp [hp]

/-! ## What the second loop does -/

/-- Deleting keys whose nodes are all there, each once. -/
theorem deleteKeys_of_mem {e : Endian} {ks : List CFilterKey} :
    ∀ {m : NetFilterMap}, (ks.map (CFilterKey.path e)).Nodup →
      (∀ k ∈ ks, k.path e ∈ m.nodes.keys) →
      (deleteKeys e ks m).error = none ∧
        (deleteKeys e ks m).final.capacity = m.capacity ∧
        ∀ p, (deleteKeys e ks m).final.nodes.get? p =
          if p ∈ ks.map (CFilterKey.path e) then none else m.nodes.get? p := by
  induction ks with
  | nil =>
      intro m _ _
      simp [deleteKeys]
  | cons k ks ih =>
      intro m hnodup hmem
      have hcons := List.nodup_cons.1 hnodup
      have hdelete := LpmTrie.delete?_of_mem (hmem k (by simp))
      have hmem' : ∀ k' ∈ ks, k'.path e ∈ (m.nodes.erase (k.path e)).keys := by
        intro k' hk'
        refine Dict.mem_keys_erase.2 ⟨?_, hmem k' (by simp [hk'])⟩
        intro hEq
        exact hcons.1 (List.mem_map.2 ⟨k', hk', hEq⟩)
      rcases ih (m := { m with nodes := m.nodes.erase (k.path e) }) hcons.2 hmem' with
        ⟨herror, hcap, hget⟩
      simp only [deleteKeys, hdelete]
      refine ⟨herror, hcap, ?_⟩
      intro p
      rw [hget, Dict.get?_erase]
      by_cases hp : k.path e = p
      · simp [hp]
      · simp [hp, Ne.symm hp]

/-! ## What a load does -/

/-- Every node lies at the path of the key that was written. -/
def WellKeyed (e : Endian) (m : NetFilterMap) : Prop :=
  ∀ p k v, m.nodes.get? p = some (k, v) → p = k.path e

theorem mem_storedKeys_iff {m : NetFilterMap} {k : CFilterKey} :
    k ∈ m.storedKeys ↔ ∃ p v, m.nodes.get? p = some (k, v) := by
  constructor
  · intro h
    rcases List.mem_map.1 h with ⟨⟨k', v⟩, hmem, rfl⟩
    rcases Dict.mem_values_iff.1 hmem with ⟨p, hp⟩
    exact ⟨p, v, hp⟩
  · rintro ⟨p, v, hp⟩
    exact List.mem_map.2 ⟨(k, v), Dict.mem_values_iff.2 ⟨p, hp⟩, rfl⟩

/-- A key of the trie that is not written again, so that a diff deletes it. -/
def Leftover (m : NetFilterMap) (items : List (CFilterKey × CFilterValue)) (k : CFilterKey) :
    Prop :=
  k ∈ m.storedKeys ∧ k ∉ items.map Prod.fst

/-- A load without diff adds the items to what is there. -/
theorem load_fresh {e : Endian} (order : IterOrder CFilterKey) {filters : List FilterEntry}
    {items : List (CFilterKey × CFilterValue)} {m : NetFilterMap} (hitems : Items e filters items)
    (hroom : HasRoom m (paths e items)) :
    (loadFiltersIntoMap e order filters m false).error = none ∧
      (loadFiltersIntoMap e order filters m false).final.capacity = m.capacity ∧
      ∀ p, (loadFiltersIntoMap e order filters m false).final.nodes.get? p =
        (lastItem e items p).or (m.nodes.get? p) := by
  rcases storeEntries_of_items hitems [] hroom with ⟨herror, hleft, hcap, hget⟩
  have hnil : order.run [] = [] := List.perm_nil.1 (order.perm [])
  have hleft' : (storeEntries e filters m []).2 = [] := by simpa using hleft
  simp only [loadFiltersIntoMap, Bool.false_eq_true, if_false, herror, hleft', hnil, deleteKeys]
  exact ⟨trivial, hcap, hget⟩

/-- Two keys of a trie with one path would share a node, so they are the same key. -/
theorem WellKeyed.eq_of_path {e : Endian} {m : NetFilterMap} (h : WellKeyed e m)
    {k k' : CFilterKey} (hk : k ∈ m.storedKeys) (hk' : k' ∈ m.storedKeys)
    (hpath : k.path e = k'.path e) : k = k' := by
  rcases mem_storedKeys_iff.1 hk with ⟨p, v, hp⟩
  rcases mem_storedKeys_iff.1 hk' with ⟨p', v', hp'⟩
  have hpp : p = p' := by
    calc
      p = k.path e := h p k v hp
      _ = k'.path e := hpath
      _ = p' := (h p' k' v' hp').symm
  rw [hpp, hp'] at hp
  cases hp
  rfl

theorem WellKeyed.path_mem_keys {e : Endian} {m : NetFilterMap} (h : WellKeyed e m)
    {k : CFilterKey} (hk : k ∈ m.storedKeys) : k.path e ∈ m.nodes.keys := by
  rcases mem_storedKeys_iff.1 hk with ⟨p, v, hp⟩
  rw [← h p k v hp]
  exact Dict.mem_keys_iff.2 ⟨_, hp⟩

/-- An old node at a path where nothing is written is that of a leftover key. -/
theorem WellKeyed.get?_eq_none {e : Endian} {m : NetFilterMap} (h : WellKeyed e m)
    {items : List (CFilterKey × CFilterValue)} {p : List Bool} (hlast : lastItem e items p = none)
    (hp : ¬ ∃ k, Leftover m items k ∧ k.path e = p) : m.nodes.get? p = none := by
  cases hold : m.nodes.get? p with
  | none => rfl
  | some kv =>
      rcases kv with ⟨k, v⟩
      have hpath : k.path e = p := (h p k v hold).symm
      refine absurd ⟨k, ⟨mem_storedKeys_iff.2 ⟨p, v, hold⟩, ?_⟩, hpath⟩ hp
      intro hk
      rcases List.mem_map.1 hk with ⟨item, hitem, rfl⟩
      exact lastItem_eq_none_iff.1 hlast item hitem hpath

/-- A load with diff leaves the items, less those whose node a leftover key still names. -/
theorem load_diff {e : Endian} (order : IterOrder CFilterKey) {filters : List FilterEntry}
    {items : List (CFilterKey × CFilterValue)} {m : NetFilterMap} (hitems : Items e filters items)
    (hroom : HasRoom m (paths e items)) (hkeyed : WellKeyed e m) :
    (loadFiltersIntoMap e order filters m true).error = none ∧
      (loadFiltersIntoMap e order filters m true).final.capacity = m.capacity ∧
      ∀ p, (loadFiltersIntoMap e order filters m true).final.nodes.get? p =
        open Classical in
        if ∃ k, Leftover m items k ∧ k.path e = p then none else lastItem e items p := by
  rcases storeEntries_of_items hitems m.storedKeys.dedup hroom with
    ⟨herror, hleft, hcap, hget⟩
  have hmem : ∀ k, k ∈ order.run (storeEntries e filters m m.storedKeys.dedup).2 ↔
      Leftover m items k := by
    intro k
    rw [IterOrder.mem_run, hleft]
    simp [Leftover]
  have hnodup : ((order.run (storeEntries e filters m m.storedKeys.dedup).2).map
      (CFilterKey.path e)).Nodup := by
    refine List.Nodup.map_on ?_ ?_
    · intro k hk k' hk' hpath
      exact hkeyed.eq_of_path ((hmem k).1 hk).1 ((hmem k').1 hk').1 hpath
    · rw [hleft]
      exact order.nodup_run ((List.nodup_dedup _).filter _)
  -- The first loop only overwrites, so the nodes of the leftovers are still there.
  have hthere : ∀ k ∈ order.run (storeEntries e filters m m.storedKeys.dedup).2,
      k.path e ∈ (storeEntries e filters m m.storedKeys.dedup).1.final.nodes.keys := by
    intro k hk
    rcases Dict.mem_keys_iff.1 (hkeyed.path_mem_keys ((hmem k).1 hk).1) with ⟨v, hv⟩
    rw [Dict.mem_keys_iff, hget, hv]
    cases lastItem e items (k.path e) with
    | none => exact ⟨_, rfl⟩
    | some item => exact ⟨_, rfl⟩
  rcases deleteKeys_of_mem hnodup hthere with ⟨herror', hcap', hget'⟩
  simp only [loadFiltersIntoMap, if_true, herror]
  refine ⟨herror', hcap'.trans hcap, ?_⟩
  intro p
  have hdeleted : p ∈ (order.run (storeEntries e filters m m.storedKeys.dedup).2).map
      (CFilterKey.path e) ↔ ∃ k, Leftover m items k ∧ k.path e = p := by
    simp only [List.mem_map, hmem]
  rw [hget', hget]
  by_cases hp : ∃ k, Leftover m items k ∧ k.path e = p
  · rw [if_pos (hdeleted.2 hp), if_pos hp]
  · rw [if_neg (fun h => hp (hdeleted.1 h)), if_neg hp]
    cases hlast : lastItem e items p with
    | some item => rfl
    | none => exact hkeyed.get?_eq_none hlast hp

/-! ## What a trie answers -/

theorem lastItem_index {e : Endian} {items : List (CFilterKey × CFilterValue)} {p : List Bool}
    {item : CFilterKey × CFilterValue} (h : lastItem e items p = some item) :
    ∃ i : Nat, items[i]? = some item ∧
      ∀ (j : Nat) item', items[j]? = some item' → item'.1.path e = p → j ≤ i := by
  induction items generalizing item with
  | nil => simp [lastItem] at h
  | cons head tail ih =>
      rw [lastItem_cons] at h
      cases htail : lastItem e tail p with
      | some item₀ =>
          rw [htail] at h
          cases h
          rcases ih htail with ⟨i, hi, hmax⟩
          refine ⟨i + 1, by simpa using hi, ?_⟩
          intro j item' hj hpath
          cases j with
          | zero => exact Nat.zero_le _
          | succ j => exact Nat.succ_le_succ (hmax j item' (by simpa using hj) hpath)
      | none =>
          rw [htail] at h
          have hhead : head = item := by
            by_cases hp : head.1.path e = p
            · simpa [hp] using h
            · simp [hp] at h
          refine ⟨0, by simp [hhead], ?_⟩
          intro j item' hj hpath
          cases j with
          | zero => exact Nat.le_refl _
          | succ j =>
              have hmem : item' ∈ tail := List.mem_of_getElem? (by simpa using hj)
              exact absurd hpath (lastItem_eq_none_iff.1 htail item' hmem)

/-- Item number `i` decides the address: its path is a prefix of the address bits, and no item
with that property has a longer path, nor one as long and a later place. -/
def DecidesItem (e : Endian) (items : List (CFilterKey × CFilterValue)) (i : Nat)
    (item : CFilterKey × CFilterValue) (a : Ipv4) : Prop :=
  items[i]? = some item ∧ item.1.path e <+: a.bits ∧
    ∀ (j : Nat) item', items[j]? = some item' → item'.1.path e <+: a.bits →
      (item'.1.path e).length < (item.1.path e).length ∨
        ((item'.1.path e).length = (item.1.path e).length ∧ j ≤ i)

/-- A trie that holds the items answers with the value of the deciding one. -/
theorem verdict_of_items {e : Endian} {m : NetFilterMap}
    {items : List (CFilterKey × CFilterValue)}
    (h : ∀ p, m.nodes.get? p = lastItem e items p) (a : Ipv4) (port : BitVec 16) :
    ((∀ item ∈ items, ¬ item.1.path e <+: a.bits) →
        isAddrPortFiltered e m (unpackL e a) port = false) ∧
      ((∃ item ∈ items, item.1.path e <+: a.bits) →
        ∃ i item, DecidesItem e items i item a ∧
          isAddrPortFiltered e m (unpackL e a) port = item.2.verdict port) := by
  have hvalue : ∀ p, m.valueAt p = (lastItem e items p).map Prod.snd := by
    intro p
    rw [LpmTrie.valueAt, h p]
  have hdefined : ∀ item ∈ items, m.valueAt (item.1.path e) ≠ none := by
    intro item hitem
    rw [hvalue, Ne, Option.map_eq_none_iff, lastItem_eq_none_iff]
    intro hall
    exact hall item hitem rfl
  unfold isAddrPortFiltered LpmTrie.lookup
  rw [packL_unpackL]
  constructor
  · intro hnone
    have hlookup : longestMatch m.valueAt a.bits = none := by
      rw [longestMatch_eq_none_iff]
      intro p hp
      rw [hvalue, Option.map_eq_none_iff, lastItem_eq_none_iff]
      intro item hitem hpath
      exact hnone item hitem (hpath ▸ hp)
    rw [hlookup]
  · rintro ⟨item₀, hitem₀, hp₀⟩
    cases hlookup : longestMatch m.valueAt a.bits with
    | none => exact absurd (longestMatch_eq_none_iff.1 hlookup _ hp₀) (hdefined item₀ hitem₀)
    | some v =>
        rcases longestMatch_eq_some_iff.1 hlookup with ⟨p, hp, hv, hlonger⟩
        rw [hvalue, Option.map_eq_some_iff] at hv
        rcases hv with ⟨item, hlast, rfl⟩
        rcases lastItem_index hlast with ⟨i, hi, hmax⟩
        have hpath : item.1.path e = p := (mem_of_lastItem hlast).2
        refine ⟨i, item, ⟨hi, hpath ▸ hp, ?_⟩, rfl⟩
        intro j item' hj hp'
        have hle : (item'.1.path e).length ≤ p.length := by
          by_contra hlt
          exact hdefined item' (List.mem_of_getElem? hj) (hlonger _ hp' (Nat.lt_of_not_le hlt))
        rw [hpath]
        rcases Nat.lt_or_ge (item'.1.path e).length p.length with hlt | hge
        · exact Or.inl hlt
        · have hlen : (item'.1.path e).length = p.length := Nat.le_antisymm hle hge
          -- Prefixes of one word with one length are one path.
          have hsame : item'.1.path e = p := by
            rw [List.prefix_iff_eq_take.1 hp', List.prefix_iff_eq_take.1 hp, hlen]
          exact Or.inr ⟨hlen, hmax j item' hj hsame⟩

end PidtreeBcc
