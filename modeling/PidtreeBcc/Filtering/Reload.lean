import PidtreeBcc.Filtering.NetFilter
import PidtreeBcc.Filtering.PortMap

/-!
# Reload — when a reload leaves what a first load would

Both loaders can be asked to diff against what is in the map.  For the trie the result is that of a
first load just when the new entries fit beside the old ones, and no leftover key names the node of a
new one.  For the port array it is so just when no element that was set is written again under a number
that is not its own.
-/

namespace PidtreeBcc

open Support

/-! ## The trie -/

def WithinCapacity (m : NetFilterMap) : Prop := ∀ c, m.capacity = some c → m.nodes.size ≤ c

theorem withinCapacity_empty (capacity : Option Nat) : WithinCapacity (LpmTrie.empty capacity) := by
  intro c _
  exact Nat.zero_le c

theorem WithinCapacity.insert {m m' : NetFilterMap} {p : List Bool} {k : CFilterKey}
    {v : CFilterValue} (h : WithinCapacity m) (hinsert : m.insert? p k v = some m') :
    WithinCapacity m' := by
  intro c hc
  rw [LpmTrie.insert?_eq_some hinsert] at hc ⊢
  by_cases hp : p ∈ m.nodes.keys
  · rw [← Dict.length_keys, Dict.keys_set_of_mem hp, Dict.length_keys]
    exact h c hc
  · -- A new key was accepted, so the trie was not full.
    have hroom : ¬ m.Full := by
      intro hfull
      simp [LpmTrie.insert?, hp, hfull] at hinsert
    have hlt : m.nodes.size < c := by
      have hc' : m.capacity = some c := hc
      simpa [LpmTrie.Full, hc'] using hroom
    rw [← Dict.length_keys, Dict.keys_set_of_not_mem hp, List.length_append, Dict.length_keys]
    exact hlt

/-- A load that stored every entry had room for all of them. -/
theorem hasRoom_of_stored {e : Endian} {filters : List FilterEntry}
    {items : List (CFilterKey × CFilterValue)} (hitems : Items e filters items) :
    ∀ {m : NetFilterMap} {leftovers : List CFilterKey}, WithinCapacity m →
      (storeEntries e filters m leftovers).1.error = none →
        HasRoom m (paths e items) ∧
          WithinCapacity (storeEntries e filters m leftovers).1.final := by
  induction hitems with
  | nil =>
      intro m leftovers hwithin _
      refine ⟨?_, hwithin⟩
      intro c hc
      simpa [paths, List.toFinset_card_of_nodup m.nodes.keys_nodup, Dict.length_keys] using
        hwithin c hc
  | @cons entry item filters items hitem _ ih =>
      intro m leftovers hwithin herror
      rcases item with ⟨mapKey, value⟩
      cases hinsert : m.insert? (mapKey.path e) mapKey value with
      | none => simp [storeEntries, hitem, hinsert] at herror
      | some m' =>
          simp only [storeEntries, hitem, hinsert] at herror ⊢
          rcases ih (hwithin.insert hinsert) herror with ⟨hroom, hwithin'⟩
          refine ⟨?_, hwithin'⟩
          intro c hc
          rw [LpmTrie.insert?_eq_some hinsert] at hroom
          have hkeys : (m.nodes.keys ++ mapKey.path e :: paths e items).toFinset =
              ((m.nodes.set (mapKey.path e) (mapKey, value)).keys ++ paths e items).toFinset := by
            ext q
            simp only [List.mem_toFinset, List.mem_append, List.mem_cons, Dict.mem_keys_set]
            tauto
          have hcard := hroom c hc
          rw [← hkeys] at hcard
          exact hcard

/-- An entry that did not fit is missing in the end. -/
theorem missing_of_not_stored {e : Endian} {filters : List FilterEntry}
    {items : List (CFilterKey × CFilterValue)} (hitems : Items e filters items) :
    ∀ {m : NetFilterMap} {leftovers : List CFilterKey},
      (storeEntries e filters m leftovers).1.error ≠ none →
        ∃ p ∈ paths e items, (storeEntries e filters m leftovers).1.final.nodes.get? p = none := by
  induction hitems with
  | nil =>
      intro m leftovers herror
      exact absurd rfl herror
  | @cons entry item filters items hitem _ ih =>
      intro m leftovers herror
      rcases item with ⟨mapKey, value⟩
      cases hinsert : m.insert? (mapKey.path e) mapKey value with
      | none =>
          refine ⟨mapKey.path e, by simp [paths], ?_⟩
          have hnew : mapKey.path e ∉ m.nodes.keys := by
            intro hmem
            simp [LpmTrie.insert?, hmem] at hinsert
          simpa [storeEntries, hitem, hinsert] using Dict.get?_eq_none_iff.2 hnew
      | some m' =>
          simp only [storeEntries, hitem, hinsert] at herror ⊢
          rcases ih herror with ⟨p, hp, hmissing⟩
          exact ⟨p, List.mem_cons_of_mem _ hp, hmissing⟩

/-- A load with diff that raised nothing stored every entry. -/
theorem stored_of_load {e : Endian} {order : IterOrder CFilterKey} {filters : List FilterEntry}
    {m : NetFilterMap} (h : (loadFiltersIntoMap e order filters m true).error = none) :
    (storeEntries e filters m m.storedKeys.dedup).1.error = none := by
  simp only [loadFiltersIntoMap, if_true] at h
  cases hstored : (storeEntries e filters m m.storedKeys.dedup).1.error with
  | none => rfl
  | some err =>
      rw [hstored] at h
      rw [hstored] at h
      cases h

/-- When a reload of the trie leaves just the new items. -/
theorem load_diff_iff {e : Endian} (order : IterOrder CFilterKey) {filters : List FilterEntry}
    {items : List (CFilterKey × CFilterValue)} {m : NetFilterMap} (hitems : Items e filters items)
    (hkeyed : WellKeyed e m) (hwithin : WithinCapacity m) :
    (∀ p, (loadFiltersIntoMap e order filters m true).final.nodes.get? p = lastItem e items p) ↔
      HasRoom m (paths e items) ∧ ∀ k, Leftover m items k → k.path e ∉ paths e items := by
  constructor
  · intro hsame
    have hstored : (storeEntries e filters m m.storedKeys.dedup).1.error = none := by
      by_contra herror
      rcases missing_of_not_stored hitems herror with ⟨p, hp, hmissing⟩
      have hfinal : (loadFiltersIntoMap e order filters m true).final =
          (storeEntries e filters m m.storedKeys.dedup).1.final := by
        simp only [loadFiltersIntoMap, if_true]
        cases hcase : (storeEntries e filters m m.storedKeys.dedup).1.error with
        | none => exact absurd hcase herror
        | some err => rfl
      rcases lastItem_isSome_iff.2 hp with ⟨item, hitem⟩
      have hget := hsame p
      rw [hfinal, hmissing, hitem] at hget
      cases hget
    have hroom := (hasRoom_of_stored hitems hwithin hstored).1
    refine ⟨hroom, ?_⟩
    intro k hk hpath
    rcases lastItem_isSome_iff.2 hpath with ⟨item, hitem⟩
    have hget := (load_diff order hitems hroom hkeyed).2.2 (k.path e)
    rw [hsame, hitem, if_pos ⟨k, hk, rfl⟩] at hget
    cases hget
  · rintro ⟨hroom, hleftover⟩ p
    rw [(load_diff order hitems hroom hkeyed).2.2 p]
    by_cases hp : ∃ k, Leftover m items k ∧ k.path e = p
    · rw [if_pos hp]
      rcases hp with ⟨k, hk, rfl⟩
      cases hlast : lastItem e items (k.path e) with
      | none => rfl
      | some item => exact absurd (lastItem_isSome_iff.1 ⟨item, hlast⟩) (hleftover k hk)
    · rw [if_neg hp]

/-! ### In terms of entries -/

/-- The key of an entry that the loader accepts. -/
def FilterEntry.key (e : Endian) (entry : FilterEntry) : Option CFilterKey :=
  match filterItem e entry with
  | .ok item => some item.1
  | .error _ => none

theorem key_of_item {e : Endian} {entry : FilterEntry} {item : CFilterKey × CFilterValue}
    (h : filterItem e entry = .ok item) : entry.key e = some item.1 := by
  simp [FilterEntry.key, h]

theorem path_of_key {e : Endian} {entry : FilterEntry} {k : CFilterKey} (h : entry.key e = some k) :
    entry.path e = k.path e := by
  unfold FilterEntry.key at h
  unfold FilterEntry.path
  cases hparse : filterItem e entry with
  | error err => simp [hparse] at h
  | ok item =>
      rw [hparse] at h
      cases h
      rfl

/-- No later entry has the path of the `i`-th one. -/
def LastAtPath (e : Endian) (filters : List FilterEntry) (i : Nat) (entry : FilterEntry) : Prop :=
  filters[i]? = some entry ∧
    ∀ j other, filters[j]? = some other → other.path e = entry.path e → j ≤ i

/-- A key that stays from the old list, and whose path the new list has, is a key of the new list. -/
def KeysFit (e : Endian) (filters filters' : List FilterEntry) : Prop :=
  ∀ i entry, LastAtPath e filters i entry → ∀ other ∈ filters', other.path e = entry.path e →
    ∃ same ∈ filters', same.key e = entry.key e

theorem Items.paths_eq {e : Endian} {filters : List FilterEntry}
    {items : List (CFilterKey × CFilterValue)} (h : Items e filters items) :
    paths e items = filters.map (FilterEntry.path e) := by
  induction h with
  | nil => rfl
  | cons hitem _ ih =>
      rw [List.map_cons, path_of_item hitem, ← ih]
      rfl

theorem Items.mem_keys_iff {e : Endian} {filters : List FilterEntry}
    {items : List (CFilterKey × CFilterValue)} (h : Items e filters items) {k : CFilterKey} :
    k ∈ items.map Prod.fst ↔ ∃ entry ∈ filters, entry.key e = some k := by
  induction h with
  | nil => simp
  | cons hitem _ ih => simp [key_of_item hitem, ih, eq_comm]

/-- The keys that a load leaves are those of the last entries at their paths. -/
theorem Items.lastItem_key_iff {e : Endian} {filters : List FilterEntry}
    {items : List (CFilterKey × CFilterValue)} (h : Items e filters items) {k : CFilterKey} :
    (∃ p v, lastItem e items p = some (k, v)) ↔
      ∃ i entry, LastAtPath e filters i entry ∧ entry.key e = some k := by
  constructor
  · rintro ⟨p, v, hlast⟩
    have hpath : k.path e = p := (mem_of_lastItem hlast).2
    rcases lastItem_index hlast with ⟨i, hi, hmax⟩
    rcases h.entry_of_item hi with ⟨entry, hentry, hparse⟩
    refine ⟨i, entry, ⟨hentry, ?_⟩, key_of_item hparse⟩
    intro j other hother hsame
    rcases h.item_of_entry hother with ⟨other', hother', hparse'⟩
    rw [path_of_item hparse', path_of_item hparse] at hsame
    exact hmax j other' hother' (hsame.trans hpath)
  · rintro ⟨i, entry, ⟨hentry, hlatest⟩, hkey⟩
    rcases h.item_of_entry hentry with ⟨item, hitem, hparse⟩
    rw [key_of_item hparse] at hkey
    cases hkey
    have hmem : item.1.path e ∈ paths e items :=
      List.mem_map.2 ⟨item, List.mem_of_getElem? hitem, rfl⟩
    rcases lastItem_isSome_iff.2 hmem with ⟨item', hlast⟩
    rcases lastItem_index hlast with ⟨i', hi', hmax⟩
    rcases h.entry_of_item hi' with ⟨entry', hentry', hparse'⟩
    have hpath' : item'.1.path e = item.1.path e := (mem_of_lastItem hlast).2
    -- Both are the last ones at the path.
    have hii : i = i' := by
      refine Nat.le_antisymm (hmax i item hitem rfl) (hlatest i' entry' hentry' ?_)
      rw [path_of_item hparse', path_of_item hparse, hpath']
    rw [hii, hi'] at hitem
    cases hitem
    exact ⟨_, item.2, hlast⟩

section Net

variable {e : Endian} {order₁ order₂ : IterOrder CFilterKey} (order₃ : IterOrder CFilterKey)
  {filters filters' : List FilterEntry} {items' : List (CFilterKey × CFilterValue)}
  {capacity capacity' : Nat}

/-- The leftovers of a list fit just when its keys fit, if the trie holds what the old list left. -/
theorem leftovers_fit_iff {m : NetFilterMap} {items : List (CFilterKey × CFilterValue)}
    (hitems : Items e filters items) (hget : ∀ p, m.nodes.get? p = lastItem e items p)
    (hitems' : Items e filters' items') :
    (∀ k, Leftover m items' k → k.path e ∉ paths e items') ↔ KeysFit e filters filters' := by
  have hstays : ∀ k, k ∈ m.storedKeys ↔
      ∃ i entry, LastAtPath e filters i entry ∧ entry.key e = some k := by
    intro k
    rw [mem_storedKeys_iff, ← hitems.lastItem_key_iff]
    simp only [hget]
  rw [hitems'.paths_eq]
  constructor
  · intro hpaths i entry hlast other hother hsame
    rcases hitems.item_of_entry hlast.1 with ⟨item, _, hparse⟩
    have hkey := key_of_item hparse
    by_contra hnone
    -- A key that is not written again is a leftover, so no new entry has its path.
    have hnew : item.1 ∉ items'.map Prod.fst := by
      intro hmem
      rcases hitems'.mem_keys_iff.1 hmem with ⟨same, hsame, hkey'⟩
      exact hnone ⟨same, hsame, hkey'.trans hkey.symm⟩
    refine hpaths item.1 ⟨(hstays _).2 ⟨i, entry, hlast, hkey⟩, hnew⟩ ?_
    exact List.mem_map.2 ⟨other, hother, by rw [hsame, path_of_item hparse]⟩
  · intro hkeys k hk hpath
    rcases (hstays k).1 hk.1 with ⟨i, entry, hlast, hkey⟩
    rcases List.mem_map.1 hpath with ⟨other, hother, hsame⟩
    rcases hkeys i entry hlast other hother (hsame.trans (path_of_key hkey).symm) with
      ⟨same, hmem, hkey'⟩
    exact hk.2 (hitems'.mem_keys_iff.2 ⟨same, hmem, hkey'.trans hkey⟩)

/-- What matters for a reload of a trie that was loaded once, in terms of the entries. -/
theorem first_load_spec
    (h : (loadFiltersIntoMap e order₁ filters (LpmTrie.empty (some capacity)) false).error = none)
    (hitems' : Items e filters' items') :
    let m := (loadFiltersIntoMap e order₁ filters (LpmTrie.empty (some capacity)) false).final
    WellKeyed e m ∧ WithinCapacity m ∧
      (HasRoom m (paths e items') ↔
        ((filters ++ filters').map (FilterEntry.path e)).toFinset.card ≤ capacity) ∧
      ((∀ k, Leftover m items' k → k.path e ∉ paths e items') ↔ KeysFit e filters filters') := by
  intro m
  rcases items_of_load h with ⟨items, hitems, hget⟩
  rcases load_empty e order₁ filters (some capacity) false with ⟨hfinal, herror⟩
  rcases hasRoom_of_stored hitems (withinCapacity_empty (some capacity)) (herror ▸ h) with
    ⟨hroom, hwithin⟩
  rw [← hfinal] at hwithin
  have hcapacity : m.capacity = some capacity := (load_fresh order₁ hitems hroom).2.1
  refine ⟨?_, hwithin, ?_, leftovers_fit_iff hitems hget hitems'⟩
  · intro p k v hp
    rw [hget] at hp
    exact (mem_of_lastItem hp).2.symm
  · have hnodes : ∀ p, p ∈ m.nodes.keys ↔ p ∈ filters.map (FilterEntry.path e) := by
      intro p
      rw [Dict.mem_keys_iff, hget, lastItem_isSome_iff, hitems.paths_eq]
    have hpaths : (m.nodes.keys ++ paths e items').toFinset =
        ((filters ++ filters').map (FilterEntry.path e)).toFinset := by
      ext p
      rw [hitems'.paths_eq, List.map_append, List.mem_toFinset, List.mem_toFinset, List.mem_append,
        List.mem_append, hnodes]
    unfold HasRoom
    rw [hpaths, hcapacity]
    simp

/-- When a reload of the trie leaves what a first load of the new list leaves: the paths of both lists
fit in the trie, and the keys fit. -/
theorem reload_net_iff
    (h : (loadFiltersIntoMap e order₁ filters (LpmTrie.empty (some capacity)) false).error = none)
    (h' : (loadFiltersIntoMap e order₂ filters' (LpmTrie.empty (some capacity')) false).error =
      none) :
    (∀ p, (loadFiltersIntoMap e order₃ filters'
        (loadFiltersIntoMap e order₁ filters (LpmTrie.empty (some capacity)) false).final
        true).final.nodes.get? p =
      (loadFiltersIntoMap e order₂ filters' (LpmTrie.empty (some capacity')) false).final.nodes.get?
        p) ↔
      ((filters ++ filters').map (FilterEntry.path e)).toFinset.card ≤ capacity ∧
        KeysFit e filters filters' := by
  rcases items_of_load h' with ⟨items', hitems', hget'⟩
  rcases first_load_spec h hitems' with ⟨hkeyed, hwithin, hroom, hkeys⟩
  have hdiff := load_diff_iff order₃ hitems' hkeyed hwithin
  rw [hroom, hkeys] at hdiff
  simpa only [hget'] using hdiff

/-- A reload with room raises nothing. -/
theorem reload_net_error
    (h : (loadFiltersIntoMap e order₁ filters (LpmTrie.empty (some capacity)) false).error = none)
    (h' : (loadFiltersIntoMap e order₂ filters' (LpmTrie.empty (some capacity')) false).error =
      none)
    (hroom : ((filters ++ filters').map (FilterEntry.path e)).toFinset.card ≤ capacity) :
    (loadFiltersIntoMap e order₃ filters'
      (loadFiltersIntoMap e order₁ filters (LpmTrie.empty (some capacity)) false).final
      true).error = none := by
  rcases items_of_load h' with ⟨items', hitems', _⟩
  rcases first_load_spec h hitems' with ⟨hkeyed, _, hroom', _⟩
  exact (load_diff order₃ hitems' (hroom'.2 hroom) hkeyed).1

end Net

/-- Keys of prefix networks are in normal form, so a path is that of one key only. -/
theorem keysFit_of_denotes {e : Endian} {filters filters' : List FilterEntry}
    (h : ∀ entry ∈ filters, ∃ r, Denotes entry r) (h' : ∀ entry ∈ filters', ∃ r, Denotes entry r) :
    KeysFit e filters filters' := by
  intro i entry hlast other hother hsame
  rcases h entry (List.mem_of_getElem? hlast.1) with ⟨r, hr⟩
  rcases h' other hother with ⟨r', hr'⟩
  have hkey := key_of_item (filterItem_of_denotes e hr)
  have hkey' := key_of_item (filterItem_of_denotes e hr')
  refine ⟨other, hother, ?_⟩
  rw [path_of_key hkey, path_of_key hkey'] at hsame
  rw [hkey, hkey']
  exact congrArg some ((r'.canonical_key e).eq_of_path (r.canonical_key e) hsame)

/-! ## The port array -/

namespace PortFilterMap

theorem setItems_error_iff {ws : List (Int × BitVec 8)} :
    ∀ {m : PortFilterMap}, (setItems ws m).error = none ↔ ∀ w ∈ ws, ∃ i, index w.1 = .ok i := by
  induction ws with
  | nil =>
      intro m
      exact iff_of_true rfl (by simp)
  | cons w ws ih =>
      intro m
      rw [List.forall_mem_cons]
      cases hindex : index w.1 with
      | error err => simp [setItems, hindex]
      | ok i => simpa [setItems, hindex] using ih

theorem setItems_append {ws ws' : List (Int × BitVec 8)} :
    ∀ {m : PortFilterMap}, (setItems ws m).error = none →
      (setItems (ws ++ ws') m).final = (setItems ws' (setItems ws m).final).final := by
  induction ws with
  | nil => exact fun _ => rfl
  | cons w ws ih =>
      intro m herror
      cases hindex : index w.1 with
      | error err => simp [setItems, hindex] at herror
      | ok i =>
          simp only [setItems, hindex] at herror
          simpa [setItems, hindex] using ih herror

/-- Writing one value at several elements. -/
theorem setItems_const {ports : List Int} {v : BitVec 8} :
    ∀ {m : PortFilterMap}, (∀ n ∈ ports, ∃ i, index n = .ok i) → ∀ i,
      (setItems (ports.map (·, v)) m).final i =
        if ∃ n ∈ ports, index n = .ok i then v else m i := by
  induction ports with
  | nil => simp [setItems]
  | cons n ports ih =>
      intro m hindex i
      rw [List.forall_mem_cons] at hindex
      rcases hindex.1 with ⟨j, hj⟩
      simp only [List.map_cons, setItems, hj]
      rw [ih hindex.2]
      by_cases hrest : ∃ n ∈ ports, index n = .ok i
      · rw [if_pos hrest, if_pos]
        rcases hrest with ⟨n', hn', hi⟩
        exact ⟨n', List.mem_cons_of_mem _ hn', hi⟩
      · rw [if_neg hrest]
        by_cases hji : j = i
        · subst hji
          rw [Function.update_self, if_pos ⟨n, by simp, hj⟩]
        · rw [Function.update_of_ne (Ne.symm hji), if_neg]
          rintro ⟨n', hn', hi⟩
          rcases List.mem_cons.1 hn' with rfl | hn'
          · rw [hj] at hi
            cases hi
            exact hji rfl
          · exact hrest ⟨n', hn', hi⟩

/-- A block of listed ports, a block of leftovers and the mode: the later blocks win. -/
theorem setItems_blocks {listed leftovers : List Int} {mode : BitVec 8} {m : PortFilterMap}
    (hindex : ∀ w ∈ listed.map (·, (1 : BitVec 8)) ++ leftovers.map (·, (0 : BitVec 8)) ++
      [0].map (·, mode), ∃ i, index w.1 = .ok i) (i : BitVec 16) :
    (setItems (listed.map (·, 1) ++ leftovers.map (·, 0) ++ [0].map (·, mode)) m).final i =
      if i = 0 then mode
      else if ∃ n ∈ leftovers, index n = .ok i then 0
      else if ∃ n ∈ listed, index n = .ok i then 1
      else m i := by
  have hlisted : ∀ n ∈ listed, ∃ i, index n = .ok i := by
    intro n hn
    exact hindex (n, 1)
      (List.mem_append_left _ (List.mem_append_left _ (List.mem_map_of_mem hn)))
  have hleftovers : ∀ n ∈ leftovers, ∃ i, index n = .ok i := by
    intro n hn
    exact hindex (n, 0) (List.mem_append_left _ (List.mem_append_right _ (List.mem_map_of_mem hn)))
  have hzero : index 0 = .ok 0 := index_of_port (by omega) (by omega)
  have herror₁ : (setItems (listed.map (·, 1)) m).error = none := by
    refine setItems_error_iff.2 ?_
    intro w hw
    exact hindex w (List.mem_append_left _ (List.mem_append_left _ hw))
  have herror₂ : (setItems (listed.map (·, 1) ++ leftovers.map (·, 0)) m).error = none := by
    refine setItems_error_iff.2 ?_
    intro w hw
    exact hindex w (List.mem_append_left _ hw)
  rw [setItems_append herror₂, setItems_append herror₁, setItems_const (by simp [hzero]),
    setItems_const hleftovers, setItems_const hlisted]
  have hmode : (∃ n ∈ [(0 : Int)], index n = .ok i) ↔ i = 0 := by
    simp only [List.mem_singleton, exists_eq_left, hzero, Except.ok.injEq]
    exact eq_comm
  simp only [hmode]

theorem index_toNat (i : BitVec 16) : index (i.toNat : Int) = .ok i := by
  have hlt := i.isLt
  have hindex := index_of_port (n := (i.toNat : Int)) (by omega) (by omega)
  simpa using hindex

/-- The leftovers name the elements that are set and whose own number is not listed. -/
theorem exists_leftover_iff (m : PortFilterMap) (listed : List Int) {i : BitVec 16} (hi : i ≠ 0) :
    (∃ n ∈ m.currentState.filter (· ∉ listed), index n = .ok i) ↔
      m i ≠ 0 ∧ (i.toNat : Int) ∉ listed := by
  have hback : BitVec.ofInt 16 (i.toNat : Int) = i := by simp
  constructor
  · rintro ⟨n, hn, hindex⟩
    rcases List.mem_filter.1 hn with ⟨hcurrent, hlisted⟩
    rcases mem_currentState.1 hcurrent with ⟨h₁, h₂, hset⟩
    rw [index_of_port (by omega) h₂] at hindex
    cases hindex
    rw [toNat_of_port (by omega) h₂]
    exact ⟨hset, by simpa using hlisted⟩
  · rintro ⟨hset, hlisted⟩
    have hpos : i.toNat ≠ 0 := fun hzero => hi (BitVec.eq_of_toNat_eq hzero)
    have hlt := i.isLt
    refine ⟨i.toNat, List.mem_filter.2 ⟨mem_currentState.2 ⟨by omega, by omega, ?_⟩, ?_⟩,
      index_toNat i⟩
    · rw [hback]
      exact hset
    · simpa using hlisted

end PortFilterMap

section PortLoad

variable {order : IterOrder Int} {filters : List PortSpec} {mode : PortFilterMode}
  {m : PortFilterMap} {doDiff : Bool} {ports : List (List Int)}

/-- A load succeeds when every element parses to numbers that name an element of the array. -/
theorem loadPortFilters_error_iff :
    (loadPortFiltersIntoMap order filters mode m doDiff).error = none ↔
      (mode = .include ∨ mode = .exclude) ∧ ∃ ports,
        filters.mapM PortSpec.globalPorts = .ok ports ∧
          ∀ n ∈ ports.flatten, ∃ i, PortFilterMap.index n = .ok i := by
  by_cases hmode : mode = .include ∨ mode = .exclude
  · cases hports : filters.mapM PortSpec.globalPorts with
    | error err => simp [loadPortFiltersIntoMap, hmode, hports]
    | ok ports =>
        rw [loadPortFilters_eq hmode hports, PortFilterMap.setItems_error_iff]
        constructor
        · intro h
          refine ⟨hmode, ports, rfl, ?_⟩
          intro n hn
          exact h (n, 1) (mem_portWrites.2 (Or.inl ⟨hn, rfl⟩))
        · rintro ⟨_, ports', hports', hindex⟩ w hw
          cases hports'
          rcases mem_portWrites.1 hw with ⟨hn, _⟩ | ⟨_, hcurrent, _, _⟩ | ⟨hzero, _⟩
          · exact hindex _ hn
          · rcases PortFilterMap.mem_currentState.1 hcurrent with ⟨h₁, h₂, _⟩
            exact ⟨_, PortFilterMap.index_of_port (by omega) h₂⟩
          · exact ⟨_, PortFilterMap.index_of_port (by omega) (by omega)⟩
  · simp [loadPortFiltersIntoMap, hmode]

/-- The array after a load that succeeded: a leftover is cleared after the listed ports are set. -/
theorem loadPortFilters_final (hmode : mode = .include ∨ mode = .exclude)
    (hports : filters.mapM PortSpec.globalPorts = .ok ports)
    (herror : (loadPortFiltersIntoMap order filters mode m doDiff).error = none) (i : BitVec 16) :
    (loadPortFiltersIntoMap order filters mode m doDiff).final i =
      if i = 0 then BitVec.ofNat 8 mode.value
      else if doDiff = true ∧ m i ≠ 0 ∧ (i.toNat : Int) ∉ ports.flatten then 0
      else if ∃ n ∈ ports.flatten, PortFilterMap.index n = .ok i then 1
      else m i := by
  rw [loadPortFilters_eq hmode hports] at herror ⊢
  have hindex := PortFilterMap.setItems_error_iff.1 herror
  unfold portWrites at hindex ⊢
  rw [PortFilterMap.setItems_blocks hindex]
  by_cases hi : i = 0
  · simp only [if_pos hi]
  · have hisListed : (∃ n ∈ order.run ports.flatten.dedup, PortFilterMap.index n = .ok i) ↔
        ∃ n ∈ ports.flatten, PortFilterMap.index n = .ok i := by
      simp only [IterOrder.mem_run, List.mem_dedup]
    have hisLeftover : (∃ n ∈ order.run ((if doDiff then m.currentState else []).filter
        (· ∉ ports.flatten.dedup)), PortFilterMap.index n = .ok i) ↔
          doDiff = true ∧ m i ≠ 0 ∧ (i.toNat : Int) ∉ ports.flatten := by
      cases doDiff with
      | false => simp [List.perm_nil.1 (order.perm [])]
      | true =>
          have hex := PortFilterMap.exists_leftover_iff m ports.flatten.dedup hi
          simpa only [if_true, IterOrder.mem_run, List.mem_dedup, true_and] using hex
    simp only [if_neg hi, hisListed, hisLeftover]

/-- A first load sets the elements that the listed numbers name. -/
theorem loadPortFilters_zeros (hports : filters.mapM PortSpec.globalPorts = .ok ports)
    (herror : (loadPortFiltersIntoMap order filters mode PortFilterMap.zeros false).error = none)
    {i : BitVec 16} (hi : i ≠ 0) :
    (loadPortFiltersIntoMap order filters mode PortFilterMap.zeros false).final i =
      if ∃ n ∈ ports.flatten, PortFilterMap.index n = .ok i then 1 else 0 := by
  have hmode := (loadPortFilters_error_iff.1 herror).1
  rw [loadPortFilters_final hmode hports herror, if_neg hi, if_neg (by simp)]
  rfl

/-- The numbers that a list of port filters stands for. -/
def listedPorts (filters : List PortSpec) : List Int :=
  match filters.mapM PortSpec.globalPorts with
  | .ok ports => ports.flatten
  | .error _ => []

/-- No element that the old list sets is written by the new list under another number only. -/
def PortsFit (filters filters' : List PortSpec) : Prop :=
  ∀ i : BitVec 16, i ≠ 0 → (∃ n ∈ listedPorts filters, PortFilterMap.index n = .ok i) →
    (∃ n ∈ listedPorts filters', PortFilterMap.index n = .ok i) →
      (i.toNat : Int) ∈ listedPorts filters'

/-- Numbers from 0 to 65535 name only their own element. -/
theorem portsFit_of_ports {filters filters' : List PortSpec}
    (h : ∀ n ∈ listedPorts filters', 0 ≤ n ∧ n ≤ 65535) : PortsFit filters filters' := by
  rintro i _ _ ⟨n, hn, hindex⟩
  rcases h n hn with ⟨h₀, h₁⟩
  rw [PortFilterMap.index_of_port h₀ h₁] at hindex
  cases hindex
  rw [PortFilterMap.toNat_of_port h₀ h₁]
  exact hn

/-- What the array holds does not matter for whether a load succeeds. -/
theorem reload_ports_error {order₁ order₂ : IterOrder Int} {m m' : PortFilterMap} {doDiff' : Bool}
    (h : (loadPortFiltersIntoMap order₁ filters mode m doDiff).error = none) :
    (loadPortFiltersIntoMap order₂ filters mode m' doDiff').error = none :=
  loadPortFilters_error_iff.2 (loadPortFilters_error_iff.1 h)

/-- When a reload of the array leaves what a first load of the new list leaves. -/
theorem reload_ports_iff {order₁ order₂ : IterOrder Int} (order₃ : IterOrder Int)
    {filters filters' : List PortSpec} {mode mode' : PortFilterMode}
    (h : (loadPortFiltersIntoMap order₁ filters mode PortFilterMap.zeros false).error = none)
    (h' : (loadPortFiltersIntoMap order₂ filters' mode' PortFilterMap.zeros false).error = none) :
    (loadPortFiltersIntoMap order₃ filters' mode'
        (loadPortFiltersIntoMap order₁ filters mode PortFilterMap.zeros false).final true).final =
      (loadPortFiltersIntoMap order₂ filters' mode' PortFilterMap.zeros false).final ↔
        PortsFit filters filters' := by
  rcases loadPortFilters_error_iff.1 h with ⟨_, ports, hports, _⟩
  rcases loadPortFilters_error_iff.1 h' with ⟨hmode', ports', hports', _⟩
  have hreload : (loadPortFiltersIntoMap order₃ filters' mode'
      (loadPortFiltersIntoMap order₁ filters mode PortFilterMap.zeros false).final true).error =
      none := reload_ports_error h'
  unfold PortsFit listedPorts
  rw [hports, hports', funext_iff]
  refine forall_congr' fun i => ?_
  by_cases hi : i = 0
  · rw [loadPortFilters_final hmode' hports' hreload, loadPortFilters_final hmode' hports' h']
    simp [hi]
  · have hown : (i.toNat : Int) ∈ ports'.flatten →
        ∃ n ∈ ports'.flatten, PortFilterMap.index n = .ok i :=
      fun hmem => ⟨i.toNat, hmem, PortFilterMap.index_toNat i⟩
    rw [loadPortFilters_final hmode' hports' hreload, if_neg hi, loadPortFilters_zeros hports h hi,
      loadPortFilters_zeros hports' h' hi]
    by_cases hset : ∃ n ∈ ports.flatten, PortFilterMap.index n = .ok i
    · by_cases hmem : (i.toNat : Int) ∈ ports'.flatten
      · -- Listed under its own number, so not a leftover.
        rw [if_neg (fun h => h.2.2 hmem)]
        simp only [if_pos (hown hmem), true_iff]
        exact fun _ _ _ => hmem
      · -- A leftover is cleared, even if another number of the new list names it.
        rw [if_pos hset, if_pos ⟨rfl, by decide, hmem⟩]
        by_cases hnew : ∃ n ∈ ports'.flatten, PortFilterMap.index n = .ok i
        · rw [if_pos hnew]
          exact iff_of_false (by decide) (fun h => hmem (h hi hset hnew))
        · rw [if_neg hnew]
          exact iff_of_true rfl (fun _ _ h => absurd h hnew)
    · -- The old list did not set the element, so both loads find it clear.
      rw [if_neg hset, if_neg (by simp)]
      exact iff_of_true rfl (fun _ h => absurd h hset)

end PortLoad

end PidtreeBcc
