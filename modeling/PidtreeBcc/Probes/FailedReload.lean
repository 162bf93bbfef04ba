import PidtreeBcc.Probes.HotSwap

/-!
# FailedReload — what a reload that raises leaves behind

The loaders write as they go: the entries of the trie one by one, then the deletions, then the port
array.  A reload that raises on the way keeps what it has written so far, so it leaves the maps as they
were only if what it came to write was there already.
-/

namespace PidtreeBcc

open Support

namespace Probes

/-! ## The trie -/

/-- A trie as the kernel keeps it: every node at the path of its key, and no more nodes than fit. -/
structure KernelTrie (e : Endian) (m : NetFilterMap) : Prop where
  keyed : WellKeyed e m
  within : WithinCapacity m

/-- The loop cannot store the entry: it does not parse, or the trie is full and its key is new. -/
def CannotStore (e : Endian) (m : NetFilterMap) (entry : FilterEntry) : Prop :=
  match filterItem e entry with
  | .error _ => True
  | .ok (mapKey, _) => mapKey.path e ∉ m.nodes.keys ∧ m.Full

/-- Tries with the same capacity and nodes at the same paths cannot store the same entries. -/
theorem cannotStore_congr {e : Endian} {m m' : NetFilterMap} (hcapacity : m.capacity = m'.capacity)
    (hkeys : ∀ p, p ∈ m.nodes.keys ↔ p ∈ m'.nodes.keys) (entry : FilterEntry) :
    CannotStore e m entry ↔ CannotStore e m' entry := by
  have hsize : m.nodes.size = m'.nodes.size := by
    have hperm := (List.perm_ext_iff_of_nodup m.nodes.keys_nodup m'.nodes.keys_nodup).2 hkeys
    simpa [Dict.length_keys] using hperm.length_eq
  have hfull : m.Full ↔ m'.Full := by
    unfold LpmTrie.Full
    rw [hcapacity, hsize]
  unfold CannotStore
  cases filterItem e entry with
  | error err => exact Iff.rfl
  | ok item => simp only [hkeys, hfull]

theorem storeEntries_append {e : Endian} {stored : List FilterEntry} (rest : List FilterEntry) :
    ∀ {m : NetFilterMap} {leftovers : List CFilterKey},
      (storeEntries e stored m leftovers).1.error = none → ∃ leftovers',
        (storeEntries e (stored ++ rest) m leftovers).1.final =
            (storeEntries e rest (storeEntries e stored m leftovers).1.final leftovers').1.final ∧
          (storeEntries e (stored ++ rest) m leftovers).1.error =
            (storeEntries e rest (storeEntries e stored m leftovers).1.final leftovers').1.error := by
  induction stored with
  | nil => exact fun _ => ⟨_, rfl, rfl⟩
  | cons entry stored ih =>
      intro m leftovers herror
      cases hitem : filterItem e entry with
      | error err => simp [storeEntries, hitem] at herror
      | ok item =>
          cases hinsert : m.insert? (item.1.path e) item.1 item.2 with
          | none => simp [storeEntries, hitem, hinsert] at herror
          | some m' =>
              simp only [storeEntries, List.cons_append, hitem, hinsert] at herror ⊢
              exact ih herror

/-- At an entry that cannot be stored the loop stops. -/
theorem storeEntries_of_cannotStore {e : Endian} {m : NetFilterMap} {bad : FilterEntry}
    (h : CannotStore e m bad) (rest : List FilterEntry) (leftovers : List CFilterKey) :
    (storeEntries e (bad :: rest) m leftovers).1.final = m ∧
      (storeEntries e (bad :: rest) m leftovers).1.error ≠ none := by
  unfold CannotStore at h
  cases hitem : filterItem e bad with
  | error err => simp [storeEntries, hitem]
  | ok item =>
      rw [hitem] at h
      have hinsert : m.insert? (item.1.path e) item.1 item.2 = none := if_pos h
      simp [storeEntries, hitem, hinsert]

/-- A loop that raised has stored the entries before the one at which it stopped. -/
theorem storeEntries_stopped {e : Endian} {filters : List FilterEntry} :
    ∀ {m : NetFilterMap} {leftovers : List CFilterKey},
      (storeEntries e filters m leftovers).1.error ≠ none →
        ∃ stored bad rest items, filters = stored ++ bad :: rest ∧ Items e stored items ∧
          CannotStore e (storeEntries e filters m leftovers).1.final bad ∧
          (storeEntries e filters m leftovers).1.final.capacity = m.capacity ∧
          ∀ p, (storeEntries e filters m leftovers).1.final.nodes.get? p =
            (lastItem e items p).or (m.nodes.get? p) := by
  induction filters with
  | nil => exact fun herror => absurd rfl herror
  | cons entry rest ih =>
      intro m leftovers herror
      cases hitem : filterItem e entry with
      | error err =>
          -- The loop stops before it has stored anything.
          refine ⟨[], entry, rest, [], rfl, .nil, ?_, ?_, ?_⟩ <;>
            simp [CannotStore, storeEntries, hitem, lastItem]
      | ok item =>
          cases hinsert : m.insert? (item.1.path e) item.1 item.2 with
          | none =>
              have hfull : item.1.path e ∉ m.nodes.keys ∧ m.Full := by
                by_contra hfits
                simp [LpmTrie.insert?, hfits] at hinsert
              refine ⟨[], entry, rest, [], rfl, .nil, ?_, ?_, ?_⟩
              · simpa [CannotStore, storeEntries, hitem, hinsert] using hfull
              · simp [storeEntries, hitem, hinsert]
              · simp [storeEntries, hitem, hinsert, lastItem]
          | some m' =>
              -- The entry is stored, and the loop stops at a later one.
              simp only [storeEntries, hitem, hinsert] at herror ⊢
              rcases ih herror with ⟨stored, bad, rest', items, rfl, hitems, hbad, hcapacity, hget⟩
              refine ⟨entry :: stored, bad, rest', item :: items, rfl, .cons hitem hitems, hbad, ?_, ?_⟩
              · rw [hcapacity, LpmTrie.insert?_eq_some hinsert]
              · intro p
                rw [hget, lastItem_cons, LpmTrie.insert?_eq_some hinsert, Dict.get?_set,
                  Option.or_assoc]
                by_cases hp : item.1.path e = p <;> simp [hp]

/-- The loop stops at an entry, and those before it write what the trie holds already. -/
def StopsIdle (e : Endian) (filters : List FilterEntry) (m : NetFilterMap) : Prop :=
  ∃ stored bad rest items, filters = stored ++ bad :: rest ∧ Items e stored items ∧
    CannotStore e m bad ∧ ∀ p item, lastItem e items p = some item → m.nodes.get? p = some item

/-- The entries are what the trie holds. -/
def AllThere (e : Endian) (filters : List FilterEntry) (m : NetFilterMap) : Prop :=
  ∃ items, Items e filters items ∧ ∀ p, lastItem e items p = m.nodes.get? p

section Trie

variable {e : Endian} {order : IterOrder CFilterKey} {filters : List FilterEntry} {m : NetFilterMap}

/-- There is room for what is there. -/
theorem hasRoom_of_there {items : List (CFilterKey × CFilterValue)} (hm : KernelTrie e m)
    (h : ∀ p item, lastItem e items p = some item → m.nodes.get? p = some item) :
    HasRoom m (paths e items) := by
  intro c hc
  have hkeys : (m.nodes.keys ++ paths e items).toFinset = m.nodes.keys.toFinset := by
    ext p
    rw [List.mem_toFinset, List.mem_toFinset, List.mem_append]
    refine or_iff_left_of_imp ?_
    intro hp
    rcases lastItem_isSome_iff.2 hp with ⟨item, hitem⟩
    exact Dict.mem_keys_iff.2 ⟨item, h p item hitem⟩
  rw [hkeys, List.toFinset_card_of_nodup m.nodes.keys_nodup, Dict.length_keys]
  exact hm.within c hc

/-- A load that raised was stopped in its first loop. -/
theorem load_stopped (hm : KernelTrie e m)
    (herror : (loadFiltersIntoMap e order filters m true).error ≠ none) :
    (storeEntries e filters m m.storedKeys.dedup).1.error ≠ none ∧
      (loadFiltersIntoMap e order filters m true).final =
        (storeEntries e filters m m.storedKeys.dedup).1.final := by
  have hstopped : (storeEntries e filters m m.storedKeys.dedup).1.error ≠ none := by
    intro hstored
    rcases items_of_storeEntries hstored with ⟨items, hitems, _⟩
    have hroom := (hasRoom_of_stored hitems hm.within hstored).1
    exact herror (load_diff order hitems hroom hm.keyed).1
  refine ⟨hstopped, ?_⟩
  simp only [loadFiltersIntoMap, if_true]
  cases hcase : (storeEntries e filters m m.storedKeys.dedup).1.error with
  | none => exact absurd hcase hstopped
  | some err => rfl

/-- A loop that stops idle raises, and leaves what was there. -/
theorem storeEntries_of_stopsIdle (hm : KernelTrie e m) (h : StopsIdle e filters m)
    (leftovers : List CFilterKey) :
    (storeEntries e filters m leftovers).1.error ≠ none ∧
      ∀ p, (storeEntries e filters m leftovers).1.final.nodes.get? p = m.nodes.get? p := by
  rcases h with ⟨stored, bad, rest, items, rfl, hitems, hbad, hthere⟩
  rcases storeEntries_of_items hitems leftovers (hasRoom_of_there hm hthere) with
    ⟨hstored, _, hcapacity, hget⟩
  -- What the first entries write is there, so the trie they leave holds what it held.
  have hsame : ∀ p, (storeEntries e stored m leftovers).1.final.nodes.get? p = m.nodes.get? p := by
    intro p
    rw [hget]
    cases hlast : lastItem e items p with
    | none => rfl
    | some item => exact (hthere p item hlast).symm
  have hbad' : CannotStore e (storeEntries e stored m leftovers).1.final bad := by
    refine (cannotStore_congr hcapacity ?_ bad).2 hbad
    intro p
    rw [Dict.mem_keys_iff, Dict.mem_keys_iff, hsame]
  rcases storeEntries_append (bad :: rest) hstored with ⟨leftovers', hfinal, herror⟩
  rcases storeEntries_of_cannotStore hbad' rest leftovers' with ⟨hstays, hraises⟩
  rw [hfinal, hstays, herror]
  exact ⟨hraises, hsame⟩

theorem stopped_load_same_iff (hm : KernelTrie e m)
    (herror : (loadFiltersIntoMap e order filters m true).error ≠ none) :
    (∀ p, (loadFiltersIntoMap e order filters m true).final.nodes.get? p = m.nodes.get? p) ↔
      StopsIdle e filters m := by
  rcases load_stopped hm herror with ⟨hstopped, hfinal⟩
  rw [hfinal]
  constructor
  · intro hsame
    rcases storeEntries_stopped hstopped with
      ⟨stored, bad, rest, items, hsplit, hitems, hbad, hcapacity, hget⟩
    refine ⟨stored, bad, rest, items, hsplit, hitems, ?_, ?_⟩
    · refine (cannotStore_congr hcapacity ?_ bad).1 hbad
      intro p
      rw [Dict.mem_keys_iff, Dict.mem_keys_iff, hsame]
    · intro p item hlast
      rw [← hsame, hget, hlast]
      rfl
  · exact fun hidle => (storeEntries_of_stopsIdle hm hidle _).2

/-- Loading what is there raises nothing, and changes nothing. -/
theorem load_of_allThere (hm : KernelTrie e m) (h : AllThere e filters m) :
    (loadFiltersIntoMap e order filters m true).error = none ∧
      ∀ p, (loadFiltersIntoMap e order filters m true).final.nodes.get? p = m.nodes.get? p := by
  rcases h with ⟨items, hitems, hthere⟩
  have hroom := hasRoom_of_there hm fun p item hlast => (hthere p).symm.trans hlast
  rcases load_diff order hitems hroom hm.keyed with ⟨herror, _, hget⟩
  refine ⟨herror, ?_⟩
  intro p
  rw [hget, if_neg, hthere]
  rintro ⟨k, hk, rfl⟩
  rcases mem_storedKeys_iff.1 hk.1 with ⟨q, v, hq⟩
  rw [← hthere q] at hq
  exact hk.2 (List.mem_map.2 ⟨_, (mem_of_lastItem hq).1, rfl⟩)

theorem finished_load_same_iff (hm : KernelTrie e m)
    (herror : (loadFiltersIntoMap e order filters m true).error = none) :
    (∀ p, (loadFiltersIntoMap e order filters m true).final.nodes.get? p = m.nodes.get? p) ↔
      AllThere e filters m := by
  constructor
  · intro hsame
    have hstored := stored_of_load herror
    rcases items_of_storeEntries hstored with ⟨items, hitems, _⟩
    have hroom := (hasRoom_of_stored hitems hm.within hstored).1
    have hget := (load_diff order hitems hroom hm.keyed).2.2
    refine ⟨items, hitems, ?_⟩
    intro p
    rw [← hsame, hget, if_neg]
    -- A leftover key would have lost its node.
    rintro ⟨k, hk, rfl⟩
    have hlost := hget (k.path e)
    rw [if_pos ⟨k, hk, rfl⟩, hsame, Dict.get?_eq_none_iff] at hlost
    exact hlost (hm.keyed.path_mem_keys hk.1)
  · exact fun hthere => (load_of_allThere hm hthere).2

end Trie

/-! ## The port array -/

namespace Ports

/-- A sequence of writes that raised has made those before the number that names no element. -/
theorem setItems_stopped {ws : List (Int × BitVec 8)} :
    ∀ {m : PortFilterMap}, (PortFilterMap.setItems ws m).error ≠ none →
      ∃ done bad rest, ws = done ++ bad :: rest ∧
        (∀ w ∈ done, ∃ i, PortFilterMap.index w.1 = .ok i) ∧
        (∃ err, PortFilterMap.index bad.1 = .error err) := by
  induction ws with
  | nil => exact fun herror => absurd rfl herror
  | cons w ws ih =>
      intro m herror
      cases hindex : PortFilterMap.index w.1 with
      | error err => exact ⟨[], w, ws, rfl, by simp, err, hindex⟩
      | ok i =>
          simp only [PortFilterMap.setItems, hindex] at herror
          rcases ih herror with ⟨done, bad, rest, rfl, hdone, hbad⟩
          exact ⟨w :: done, bad, rest, rfl, List.forall_mem_cons.2 ⟨⟨i, hindex⟩, hdone⟩, hbad⟩

/-- What such a sequence leaves when the writes before the number store one value. -/
theorem setItems_until {done : List Int} (v : BitVec 8) (bad : Int × BitVec 8)
    (hdone : ∀ n ∈ done, ∃ i, PortFilterMap.index n = .ok i)
    (hbad : ∃ err, PortFilterMap.index bad.1 = .error err) (rest : List (Int × BitVec 8))
    (m : PortFilterMap) (i : BitVec 16) :
    (PortFilterMap.setItems (done.map (·, v) ++ bad :: rest) m).final i =
      if ∃ n ∈ done, PortFilterMap.index n = .ok i then v else m i := by
  rcases hbad with ⟨err, hbad⟩
  have herror : (PortFilterMap.setItems (done.map (·, v)) m).error = none := by
    refine PortFilterMap.setItems_error_iff.2 ?_
    intro w hw
    rcases List.mem_map.1 hw with ⟨n, hn, rfl⟩
    exact hdone n hn
  rw [PortFilterMap.setItems_append herror, ← PortFilterMap.setItems_const hdone]
  simp [PortFilterMap.setItems, hbad]

end Ports

/-- The global ports are refused: they do not parse, or one of them names no element, and those before
it in the order of the set are set already. -/
def PortsIdle (order : IterOrder Int) (filters : List PortSpec) (m : PortFilterMap) : Prop :=
  (∃ err, filters.mapM PortSpec.globalPorts = .error err) ∨
    ∃ ports done bad rest, filters.mapM PortSpec.globalPorts = .ok ports ∧
      order.run ports.flatten.dedup = done ++ bad :: rest ∧
      (∃ err, PortFilterMap.index bad = .error err) ∧
      ∀ n ∈ done, ∃ i, PortFilterMap.index n = .ok i ∧ m i = 1

/-- What is written after the listed ports has a number of the array: it is set there now, or the one of
the mode. -/
theorem index_of_written_after {order : IterOrder Int} {mode : PortFilterMode} {m : PortFilterMap}
    {doDiff : Bool} {listed : List Int} {w : Int × BitVec 8}
    (hmem : w ∈ (order.run ((if doDiff then m.currentState else []).filter
      (· ∉ listed.dedup))).map (·, (0 : BitVec 8)) ++ [0].map (·, BitVec.ofNat 8 mode.value)) :
    ∃ i, PortFilterMap.index w.1 = .ok i := by
  rcases List.mem_append.1 hmem with hmem | hmem
  · -- A port that is switched off.
    rcases List.mem_map.1 hmem with ⟨n, hn, rfl⟩
    rw [IterOrder.mem_run] at hn
    have hcurrent : n ∈ m.currentState := by
      have hold := (List.mem_filter.1 hn).1
      split at hold
      · exact hold
      · cases hold
    rcases PortFilterMap.mem_currentState.1 hcurrent with ⟨h₁, h₂, _⟩
    exact ⟨_, PortFilterMap.index_of_port (by omega) h₂⟩
  · rcases List.mem_map.1 hmem with ⟨n, hn, rfl⟩
    rw [List.mem_singleton.1 hn]
    exact ⟨_, PortFilterMap.index_of_port (by omega) (by omega)⟩

/-- Only a listed port can name no element: the leftovers and the mode do. -/
theorem listed_of_index_error {order : IterOrder Int} {mode : PortFilterMode} {m : PortFilterMap}
    {doDiff : Bool} {listed : List Int} {done rest : List (Int × BitVec 8)} {bad : Int × BitVec 8}
    (hsplit : portWrites order mode m doDiff listed = done ++ bad :: rest)
    (hbad : ∃ err, PortFilterMap.index bad.1 = .error err) :
    ∃ done' rest', order.run listed.dedup = done' ++ bad.1 :: rest' ∧ done = done'.map (·, 1) := by
  rcases hbad with ⟨err, hbad⟩
  unfold portWrites at hsplit
  rw [List.append_assoc] at hsplit
  -- The number is not among the writes after the listed ports.
  have htail : bad ∉ (order.run ((if doDiff then m.currentState else []).filter
      (· ∉ listed.dedup))).map (·, (0 : BitVec 8)) ++ [0].map (·, BitVec.ofNat 8 mode.value) := by
    intro hmem
    rcases index_of_written_after hmem with ⟨i, hi⟩
    rw [hbad] at hi
    cases hi
  rcases List.append_eq_append_iff.1 hsplit with ⟨beyond, _, hrest⟩ | ⟨inside, hlisted, hrest⟩
  · exact absurd (hrest ▸ by simp) htail
  · cases inside with
    | nil => exact absurd (hrest ▸ by simp) htail
    | cons w inside =>
        cases hrest
        rcases List.map_eq_append_iff.1 hlisted with ⟨done', rest', hrun, hdone, hrest'⟩
        rcases List.map_eq_cons_iff.1 hrest' with ⟨n, rest'', rfl, rfl, _⟩
        exact ⟨done', rest'', hrun, hdone.symm⟩

/-- The writes of a load begin with the listed ports. -/
theorem portWrites_of_run {order : IterOrder Int} {listed done rest : List Int} {bad : Int}
    (h : order.run listed.dedup = done ++ bad :: rest) (mode : PortFilterMode) (m : PortFilterMap)
    (doDiff : Bool) :
    ∃ tail, portWrites order mode m doDiff listed = done.map (·, 1) ++ (bad, 1) :: tail := by
  unfold portWrites
  rw [h, List.map_append, List.map_cons, List.append_assoc, List.append_assoc]
  exact ⟨_, rfl⟩

theorem ports_load_same_iff {order : IterOrder Int} {filters : List PortSpec}
    {mode : PortFilterMode} {m : PortFilterMap} {doDiff : Bool}
    (hmode : mode = .include ∨ mode = .exclude)
    (herror : (loadPortFiltersIntoMap order filters mode m doDiff).error ≠ none) :
    (loadPortFiltersIntoMap order filters mode m doDiff).final = m ↔ PortsIdle order filters m := by
  cases hports : filters.mapM PortSpec.globalPorts with
  | error err =>
      -- Nothing is written before the ports are parsed.
      refine iff_of_true ?_ (Or.inl ⟨err, hports⟩)
      unfold loadPortFiltersIntoMap
      rw [if_pos hmode, hports]
  | ok ports =>
      rw [loadPortFilters_eq hmode hports] at herror ⊢
      rcases Ports.setItems_stopped herror with ⟨done, bad, rest, hsplit, hdone, hbad⟩
      rcases listed_of_index_error hsplit hbad with ⟨done', rest', hrun, rfl⟩
      have hdone' : ∀ n ∈ done', ∃ i, PortFilterMap.index n = .ok i := by
        intro n hn
        exact hdone (n, 1) (List.mem_map_of_mem hn)
      constructor
      · -- Every port before the bad one has been written, so it was set.
        intro hsame
        refine Or.inr ⟨ports, done', bad.1, rest', hports, hrun, hbad, ?_⟩
        intro n hn
        rcases hdone' n hn with ⟨i, hi⟩
        refine ⟨i, hi, ?_⟩
        rw [← hsame, hsplit, Ports.setItems_until 1 bad hdone' hbad, if_pos ⟨n, hn, hi⟩]
      · rintro (⟨err, herror⟩ | ⟨ports', done, bad, rest, hports', hrun, hbad, hset⟩)
        · rw [hports] at herror
          cases herror
        · rw [hports] at hports'
          cases hports'
          have hdone₂ : ∀ n ∈ done, ∃ i, PortFilterMap.index n = .ok i := by
            intro n hn
            rcases hset n hn with ⟨i, hi, _⟩
            exact ⟨i, hi⟩
          rcases portWrites_of_run hrun mode m doDiff with ⟨tail, hwrites⟩
          funext i
          rw [hwrites, Ports.setItems_until 1 (bad, 1) hdone₂ hbad]
          split
          · rename_i hwritten
            rcases hwritten with ⟨n, hn, hi⟩
            rcases hset n hn with ⟨j, hj, hone⟩
            rw [hi] at hj
            cases hj
            exact hone.symm
          · rfl

/-! ## The handling of a changed configuration -/

/-- The ways in which the handling of a configuration fails without a change.  It does not come to the
maps.  It finds nothing to go through for the trie, or stops in the trie and has written nothing new.  Or
it has found the trie as it should be, and then finds nothing to go through for the port array, or stops
in it with nothing new. -/
inductive FailsIdle (e : Endian) (orders : ReloadOrders) (probe : Probe) (c : ProbeConfig)
    (st : ProbeState) : Prop
  | config {err : PyErr} (h : probe.buildProbeConfig e c true = .error err)
  | noNetworks {err : PyErr} (h : asFilters (probe.netSetting c) = .error err)
  | net (h : StopsIdle e (probe.filters c) st.netFilterMap)
  | noPorts {err : PyErr} (hnet : AllThere e (probe.filters c) st.netFilterMap)
      (h : asPorts (probe.portSetting c).1 = .error err)
  | port (hnet : AllThere e (probe.filters c) st.netFilterMap)
      (hport : PortsIdle orders.ports (probe.ports c).1 st.portFilterMap)

theorem Probe.ports_mode (probe : Probe) (c : ProbeConfig) :
    (probe.ports c).2 = .include ∨ (probe.ports c).2 = .exclude := by
  rw [probe.ports_snd]
  unfold Probe.portSetting globalFilters
  split
  · exact Or.inl rfl
  · exact Or.inr rfl

/-- The load of the port array, after that of the trie. -/
theorem globalFilters_load_same_iff {order : IterOrder Int} {probe : Probe} {c : ProbeConfig}
    {m : PortFilterMap} (herror : (loadGlobalFilters order (probe.portSetting c) m true).error ≠ none) :
    (loadGlobalFilters order (probe.portSetting c) m true).final = m ↔
      (∃ err, asPorts (probe.portSetting c).1 = .error err) ∨ PortsIdle order (probe.ports c).1 m := by
  cases hlist : asPorts (probe.portSetting c).1 with
  | error err =>
      -- Nothing is written before the setting is gone through.
      refine iff_of_true ?_ (Or.inl ⟨err, rfl⟩)
      rw [loadGlobalFilters, hlist]
  | ok filters =>
      have hports := Probe.ports_eq hlist
      have hmode := probe.ports_mode c
      rw [hports] at hmode
      rw [loadGlobalFilters_eq hlist] at herror ⊢
      simpa [hports] using ports_load_same_iff hmode herror

/-- A handling that raises leaves the maps as they were just when it fails idle. -/
theorem failed_reload_same_iff {e : Endian} {orders : ReloadOrders} {probe : Probe}
    {c : ProbeConfig} {st : ProbeState} (hm : KernelTrie e st.netFilterMap)
    (hraises : (hotSwap e orders probe c st).2 ≠ none) :
    SameMaps (hotSwap e orders probe c st).1 st ↔ FailsIdle e orders probe c st := by
  cases hbuild : probe.buildProbeConfig e c true with
  | error err =>
      simp only [hotSwap, hbuild]
      exact iff_of_true ⟨fun _ => rfl, rfl⟩ (.config hbuild)
  | ok built =>
      rcases built with ⟨built, userland⟩
      rcases Probe.buildProbeConfig_filters hbuild with ⟨hfilters, hports⟩
      have hbuilds : ∀ {err : PyErr}, probe.buildProbeConfig e c true ≠ .error err := by
        simp [hbuild]
      simp only [hotSwap, hbuild, hfilters, hports, reloadFilters, Bool.not_false] at hraises ⊢
      cases hlist : asFilters (probe.netSetting c) with
      | error err =>
          -- Neither map is touched.
          have hnet : loadNetFilters e orders.keys (probe.netSetting c) st.netFilterMap true =
              ⟨[], st.netFilterMap, some err⟩ := by rw [loadNetFilters, hlist]
          simp only [hnet]
          exact iff_of_true ⟨fun _ => rfl, rfl⟩ (.noNetworks hlist)
      | ok filters =>
          have hlisted : ∀ {err : PyErr}, asFilters (probe.netSetting c) ≠ .error err := by
            simp [hlist]
          rw [← Probe.filters_eq hlist] at hlist
          simp only [loadNetFilters_eq hlist] at hraises ⊢
          cases hnet : (loadFiltersIntoMap e orders.keys (probe.filters c) st.netFilterMap
              true).error with
          | some err =>
              have herror : (loadFiltersIntoMap e orders.keys (probe.filters c) st.netFilterMap
                  true).error ≠ none := by simp [hnet]
              -- The port array is not touched.
              have hsame := stopped_load_same_iff hm herror
              simp only
              constructor
              · exact fun h => .net (hsame.1 h.net)
              · intro hidle
                cases hidle with
                | config h => exact absurd h hbuilds
                | noNetworks h => exact absurd h hlisted
                | net h => exact ⟨hsame.2 h, rfl⟩
                | noPorts h _ | port h _ => exact absurd (load_of_allThere hm h).1 herror
          | none =>
              -- The trie has been loaded, so it is the port array that raised.
              have hsame := finished_load_same_iff hm hnet
              simp only [hnet] at hraises ⊢
              have hport := globalFilters_load_same_iff hraises
              constructor
              · intro h
                rcases hport.1 h.port with ⟨err, hports⟩ | hidle
                · exact .noPorts (hsame.1 h.net) hports
                · exact .port (hsame.1 h.net) hidle
              · intro hidle
                cases hidle with
                | config h => exact absurd h hbuilds
                | noNetworks h => exact absurd h hlisted
                | net h => exact absurd (stored_of_load hnet) (storeEntries_of_stopsIdle hm h _).1
                | noPorts h h' => exact ⟨hsame.2 h, hport.2 (Or.inl ⟨_, h'⟩)⟩
                | port h h' => exact ⟨hsame.2 h, hport.2 (Or.inr h')⟩

/-! ### A network before a malformed one -/

namespace Example

def misspelt : FilterEntry := ⟨some "10.1.0.0", some "255.255.0", .absent, .absent⟩

def malformedSecond : ProbeConfig :=
  Dict.empty.set "filters" (.filters [PidtreeBcc.Example.tenAll, misspelt])

def malformedOnly : ProbeConfig := Dict.empty.set "filters" (.filters [misspelt])

/-- The state of a probe without filters. -/
def noFilters : ProbeState :=
  { netFilters := .filters []
    globalFilters := (.ports [], .exclude)
    userland := none
    containerLabelsFilter := some (.strings [])
    filtersContainers := false
    netFilterMap := LpmTrie.empty (some 512)
    portFilterMap := PortFilterMap.zeros }

end Example

theorem kernelTrie_empty (e : Endian) (capacity : Option Nat) :
    KernelTrie e (LpmTrie.empty capacity) := by
  refine ⟨?_, withinCapacity_empty capacity⟩
  intro p k v h
  cases h

/-- A first entry that is malformed changes nothing. -/
theorem malformed_first_changes_nothing :
    (hotSwap .little Example.orders .tcpConnect Example.malformedOnly Example.noFilters).2 ≠ none ∧
      SameMaps (hotSwap .little Example.orders .tcpConnect Example.malformedOnly
        Example.noFilters).1 Example.noFilters := by
  have hraises : (hotSwap .little Example.orders .tcpConnect Example.malformedOnly
      Example.noFilters).2 ≠ none := by decide +kernel
  refine ⟨hraises, (failed_reload_same_iff (kernelTrie_empty _ _) hraises).2 (.net ?_)⟩
  refine ⟨[], Example.misspelt, [], [], by decide +kernel, .nil, ?_, by simp [lastItem]⟩
  have hparse : ∃ err, filterItem .little Example.misspelt = .error err := ⟨_, rfl⟩
  rcases hparse with ⟨err, hparse⟩
  simp [CannotStore, hparse]

/-- The network before a malformed one stays in the trie after the exception. -/
theorem malformed_second_leaves_first :
    (hotSwap .little Example.orders .tcpConnect Example.malformedSecond Example.noFilters).2 ≠
        none ∧
      ¬ SameMaps (hotSwap .little Example.orders .tcpConnect Example.malformedSecond
        Example.noFilters).1 Example.noFilters := by
  refine ⟨by decide +kernel, ?_⟩
  intro hsame
  have hleft := hsame.net (PidtreeBcc.Example.tenAll.path .little)
  exact absurd hleft (by decide +kernel)

end Probes

end PidtreeBcc
