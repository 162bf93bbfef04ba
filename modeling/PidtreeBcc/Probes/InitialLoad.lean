import PidtreeBcc.Probes.HotSwap
import PidtreeBcc.Support.Run

/-!
# InitialLoad — the first load of the filters beside the thread that swaps them

`start_polling` starts the thread of `_poll_config_changes` before it loads the filters for the first
time.  The mutex of `reload_filters` covers the writes to the maps, but not the assignments of the two
filter attributes, so the first load may read one attribute of one configuration and one of the next.

A step below is what one thread does between two points at which the other one can come in.
-/

namespace PidtreeBcc

open Support

/-! ## Contiguous netmasks -/

/-- The netmask is a word of ones followed by zeros. -/
def FilterEntry.ContiguousMask (entry : FilterEntry) : Prop :=
  ∃ text mask n, entry.networkMask = some text ∧ inetAton text = .ok mask ∧ mask.Contiguous n ∧
    netmaskToPrefixlen text = .ok n

/-- The key of an entry with such a netmask is in normal form. -/
theorem canonical_of_item {e : Endian} {entry : FilterEntry} {item : CFilterKey × CFilterValue}
    (hmask : entry.ContiguousMask) (h : filterItem e entry = .ok item) : item.1.Canonical e := by
  rcases hmask with ⟨text, mask, n, htext, hread, hcontiguous, hlen⟩
  rcases filterItem_eq_ok h with ⟨made⟩
  have htext' : made.maskText = text := Option.some.inj (made.mask_eq.symm.trans htext)
  have hmask' : made.mask = mask := Except.ok.inj
    (made.inetAton_mask.symm.trans (htext' ▸ hread))
  have hlen' : made.prefixlen = n := Except.ok.inj
    (made.prefixlen_eq.symm.trans (htext' ▸ hlen))
  rw [made.item_eq, hmask', hlen', ← unpackL_and]
  refine ⟨hcontiguous.1, ?_⟩
  simp only [CFilterKey.path, packL_unpackL]
  rw [hcontiguous.take_bits_and, hcontiguous.bits_and]

/-- Every node lies at the path of its key, and the key is in normal form. -/
def NormalKeyed (e : Endian) (m : NetFilterMap) : Prop :=
  ∀ p k v, m.nodes.get? p = some (k, v) → k.Canonical e ∧ k.path e = p

/-- The trie holds the items, and nothing else. -/
def HoldsItems (e : Endian) (m : NetFilterMap) (items : List (CFilterKey × CFilterValue)) : Prop :=
  ∀ p, m.nodes.get? p = lastItem e items p

section NetLoads

variable {e : Endian} {filters : List FilterEntry} {items : List (CFilterKey × CFilterValue)}
  {m : NetFilterMap}

theorem Items.unique {items' : List (CFilterKey × CFilterValue)} (h : Items e filters items)
    (h' : Items e filters items') : items = items' := by
  rw [← Except.ok.injEq (ε := PyErr), ← mapM_eq_ok.2 h]
  exact mapM_eq_ok.2 h'

theorem NormalKeyed.wellKeyed (h : NormalKeyed e m) : WellKeyed e m := by
  intro p k v hp
  exact (h p k v hp).2.symm

theorem HoldsItems.normalKeyed (h : HoldsItems e m items) (hitems : ∀ item ∈ items,
    item.1.Canonical e) : NormalKeyed e m := by
  intro p k v hp
  rw [h p] at hp
  rcases mem_of_lastItem hp with ⟨hmem, hpath⟩
  exact ⟨hitems _ hmem, hpath⟩

/-- A load without diff of entries with contiguous masks. -/
theorem load_fresh_normal (order : IterOrder CFilterKey) (hitems : Items e filters items)
    (hcanonical : ∀ item ∈ items, item.1.Canonical e) (hm : NormalKeyed e m)
    (hroom : HasRoom m (paths e items)) :
    (loadFiltersIntoMap e order filters m false).error = none ∧
      NormalKeyed e (loadFiltersIntoMap e order filters m false).final ∧
      ((∀ p, m.nodes.get? p = none) ∨ HoldsItems e m items →
        HoldsItems e (loadFiltersIntoMap e order filters m false).final items) := by
  rcases load_fresh order hitems hroom with ⟨herror, _, hget⟩
  refine ⟨herror, ?_, ?_⟩
  · intro p k v hp
    rw [hget] at hp
    cases hlast : lastItem e items p with
    | none =>
        rw [hlast] at hp
        exact hm p k v hp
    | some item =>
        rw [hlast] at hp
        cases hp
        rcases mem_of_lastItem hlast with ⟨hmem, hpath⟩
        exact ⟨hcanonical _ hmem, hpath⟩
  · rintro (hempty | hholds) p
    · rw [hget, hempty, Option.or_none]
    · rw [hget, hholds p, Option.or_self]

/-- A load with diff of entries with contiguous masks, whatever such entries were there. -/
theorem load_diff_normal (order : IterOrder CFilterKey) (hitems : Items e filters items)
    (hcanonical : ∀ item ∈ items, item.1.Canonical e) (hm : NormalKeyed e m)
    (hroom : HasRoom m (paths e items)) :
    (loadFiltersIntoMap e order filters m true).error = none ∧
      HoldsItems e (loadFiltersIntoMap e order filters m true).final items := by
  rcases load_diff order hitems hroom hm.wellKeyed with ⟨herror, _, hget⟩
  refine ⟨herror, ?_⟩
  intro p
  rw [hget]
  cases hlast : lastItem e items p with
  | none => simp
  | some item =>
      refine if_neg ?_
      rintro ⟨k, hleft, hk⟩
      -- The leftover key and the new one lie at one path, so they are one key.
      rcases mem_of_lastItem hlast with ⟨hmem, hpath⟩
      rcases mem_storedKeys_iff.1 hleft.1 with ⟨q, v, hq⟩
      have hsame : k = item.1 :=
        (hm q k v hq).1.eq_of_path (hcanonical item hmem) (hk.trans hpath.symm)
      exact hleft.2 (List.mem_map.2 ⟨item, hmem, hsame.symm⟩)

end NetLoads

/-! ## The content of the port array -/

/-- The array holds the ports, as a first load leaves them. -/
def HoldsPorts (filters : List PortSpec) (mode : PortFilterMode) (m : PortFilterMap) : Prop :=
  ∀ i, (i = 0 → m i = BitVec.ofNat 8 mode.value) ∧
    (i ≠ 0 → ((∃ n ∈ listedPorts filters, PortFilterMap.index n = .ok i) → m i = 1) ∧
      ((¬ ∃ n ∈ listedPorts filters, PortFilterMap.index n = .ok i) → m i = 0))

section PortLoads

variable {order : IterOrder Int} {filters : List PortSpec} {mode : PortFilterMode}
  {m : PortFilterMap}

theorem HoldsPorts.unique {m' : PortFilterMap} (h : HoldsPorts filters mode m)
    (h' : HoldsPorts filters mode m') : m = m' := by
  funext i
  by_cases hi : i = 0
  · exact ((h i).1 hi).trans ((h' i).1 hi).symm
  · by_cases hnamed : ∃ n ∈ listedPorts filters, PortFilterMap.index n = .ok i
    · exact (((h i).2 hi).1 hnamed).trans (((h' i).2 hi).1 hnamed).symm
    · exact (((h i).2 hi).2 hnamed).trans (((h' i).2 hi).2 hnamed).symm

/-- A load without diff, into a clear array or over the same ports. -/
theorem holdsPorts_fresh
    (herror : (loadPortFiltersIntoMap order filters mode m false).error = none)
    (hm : m = PortFilterMap.zeros ∨ HoldsPorts filters mode m) :
    HoldsPorts filters mode (loadPortFiltersIntoMap order filters mode m false).final := by
  rcases loadPortFilters_error_iff.1 herror with ⟨hmode, ports, hports, _⟩
  have hlisted : listedPorts filters = ports.flatten := by simp [listedPorts, hports]
  have hfinal := loadPortFilters_final hmode hports herror
  intro i
  rw [hfinal, hlisted]
  refine ⟨fun hi => if_pos hi, ?_⟩
  intro hi
  rw [if_neg hi, if_neg (by simp)]
  refine ⟨fun hnamed => if_pos hnamed, ?_⟩
  intro hnamed
  rw [if_neg hnamed]
  rcases hm with rfl | hm
  · rfl
  · exact ((hm i).2 hi).2 (hlisted ▸ hnamed)

/-- No element that is set is written by the new list under another number only. -/
def SetPortsFit (filters : List PortSpec) (m : PortFilterMap) : Prop :=
  ∀ i : BitVec 16, i ≠ 0 → m i ≠ 0 →
    (∃ n ∈ listedPorts filters, PortFilterMap.index n = .ok i) →
      (i.toNat : Int) ∈ listedPorts filters

/-- A load with diff, whatever the array held. -/
theorem holdsPorts_diff
    (herror : (loadPortFiltersIntoMap order filters mode m true).error = none)
    (hfit : SetPortsFit filters m) :
    HoldsPorts filters mode (loadPortFiltersIntoMap order filters mode m true).final := by
  rcases loadPortFilters_error_iff.1 herror with ⟨hmode, ports, hports, _⟩
  have hlisted : listedPorts filters = ports.flatten := by simp [listedPorts, hports]
  have hfinal := loadPortFilters_final hmode hports herror
  unfold SetPortsFit at hfit
  rw [hlisted] at hfit
  intro i
  rw [hfinal, hlisted]
  refine ⟨fun hi => if_pos hi, ?_⟩
  intro hi
  rw [if_neg hi]
  constructor
  · intro hnamed
    -- A set element stays, because its own number is listed.
    rw [if_neg (fun hleft => hleft.2.2 (hfit i hi hleft.2.1 hnamed)), if_pos hnamed]
  · intro hnamed
    have hown : (i.toNat : Int) ∉ ports.flatten :=
      fun hmem => hnamed ⟨i.toNat, hmem, PortFilterMap.index_toNat i⟩
    by_cases hset : m i = 0
    · rw [if_neg (fun hleft => hleft.2.1 hset), if_neg hnamed, hset]
    · rw [if_pos ⟨rfl, hset, hown⟩]

/-- After a first load the elements that are set are those of its ports. -/
theorem PortsFit.setPortsFit {filters' : List PortSpec} (h : PortsFit filters filters')
    (herror : (loadPortFiltersIntoMap order filters mode PortFilterMap.zeros false).error = none) :
    SetPortsFit filters'
      (loadPortFiltersIntoMap order filters mode PortFilterMap.zeros false).final := by
  rcases loadPortFilters_error_iff.1 herror with ⟨_, ports, hports, _⟩
  intro i hi hset hnamed
  refine h i hi ?_ hnamed
  by_contra hnot
  apply hset
  rw [loadPortFilters_zeros hports herror hi, if_neg]
  simpa [listedPorts, hports] using hnot

end PortLoads

/-! ## The two threads -/

namespace Probes

/-- Where the main thread is in `start_polling`. -/
inductive MainPhase
  /-- Before `reload_filters(is_init=True)`. -/
  | starting
  /-- In `reload_filters`, between the two maps. -/
  | netLoaded
  | polling
  /-- An exception has ended the process of the probe. -/
  | crashed
  deriving DecidableEq, Repr

/-- Where the thread of `_poll_config_changes` is. -/
inductive PollerPhase
  /-- At `config_queue.get()`. -/
  | waiting
  /-- In `build_probe_config`: before the first assignment, between the two, and after them. -/
  | got (c : ProbeConfig)
  | netAssigned (c : ProbeConfig)
  | assigned (c : ProbeConfig)
  /-- Before `reload_filters`. -/
  | built
  /-- In `reload_filters`, between the two maps. -/
  | netLoaded

structure PollState where
  probe : ProbeState
  main : MainPhase
  poller : PollerPhase
  queue : List ProbeConfig
  /-- The configuration that was queued last, or else the one of the start. -/
  last : ProbeConfig

inductive Action
  | put (c : ProbeConfig)
  | get
  | assignNet
  | assignGlobal
  | finishBuild
  | pollerNet (order : IterOrder CFilterKey)
  | pollerPorts (order : IterOrder Int)
  | mainNet (order : IterOrder CFilterKey)
  | mainPorts (order : IterOrder Int)

namespace PollState

/-- `net_filter_mutex` is not held. -/
def mutexFree (s : PollState) : Bool :=
  match s.main, s.poller with
  | .netLoaded, _ => false
  | _, .netLoaded => false
  | _, _ => true

/-- The first half of `reload_filters`. -/
def loadNet (e : Endian) (order : IterOrder CFilterKey) (isInit : Bool) (p : ProbeState) :
    ProbeState × Option PyErr :=
  let net := loadNetFilters e order p.netFilters p.netFilterMap (!isInit)
  ({ p with netFilterMap := net.final }, net.error)

/-- The second half of `reload_filters`. -/
def loadPorts (order : IterOrder Int) (isInit : Bool) (p : ProbeState) :
    ProbeState × Option PyErr :=
  let ports := loadGlobalFilters order p.globalFilters p.portFilterMap (!isInit)
  ({ p with portFilterMap := ports.final }, ports.error)

/-- `reload_filters` is its two halves. -/
theorem reloadFilters_eq (e : Endian) (orders : ReloadOrders) (isInit : Bool) (p : ProbeState) :
    reloadFilters e orders isInit p =
      match loadNet e orders.keys isInit p with
      | (p', some err) => (p', some err)
      | (p', none) => loadPorts orders.ports isInit p' := by
  unfold reloadFilters loadNet loadPorts
  simp only
  split
  · rename_i err hnet
    simp only [hnet]
  · rename_i hnet
    simp only [hnet]

/-- One step of a thread, or a new configuration on the queue.  After an exception the poller begins
again at the queue (`never_crash`), and the process of the main thread ends. -/
def step (e : Endian) (probe : Probe) (s : PollState) : Action → Option PollState
  | .put c => some { s with queue := s.queue ++ [c], last := c }
  | .get =>
      match s.poller, s.queue with
      | .waiting, c :: rest => some { s with poller := .got c, queue := rest }
      | _, _ => none
  | .assignNet =>
      match s.poller with
      | .got c =>
          match getItem (probe.merged c) "filters" with
          -- `never_crash` logs the exception; the configuration is off the queue.
          | .error _ => some { s with poller := .waiting }
          | .ok filters =>
              some { s with
                probe := { s.probe with netFilters := filters }
                poller := .netAssigned c }
      | _ => none
  | .assignGlobal =>
      match s.poller with
      | .netAssigned c =>
          some { s with
            probe := { s.probe with globalFilters := globalFilters (probe.merged c) }
            poller := .assigned c }
      | _ => none
  | .finishBuild =>
      match s.poller with
      | .assigned c =>
          match probe.buildProbeConfig e c true with
          | .error _ => some { s with poller := .waiting }
          | .ok (_, userland) =>
              some { s with
                probe := { s.probe with userland := userland }
                poller := .built }
      | _ => none
  | .pollerNet order =>
      match s.poller with
      | .built =>
          if s.mutexFree then
            match loadNet e order false s.probe with
            | (p, none) => some { s with probe := p, poller := .netLoaded }
            -- `never_crash` logs the exception, and the thread waits for the next configuration.
            | (p, some _) => some { s with probe := p, poller := .waiting }
          else none
      | _ => none
  | .pollerPorts order =>
      match s.poller with
      | .netLoaded => some { s with probe := (loadPorts order false s.probe).1, poller := .waiting }
      | _ => none
  | .mainNet order =>
      match s.main with
      | .starting =>
          if s.mutexFree then
            match loadNet e order true s.probe with
            | (p, none) => some { s with probe := p, main := .netLoaded }
            -- Nothing in `start_polling` catches it.
            | (p, some _) => some { s with probe := p, main := .crashed }
          else none
      | _ => none
  | .mainPorts order =>
      match s.main with
      | .netLoaded =>
          match loadPorts order true s.probe with
          | (p, none) => some { s with probe := p, main := .polling }
          | (p, some _) => some { s with probe := p, main := .crashed }
      | _ => none

/-- The state in which `start_polling` starts the thread. -/
def init (built : BuiltConfig) (userland : Option UserlandFilters) (c : ProbeConfig) : PollState :=
  { probe :=
      { netFilters := built.netFilters
        globalFilters := built.globalFilters
        userland := userland
        containerLabelsFilter := built.template.get? "container_labels"
        filtersContainers := isTruthy (built.template.get? "container_labels")
        netFilterMap := LpmTrie.empty built.netFilterMapSize
        portFilterMap := PortFilterMap.zeros }
    main := .starting
    poller := .waiting
    queue := []
    last := c }

/-- The first load is done, and the poller has nothing left to do. -/
def Settled (s : PollState) : Prop := s.main = .polling ∧ s.poller = .waiting ∧ s.queue = []

/-! ### What the steps do -/

section Steps

variable {e : Endian} {probe : Probe} {s s' : PollState}

theorem step_get (h : step e probe s .get = some s') :
    ∃ c rest, s.poller = .waiting ∧ s.queue = c :: rest ∧
      s' = { s with poller := .got c, queue := rest } := by
  simp only [step] at h
  split at h
  · rename_i c rest hpoller hqueue
    cases h
    exact ⟨c, rest, hpoller, hqueue, rfl⟩
  · cases h

theorem step_assignNet (h : step e probe s .assignNet = some s') :
    ∃ c, s.poller = .got c ∧ ∀ filters, getItem (probe.merged c) "filters" = .ok filters →
      s' = { s with
        probe := { s.probe with netFilters := filters }
        poller := .netAssigned c } := by
  simp only [step] at h
  split at h
  · rename_i c hpoller
    refine ⟨c, hpoller, ?_⟩
    intro filters hfilters
    simpa [hfilters, eq_comm] using h
  · cases h

theorem step_assignGlobal (h : step e probe s .assignGlobal = some s') :
    ∃ c, s.poller = .netAssigned c ∧
      s' = { s with
        probe := { s.probe with globalFilters := probe.portSetting c }
        poller := .assigned c } := by
  simp only [step] at h
  split at h
  · rename_i c hpoller
    exact ⟨c, hpoller, (Option.some.inj h).symm⟩
  · cases h

theorem step_finishBuild (h : step e probe s .finishBuild = some s') :
    ∃ c, s.poller = .assigned c ∧ ∀ built userland,
      probe.buildProbeConfig e c true = .ok (built, userland) →
        s' = { s with probe := { s.probe with userland := userland }, poller := .built } := by
  simp only [step] at h
  split at h
  · rename_i c hpoller
    refine ⟨c, hpoller, ?_⟩
    intro built userland hbuilt
    simpa [hbuilt, eq_comm] using h
  · cases h

/-- The poller loads the trie, which the first load does not hold at the time. -/
theorem step_pollerNet {order : IterOrder CFilterKey}
    (h : step e probe s (.pollerNet order) = some s')
    (herror : (loadNetFilters e order s.probe.netFilters s.probe.netFilterMap true).error =
      none) :
    s.poller = .built ∧ s.main ≠ .netLoaded ∧
      s' = { s with
        probe := { s.probe with
          netFilterMap :=
            (loadNetFilters e order s.probe.netFilters s.probe.netFilterMap true).final }
        poller := .netLoaded } := by
  simp only [step] at h
  split at h
  · rename_i hpoller
    split at h
    · rename_i hfree
      simp only [loadNet, Bool.not_false, herror] at h
      refine ⟨hpoller, ?_, (Option.some.inj h).symm⟩
      intro hmain
      simp [mutexFree, hmain] at hfree
    · cases h
  · cases h

theorem step_pollerPorts {order : IterOrder Int}
    (h : step e probe s (.pollerPorts order) = some s') :
    s.poller = .netLoaded ∧
      s' = { s with
        probe := { s.probe with
          portFilterMap :=
            (loadGlobalFilters order s.probe.globalFilters s.probe.portFilterMap true).final }
        poller := .waiting } := by
  simp only [step] at h
  split at h
  · rename_i hpoller
    exact ⟨hpoller, (Option.some.inj h).symm⟩
  · cases h

/-- The first load of the trie, which the poller does not hold at the time. -/
theorem step_mainNet {order : IterOrder CFilterKey} (h : step e probe s (.mainNet order) = some s')
    (herror : (loadNetFilters e order s.probe.netFilters s.probe.netFilterMap false).error =
      none) :
    s.main = .starting ∧ s.poller ≠ .netLoaded ∧
      s' = { s with
        probe := { s.probe with
          netFilterMap :=
            (loadNetFilters e order s.probe.netFilters s.probe.netFilterMap false).final }
        main := .netLoaded } := by
  simp only [step] at h
  split at h
  · rename_i hmain
    split at h
    · rename_i hfree
      simp only [loadNet, Bool.not_true, herror] at h
      refine ⟨hmain, ?_, (Option.some.inj h).symm⟩
      intro hpoller
      simp [mutexFree, hmain, hpoller] at hfree
    · cases h
  · cases h

theorem step_mainPorts {order : IterOrder Int} (h : step e probe s (.mainPorts order) = some s')
    (herror : (loadGlobalFilters order s.probe.globalFilters s.probe.portFilterMap false).error = none) :
    s.main = .netLoaded ∧
      s' = { s with
        probe := { s.probe with
          portFilterMap :=
            (loadGlobalFilters order s.probe.globalFilters s.probe.portFilterMap false).final }
        main := .polling } := by
  simp only [step] at h
  split at h
  · rename_i hmain
    simp only [loadPorts, Bool.not_true, herror] at h
    exact ⟨hmain, (Option.some.inj h).symm⟩
  · cases h

end Steps

end PollState

/-! ## Configurations that load -/

/-- The statements of `build_probe_config` succeed in a swap to a configuration that starts. -/
theorem swap_builds {e : Endian} {orders : ReloadOrders} {probe : Probe} {c : ProbeConfig}
    {st : ProbeState} (h : Started e orders probe c st) :
    getItem (probe.merged c) "filters" = .ok (probe.netSetting c) ∧
      ∃ built, probe.buildProbeConfig e c true = .ok (built, st.userland) := by
  rcases h.built with ⟨built, hbuilt⟩
  rcases Probe.buildProbeConfig_swap hbuilt with ⟨built', hswap, _, _⟩
  rcases Probe.buildProbeConfig_base hbuilt with ⟨flag, _, hbase⟩
  rcases Probe.buildProbeConfig_filters hbuilt with ⟨hnet, _⟩
  exact ⟨hnet ▸ (buildProbeConfigBase_eq_ok.1 hbase).1, built', hswap⟩

/-- A probe starts with the configuration without an error, and its netmasks are contiguous. -/
structure Loadable (e : Endian) (probe : Probe) (c : ProbeConfig) : Prop where
  starts : ∃ orders st, start e orders probe c = .ok st
  masks : ∀ entry ∈ probe.filters c, entry.ContiguousMask

namespace Loadable

variable {e : Endian} {probe : Probe} {c : ProbeConfig}

theorem builds (h : Loadable e probe c) :
    getItem (probe.merged c) "filters" = .ok (probe.netSetting c) ∧
      ∃ built userland, probe.buildProbeConfig e c true = .ok (built, userland) := by
  rcases h.starts with ⟨orders, st, hstart⟩
  rcases swap_builds (started hstart) with ⟨hfilters, built, hswap⟩
  exact ⟨hfilters, built, st.userland, hswap⟩

theorem lists (h : Loadable e probe c) : probe.Lists c := by
  rcases h.starts with ⟨orders, st, hstart⟩
  exact (started hstart).lists

theorem items (h : Loadable e probe c) :
    ∃ items, Items e (probe.filters c) items ∧ ∀ item ∈ items, item.1.Canonical e := by
  rcases h.starts with ⟨orders, st, hstart⟩
  rcases items_of_load (started hstart).netError with ⟨items, hitems, _⟩
  refine ⟨items, hitems, ?_⟩
  intro item hitem
  rcases List.mem_iff_getElem?.1 hitem with ⟨i, hi⟩
  rcases hitems.entry_of_item hi with ⟨entry, hentry, hparse⟩
  exact canonical_of_item (h.masks entry (List.mem_of_getElem? hentry)) hparse

theorem ports (h : Loadable e probe c) (order : IterOrder Int) (m : PortFilterMap) (doDiff : Bool) :
    (loadPortFiltersIntoMap order (probe.ports c).1 (probe.ports c).2 m doDiff).error = none := by
  rcases h.starts with ⟨orders, st, hstart⟩
  exact reload_ports_error (started hstart).portError

theorem globalFilters (h : Loadable e probe c) (order : IterOrder Int) (m : PortFilterMap)
    (doDiff : Bool) : (loadGlobalFilters order (probe.portSetting c) m doDiff).error = none := by
  rw [h.lists.loadPorts]
  exact h.ports order m doDiff

end Loadable

/-- The trie holds the filters of the configuration. -/
def HoldsNet (e : Endian) (probe : Probe) (c : ProbeConfig) (p : ProbeState) : Prop :=
  ∀ items, Items e (probe.filters c) items → HoldsItems e p.netFilterMap items

/-- The port array holds the ports of the configuration. -/
def HoldsGlobal (probe : Probe) (c : ProbeConfig) (p : ProbeState) : Prop :=
  HoldsPorts (probe.ports c).1 (probe.ports c).2 p.portFilterMap

/-- Maps that hold a configuration hold what a start with it loads. -/
theorem sameMaps_of_holds {e : Endian} {orders : ReloadOrders} {probe : Probe} {c : ProbeConfig}
    {p st : ProbeState} (hnet : HoldsNet e probe c p) (hglobal : HoldsGlobal probe c p)
    (h : start e orders probe c = .ok st) : SameMaps p st := by
  have hs := started h
  constructor
  · rcases items_of_load hs.netError with ⟨items, hitems, hget⟩
    intro q
    rw [hs.net, hget]
    exact hnet items hitems q
  · refine hglobal.unique ?_
    rw [hs.port]
    exact holdsPorts_fresh hs.portError (Or.inl rfl)

/-! ## The invariant -/

namespace PollState

/-- What the main thread has done while the poller waits, `c` being the configuration of the two
attributes. -/
def Waits (e : Endian) (probe : Probe) (c : ProbeConfig) (s : PollState) : Prop :=
  match s.main with
  | .starting =>
      ((∀ p, s.probe.netFilterMap.nodes.get? p = none) ∧
          s.probe.portFilterMap = PortFilterMap.zeros) ∨
        (HoldsNet e probe c s.probe ∧ HoldsGlobal probe c s.probe)
  | .netLoaded =>
      HoldsNet e probe c s.probe ∧
        (s.probe.portFilterMap = PortFilterMap.zeros ∨ HoldsGlobal probe c s.probe)
  | .polling => HoldsNet e probe c s.probe ∧ HoldsGlobal probe c s.probe
  | .crashed => True

/-- How far the poller has come with the configuration `c`, the last one it took from the queue. -/
def Stage (e : Endian) (probe : Probe) (c : ProbeConfig) (s : PollState) : Prop :=
  match s.poller with
  | .waiting =>
      s.probe.netFilters = probe.netSetting c ∧ s.probe.globalFilters = probe.portSetting c ∧
        s.Waits e probe c
  | .got c' => c' = c
  | .netAssigned c' => c' = c ∧ s.probe.netFilters = probe.netSetting c
  | .assigned c' =>
      c' = c ∧ s.probe.netFilters = probe.netSetting c ∧ s.probe.globalFilters = probe.portSetting c
  | .built => s.probe.netFilters = probe.netSetting c ∧ s.probe.globalFilters = probe.portSetting c
  | .netLoaded =>
      s.probe.netFilters = probe.netSetting c ∧ s.probe.globalFilters = probe.portSetting c ∧
        HoldsNet e probe c s.probe ∧ s.main ≠ .netLoaded

/-- A step of the main thread, outside a reload of the poller. -/
theorem Stage.main_moves {e : Endian} {probe : Probe} {c : ProbeConfig} {s s' : PollState}
    (h : s.Stage e probe c) (hheld : s.poller ≠ .netLoaded) (hpoller : s'.poller = s.poller)
    (hnet : s'.probe.netFilters = s.probe.netFilters)
    (hglobal : s'.probe.globalFilters = s.probe.globalFilters)
    (hwaits : s.probe.netFilters = probe.netSetting c → s.probe.globalFilters = probe.portSetting c →
      s.Waits e probe c → s'.Waits e probe c) : s'.Stage e probe c := by
  unfold Stage at h ⊢
  rw [hpoller, hnet, hglobal]
  cases hphase : s.poller with
  | waiting =>
      rw [hphase] at h
      exact ⟨h.1, h.2.1, hwaits h.1 h.2.1 h.2.2⟩
  | netLoaded => exact absurd hphase hheld
  | got c' | netAssigned c' | assigned c' | built =>
      rw [hphase] at h
      exact h

/-- The invariant of the two threads, `c` being the last configuration the poller took. -/
structure Inv (e : Endian) (probe : Probe) (c : ProbeConfig) (s : PollState) : Prop where
  last : s.last = s.queue.getLast?.getD c
  loadable : Loadable e probe c
  queued : ∀ c' ∈ s.queue, Loadable e probe c'
  normal : NormalKeyed e s.probe.netFilterMap
  /-- Each attribute is that of some configuration, though not the two of the same one. -/
  net : ∃ c', Loadable e probe c' ∧ s.probe.netFilters = probe.netSetting c'
  global : ∃ c', Loadable e probe c' ∧ s.probe.globalFilters = probe.portSetting c'
  stage : s.Stage e probe c

/-- When a step does what a load of its configuration should do: there is room in the trie for the
filters beside those that are in it, and no set element of the port array is named by the ports
under another number only. -/
def Fits (e : Endian) (s : PollState) : Action → Prop
  | .pollerNet _ | .mainNet _ =>
      ∀ filters, asFilters s.probe.netFilters = .ok filters →
        ∀ capacity, s.probe.netFilterMap.capacity = some capacity →
          (s.probe.netFilterMap.nodes.keys ++ filters.map (FilterEntry.path e)).toFinset.card ≤
            capacity
  | .pollerPorts _ =>
      ∀ filters, asPorts s.probe.globalFilters.1 = .ok filters →
        SetPortsFit filters s.probe.portFilterMap
  | _ => True

/-- A configuration that is queued loads. -/
def PutsLoadable (e : Endian) (probe : Probe) : Action → Prop
  | .put c => Loadable e probe c
  | _ => True

namespace Inv

variable {e : Endian} {probe : Probe} {c : ProbeConfig} {s s' : PollState}

theorem settled (hs : Inv e probe c s) (hsettled : s.Settled) :
    s.last = c ∧ HoldsNet e probe c s.probe ∧ HoldsGlobal probe c s.probe := by
  rcases hsettled with ⟨hmain, hpoller, hqueue⟩
  have hstage := hs.stage
  simp only [Stage, hpoller, Waits, hmain] at hstage
  refine ⟨?_, hstage.2.2⟩
  rw [hs.last, hqueue]
  rfl

theorem put (hs : Inv e probe c s) {c' : ProbeConfig} (hc : Loadable e probe c') :
    Inv e probe c { s with queue := s.queue ++ [c'], last := c' } := by
  refine ⟨by simp, hs.loadable, ?_, hs.normal, hs.net, hs.global, hs.stage⟩
  intro c'' hmem
  rcases List.mem_append.1 hmem with hmem | hmem
  · exact hs.queued c'' hmem
  · rw [List.mem_singleton.1 hmem]
    exact hc

theorem get (hs : Inv e probe c s) (h : step e probe s .get = some s') :
    ∃ c', Inv e probe c' s' := by
  rcases step_get h with ⟨c', rest, _, hqueue, rfl⟩
  have hc' : Loadable e probe c' := hs.queued c' (by simp [hqueue])
  refine ⟨c', ?_, hc', ?_, hs.normal, hs.net, hs.global, rfl⟩
  · rw [hs.last, hqueue, List.getLast?_cons]
    rfl
  · intro c'' hmem
    exact hs.queued c'' (by simp [hqueue, hmem])

theorem assignNet (hs : Inv e probe c s) (h : step e probe s .assignNet = some s') :
    Inv e probe c s' := by
  rcases step_assignNet h with ⟨c', hpoller, hnext⟩
  have hstage := hs.stage
  simp only [Stage, hpoller] at hstage
  subst hstage
  rw [hnext _ hs.loadable.builds.1]
  exact ⟨hs.last, hs.loadable, hs.queued, hs.normal, ⟨c', hs.loadable, rfl⟩, hs.global, rfl, rfl⟩

theorem assignGlobal (hs : Inv e probe c s) (h : step e probe s .assignGlobal = some s') :
    Inv e probe c s' := by
  rcases step_assignGlobal h with ⟨c', hpoller, rfl⟩
  have hstage := hs.stage
  simp only [Stage, hpoller] at hstage
  rcases hstage with ⟨rfl, hnet⟩
  exact ⟨hs.last, hs.loadable, hs.queued, hs.normal, hs.net, ⟨c', hs.loadable, rfl⟩, rfl, hnet, rfl⟩

theorem finishBuild (hs : Inv e probe c s) (h : step e probe s .finishBuild = some s') :
    Inv e probe c s' := by
  rcases step_finishBuild h with ⟨c', hpoller, hnext⟩
  have hstage := hs.stage
  simp only [Stage, hpoller] at hstage
  rcases hstage with ⟨rfl, hattributes⟩
  rcases hs.loadable.builds.2 with ⟨built, userland, hbuilt⟩
  rw [hnext _ _ hbuilt]
  exact ⟨hs.last, hs.loadable, hs.queued, hs.normal, hs.net, hs.global, hattributes⟩

/-- The attribute is that of some configuration, and each of them loads where it fits. -/
theorem netFilters_load (hs : Inv e probe c s) (hfits : ∀ filters,
    asFilters s.probe.netFilters = .ok filters → ∀ capacity,
      s.probe.netFilterMap.capacity = some capacity →
        (s.probe.netFilterMap.nodes.keys ++ filters.map (FilterEntry.path e)).toFinset.card ≤ capacity) :
    ∃ filters items, asFilters s.probe.netFilters = .ok filters ∧ Items e filters items ∧
      (∀ item ∈ items, item.1.Canonical e) ∧ HasRoom s.probe.netFilterMap (paths e items) := by
  rcases hs.net with ⟨c₁, hc₁, hnet₁⟩
  rcases hc₁.items with ⟨items, hitems, hcanonical⟩
  have hlist : asFilters s.probe.netFilters = .ok (probe.filters c₁) := by
    rw [hnet₁]
    exact hc₁.lists.net
  refine ⟨probe.filters c₁, items, hlist, hitems, hcanonical, ?_⟩
  intro capacity hcapacity
  rw [hitems.paths_eq]
  exact hfits _ hlist capacity hcapacity

/-- A swap loads the trie with the configuration, whatever was there. -/
theorem pollerNet (hs : Inv e probe c s) {order : IterOrder CFilterKey}
    (hfits : Fits e s (.pollerNet order)) (h : step e probe s (.pollerNet order) = some s') :
    Inv e probe c s' := by
  rcases hs.netFilters_load hfits with ⟨filters, items, hlist, hitems, hcanonical, hroom⟩
  rcases load_diff_normal order hitems hcanonical hs.normal hroom with ⟨herror, hholds⟩
  rw [← loadNetFilters_eq hlist] at herror hholds
  rcases step_pollerNet h herror with ⟨hpoller, hmain, rfl⟩
  have hstage := hs.stage
  simp only [Stage, hpoller] at hstage
  refine ⟨hs.last, hs.loadable, hs.queued, hholds.normalKeyed hcanonical, hs.net, hs.global,
    hstage.1, hstage.2, ?_, hmain⟩
  intro items' hitems'
  rw [hstage.1] at hlist
  rw [Probe.filters_eq hlist] at hitems'
  rw [hitems'.unique hitems]
  exact hholds

theorem pollerPorts (hs : Inv e probe c s) {order : IterOrder Int}
    (hfits : Fits e s (.pollerPorts order)) (h : step e probe s (.pollerPorts order) = some s') :
    Inv e probe c s' := by
  rcases step_pollerPorts h with ⟨hpoller, rfl⟩
  have hstage := hs.stage
  simp only [Stage, hpoller] at hstage
  rcases hstage with ⟨hnet, hglobal, hholds, hmain⟩
  have hports : HoldsGlobal probe c { s.probe with
      portFilterMap :=
        (loadGlobalFilters order s.probe.globalFilters s.probe.portFilterMap true).final } := by
    have herror := hs.loadable.ports order s.probe.portFilterMap true
    simp only [Fits, hglobal] at hfits
    simp only [hglobal, hs.loadable.lists.loadPorts]
    exact holdsPorts_diff herror (hfits _ hs.loadable.lists.port)
  refine ⟨hs.last, hs.loadable, hs.queued, hs.normal, hs.net, hs.global, hnet, hglobal, ?_⟩
  -- Wherever the main thread stands, it finds both maps loaded.
  unfold Waits
  split
  · exact Or.inr ⟨hholds, hports⟩
  · exact ⟨hholds, Or.inr hports⟩
  · exact ⟨hholds, hports⟩
  · trivial

/-- The first load may find the attribute of any configuration.  While the poller waits, it is the one
of the configuration that the trie holds, if it holds one. -/
theorem mainNet (hs : Inv e probe c s) {order : IterOrder CFilterKey}
    (hfits : Fits e s (.mainNet order)) (h : step e probe s (.mainNet order) = some s') :
    Inv e probe c s' := by
  rcases hs.netFilters_load hfits with ⟨filters, items, hlist, hitems, hcanonical, hroom⟩
  rcases load_fresh_normal order hitems hcanonical hs.normal hroom with
    ⟨herror, hnormal, hholds⟩
  rw [← loadNetFilters_eq hlist] at herror hnormal hholds
  rcases step_mainNet h herror with ⟨hmain, hpoller, rfl⟩
  refine ⟨hs.last, hs.loadable, hs.queued, hnormal, hs.net, hs.global, ?_⟩
  refine hs.stage.main_moves hpoller rfl rfl rfl ?_
  intro hnet _ hwaits
  simp only [Waits, hmain] at hwaits
  rw [hnet] at hlist
  rw [← Probe.filters_eq hlist] at hitems
  have hbefore : (∀ p, s.probe.netFilterMap.nodes.get? p = none) ∨
      HoldsItems e s.probe.netFilterMap items :=
    hwaits.imp And.left fun hholds => hholds.1 items hitems
  refine ⟨?_, hwaits.imp And.right And.right⟩
  intro items' hitems'
  rw [hitems'.unique hitems]
  exact hholds hbefore

theorem mainPorts (hs : Inv e probe c s) {order : IterOrder Int}
    (h : step e probe s (.mainPorts order) = some s') : Inv e probe c s' := by
  rcases hs.global with ⟨c₁, hc₁, hglobal₁⟩
  have herror := hc₁.globalFilters order s.probe.portFilterMap false
  rw [← hglobal₁] at herror
  rcases step_mainPorts h herror with ⟨hmain, rfl⟩
  refine ⟨hs.last, hs.loadable, hs.queued, hs.normal, hs.net, hs.global, ?_⟩
  -- The mutex keeps the poller out of its own reload.
  have hheld : s.poller ≠ .netLoaded := by
    intro hpoller
    have hstage := hs.stage
    simp only [Stage, hpoller] at hstage
    exact hstage.2.2.2 hmain
  refine hs.stage.main_moves hheld rfl rfl rfl ?_
  intro _ hglobal hwaits
  simp only [Waits, hmain] at hwaits
  refine ⟨hwaits.1, ?_⟩
  unfold HoldsGlobal
  rw [hglobal, hs.loadable.lists.loadPorts] at herror
  simp only [hglobal, hs.loadable.lists.loadPorts]
  exact holdsPorts_fresh herror hwaits.2

/-- One step of any thread. -/
theorem step (hs : Inv e probe c s) {a : Action} (hput : PutsLoadable e probe a)
    (hfits : Fits e s a) (h : PollState.step e probe s a = some s') : ∃ c', Inv e probe c' s' := by
  cases a with
  | put c' =>
      cases h
      exact ⟨c, hs.put hput⟩
  | get => exact hs.get h
  | assignNet => exact ⟨c, hs.assignNet h⟩
  | assignGlobal => exact ⟨c, hs.assignGlobal h⟩
  | finishBuild => exact ⟨c, hs.finishBuild h⟩
  | pollerNet order => exact ⟨c, hs.pollerNet hfits h⟩
  | pollerPorts order => exact ⟨c, hs.pollerPorts hfits h⟩
  | mainNet order => exact ⟨c, hs.mainNet hfits h⟩
  | mainPorts order => exact ⟨c, hs.mainPorts h⟩

end Inv

theorem inv_init {e : Endian} {probe : Probe} {c : ProbeConfig} {built : BuiltConfig}
    {userland : Option UserlandFilters} (hc : Loadable e probe c)
    (hbuilt : probe.buildProbeConfig e c false = .ok (built, userland)) :
    Inv e probe c (init built userland c) := by
  rcases Probe.buildProbeConfig_filters hbuilt with ⟨hnet, hglobal⟩
  refine ⟨rfl, hc, by simp [init], ?_, ⟨c, hc, hnet⟩, ⟨c, hc, hglobal⟩, hnet, hglobal, ?_⟩
  · intro p k v hp
    cases hp
  · exact Or.inl ⟨fun _ => rfl, rfl⟩

/-- In a run of the two threads in which every load fits, the maps hold what a start with the last
configuration would load, whenever the first load is done and the poller has emptied the queue. -/
theorem settled_holds_last {e : Endian} {probe : Probe} {c : ProbeConfig} {built : BuiltConfig}
    {userland : Option UserlandFilters} {acts : List Action} (hc : Loadable e probe c)
    (hbuilt : probe.buildProbeConfig e c false = .ok (built, userland))
    (hput : ∀ a ∈ acts, PutsLoadable e probe a)
    (hfits : Run.StepsMeet (PollState.step e probe) (Fits e) (init built userland c) acts) :
    ∀ s ∈ Run.visited (PollState.step e probe) (init built userland c) acts, s.Settled →
      ∀ orders st, start e orders probe s.last = .ok st → SameMaps s.probe st := by
  have hmeet := hfits.and_of_forall hput
  have hstep : ∀ s a s', (∃ c', Inv e probe c' s) → Fits e s a ∧ PutsLoadable e probe a →
      PollState.step e probe s a = some s' → ∃ c', Inv e probe c' s' := by
    rintro s a s' ⟨c', hs⟩ ⟨hfits, hput⟩ h
    exact hs.step hput hfits h
  intro s hs hsettled orders st hstart
  rcases Run.visited_of_stepsMeet hstep ⟨c, inv_init hc hbuilt⟩ hmeet s hs with ⟨c', hinv⟩
  rcases hinv.settled hsettled with ⟨hlast, hnet, hglobal⟩
  rw [hlast] at hstart
  exact sameMaps_of_holds hnet hglobal hstart

/-- The first load, and after it a swap. -/
def swapSchedule (orders orders' : ReloadOrders) (c : ProbeConfig) : List Action :=
  [.mainNet orders.keys, .mainPorts orders.ports, .put c, .get, .assignNet, .assignGlobal,
    .finishBuild, .pollerNet orders'.keys, .pollerPorts orders'.ports]

/-- Such a run ends with the swap of a probe that was started before. -/
theorem visited_swapSchedule {e : Endian} {probe : Probe} {c c' : ProbeConfig} {built : BuiltConfig}
    {orders orders' orders'' : ReloadOrders} {st st' : ProbeState}
    (h : start e orders probe c = .ok st) (h' : start e orders'' probe c' = .ok st')
    (hbuilt : probe.buildProbeConfig e c false = .ok (built, st.userland))
    (hroom : (loadFiltersIntoMap e orders'.keys (probe.filters c') st.netFilterMap true).error =
      none) :
    ∃ s ∈ Run.visited (PollState.step e probe) (init built st.userland c)
        (swapSchedule orders orders' c'), s.Settled ∧ s.last = c' ∧
      s.probe = (hotSwap e orders' probe c' st).1 := by
  have hs := started h
  have hs' := started h'
  rcases Probe.buildProbeConfig_start hbuilt with ⟨hnet, hglobal, hlabels, _⟩
  have hsize := hs.lists.netFilterMapSize hbuilt
  rcases swap_builds hs' with ⟨hfilters, built', hswap⟩
  have hports : globalFilters (probe.merged c') = probe.portSetting c' := rfl
  have hprobe : (hotSwap e orders' probe c' st).1 = { st with
      netFilters := probe.netSetting c'
      globalFilters := probe.portSetting c'
      userland := st'.userland
      netFilterMap :=
        (loadFiltersIntoMap e orders'.keys (probe.filters c') st.netFilterMap true).final
      portFilterMap :=
        (loadPortFiltersIntoMap orders'.ports (probe.ports c').1 (probe.ports c').2
          st.portFilterMap true).final } := by
    rw [hotSwap_eq hs']
    simp only [reloadFilters, Bool.not_false, hs'.lists.loadNet, hs'.lists.loadPorts, hroom]
  refine ⟨⟨(hotSwap e orders' probe c' st).1, .polling, .waiting, [], c'⟩, ?_, ⟨rfl, rfl, rfl⟩, rfl,
    rfl⟩
  rw [hprobe]
  have hroom' := hroom
  rw [hs.net] at hroom'
  simp [swapSchedule, Run.visited, PollState.step, init, mutexFree, loadNet, loadPorts, hnet,
    hglobal, hlabels, hsize, hs.lists.loadNet, hs.lists.loadPorts, hs.netError, hs.portError,
    hfilters, hports, hs'.lists.loadNet, hs'.lists.loadPorts, hswap, hroom', hs.net, hs.port,
    hs.labels, hs.containers]

/-- It meets the conditions when the swap fits. -/
theorem stepsMeet_swapSchedule {e : Endian} {probe : Probe} {c c' : ProbeConfig}
    {built : BuiltConfig} {orders orders'' : ReloadOrders} (orders' : ReloadOrders)
    {st st' : ProbeState} (h : start e orders probe c = .ok st) (h' : start e orders'' probe c' = .ok st')
    (hbuilt : probe.buildProbeConfig e c false = .ok (built, st.userland))
    (hfits : SwapFits e probe c c') :
    Run.StepsMeet (PollState.step e probe) (Fits e) (init built st.userland c)
      (swapSchedule orders orders' c') := by
  have hs := started h
  have hs' := started h'
  rcases Probe.buildProbeConfig_start hbuilt with ⟨hnet, hglobal, hlabels, _⟩
  have hsize := hs.lists.netFilterMapSize hbuilt
  rcases swap_builds hs' with ⟨hfilters, built', hswap⟩
  have hports : globalFilters (probe.merged c') = probe.portSetting c' := rfl
  rcases items_of_load hs.netError with ⟨items, hitems, _⟩
  rcases items_of_load hs'.netError with ⟨items', hitems', _⟩
  -- The first list fits in the trie that was made for it, and the second one beside it.
  have hfirst : HasRoom (LpmTrie.empty (some (netFilterMapSize (probe.filters c).length)))
      (paths e items) := by
    have hstored := hs.netError
    rw [(load_empty e orders.keys (probe.filters c) _ false).2] at hstored
    exact (hasRoom_of_stored hitems (withinCapacity_empty _) hstored).1
  have hsecond := (first_load_spec hs.netError hitems').2.2.1.2 hfits.room
  have herror := reload_net_error orders'.keys hs.netError hs'.netError hfits.room
  have hset := hfits.ports.setPortsFit hs.portError
  unfold HasRoom at hfirst hsecond
  rw [hitems.paths_eq] at hfirst
  rw [hitems'.paths_eq] at hsecond
  simpa [swapSchedule, Run.StepsMeet, PollState.step, Fits, init, mutexFree, loadNet, loadPorts,
    hnet, hglobal, hsize, hs.lists.net, hs.lists.loadNet, hs.lists.loadPorts, hs.netError,
    hs.portError, hfilters, hports, hs'.lists.net, hs'.lists.port, hs'.lists.loadNet, hswap,
    herror] using
    And.intro hfirst (And.intro hsecond hset)

end PollState

/-! ### A port number beyond 32 bits -/

namespace Example

def httpPort : ProbeConfig := Dict.empty.set "excludeports" (.ports [.int 80])

/-- A number that the array takes for port 80. -/
def wrappedHttpPort : ProbeConfig := Dict.empty.set "excludeports" (.ports [.int (2 ^ 32 + 80)])

theorem started_built {c : ProbeConfig} {st : ProbeState}
    (h : start .little orders .tcpConnect c = .ok st) :
    ∃ built, Probe.tcpConnect.buildProbeConfig .little c false = .ok (built, none) ∧
      st.userland = none := by
  rcases (started h).built with ⟨built, hbuilt⟩
  rcases map_eq_ok.1 hbuilt with ⟨base, _, heq⟩
  have huserland : none = st.userland := (Prod.mk.inj heq).2
  exact ⟨built, huserland ▸ hbuilt, huserland.symm⟩

theorem loadable_of_no_filters {c : ProbeConfig} {st : ProbeState}
    (h : start .little orders .tcpConnect c = .ok st) (hnil : Probe.tcpConnect.filters c = []) :
    Loadable .little .tcpConnect c := by
  refine ⟨⟨orders, st, h⟩, ?_⟩
  rw [hnil]
  simp

end Example

/-- A swap after the first load, with a network and other ports. -/
theorem swap_after_first_load_settles :
    ∃ built st', start .little Example.orders .tcpConnect Example.tenAndRange = .ok st' ∧
      ∃ s ∈ Run.visited (PollState.step .little .tcpConnect)
          (PollState.init built none Example.sshPorts)
          (PollState.swapSchedule Example.orders Example.orders Example.tenAndRange),
        s.Settled ∧ SameMaps s.probe st' := by
  rcases Example.starts Example.sshPorts (by simp) with ⟨st, hst⟩
  rcases Example.starts Example.tenAndRange (by simp) with ⟨st', hst'⟩
  rcases Example.started_built hst with ⟨built, hbuilt, huserland⟩
  have hc := Example.loadable_of_no_filters hst (by decide +kernel)
  have hc' : Loadable .little .tcpConnect Example.tenAndRange := by
    refine ⟨⟨_, _, hst'⟩, ?_⟩
    intro entry hentry
    have hten : Probe.tcpConnect.filters Example.tenAndRange = [PidtreeBcc.Example.tenAll] := by
      decide +kernel
    rw [hten] at hentry
    rw [List.mem_singleton.1 hentry]
    exact ⟨"255.0.0.0", ⟨255, 0, 0, 0⟩, 8, rfl, by decide, by decide, by decide⟩
  have hput : ∀ a ∈ PollState.swapSchedule Example.orders Example.orders Example.tenAndRange,
      PollState.PutsLoadable .little .tcpConnect a := by
    simpa [PollState.swapSchedule, PollState.PutsLoadable] using hc'
  have hroom := reload_net_error Example.orders.keys (started hst).netError (started hst').netError
    Example.tenAndRange_fits.room
  rw [← (started hst).net] at hroom
  have hmeet := PollState.stepsMeet_swapSchedule Example.orders hst hst' (huserland ▸ hbuilt)
    Example.tenAndRange_fits
  rcases PollState.visited_swapSchedule hst hst' (huserland ▸ hbuilt) hroom with
    ⟨s, hs, hsettled, hlast, _⟩
  rw [huserland] at hmeet hs
  refine ⟨built, st', hst', s, hs, hsettled, ?_⟩
  apply PollState.settled_holds_last hc hbuilt hput hmeet s hs hsettled Example.orders
  rw [hlast]
  exact hst'

/-- The swap to a number that wraps around clears the port that a first load of it sets. -/
theorem wrapped_port_lost :
    ∃ built st', Loadable .little .tcpConnect Example.httpPort ∧
      Loadable .little .tcpConnect Example.wrappedHttpPort ∧
      Probe.tcpConnect.buildProbeConfig .little Example.httpPort false = .ok (built, none) ∧
      start .little Example.orders .tcpConnect Example.wrappedHttpPort = .ok st' ∧
      ∃ s ∈ Run.visited (PollState.step .little .tcpConnect)
          (PollState.init built none Example.httpPort)
          (PollState.swapSchedule Example.orders Example.orders Example.wrappedHttpPort),
        s.Settled ∧ s.last = Example.wrappedHttpPort ∧ ¬ SameMaps s.probe st' := by
  rcases Example.starts_of_isOk (c := Example.httpPort) (by decide +kernel) with ⟨st, hst⟩
  rcases Example.starts_of_isOk (c := Example.wrappedHttpPort) (by decide +kernel) with ⟨st', hst'⟩
  rcases Example.started_built hst with ⟨built, hbuilt, huserland⟩
  have hs := started hst
  have hs' := started hst'
  have hnil : Probe.tcpConnect.filters Example.httpPort = [] := by decide +kernel
  have hnil' : Probe.tcpConnect.filters Example.wrappedHttpPort = [] := by decide +kernel
  have hroom := reload_net_error Example.orders.keys hs.netError hs'.netError
    (by rw [hnil, hnil']; decide)
  rw [← hs.net] at hroom
  rcases PollState.visited_swapSchedule hst hst' (huserland ▸ hbuilt) hroom with
    ⟨s, hvisited, hsettled, hlast, hprobe⟩
  rw [huserland] at hvisited
  refine ⟨built, st', Example.loadable_of_no_filters hst hnil,
    Example.loadable_of_no_filters hst' hnil', hbuilt, hst', s, hvisited, hsettled, hlast, ?_⟩
  intro hsame
  have hport := hsame.port
  rw [hprobe, hotSwap_port hs' hroom, hs.port, hs'.port,
    reload_ports_iff Example.orders.ports hs.portError hs'.portError] at hport
  -- Element 80 is set by both, and its own number is not in the new list.
  have hown := hport 80 (by decide) ⟨80, by decide +kernel, by decide⟩
    ⟨2 ^ 32 + 80, by decide +kernel, by decide⟩
  exact absurd hown (by decide +kernel)

end Probes

end PidtreeBcc
