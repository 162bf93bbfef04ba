import PidtreeBcc.Probes.Probe

/-!
# HotSwap — when a swap of the configuration equals a fresh start

A running probe that has taken a changed configuration is compared with a probe that starts with it.
The size of the trie and the container labels are fixed when a probe starts, so the two agree when the
labels are the same, and the old and the new entries fit in the trie of the old configuration.
-/

namespace PidtreeBcc

open Support

namespace Probes

/-! ## What a probe reads of its settings -/

namespace Probe

/-- The settings over the defaults. -/
def merged (probe : Probe) (c : ProbeConfig) : ProbeConfig := probe.configDefaults.update c.entries

/-- `self.net_filters` and `self.global_filters`, as the settings stand. -/
def netSetting (probe : Probe) (c : ProbeConfig) : Setting :=
  ((probe.merged c).get? "filters").getD .null

def portSetting (probe : Probe) (c : ProbeConfig) : Setting × PortFilterMode :=
  globalFilters (probe.merged c)

/-- The network filters, and the ports, that a load goes through. -/
def filters (probe : Probe) (c : ProbeConfig) : List FilterEntry :=
  match asFilters (probe.netSetting c) with
  | .ok l => l
  | .error _ => []

def ports (probe : Probe) (c : ProbeConfig) : List PortSpec × PortFilterMode :=
  match asPorts (probe.portSetting c).1 with
  | .ok l => (l, (probe.portSetting c).2)
  | .error _ => ([], (probe.portSetting c).2)

def containerLabels (probe : Probe) (c : ProbeConfig) : Option Setting :=
  (probe.merged c).get? "container_labels"

end Probe

/-- The two maps hold the same. -/
structure SameMaps (st st' : ProbeState) : Prop where
  net : ∀ p, st.netFilterMap.nodes.get? p = st'.netFilterMap.nodes.get? p
  port : st.portFilterMap = st'.portFilterMap

/-- The same filtering: content of the two maps, userland filters, and container selection. -/
structure SameFiltering (st st' : ProbeState) : Prop where
  net : ∀ p, st.netFilterMap.nodes.get? p = st'.netFilterMap.nodes.get? p
  port : st.portFilterMap = st'.portFilterMap
  userland : st.userland = st'.userland
  labels : st.containerLabelsFilter = st'.containerLabelsFilter
  containers : st.filtersContainers = st'.filtersContainers

/-- When swapping from `c` to `c'` gives the filtering of a start with `c'`. -/
structure SwapFits (e : Endian) (probe : Probe) (c c' : ProbeConfig) : Prop where
  labels : probe.containerLabels c = probe.containerLabels c'
  /-- The networks of both configurations fit in the trie that `c` asked for. -/
  room : ((probe.filters c ++ probe.filters c').map (FilterEntry.path e)).toFinset.card ≤
    netFilterMapSize (probe.filters c).length
  keys : KeysFit e (probe.filters c) (probe.filters c')
  ports : PortsFit (probe.ports c).1 (probe.ports c').1

/-! ## Building the configuration -/

theorem get?_template {merged : ProbeConfig} {hotswapOnly : Bool} {key : String}
    (h : "plugins" ≠ key) :
    (if hotswapOnly then merged else merged.erase "plugins").get? key = merged.get? key := by
  cases hotswapOnly with
  | true => rfl
  | false => exact Dict.get?_erase_of_ne _ h

theorem getItem_eq_ok {config : ProbeConfig} {key : String} {value : Setting} :
    getItem config key = .ok value ↔ config.get? key = some value := by
  unfold getItem
  cases config.get? key <;> simp

/-- The flag changes nothing in what is read; without it the networks are counted. -/
theorem buildProbeConfigBase_eq_ok {defaults c : ProbeConfig} {hotswapOnly : Bool}
    {built : BuiltConfig} :
    buildProbeConfigBase defaults c hotswapOnly = .ok built ↔
      getItem (defaults.update c.entries) "filters" = .ok built.netFilters ∧
        built.globalFilters = globalFilters (defaults.update c.entries) ∧
        built.template = (if hotswapOnly then defaults.update c.entries
          else (defaults.update c.entries).erase "plugins") ∧
        if hotswapOnly then built.netFilterMapSize = none
        else ∃ count, built.netFilters.len = .ok count ∧
          built.netFilterMapSize = some (netFilterMapSize count) := by
  have hitem : getItem (if hotswapOnly then defaults.update c.entries
      else (defaults.update c.entries).erase "plugins") "filters" =
        getItem (defaults.update c.entries) "filters" := by
    unfold getItem
    rw [get?_template (by decide)]
  have hglobal : globalFilters (if hotswapOnly then defaults.update c.entries
      else (defaults.update c.entries).erase "plugins") =
        globalFilters (defaults.update c.entries) := by
    unfold globalFilters
    rw [get?_template (by decide), get?_template (by decide)]
  unfold buildProbeConfigBase
  simp only [bind_eq_ok, hitem, hglobal]
  cases hotswapOnly with
  | true =>
      constructor
      · rintro ⟨filters, hfilters, hbuilt⟩
        cases hbuilt
        exact ⟨hfilters, rfl, rfl, rfl⟩
      · rcases built with ⟨filters, global, template, size⟩
        rintro ⟨hfilters, rfl, rfl, rfl⟩
        exact ⟨filters, hfilters, rfl⟩
  | false =>
      constructor
      · rintro ⟨filters, hfilters, hbuilt⟩
        rcases bind_eq_ok.1 hbuilt with ⟨count, hcount, hbuilt⟩
        cases hbuilt
        exact ⟨hfilters, rfl, rfl, count, hcount, rfl⟩
      · rcases built with ⟨filters, global, template, size⟩
        rintro ⟨hfilters, rfl, rfl, count, hcount, rfl⟩
        exact ⟨filters, hfilters, bind_eq_ok.2 ⟨count, hcount, rfl⟩⟩

/-- What a swap builds from settings that a start accepts. -/
theorem Probe.buildProbeConfig_swap {e : Endian} {probe : Probe} {c : ProbeConfig}
    {built : BuiltConfig} {userland : Option UserlandFilters}
    (h : probe.buildProbeConfig e c false = .ok (built, userland)) :
    ∃ built', probe.buildProbeConfig e c true = .ok (built', userland) ∧
      built'.netFilters = built.netFilters ∧ built'.globalFilters = built.globalFilters := by
  have hbase : ∀ {built : BuiltConfig},
      buildProbeConfigBase probe.configDefaults c false = .ok built →
        ∃ built', buildProbeConfigBase probe.configDefaults c true = .ok built' ∧
          built'.netFilters = built.netFilters ∧ built'.globalFilters = built.globalFilters := by
    intro built hbuilt
    rcases buildProbeConfigBase_eq_ok.1 hbuilt with ⟨hfilters, hports, _, _⟩
    exact ⟨⟨built.netFilters, built.globalFilters, probe.configDefaults.update c.entries, none⟩,
      buildProbeConfigBase_eq_ok.2 ⟨hfilters, hports, rfl, rfl⟩, rfl, rfl⟩
  cases probe with
  -- `net_listen` drops the flag, so it builds the same configuration again.
  | netListen => exact ⟨built, h, rfl, rfl⟩
  | tcpConnect | udpSession =>
      rcases map_eq_ok.1 h with ⟨base, hbuilt, heq⟩
      cases heq
      rcases hbase hbuilt with ⟨built', hswap, hsame⟩
      exact ⟨built', map_eq_ok.2 ⟨built', hswap, rfl⟩, hsame⟩

/-- Every probe builds on the method of the base class; `net_listen` never passes the flag on. -/
theorem Probe.buildProbeConfig_base {e : Endian} {probe : Probe} {c : ProbeConfig}
    {hotswapOnly : Bool} {built : BuiltConfig} {userland : Option UserlandFilters}
    (h : probe.buildProbeConfig e c hotswapOnly = .ok (built, userland)) :
    ∃ flag, (flag = false ∨ flag = hotswapOnly) ∧
      buildProbeConfigBase probe.configDefaults c flag = .ok built := by
  cases probe with
  | netListen =>
      rcases bind_eq_ok.1 h with ⟨base, hbuilt, hrest⟩
      rcases bind_eq_ok.1 hrest with ⟨filters, _, heq⟩
      cases heq
      exact ⟨false, Or.inl rfl, hbuilt⟩
  | tcpConnect | udpSession =>
      rcases map_eq_ok.1 h with ⟨base, hbuilt, heq⟩
      cases heq
      exact ⟨hotswapOnly, Or.inr rfl, hbuilt⟩

/-- The filters that a start or a swap takes from the settings. -/
theorem Probe.buildProbeConfig_filters {e : Endian} {probe : Probe} {c : ProbeConfig}
    {hotswapOnly : Bool} {built : BuiltConfig} {userland : Option UserlandFilters}
    (h : probe.buildProbeConfig e c hotswapOnly = .ok (built, userland)) :
    built.netFilters = probe.netSetting c ∧ built.globalFilters = probe.portSetting c := by
  rcases Probe.buildProbeConfig_base h with ⟨flag, _, hbuilt⟩
  rcases buildProbeConfigBase_eq_ok.1 hbuilt with ⟨hfilters, hports, _, _⟩
  refine ⟨?_, hports⟩
  have hget := getItem_eq_ok.1 hfilters
  unfold Probe.netSetting Probe.merged
  rw [hget]
  rfl

/-- What a start builds. -/
theorem Probe.buildProbeConfig_start {e : Endian} {probe : Probe} {c : ProbeConfig}
    {built : BuiltConfig} {userland : Option UserlandFilters}
    (h : probe.buildProbeConfig e c false = .ok (built, userland)) :
    built.netFilters = probe.netSetting c ∧ built.globalFilters = probe.portSetting c ∧
      built.template.get? "container_labels" = probe.containerLabels c ∧
      ∃ count, (probe.netSetting c).len = .ok count ∧
        built.netFilterMapSize = some (netFilterMapSize count) := by
  rcases Probe.buildProbeConfig_filters h with ⟨hfilters, hports⟩
  rcases Probe.buildProbeConfig_base h with ⟨flag, hflag, hbuilt⟩
  have hfalse : flag = false := or_self_iff.1 hflag
  subst hfalse
  rcases buildProbeConfigBase_eq_ok.1 hbuilt with ⟨_, _, htemplate, hsize⟩
  refine ⟨hfilters, hports, ?_, ?_⟩
  · rw [htemplate]
    exact get?_template (by decide)
  · rw [← hfilters]
    exact hsize

/-! ## What a load makes of the settings -/

theorem asFilters_len {value : Setting} {filters : List FilterEntry}
    (h : asFilters value = .ok filters) : value.len = .ok filters.length := by
  unfold asFilters at h
  split at h <;> cases h <;> rfl

section Loads

variable {e : Endian} {probe : Probe} {c : ProbeConfig}

theorem Probe.filters_eq {filters : List FilterEntry} (h : asFilters (probe.netSetting c) = .ok filters) :
    probe.filters c = filters := by
  rw [Probe.filters, h]

theorem Probe.ports_eq {filters : List PortSpec} (h : asPorts (probe.portSetting c).1 = .ok filters) :
    probe.ports c = (filters, (probe.portSetting c).2) := by
  rw [Probe.ports, h]

theorem loadNetFilters_eq {value : Setting} {filters : List FilterEntry}
    (h : asFilters value = .ok filters) (order : IterOrder CFilterKey) (m : NetFilterMap) (doDiff : Bool) :
    loadNetFilters e order value m doDiff = loadFiltersIntoMap e order filters m doDiff := by
  rw [loadNetFilters, h]

theorem loadGlobalFilters_eq {value : Setting × PortFilterMode} {filters : List PortSpec}
    (h : asPorts value.1 = .ok filters) (order : IterOrder Int) (m : PortFilterMap) (doDiff : Bool) :
    loadGlobalFilters order value m doDiff =
      loadPortFiltersIntoMap order filters value.2 m doDiff := by
  rw [loadGlobalFilters, h]

/-- The settings are lists: those that the loaders go through. -/
structure Probe.Lists (probe : Probe) (c : ProbeConfig) : Prop where
  net : asFilters (probe.netSetting c) = .ok (probe.filters c)
  port : asPorts (probe.portSetting c).1 = .ok (probe.ports c).1

theorem Probe.ports_snd (probe : Probe) (c : ProbeConfig) :
    (probe.ports c).2 = (probe.portSetting c).2 := by
  unfold Probe.ports
  split <;> rfl

theorem Probe.Lists.loadNet (h : probe.Lists c) (order : IterOrder CFilterKey) (m : NetFilterMap)
    (doDiff : Bool) :
    loadNetFilters e order (probe.netSetting c) m doDiff =
      loadFiltersIntoMap e order (probe.filters c) m doDiff :=
  loadNetFilters_eq h.net order m doDiff

theorem Probe.Lists.loadPorts (h : probe.Lists c) (order : IterOrder Int) (m : PortFilterMap)
    (doDiff : Bool) :
    loadGlobalFilters order (probe.portSetting c) m doDiff =
      loadPortFiltersIntoMap order (probe.ports c).1 (probe.ports c).2 m doDiff := by
  rw [probe.ports_snd]
  exact loadGlobalFilters_eq h.port order m doDiff

/-- A start sizes the trie by the networks. -/
theorem Probe.Lists.netFilterMapSize (h : probe.Lists c) {built : BuiltConfig}
    {userland : Option UserlandFilters}
    (hbuilt : probe.buildProbeConfig e c false = .ok (built, userland)) :
    built.netFilterMapSize = some (Probes.netFilterMapSize (probe.filters c).length) := by
  rcases Probe.buildProbeConfig_start hbuilt with ⟨_, _, _, count, hcount, hsize⟩
  rw [hsize, Except.ok.inj (hcount.symm.trans (asFilters_len h.net))]

/-- A load that raised nothing went through lists. -/
theorem Probe.lists_of_loads {order : IterOrder CFilterKey} {order' : IterOrder Int} {m : NetFilterMap}
    {m' : PortFilterMap} {doDiff doDiff' : Bool}
    (hnet : (loadNetFilters e order (probe.netSetting c) m doDiff).error = none)
    (hport : (loadGlobalFilters order' (probe.portSetting c) m' doDiff').error = none) :
    probe.Lists c := by
  constructor
  · unfold Probe.filters
    cases hlist : asFilters (probe.netSetting c) with
    | error err => simp [loadNetFilters, hlist] at hnet
    | ok filters => rfl
  · unfold Probe.ports
    cases hlist : asPorts (probe.portSetting c).1 with
    | error err => simp [loadGlobalFilters, hlist] at hport
    | ok filters => rfl

end Loads

/-! ## A start -/

/-- The state of a probe that was started. -/
structure Started (e : Endian) (orders : ReloadOrders) (probe : Probe) (c : ProbeConfig)
    (st : ProbeState) : Prop where
  built : ∃ built, probe.buildProbeConfig e c false = .ok (built, st.userland)
  lists : probe.Lists c
  netError : (loadFiltersIntoMap e orders.keys (probe.filters c)
    (LpmTrie.empty (some (netFilterMapSize (probe.filters c).length))) false).error = none
  net : st.netFilterMap = (loadFiltersIntoMap e orders.keys (probe.filters c)
    (LpmTrie.empty (some (netFilterMapSize (probe.filters c).length))) false).final
  portError : (loadPortFiltersIntoMap orders.ports (probe.ports c).1 (probe.ports c).2
    PortFilterMap.zeros false).error = none
  port : st.portFilterMap = (loadPortFiltersIntoMap orders.ports (probe.ports c).1
    (probe.ports c).2 PortFilterMap.zeros false).final
  labels : st.containerLabelsFilter = probe.containerLabels c
  containers : st.filtersContainers = isTruthy (probe.containerLabels c)

/-- A reload that raised nothing has loaded both maps. -/
theorem reloadFilters_eq_ok {e : Endian} {orders : ReloadOrders} {isInit : Bool}
    {st st' : ProbeState} :
    reloadFilters e orders isInit st = (st', none) ↔
      (loadNetFilters e orders.keys st.netFilters st.netFilterMap (!isInit)).error = none ∧
      (loadGlobalFilters orders.ports st.globalFilters st.portFilterMap (!isInit)).error = none ∧
      st' = { st with
        netFilterMap := (loadNetFilters e orders.keys st.netFilters st.netFilterMap (!isInit)).final
        portFilterMap :=
          (loadGlobalFilters orders.ports st.globalFilters st.portFilterMap (!isInit)).final } := by
  unfold reloadFilters
  cases hnet : (loadNetFilters e orders.keys st.netFilters st.netFilterMap (!isInit)).error with
  | some err => simp [hnet]
  | none =>
      simp only [hnet, Prod.mk.injEq, true_and]
      exact ⟨fun h => ⟨h.2, h.1.symm⟩, fun h => ⟨h.2.symm, h.1⟩⟩

theorem started {e : Endian} {orders : ReloadOrders} {probe : Probe} {c : ProbeConfig}
    {st : ProbeState} (h : start e orders probe c = .ok st) : Started e orders probe c st := by
  rcases bind_eq_ok.1 h with ⟨⟨built, userland⟩, hbuilt, hreload⟩
  rcases Probe.buildProbeConfig_start hbuilt with ⟨hfilters, hports, hlabels, _⟩
  simp only [hfilters, hports, hlabels] at hreload
  split at hreload
  · rename_i st' hok
    cases hreload
    rcases reloadFilters_eq_ok.1 hok with ⟨hnet, hport, rfl⟩
    have hlists := Probe.lists_of_loads hnet hport
    simp only [hlists.loadNet, hlists.loadPorts, hlists.netFilterMapSize hbuilt] at hnet hport ⊢
    exact ⟨⟨built, hbuilt⟩, hlists, hnet, rfl, hport, rfl, rfl, rfl⟩
  · cases hreload

/-! ## The swap -/

/-- A swap reloads the filters of the new settings. -/
theorem hotSwap_eq {e : Endian} {orders orders' : ReloadOrders} {probe : Probe} {c : ProbeConfig}
    {st st' : ProbeState} (h' : Started e orders' probe c st') :
    hotSwap e orders probe c st =
      reloadFilters e orders false
        { st with
          netFilters := probe.netSetting c
          globalFilters := probe.portSetting c
          userland := st'.userland } := by
  rcases h'.built with ⟨built, hbuilt⟩
  rcases Probe.buildProbeConfig_filters hbuilt with ⟨hfilters, hports⟩
  rcases Probe.buildProbeConfig_swap hbuilt with ⟨built', hswap, hfilters', hports'⟩
  simp only [hotSwap, hswap, hfilters', hports', hfilters, hports]

/-- Whether or not it raises, a swap loads the trie with the new filters, takes the new userland filters
and leaves the container settings. -/
theorem hotSwap_frame {e : Endian} (orders : ReloadOrders) {orders' : ReloadOrders} {probe : Probe}
    {c : ProbeConfig} (st : ProbeState) {st' : ProbeState} (h' : Started e orders' probe c st') :
    (hotSwap e orders probe c st).1.netFilterMap =
        (loadFiltersIntoMap e orders.keys (probe.filters c) st.netFilterMap true).final ∧
      (hotSwap e orders probe c st).1.userland = st'.userland ∧
      (hotSwap e orders probe c st).1.containerLabelsFilter = st.containerLabelsFilter ∧
      (hotSwap e orders probe c st).1.filtersContainers = st.filtersContainers := by
  rw [hotSwap_eq h']
  unfold reloadFilters
  simp only [h'.lists.loadNet]
  split <;> exact ⟨rfl, rfl, rfl, rfl⟩

/-- Once the trie is loaded, a swap loads the port array. -/
theorem hotSwap_port {e : Endian} {orders orders' : ReloadOrders} {probe : Probe} {c : ProbeConfig}
    {st st' : ProbeState} (h' : Started e orders' probe c st')
    (h : (loadFiltersIntoMap e orders.keys (probe.filters c) st.netFilterMap true).error = none) :
    (hotSwap e orders probe c st).1.portFilterMap =
      (loadPortFiltersIntoMap orders.ports (probe.ports c).1 (probe.ports c).2 st.portFilterMap
        true).final := by
  rw [hotSwap_eq h']
  simp only [reloadFilters, Bool.not_false, h'.lists.loadNet, h'.lists.loadPorts, h]

/-- A running probe that has handled changed settings filters like a probe started with them just when
the swap fits. -/
theorem hotSwap_same_iff {e : Endian} {orders₁ orders₂ orders₃ : ReloadOrders} {probe : Probe}
    {c c' : ProbeConfig} {st st' : ProbeState} (h : start e orders₁ probe c = .ok st)
    (h' : start e orders₂ probe c' = .ok st') :
    SameFiltering (hotSwap e orders₃ probe c' st).1 st' ↔ SwapFits e probe c c' := by
  have hs := started h
  have hs' := started h'
  have hnet := reload_net_iff orders₃.keys hs.netError hs'.netError
  have hnetError := reload_net_error orders₃.keys hs.netError hs'.netError
  have hport := reload_ports_iff orders₃.ports hs.portError hs'.portError
  rw [← hs.net, ← hs'.net] at hnet
  rw [← hs.net] at hnetError
  rw [← hs.port, ← hs'.port] at hport
  rcases hotSwap_frame orders₃ st hs' with ⟨hnetMap, huserland, hlabels, hcontainers⟩
  constructor
  · intro hsame
    have hfits := hnet.1 fun p => by
      have hp := hsame.net p
      rw [hnetMap] at hp
      exact hp
    refine ⟨?_, hfits.1, hfits.2, ?_⟩
    · calc
        probe.containerLabels c = st.containerLabelsFilter := hs.labels.symm
        _ = (hotSwap e orders₃ probe c' st).1.containerLabelsFilter := hlabels.symm
        _ = st'.containerLabelsFilter := hsame.labels
        _ = probe.containerLabels c' := hs'.labels
    · -- The trie was loaded without an error, so the port array was loaded as well.
      apply hport.1
      rw [← hotSwap_port hs' (hnetError hfits.1)]
      exact hsame.port
  · intro hfits
    refine ⟨?_, ?_, huserland, ?_, ?_⟩
    · intro p
      rw [hnetMap]
      exact hnet.2 ⟨hfits.room, hfits.keys⟩ p
    · rw [hotSwap_port hs' (hnetError hfits.room)]
      exact hport.2 hfits.ports
    · rw [hlabels, hs'.labels, ← hfits.labels]
      exact hs.labels
    · rw [hcontainers, hs'.containers, ← hfits.labels]
      exact hs.containers

/-- For prefix networks and port numbers of the array, the labels and the room decide. -/
theorem swapFits_iff {e : Endian} {probe : Probe} {c c' : ProbeConfig}
    (h : ∀ entry ∈ probe.filters c, ∃ r, Denotes entry r)
    (h' : ∀ entry ∈ probe.filters c', ∃ r, Denotes entry r)
    (hports : ∀ n ∈ listedPorts (probe.ports c').1, 0 ≤ n ∧ n ≤ 65535) :
    SwapFits e probe c c' ↔ probe.containerLabels c = probe.containerLabels c' ∧
      ((probe.filters c ++ probe.filters c').map (FilterEntry.path e)).toFinset.card ≤
        netFilterMapSize (probe.filters c).length := by
  constructor
  · exact fun hfits => ⟨hfits.labels, hfits.room⟩
  · rintro ⟨hlabels, hroom⟩
    exact ⟨hlabels, hroom, keysFit_of_denotes h h', portsFit_of_ports hports⟩

/-! ### Changed filters, and changed labels -/

namespace Example

def orders : ReloadOrders := ⟨.listed, .listed⟩

def sshPorts : ProbeConfig := Dict.empty.set "excludeports" (.ports [.int 22])

/-- `10.0.0.0/8` is filtered, and so are the ports from 100 to 200. -/
def tenAndRange : ProbeConfig :=
  (Dict.empty.set "filters" (.filters [PidtreeBcc.Example.tenAll])).set "excludeports"
    (.ports [.str "100-200"])

def webContainers : ProbeConfig := Dict.empty.set "container_labels" (.strings ["app=web"])

theorem starts_of_isOk {c : ProbeConfig} (h : (start .little orders .tcpConnect c).isOk = true) :
    ∃ st, start .little orders .tcpConnect c = .ok st := by
  cases hstart : start .little orders .tcpConnect c with
  | error err =>
      rw [hstart] at h
      cases h
  | ok st => exact ⟨st, rfl⟩

theorem starts : ∀ c ∈ [sshPorts, tenAndRange, webContainers],
    ∃ st, start .little orders .tcpConnect c = .ok st := by
  intro c hc
  refine starts_of_isOk ?_
  revert c
  decide +kernel

theorem tenAndRange_fits : SwapFits .little .tcpConnect sshPorts tenAndRange := by
  refine ⟨by decide +kernel, by decide +kernel, ?_, ?_⟩
  · intro i entry hlast
    have hnil : Probe.tcpConnect.filters sshPorts = [] := by decide +kernel
    rw [hnil] at hlast
    simp [LastAtPath] at hlast
  · exact portsFit_of_ports (by decide +kernel)

end Example

theorem changed_filters_swap :
    ∃ st st', start .little Example.orders .tcpConnect Example.sshPorts = .ok st ∧
      start .little Example.orders .tcpConnect Example.tenAndRange = .ok st' ∧
      SameFiltering (hotSwap .little Example.orders .tcpConnect Example.tenAndRange st).1 st' := by
  rcases Example.starts Example.sshPorts (by simp) with ⟨st, hst⟩
  rcases Example.starts Example.tenAndRange (by simp) with ⟨st', hst'⟩
  exact ⟨st, st', hst, hst', (hotSwap_same_iff hst hst').2 Example.tenAndRange_fits⟩

/-- Changed container labels reach neither the selection nor the program of a running probe. -/
theorem changed_labels_not_swapped :
    (Config.nonHotswapSettings Example.sshPorts).Same
        (Config.nonHotswapSettings Example.webContainers) ∧
      ∃ st st', start .little Example.orders .tcpConnect Example.sshPorts = .ok st ∧
        start .little Example.orders .tcpConnect Example.webContainers = .ok st' ∧
        ¬ SameFiltering (hotSwap .little Example.orders .tcpConnect Example.webContainers st).1
          st' := by
  rcases Example.starts Example.sshPorts (by simp) with ⟨st, hst⟩
  rcases Example.starts Example.webContainers (by simp) with ⟨st', hst'⟩
  refine ⟨by decide +kernel, st, st', hst, hst', ?_⟩
  intro hsame
  have hlabels := hsame.labels
  rw [(hotSwap_frame _ st (started hst')).2.2.1, (started hst).labels, (started hst').labels]
    at hlabels
  exact absurd hlabels (by decide +kernel)

end Probes

end PidtreeBcc
