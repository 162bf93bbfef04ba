import PidtreeBcc.Config.Parse
import PidtreeBcc.Filtering.Reload

/-!
# Probe — how a probe takes its filters from its configuration

A probe is started with the settings of its namespace, and handles changed settings from a queue while
it runs.  `buildProbeConfig` serves both, with a flag; `reloadFilters` then loads the maps.
-/

namespace PidtreeBcc

open Support

namespace Probes

/-! ## Settings -/

/-- A configured value, by the kinds that probes read. -/
inductive Setting
  | null
  | flag (b : Bool)
  | number (n : Int)
  | text (s : String)
  | strings (l : List String)
  | filters (l : List FilterEntry)
  | ports (l : List PortSpec)
  deriving DecidableEq, Repr

/-- The truth value of a setting. -/
def Setting.truthy : Setting → Bool
  | .null => false
  | .flag b => b
  | .number n => n ≠ 0
  | .text s => s ≠ ""
  | .strings l => l ≠ []
  | .filters l => l ≠ []
  | .ports l => l ≠ []

abbrev ProbeConfig := Config.Settings Setting

/-- `len(value)`. -/
def Setting.len : Setting → Except PyErr Nat
  | .text s => .ok s.length
  | .strings l => .ok l.length
  | .filters l => .ok l.length
  | .ports l => .ok l.length
  | _ => .error (.builtin .TypeError)

/-- The network filters that a loop over the setting comes to. -/
def asFilters : Setting → Except PyErr (List FilterEntry)
  | .filters l => .ok l
  | .text "" | .strings [] | .ports [] => .ok []
  -- No iteration, or the first item has no fields.
  | _ => .error (.builtin .TypeError)

/-- The ports that a loop over the setting comes to. -/
def asPorts : Setting → Except PyErr (List PortSpec)
  | .ports l => .ok l
  | .strings l => .ok (l.map .str)
  | .text s => .ok (s.toList.map fun c => .str (String.singleton c))
  | .filters [] => .ok []
  | _ => .error (.builtin .TypeError)

/-! ## The probes -/

inductive Probe
  | tcpConnect
  | udpSession
  | netListen
  deriving DecidableEq, Repr

def NET_FILTER_MAP_SIZE_MAX : Nat := 4 * 1024

def NET_FILTER_MAP_SIZE_SCALING : Nat := 512

/-- `CONFIG_DEFAULTS`. -/
def Probe.configDefaults : Probe → ProbeConfig
  | .tcpConnect | .udpSession =>
      Dict.empty.update [("filters", .filters []), ("container_labels", .strings []),
        ("includeports", .ports []), ("excludeports", .ports [])]
  | .netListen =>
      Dict.empty.update [("protocols", .strings ["tcp"]), ("filters", .filters []),
        ("container_labels", .strings []), ("excludeports", .ports []), ("includeports", .ports []),
        ("snapshot_periodicity", .flag false), ("same_namespace_only", .flag false),
        ("exclude_random_bind", .flag false)]

/-- `self.net_filters`, `self.global_filters` and the template configuration, with the size of the
trie when it is asked for.  The two attributes are the settings as they stand: only a load goes through
them. -/
structure BuiltConfig where
  netFilters : Setting
  globalFilters : Setting × PortFilterMode
  template : ProbeConfig
  netFilterMapSize : Option Nat

def netFilterMapSize (count : Nat) : Nat :=
  min NET_FILTER_MAP_SIZE_MAX (roundNearestMultiple count NET_FILTER_MAP_SIZE_SCALING 128)

/-- The setting is there and true. -/
def isTruthy (value : Option Setting) : Bool :=
  match value with
  | some v => v.truthy
  | none => false

/-- `config[key]`. -/
def getItem (config : ProbeConfig) (key : String) : Except PyErr Setting :=
  match config.get? key with
  | some value => .ok value
  | none => .error (.builtin .KeyError)

def globalFilters (template : ProbeConfig) : Setting × PortFilterMode :=
  if isTruthy (template.get? "includeports") then
    ((template.get? "includeports").getD (.ports []), .include)
  else ((template.get? "excludeports").getD (.ports []), .exclude)

/-- `BPFProbe.build_probe_config`. -/
def buildProbeConfigBase (defaults probeConfig : ProbeConfig) (hotswapOnly : Bool) :
    Except PyErr BuiltConfig := do
  -- The settings of the file go over the defaults.
  let merged := defaults.update probeConfig.entries
  let template := if hotswapOnly then merged else merged.erase "plugins"
  let filters ← getItem template "filters"
  if hotswapOnly then
    return ⟨filters, globalFilters template, template, none⟩
  else
    -- The size of the trie is for the program text, so only a start needs the length of the list.
    let count ← filters.len
    return ⟨filters, globalFilters template, template, some (netFilterMapSize count)⟩

/-! ## The filters of `net_listen` in userland -/

/-- `self.port_filter`: the ports that it lets through are these, or all but these. -/
inductive PortFilter
  | only (includeports : List Int)
  | allBut (excludeports : List Int)
  deriving DecidableEq, Repr

def PortFilter.passes : PortFilter → Int → Bool
  | .only includeports, port => port ∈ includeports
  | .allBut excludeports, port => port ∉ excludeports

structure UserlandFilters where
  filtering : NetFilter
  portFilter : PortFilter
  deriving DecidableEq, Repr

/-- `str(value)`. -/
def pyStr : PortSpec → String
  | .int n => toString n
  | .str s => s

/-- `port_range_mapper(p) if '-' in p else [int(p)]`. -/
def excludedPorts (p : String) : Except PyErr (List Int) :=
  if '-' ∈ p.toList then portRangeMapper p.toList
  else (pyInt p.toList).map fun n => [n]

/-- The ports go into a set here, so what is no list of ports is refused at once. -/
def netListenPortFilter (config : ProbeConfig) : Except PyErr PortFilter :=
  if isTruthy (config.get? "includeports") then do
    let value ← getItem config "includeports"
    let includeports ← asPorts value
    let ports ← includeports.mapM PortSpec.toInt
    return .only ports
  else do
    let value ← getItem config "excludeports"
    let excludeports ← asPorts value
    let ports ← (excludeports.map pyStr).mapM excludedPorts
    return .allBut ports.flatten

/-- The part of `NetListenProbe.build_probe_config` that sets the userland filters. -/
def netListenFilters (e : Endian) (config : ProbeConfig) : Except PyErr UserlandFilters := do
  let value ← getItem config "filters"
  let filters ← asFilters value
  let filtering ← NetFilter.init e filters
  let portFilter ← netListenPortFilter config
  return ⟨filtering, portFilter⟩

/-- `build_probe_config` of each probe.  `net_listen` calls the method of the base class without the
flag. -/
def Probe.buildProbeConfig (e : Endian) (probe : Probe) (probeConfig : ProbeConfig)
    (hotswapOnly : Bool) : Except PyErr (BuiltConfig × Option UserlandFilters) :=
  match probe with
  | .tcpConnect | .udpSession =>
      (buildProbeConfigBase probe.configDefaults probeConfig hotswapOnly).map (·, none)
  | .netListen => do
      -- Here the list is measured at a swap as well.
      let config ← buildProbeConfigBase probe.configDefaults probeConfig false
      let userland ← netListenFilters e config.template
      return (config, some userland)

/-! ## A running probe -/

structure ProbeState where
  netFilters : Setting
  globalFilters : Setting × PortFilterMode
  userland : Option UserlandFilters
  /-- `self.container_labels_filter`. -/
  containerLabelsFilter : Option Setting
  /-- The program text tests the mount namespace, and the monitor of containers runs. -/
  filtersContainers : Bool
  netFilterMap : NetFilterMap
  portFilterMap : PortFilterMap

/-- The iteration orders of the sets that one reload goes through. -/
structure ReloadOrders where
  keys : IterOrder CFilterKey
  ports : IterOrder Int

/-- `load_filters_into_map` on a setting. -/
def loadNetFilters (e : Endian) (order : IterOrder CFilterKey) (value : Setting) (m : NetFilterMap)
    (doDiff : Bool) : LoadRun NetFilterMap :=
  match asFilters value with
  | .error err => ⟨[], m, some err⟩
  | .ok filters => loadFiltersIntoMap e order filters m doDiff

/-- `load_port_filters_into_map` on the setting and the mode. -/
def loadGlobalFilters (order : IterOrder Int) (value : Setting × PortFilterMode) (m : PortFilterMap)
    (doDiff : Bool) : LoadRun PortFilterMap :=
  match asPorts value.1 with
  | .error err => ⟨[], m, some err⟩
  | .ok filters => loadPortFiltersIntoMap order filters value.2 m doDiff

/-- `reload_filters`, and what it raised. -/
def reloadFilters (e : Endian) (orders : ReloadOrders) (isInit : Bool) (st : ProbeState) :
    ProbeState × Option PyErr :=
  let net := loadNetFilters e orders.keys st.netFilters st.netFilterMap (!isInit)
  match net.error with
  -- The trie keeps what was written, and the port array is not touched.
  | some err => ({ st with netFilterMap := net.final }, some err)
  | none =>
      let ports := loadGlobalFilters orders.ports st.globalFilters st.portFilterMap (!isInit)
      ({ st with netFilterMap := net.final, portFilterMap := ports.final }, ports.error)

/-- A probe that was constructed and has begun to poll: the maps are new, and the container settings
go into the program text. -/
def start (e : Endian) (orders : ReloadOrders) (probe : Probe) (probeConfig : ProbeConfig) :
    Except PyErr ProbeState := do
  let (config, userland) ← probe.buildProbeConfig e probeConfig false
  let containerLabels := config.template.get? "container_labels"
  match reloadFilters e orders true
      { netFilters := config.netFilters
        globalFilters := config.globalFilters
        userland := userland
        containerLabelsFilter := containerLabels
        filtersContainers := isTruthy containerLabels
        netFilterMap := LpmTrie.empty config.netFilterMapSize
        portFilterMap := PortFilterMap.zeros } with
  | (st, none) => return st
  | (_, some err) => throw err

/-- One round of `_poll_config_changes`. -/
def hotSwap (e : Endian) (orders : ReloadOrders) (probe : Probe) (probeConfig : ProbeConfig)
    (st : ProbeState) : ProbeState × Option PyErr :=
  match probe.buildProbeConfig e probeConfig true with
  -- What it assigned before it raised is read by no load: the next swap assigns it anew.
  | .error err => (st, some err)
  | .ok (config, userland) =>
      reloadFilters e orders false
        { st with
          netFilters := config.netFilters
          globalFilters := config.globalFilters
          userland := userland }

end Probes

end PidtreeBcc
