import PidtreeBcc.Support.Dict
import PidtreeBcc.Python.Builtins

/-!
# StaticConf — the process-wide configuration registry

Configuration lives in named namespaces that are created on first use and stay registered until they are
dropped.  Two of them hold no probe settings: `__change_callbacks` maps probe names to change queues and
`__loaded_configs` holds the list of loaded files.  Their values are fields of their own here.
-/

namespace PidtreeBcc

open Support

namespace Config

/-- The settings of one namespace. -/
abbrev Settings (V : Type*) := Dict String V

/-- Top-level content of a configuration file; `none` stands for a value that is not a mapping. -/
abbrev ConfigData (V : Type*) := Dict String (Option (Settings V))

def DEFAULT_NAMESPACE : String := "DEFAULT"

def HOTSWAP_CALLBACK_NAMESPACE : String := "__change_callbacks"

def LOADED_CONFIG_FILES_NAMESPACE : String := "__loaded_configs"

def NON_PROBE_NAMESPACES : List String :=
  [DEFAULT_NAMESPACE, HOTSWAP_CALLBACK_NAMESPACE, LOADED_CONFIG_FILES_NAMESPACE]

def HOT_SWAPPABLE_SETTINGS : List String :=
  ["filters", "excludeports", "includeports", "container_labels"]

/-- The registry and the change queues, each with everything that was put on it. -/
structure ConfigState (V : Type*) where
  namespaces : Dict String (Settings V)
  /-- The queue of each probe, or `None` when the configuration is not watched. -/
  callbacks : Dict String (Option Nat)
  loadedFiles : Option (List String)
  queues : List (List (Settings V))

namespace ConfigState

variable {V : Type*}

/-- The registry of a new process. -/
def init : ConfigState V where
  namespaces := Dict.empty.set DEFAULT_NAMESPACE Dict.empty
  callbacks := Dict.empty
  loadedFiles := none
  queues := []

/-- `get_namespace(name)`: register the namespace if it is not there. -/
def getNamespace (name : String) (st : ConfigState V) : ConfigState V :=
  match st.namespaces.get? name with
  | some _ => st
  | none => { st with namespaces := st.namespaces.set name Dict.empty }

/-- `get_namespace(name).get_config_values()`. -/
def configValues (name : String) (st : ConfigState V) : Settings V :=
  (st.namespaces.get? name).getD Dict.empty

/-- Clear a namespace and load settings into it. -/
def load (name : String) (settings : Settings V) (st : ConfigState V) : ConfigState V :=
  { st with namespaces := st.namespaces.set name settings }

/-- The registered names that `_get_probe_namespaces` yields. -/
def probeNames (st : ConfigState V) : List String :=
  st.namespaces.keys.filter fun name => name ∉ NON_PROBE_NAMESPACES

/-- `_drop_namespaces`. -/
def dropNamespaces (names : List String) (st : ConfigState V) : ConfigState V :=
  { st with namespaces := st.namespaces.filterKeys fun name => name ∉ names }

/-- `reset_config_state`: every namespace is emptied and stays registered. -/
def resetConfigState (st : ConfigState V) : ConfigState V :=
  { st with
    namespaces := st.namespaces.mapValues fun _ => Dict.empty
    callbacks := Dict.empty
    loadedFiles := none }

/-- Register the callback of a probe, with a new queue if the configuration is watched. -/
def addCallback (watch : Bool) (key : String) (st : ConfigState V) : ConfigState V :=
  if watch then
    { st with
      callbacks := st.callbacks.set key (some st.queues.length)
      queues := st.queues ++ [[]] }
  else { st with callbacks := st.callbacks.set key none }

/-- `queue.put(config_data)`. -/
def put (queue : Nat) (settings : Settings V) (st : ConfigState V) : ConfigState V :=
  { st with queues := st.queues.modify queue fun puts => puts ++ [settings] }

/-! ## Namespaces after each operation -/

theorem mem_keys_getNamespace {name name' : String} {st : ConfigState V} :
    name' ∈ (st.getNamespace name).namespaces.keys ↔ name' = name ∨ name' ∈ st.namespaces.keys := by
  unfold getNamespace
  cases h : st.namespaces.get? name with
  | some settings =>
      have hmem : name ∈ st.namespaces.keys := Dict.mem_keys_iff.2 ⟨settings, h⟩
      exact (or_iff_right_of_imp fun hname => hname ▸ hmem).symm
  | none => exact Dict.mem_keys_set

@[simp] theorem callbacks_getNamespace (name : String) (st : ConfigState V) :
    (st.getNamespace name).callbacks = st.callbacks := by
  unfold getNamespace
  cases st.namespaces.get? name <;> rfl

@[simp] theorem configValues_getNamespace (name : String) (st : ConfigState V) :
    (st.getNamespace name).configValues name = st.configValues name := by
  unfold getNamespace configValues
  cases h : st.namespaces.get? name with
  | some settings => simp [h]
  | none => simp

theorem mem_probeNames {st : ConfigState V} {name : String} :
    name ∈ st.probeNames ↔ name ∈ st.namespaces.keys ∧ name ∉ NON_PROBE_NAMESPACES := by
  simp [probeNames]

theorem get?_load (name name' : String) (settings : Settings V) (st : ConfigState V) :
    (st.load name settings).namespaces.get? name' =
      if name = name' then some settings else st.namespaces.get? name' :=
  Dict.get?_set _ _ _ _

@[simp] theorem keys_resetConfigState (st : ConfigState V) :
    st.resetConfigState.namespaces.keys = st.namespaces.keys := Dict.keys_mapValues _ _

@[simp] theorem namespaces_addCallback (watch : Bool) (key : String) (st : ConfigState V) :
    (st.addCallback watch key).namespaces = st.namespaces := by
  unfold addCallback
  cases watch <;> rfl

theorem mem_keys_addCallback {watch : Bool} {key key' : String} {st : ConfigState V} :
    key' ∈ (st.addCallback watch key).callbacks.keys ↔ key' = key ∨ key' ∈ st.callbacks.keys := by
  unfold addCallback
  cases watch <;> exact Dict.mem_keys_set

@[simp] theorem callbacks_put (queue : Nat) (settings : Settings V) (st : ConfigState V) :
    (st.put queue settings).callbacks = st.callbacks := rfl

end ConfigState

end Config

end PidtreeBcc
