import PidtreeBcc.Config.Parse
import PidtreeBcc.Support.Run

/-!
# Process — the rounds of `main()` in one process

`main()` parses the configuration, loads the probes, and starts over on a restart signal; meanwhile the
watchdog may parse again.  The registry outlives the restarts, and the probes to load are read back
from it.  What is read back is the file just when no other name was registered before.
-/

namespace PidtreeBcc

open Support

namespace Config

variable {V : Type*} [DecidableEq V]

def MAX_RESTARTS : Nat := 100

/-- The namespace that the `sourceipmap` plugin loads its host files into: its module name. -/
def SOURCEIPMAP_NAMESPACE : String := "pidtree_bcc.plugins.sourceipmap"

/-- What `load_probes` finds outside the registry. -/
structure Modules (V : Type*) where
  /-- A probe class can be imported under the name. -/
  hasProbe : String → Bool
  /-- The settings enable the `sourceipmap` plugin. -/
  sourceipmap : Settings V → Bool

/-- Where the process is in `main()`. -/
inductive Phase
  | starting
  | parsed
  | running
  | ended
  deriving DecidableEq

structure Process (V : Type*) where
  registry : ConfigState V
  phase : Phase
  restarts : Nat
  /-- The file content, right after a parse that raised nothing and asked for no restart. -/
  justParsed : Option (ConfigData V)

/-- What happens to the process; the file content is that of the moment. -/
inductive Action (V : Type*)
  | parse (order : IterOrder String) (files : List String) (data : ConfigData V)
  | loadProbes (hosts : List (Settings V))
  | sighup

/-- The configuration loaders of the plugin, one for each host file. -/
def loadHosts (hosts : List (Settings V)) (st : ConfigState V) : ConfigState V :=
  hosts.foldl (fun st host =>
    st.load SOURCEIPMAP_NAMESPACE
      ((st.configValues SOURCEIPMAP_NAMESPACE).update host.entries)) st

namespace Process

def init : Process V := ⟨ConfigState.init, .starting, 0, none⟩

/-- `RestartSignal` reaches the loop around `main()`. -/
def restart (p : Process V) : Process V :=
  { p with
    phase := if p.restarts + 1 < MAX_RESTARTS then .starting else .ended
    restarts := p.restarts + 1
    justParsed := none }

/-- `parse_config`, by `main()` or by the watchdog, which restarts when it raises. -/
def parse (mainThread : Bool) (order : IterOrder String) (watch : Bool) (files : List String)
    (data : ConfigData V) (p : Process V) : Process V :=
  let r := parseConfig mainThread order watch files data p.registry
  let q := { p with registry := r.state, justParsed := none }
  match r.error with
  | some _ => if mainThread then { q with phase := .ended } else q.restart
  | none =>
      if r.restarted then q.restart
      else { q with phase := if mainThread then .parsed else .running, justParsed := some data }

/-- `load_probes`; `sourceipmap` supports `tcp_connect` only. -/
def loadProbes (modules : Modules V) (hosts : List (Settings V)) (p : Process V) : Process V :=
  let names := p.registry.probeNames.filter isProbeKey
  let q := { p with justParsed := none }
  if names.all modules.hasProbe then
    if "tcp_connect" ∈ names ∧ modules.sourceipmap (p.registry.configValues "tcp_connect") then
      { q with registry := loadHosts hosts p.registry, phase := .running }
    else { q with phase := .running }
  else { q with phase := .ended }

/-- One step of the process; `watch` is the command line option. -/
def step (modules : Modules V) (watch : Bool) (p : Process V) : Action V → Option (Process V)
  | .parse order files data =>
      match p.phase with
      | .starting => some (p.parse true order watch files data)
      | .running => if watch then some (p.parse false order watch files data) else none
      | _ => none
  | .loadProbes hosts => if p.phase = .parsed then some (p.loadProbes modules hosts) else none
  | .sighup => if p.phase = .ended then none else some p.restart

/-- The probes that are enumerated are those of the file: one entry for each key, with its settings. -/
def EnumeratesFile (data : ConfigData V) (st : ConfigState V) : Prop :=
  ((enumerateProbeConfigs st).map Prod.fst).Perm (probeKeys data) ∧
    ∀ entry ∈ enumerateProbeConfigs st, data.get? entry.1 = some (some entry.2.1)

/-- After a parse that went through, enumeration follows the file. -/
def FollowsFile (p : Process V) : Prop :=
  ∀ data, p.justParsed = some data → EnumeratesFile data p.registry

/-- No other probe name is registered, and the file has no key for the reserved namespace. -/
def OnlyProbesOf (data : ConfigData V) (st : ConfigState V) : Prop :=
  (∀ name ∈ st.probeNames, name ∈ probeKeys data) ∧ DEFAULT_NAMESPACE ∉ probeKeys data

/-- A parse that goes through finds only names of its file registered. -/
def ParsesOver (watch : Bool) (p : Process V) : Action V → Prop
  | .parse order files data =>
      let r := parseConfig (p.phase = .starting) order watch files data p.registry
      r.error = none → r.restarted = false → OnlyProbesOf data p.registry
  | _ => True

/-! ## Enumeration after one parse -/

omit [DecidableEq V] in
theorem map_fst_enumerateProbeConfigs (st : ConfigState V) :
    (enumerateProbeConfigs st).map Prod.fst = st.probeNames := by
  simp [enumerateProbeConfigs, Function.comp_def]

omit [DecidableEq V] in
theorem probeNames_nodup (st : ConfigState V) : st.probeNames.Nodup :=
  st.namespaces.keys_nodup.filter _

theorem mem_probeNames_parseConfig {mainThread watch : Bool} {order : IterOrder String}
    {files : List String} {data : ConfigData V} {st : ConfigState V}
    (herror : (parseConfig mainThread order watch files data st).error = none)
    (hrestarted : (parseConfig mainThread order watch files data st).restarted = false)
    (name : String) :
    name ∈ (parseConfig mainThread order watch files data st).state.probeNames ↔
      (name ∈ probeKeys data ∨ name ∈ st.namespaces.keys) ∧ name ∉ NON_PROBE_NAMESPACES := by
  rcases parseConfig_loaded hrestarted herror with ⟨hmappings, hget⟩
  rw [ConfigState.mem_probeNames, Dict.mem_keys_iff, hget]
  by_cases hname : name ∈ probeKeys data
  · rcases hmappings name hname with ⟨settings, hdata⟩
    simp [hname, hdata]
  · simp [hname, Dict.mem_keys_iff]

/-- A parse that goes through leaves the probes of the file just when it found no others. -/
theorem enumeratesFile_parseConfig {mainThread watch : Bool} {order : IterOrder String}
    {files : List String} {data : ConfigData V} {st : ConfigState V}
    (herror : (parseConfig mainThread order watch files data st).error = none)
    (hrestarted : (parseConfig mainThread order watch files data st).restarted = false) :
    EnumeratesFile data (parseConfig mainThread order watch files data st).state ↔
      OnlyProbesOf data st := by
  have hnames := mem_probeNames_parseConfig herror hrestarted
  rcases parseConfig_loaded hrestarted herror with ⟨hmappings, hget⟩
  unfold EnumeratesFile
  rw [map_fst_enumerateProbeConfigs,
    List.perm_ext_iff_of_nodup (probeNames_nodup _) (probeKeys_nodup data)]
  constructor
  · rintro ⟨hsame, -⟩
    refine ⟨?_, ?_⟩
    · intro name hname
      rcases ConfigState.mem_probeNames.1 hname with ⟨hkey, hreserved⟩
      exact (hsame name).1 ((hnames name).2 ⟨Or.inr hkey, hreserved⟩)
    · intro hdefault
      exact ((hnames _).1 ((hsame _).2 hdefault)).2 (by decide)
  · rintro ⟨hold, hdefault⟩
    have hsame : ∀ name,
        name ∈ (parseConfig mainThread order watch files data st).state.probeNames ↔
          name ∈ probeKeys data := by
      intro name
      rw [hnames]
      constructor
      · rintro ⟨hkey | hkey, hreserved⟩
        · exact hkey
        · exact hold name (ConfigState.mem_probeNames.2 ⟨hkey, hreserved⟩)
      · intro hkey
        refine ⟨Or.inl hkey, ?_⟩
        intro hreserved
        have hname := eq_default_of_reserved (mem_probeKeys.1 hkey).2 hreserved
        exact hdefault (hname ▸ hkey)
    refine ⟨hsame, ?_⟩
    intro entry hentry
    rcases List.mem_map.1 hentry with ⟨name, hname, rfl⟩
    have hkey : name ∈ probeKeys data := (hsame name).1 hname
    rcases hmappings name hkey with ⟨settings, hdata⟩
    simp [ConfigState.configValues, hget, hkey, hdata]

/-- With a watched configuration only the reserved key is left to go wrong. -/
theorem onlyProbesOf_of_watched {mainThread : Bool} {order : IterOrder String}
    {files : List String} {data : ConfigData V} {st : ConfigState V}
    (hrestarted : (parseConfig mainThread order true files data st).restarted = false) :
    OnlyProbesOf data st ↔ DEFAULT_NAMESPACE ∉ probeKeys data := by
  refine ⟨And.right, ?_⟩
  intro hdefault
  refine ⟨?_, hdefault⟩
  by_contra hstray
  have hchanged : ProbesOrFilesChanged files data st := by
    refine Or.inl ⟨?_, ?_⟩
    · intro hnil
      exact hstray (by simp [hnil])
    · intro hsame
      exact hstray fun name hname => (hsame name).2 hname
  rw [parseConfig_of_changed hchanged] at hrestarted
  cases hrestarted

/-! ## Enumeration over runs -/

omit [DecidableEq V] in
theorem justParsed_loadProbes (modules : Modules V) (hosts : List (Settings V)) (p : Process V) :
    (p.loadProbes modules hosts).justParsed = none := by
  unfold loadProbes
  simp only
  split
  · split <;> rfl
  · rfl

omit [DecidableEq V] in
theorem followsFile_of_none {p : Process V} (h : p.justParsed = none) : p.FollowsFile := by
  intro data hdata
  rw [h] at hdata
  cases hdata

section Parse

variable {mainThread watch : Bool} {order : IterOrder String} {files : List String}
  {data : ConfigData V} {p : Process V}

theorem registry_parse : (p.parse mainThread order watch files data).registry =
    (parseConfig mainThread order watch files data p.registry).state := by
  unfold parse
  simp only
  split
  · split <;> rfl
  · split <;> rfl

theorem justParsed_parse_of_raised {err : PyErr}
    (h : (parseConfig mainThread order watch files data p.registry).error = some err) :
    (p.parse mainThread order watch files data).justParsed = none := by
  unfold parse
  simp only [h]
  cases mainThread <;> rfl

theorem justParsed_parse
    (h : (parseConfig mainThread order watch files data p.registry).error = none) :
    (p.parse mainThread order watch files data).justParsed =
      if (parseConfig mainThread order watch files data p.registry).restarted then none
      else some data := by
  unfold parse
  simp only [h]
  split <;> rfl

theorem followsFile_parse :
    (p.parse mainThread order watch files data).FollowsFile ↔
      ((parseConfig mainThread order watch files data p.registry).error = none →
        (parseConfig mainThread order watch files data p.registry).restarted = false →
        OnlyProbesOf data p.registry) := by
  cases herror : (parseConfig mainThread order watch files data p.registry).error with
  | some err => exact iff_of_true (followsFile_of_none (justParsed_parse_of_raised herror)) (by simp)
  | none =>
      have hjust := justParsed_parse herror
      cases hrestarted : (parseConfig mainThread order watch files data p.registry).restarted with
      | true =>
          rw [hrestarted, if_pos rfl] at hjust
          exact iff_of_true (followsFile_of_none hjust) (by simp)
      | false =>
          rw [hrestarted, if_neg (by simp)] at hjust
          have hiff := enumeratesFile_parseConfig herror hrestarted
          simp only [FollowsFile, hjust, registry_parse, Option.some.injEq, forall_eq', hiff,
            true_imp_iff]

end Parse

/-- What one step needs so that enumeration follows the file after it. -/
theorem followsFile_step {modules : Modules V} {watch : Bool} {p p' : Process V} {a : Action V}
    (h : step modules watch p a = some p') : p'.FollowsFile ↔ p.ParsesOver watch a := by
  cases a with
  | parse order files data =>
      cases hphase : p.phase with
      | starting =>
          simp only [step, hphase, Option.some.injEq] at h
          subst h
          simp only [ParsesOver, hphase, decide_true]
          exact followsFile_parse
      | running =>
          simp only [step, hphase] at h
          cases hwatch : watch with
          | false => simp [hwatch] at h
          | true =>
              simp only [hwatch, if_true, Option.some.injEq] at h
              subst h
              simpa only [ParsesOver, hphase, reduceCtorEq, decide_false] using followsFile_parse
      | parsed => simp [step, hphase] at h
      | ended => simp [step, hphase] at h
  | loadProbes hosts =>
      simp only [step, Option.ite_none_right_eq_some, Option.some.injEq] at h
      rcases h with ⟨_, rfl⟩
      exact iff_of_true (followsFile_of_none (justParsed_loadProbes _ _ _)) trivial
  | sighup =>
      simp only [step, Option.ite_none_left_eq_some, Option.some.injEq] at h
      rcases h with ⟨_, rfl⟩
      exact iff_of_true (followsFile_of_none rfl) trivial

/-- Over a whole run, enumeration follows the file after every parse that goes through just when
each of them finds only names of its file registered. -/
theorem enumeration_follows_file (modules : Modules V) (watch : Bool) (actions : List (Action V)) :
    (∀ p ∈ Run.visited (step modules watch) init actions, p.FollowsFile) ↔
      Run.StepsMeet (step modules watch) (ParsesOver watch) init actions :=
  Run.visited_iff_stepsMeet (fun _ h => h)
    (fun _ _ _ _ hmeet hstep => (followsFile_step hstep).2 hmeet)
    (fun _ _ _ _ hmeet hstep => mt (followsFile_step hstep).1 hmeet)
    (followsFile_of_none rfl)

namespace Example

/-- `tcp_connect` with a `plugins` setting. -/
def pluginFile : ConfigData Nat :=
  Dict.empty.set "tcp_connect" (some (Dict.empty.set "plugins" 1))

def installed : Modules Nat where
  hasProbe := fun name => name = "tcp_connect"
  sourceipmap := fun settings => settings.get? "plugins" = some 1

/-- A start with the plugin, a restart by signal, and the parse of the same file. -/
def restartBySignal : List (Action Nat) :=
  [.parse .listed ["config.yml"] pluginFile,
    .loadProbes [Dict.empty.set "10.0.0.1" 7],
    .sighup,
    .parse .listed ["config.yml"] pluginFile]

end Example

/-- The namespace of the plugin is still registered after the restart, and is enumerated. -/
theorem plugin_namespace_enumerated :
    ∃ p ∈ Run.visited (step Example.installed false) init Example.restartBySignal,
      ¬ p.FollowsFile := by
  refine ⟨(Run.visited (step Example.installed false) init Example.restartBySignal).get
    ⟨3, by decide +kernel⟩, List.get_mem _ _, ?_⟩
  intro hfollows
  have hnames := (hfollows Example.pluginFile (by decide +kernel)).1.length_eq
  exact absurd hnames (by decide +kernel)

end Process

end Config

end PidtreeBcc
