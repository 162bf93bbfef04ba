import Mathlib.Data.List.Chain
import PidtreeBcc.Config.Restart

/-!
# Delivery — reloads and what the probes see of them

A probe starts with the configuration that `enumerate_probe_configs` yields, and reads later ones from
its change queue.  A reload compares the file with the namespaces only, so the probes are up to date as
long as the last configuration of each queue is the one in the namespace.

- a reload asks for a restart just when the version differs beyond the swappable settings;
- without one, namespace, queue and file agree for every probe, and nothing is put on a queue twice.
-/

namespace PidtreeBcc

open Support

namespace Config

variable {V : Type*} [DecidableEq V]

/-! ## Versions -/

/-- A version of the configuration file: its content, the sorted paths of the files it was read from,
and the order in which its probe names are visited. -/
structure Version (V : Type*) where
  data : ConfigData V
  files : List String
  order : IterOrder String
  hasProbe : probeKeys data ≠ []
  mappings : AllMappings data
  hasFile : files ≠ []

namespace Version

/-- The settings of a probe. -/
def settings (v : Version V) (key : String) : Settings V := ((v.data.get? key).join).getD Dict.empty

omit [DecidableEq V] in
theorem get?_data (v : Version V) {key : String} (h : key ∈ probeKeys v.data) :
    v.data.get? key = some (some (v.settings key)) := by
  rcases v.mappings key h with ⟨settings, hsettings⟩
  simp [Version.settings, hsettings]

/-- The set of probes, the files, or a setting that cannot be swapped is another one. -/
def Differs (prev v : Version V) : Prop :=
  (¬ ∀ name, name ∈ probeKeys v.data ↔ name ∈ probeKeys prev.data) ∨ v.files ≠ prev.files ∨
    ∃ key ∈ probeKeys v.data, key ∈ probeKeys prev.data ∧
      ¬ (nonHotswapSettings (v.settings key)).Same (nonHotswapSettings (prev.settings key))

end Version

/-! ## The parses of one process -/

/-- The registry, the version that is loaded, and what the probes were started with.  Nothing is loaded
before the first parse and after a parse that asked for a restart. -/
structure Watched (V : Type*) where
  registry : ConfigState V
  loaded : Option (Version V)
  startUp : List (String × Settings V × Option Nat)

namespace Watched

def init : Watched V := ⟨ConfigState.init, none, []⟩

/-- `parse_config` with `watch_config`: by the main thread, which then starts the probes, if nothing is
loaded, and by the watchdog otherwise. -/
def parse (w : Watched V) (v : Version V) : Option (Watched V) :=
  let r := parseConfig w.loaded.isNone v.order true v.files v.data w.registry
  match r.error with
  | some _ => none
  | none =>
      if r.restarted then some ⟨r.state, none, []⟩
      else some ⟨r.state, some v,
        if w.loaded.isNone then enumerateProbeConfigs r.state else w.startUp⟩

/-- The probe `key` was started with some settings and a queue; everything on the queue differs from
what came before it, and the last settings are those of the namespace. -/
def Views (startUp : List (String × Settings V × Option Nat)) (st : ConfigState V) (key : String) :
    Prop :=
  ∃ start queue puts, (key, start, some queue) ∈ startUp ∧
    st.callbacks.get? key = some (some queue) ∧ st.queues[queue]? = some puts ∧
    (start :: puts).IsChain (fun old new => ¬ new.Same old) ∧
    (puts.getLastD start).Same (st.configValues key)

/-- For every probe of the loaded version, what the probe saw last, the namespace and the file agree. -/
def Delivers (w : Watched V) : Prop :=
  ∀ v, w.loaded = some v → ∀ key ∈ probeKeys v.data,
    Views w.startUp w.registry key ∧ (w.registry.configValues key).Same (v.settings key)

/-- The next parse raises nothing, and a reload asks for a restart just when the version differs. -/
def Decides (w : Watched V) : Prop :=
  ∀ v, ∃ w', w.parse v = some w' ∧
    ∀ prev, w.loaded = some prev → (w'.loaded = none ↔ prev.Differs v)

/-- A version that is loaded at a start has no key for the reserved namespace. -/
def StartsUnreserved (w : Watched V) (v : Version V) : Prop :=
  w.loaded = none → ¬ ProbesOrFilesChanged v.files v.data w.registry →
    DEFAULT_NAMESPACE ∉ probeKeys v.data

end Watched

/-! ## One round, when every probe has a queue -/

theorem parseProbe_of_queue {key : String} {settings : Settings V} {queue : Nat}
    {st : ConfigState V} (hqueue : st.callbacks.get? key = some (some queue)) :
    parseProbe true key (some settings) st =
      if settings.Same (st.configValues key) then .next ((st.getNamespace key).load key settings)
      else if ¬ (nonHotswapSettings settings).Same (nonHotswapSettings (st.configValues key)) then
        .restart (st.getNamespace key).resetConfigState
      else .next (((st.getNamespace key).put queue settings).load key settings) := by
  simp only [parseProbe, ConfigState.callbacks_getNamespace, hqueue, if_true,
    ConfigState.configValues_getNamespace, storeProbe]

theorem parseProbe_of_new_eq {key : String} (settings : Settings V) {st : ConfigState V}
    (h : st.callbacks.get? key = none) :
    parseProbe true key (some settings) st =
      .next (((st.getNamespace key).addCallback true key).load key settings) := by
  simp only [parseProbe, ConfigState.callbacks_getNamespace, h, storeProbe]

omit [DecidableEq V] in
@[simp] theorem queues_getNamespace (name : String) (st : ConfigState V) :
    (st.getNamespace name).queues = st.queues := by
  unfold ConfigState.getNamespace
  cases st.namespaces.get? name <;> rfl

omit [DecidableEq V] in
theorem configValues_load (name name' : String) (settings : Settings V) (st : ConfigState V) :
    (st.load name settings).configValues name' =
      if name = name' then settings else st.configValues name' := by
  rw [ConfigState.configValues, ConfigState.get?_load]
  by_cases hname : name = name'
  · simp [hname]
  · simp [hname, ConfigState.configValues]

omit [DecidableEq V] in
theorem configValues_getNamespace_of_ne {key name : String} (h : key ≠ name) (st : ConfigState V) :
    (st.getNamespace key).configValues name = st.configValues name := by
  rw [ConfigState.configValues, get?_getNamespace_of_ne h, ConfigState.configValues]

/-- What a round that goes on does: the settings are stored, and put on the queue if they differ. -/
structure Forwarded (key : String) (settings : Settings V) (queue : Nat)
    (st st' : ConfigState V) : Prop where
  callbacks : st'.callbacks = st.callbacks
  queues : st'.queues = if settings.Same (st.configValues key) then st.queues
    else st.queues.modify queue fun puts => puts ++ [settings]
  values : ∀ name, st'.configValues name = if key = name then settings else st.configValues name

/-- A round asks for a restart just when a setting that cannot be swapped differs. -/
theorem parseProbe_queue_spec {key : String} (settings : Settings V) {queue : Nat}
    {st : ConfigState V} (hqueue : st.callbacks.get? key = some (some queue)) :
    match parseProbe true key (some settings) st with
    | .raised _ _ => False
    | .restart _ => ¬ (nonHotswapSettings settings).Same (nonHotswapSettings (st.configValues key))
    | .next st' => (nonHotswapSettings settings).Same (nonHotswapSettings (st.configValues key)) ∧
        Forwarded key settings queue st st' := by
  have hvalues : ∀ name, ((st.getNamespace key).load key settings).configValues name =
      if key = name then settings else st.configValues name := by
    intro name
    rw [configValues_load]
    by_cases hname : key = name
    · simp [hname]
    · rw [if_neg hname, if_neg hname, configValues_getNamespace_of_ne hname]
  rw [parseProbe_of_queue hqueue]
  by_cases hsame : settings.Same (st.configValues key)
  · rw [if_pos hsame]
    refine ⟨?_, ?_, ?_, hvalues⟩
    · intro name
      rw [nonHotswapSettings, nonHotswapSettings, Dict.get?_filterKeys, Dict.get?_filterKeys,
        hsame name]
    · exact ConfigState.callbacks_getNamespace key st
    · rw [if_pos hsame]
      exact queues_getNamespace key st
  · rw [if_neg hsame]
    by_cases hhot : (nonHotswapSettings settings).Same (nonHotswapSettings (st.configValues key))
    · rw [if_neg (not_not.2 hhot)]
      refine ⟨hhot, ?_, ?_, hvalues⟩
      · exact ConfigState.callbacks_getNamespace key st
      · rw [if_neg hsame, ← queues_getNamespace key st]
        rfl
    · rw [if_pos hhot]
      exact hhot

/-- No two probes share a queue. -/
def OwnQueues (st : ConfigState V) : Prop :=
  ∀ key key' queue, st.callbacks.get? key = some (some queue) →
    st.callbacks.get? key' = some (some queue) → key = key'

/-- A round keeps every probe's view up to date, and with it that of its own probe. -/
theorem Views.forward {startUp : List (String × Settings V × Option Nat)} {key name : String}
    {settings : Settings V} {queue : Nat} {st st' : ConfigState V}
    (hqueue : st.callbacks.get? key = some (some queue)) (hown : OwnQueues st)
    (hforward : Forwarded key settings queue st st') (h : Watched.Views startUp st name) :
    Watched.Views startUp st' name := by
  rcases h with ⟨start, queue', puts, hmem, hcallback, hputs, hchain, hlast⟩
  by_cases hname : key = name
  · subst hname
    have hEq : queue' = queue := by
      rw [hqueue] at hcallback
      exact (Option.some.inj (Option.some.inj hcallback)).symm
    subst hEq
    by_cases hsame : settings.Same (st.configValues key)
    · -- Nothing is put on the queue, and the settings are those that the probe has.
      refine ⟨start, queue', puts, hmem, hforward.callbacks ▸ hcallback, ?_, hchain, ?_⟩
      · rw [hforward.queues, if_pos hsame, hputs]
      · rw [hforward.values, if_pos rfl]
        exact hlast.trans hsame.symm
    · refine ⟨start, queue', puts ++ [settings], hmem, hforward.callbacks ▸ hcallback, ?_, ?_, ?_⟩
      · rw [hforward.queues, if_neg hsame, List.getElem?_modify_eq, hputs]
        rfl
      · rw [← List.cons_append]
        refine hchain.append (by simp) ?_
        intro old hold new hnew hEq
        have hnew' : settings = new := by simpa using hnew
        have hold' : puts.getLastD start = old := by
          rw [List.getLast?_cons] at hold
          simpa [List.getLastD_eq_getLast?] using hold
        subst hnew' hold'
        exact hsame (hEq.trans hlast)
      · rw [hforward.values, if_pos rfl]
        simpa using Dict.Same.refl settings
  · have hne : queue ≠ queue' := by
      rintro rfl
      exact hname (hown key name queue hqueue hcallback)
    refine ⟨start, queue', puts, hmem, hforward.callbacks ▸ hcallback, ?_, hchain, ?_⟩
    · rw [hforward.queues]
      by_cases hsame : settings.Same (st.configValues key)
      · rw [if_pos hsame, hputs]
      · rw [if_neg hsame, List.getElem?_modify_ne _ _ hne, hputs]
    · rw [hforward.values, if_neg hname]
      exact hlast

/-! ## The loop -/

/-- One of the probes has a setting that cannot be swapped and differs from what its namespace holds. -/
def NeedsRestart (data : ConfigData V) (keys : List String) (st : ConfigState V) : Prop :=
  ∃ key ∈ keys, ∃ settings, data.get? key = some (some settings) ∧
    ¬ (nonHotswapSettings settings).Same (nonHotswapSettings (st.configValues key))

omit [DecidableEq V] in
/-- The rounds after the first compare with namespaces that the first one left alone. -/
theorem needsRestart_cons {data : ConfigData V} {key : String} {rest : List String}
    {settings : Settings V} {st st' : ConfigState V} (hnot : key ∉ rest)
    (hdata : data.get? key = some (some settings))
    (hhot : (nonHotswapSettings settings).Same (nonHotswapSettings (st.configValues key)))
    (hvalues : ∀ name, st'.configValues name = if key = name then settings else st.configValues name) :
    NeedsRestart data (key :: rest) st ↔ NeedsRestart data rest st' := by
  have hsame : ∀ name ∈ rest, st'.configValues name = st.configValues name := by
    intro name hname
    rw [hvalues, if_neg]
    rintro rfl
    exact hnot hname
  constructor
  · rintro ⟨name, hname, settings', hdata', hdiffer⟩
    rcases List.mem_cons.1 hname with rfl | hname
    · rw [hdata] at hdata'
      cases hdata'
      exact absurd hhot hdiffer
    · exact ⟨name, hname, settings', hdata', (hsame name hname).symm ▸ hdiffer⟩
  · rintro ⟨name, hname, settings', hdata', hdiffer⟩
    exact ⟨name, List.mem_cons_of_mem key hname, settings', hdata', hsame name hname ▸ hdiffer⟩

/-- A loop over probes with queues raises nothing.  It asks for a restart just when a setting that cannot
be swapped differs, and otherwise keeps every view up to date. -/
theorem parseProbes_of_queues {data : ConfigData V} {keys : List String} :
    ∀ {st : ConfigState V}, keys.Nodup →
      (∀ key ∈ keys, ∃ settings, data.get? key = some (some settings)) →
      (∀ key ∈ keys, ∃ queue, st.callbacks.get? key = some (some queue)) → OwnQueues st →
      (parseProbes true data keys st).error = none ∧
        ((parseProbes true data keys st).restarted = true ↔ NeedsRestart data keys st) ∧
        ((parseProbes true data keys st).restarted = false →
          (parseProbes true data keys st).state.callbacks = st.callbacks ∧
          ∀ startUp name, Watched.Views startUp st name →
            Watched.Views startUp (parseProbes true data keys st).state name) := by
  induction keys with
  | nil =>
      intro st _ _ _ _
      simp [parseProbes, NeedsRestart]
  | cons key rest ih =>
      intro st hnodup hmappings hqueues hown
      have hcons := List.nodup_cons.1 hnodup
      rcases hmappings key (by simp) with ⟨settings, hdata⟩
      rcases hqueues key (by simp) with ⟨queue, hqueue⟩
      have hspec := parseProbe_queue_spec settings hqueue
      cases hstep : parseProbe true key (some settings) st with
      | raised st' err =>
          rw [hstep] at hspec
          exact hspec.elim
      | restart st' =>
          rw [hstep] at hspec
          have hloop : parseProbes true data (key :: rest) st = ⟨st', true, none⟩ := by
            simp [parseProbes, hdata, hstep]
          rw [hloop]
          refine ⟨rfl, ?_, by simp⟩
          exact iff_of_true rfl ⟨key, by simp, settings, hdata, hspec⟩
      | next st' =>
          rw [hstep] at hspec
          rcases hspec with ⟨hhot, hforward⟩
          rw [parseProbes_next hdata hstep]
          have hown' : OwnQueues st' := by
            unfold OwnQueues
            rw [hforward.callbacks]
            exact hown
          rcases ih hcons.2 (fun name hname => hmappings name (List.mem_cons_of_mem key hname))
            (fun name hname => hforward.callbacks ▸ hqueues name (List.mem_cons_of_mem key hname))
            hown' with ⟨herror, hrestarted, hkept⟩
          refine ⟨herror, ?_, ?_⟩
          · exact hrestarted.trans (needsRestart_cons hcons.1 hdata hhot hforward.values).symm
          · intro hfalse
            rcases hkept hfalse with ⟨hcallbacks, hviews⟩
            refine ⟨hcallbacks.trans hforward.callbacks, ?_⟩
            intro startUp name hname
            exact hviews startUp name (Views.forward hqueue hown hforward hname)

/-- Every callback has a queue, and nothing was put on it. -/
def Blank (st : ConfigState V) : Prop :=
  ∀ key callback, st.callbacks.get? key = some callback →
    ∃ queue, callback = some queue ∧ st.queues[queue]? = some []

omit [DecidableEq V] in
/-- A new callback has a new queue. -/
theorem Blank.addCallback {st : ConfigState V} (hblank : Blank st) (hown : OwnQueues st)
    (key : String) :
    Blank (st.addCallback true key) ∧ OwnQueues (st.addCallback true key) := by
  have hget : ∀ name, (st.addCallback true key).callbacks.get? name =
      if key = name then some (some st.queues.length) else st.callbacks.get? name :=
    fun name => Dict.get?_set _ _ _ _
  have hqueues : (st.addCallback true key).queues = st.queues ++ [[]] := rfl
  have hold : ∀ name queue, st.callbacks.get? name = some (some queue) → queue < st.queues.length := by
    intro name queue hname
    rcases hblank name _ hname with ⟨queue', hEq, hempty⟩
    cases hEq
    exact (List.getElem?_eq_some_iff.1 hempty).1
  constructor
  · intro name callback hname
    rw [hget] at hname
    by_cases hkey : key = name
    · rw [if_pos hkey] at hname
      refine ⟨st.queues.length, (Option.some.inj hname).symm, ?_⟩
      rw [hqueues, List.getElem?_concat_length]
    · rw [if_neg hkey] at hname
      rcases hblank name callback hname with ⟨queue, rfl, hempty⟩
      refine ⟨queue, rfl, ?_⟩
      rw [hqueues, List.getElem?_append_left (hold name queue hname)]
      exact hempty
  · intro name name' queue hname hname'
    rw [hget] at hname hname'
    by_cases hkey : key = name
    · by_cases hkey' : key = name'
      · exact hkey.symm.trans hkey'
      · rw [if_pos hkey] at hname
        rw [if_neg hkey'] at hname'
        cases hname
        exact absurd (hold name' _ hname') (lt_irrefl _)
    · rw [if_neg hkey] at hname
      by_cases hkey' : key = name'
      · rw [if_pos hkey'] at hname'
        cases hname'
        exact absurd (hold name _ hname) (lt_irrefl _)
      · rw [if_neg hkey'] at hname'
        exact hown name name' queue hname hname'

/-- A loop over probes without callbacks gives each of them a queue of its own. -/
theorem parseProbes_blank {data : ConfigData V} {keys : List String} :
    ∀ {st : ConfigState V}, keys.Nodup →
      (∀ key ∈ keys, ∃ settings, data.get? key = some (some settings)) →
      (∀ key ∈ keys, st.callbacks.get? key = none) → Blank st → OwnQueues st →
      Blank (parseProbes true data keys st).state ∧
        OwnQueues (parseProbes true data keys st).state := by
  induction keys with
  | nil => exact fun _ _ _ hblank hown => ⟨hblank, hown⟩
  | cons key rest ih =>
      intro st hnodup hmappings hnew hblank hown
      have hcons := List.nodup_cons.1 hnodup
      rcases hmappings key (by simp) with ⟨settings, hdata⟩
      rw [parseProbes_next hdata (parseProbe_of_new_eq settings (hnew key (by simp)))]
      have hblank' : Blank (st.getNamespace key) := by
        intro name callback hname
        rw [queues_getNamespace]
        exact hblank name callback (by simpa using hname)
      have hown' : OwnQueues (st.getNamespace key) := by
        unfold OwnQueues
        rw [ConfigState.callbacks_getNamespace]
        exact hown
      rcases hblank'.addCallback hown' key with ⟨hblank'', hown''⟩
      refine ih hcons.2 (fun name hname => hmappings name (List.mem_cons_of_mem key hname)) ?_
        hblank'' hown''
      intro name hname
      have hne : key ≠ name := by
        rintro rfl
        exact hcons.1 hname
      have hget : (((st.getNamespace key).addCallback true key).load key settings).callbacks.get? name
          = st.callbacks.get? name := by
        rw [← ConfigState.callbacks_getNamespace key st]
        exact Dict.get?_set_of_ne _ hne _
      rw [hget]
      exact hnew name (List.mem_cons_of_mem key hname)

/-! ## One parse -/

/-- A parse whose loop ends normally also stores the list of files. -/
theorem parseConfig_through {mainThread : Bool} {order : IterOrder String} {files : List String}
    {data : ConfigData V} {st : ConfigState V} (hsame : ¬ ProbesOrFilesChanged files data st)
    (herror : (parseProbes true data (order.run (probeKeys data)) st).error = none)
    (hrestarted : (parseProbes true data (order.run (probeKeys data)) st).restarted = false) :
    parseConfig mainThread order true files data st =
      ⟨{ (parseProbes true data (order.run (probeKeys data)) st).state with
          loadedFiles := some files }, false, none⟩ := by
  have hcond : ¬ (true && ((st.probeNames ≠ [] && namesDiffer (probeKeys data) st.probeNames) ||
      filesChanged st files)) = true := by
    simpa using mt probesOrFilesChanged_iff.1 hsame
  unfold parseConfig
  rw [if_neg hcond]
  simp [herror, hrestarted]

namespace Watched

/-- Before a start no probe has a callback.  Otherwise the registry holds the loaded version, every
probe's view is up to date, and no two probes share a queue. -/
structure Inv (w : Watched V) : Prop where
  idle : w.loaded = none → w.registry.callbacks = Dict.empty
  names : ∀ v, w.loaded = some v →
    ∀ name, name ∈ w.registry.probeNames ↔ name ∈ probeKeys v.data
  files : ∀ v, w.loaded = some v → w.registry.loadedFiles = some v.files
  values : ∀ v, w.loaded = some v →
    ∀ key ∈ probeKeys v.data, w.registry.configValues key = v.settings key
  views : ∀ v, w.loaded = some v →
    ∀ key ∈ probeKeys v.data, Views w.startUp w.registry key
  own : OwnQueues w.registry

omit [DecidableEq V] in
theorem Inv.of_idle {st : ConfigState V} (h : st.callbacks = Dict.empty) :
    (⟨st, none, []⟩ : Watched V).Inv where
  idle := fun _ => h
  names := by simp
  files := by simp
  values := by simp
  views := by simp
  own := by
    intro key key' queue hkey
    simp [h] at hkey

omit [DecidableEq V] in
theorem Inv.delivers {w : Watched V} (hinv : w.Inv) : w.Delivers := by
  intro v hv key hkey
  refine ⟨hinv.views v hv key hkey, ?_⟩
  rw [hinv.values v hv key hkey]
  exact Dict.Same.refl _

/-- The loop has loaded the version into the namespaces. -/
theorem configValues_of_loop {v : Version V} {st : ConfigState V}
    (herror : (parseProbes true v.data (v.order.run (probeKeys v.data)) st).error = none)
    (hrestarted : (parseProbes true v.data (v.order.run (probeKeys v.data)) st).restarted = false)
    {key : String} (hkey : key ∈ probeKeys v.data) :
    (parseProbes true v.data (v.order.run (probeKeys v.data)) st).state.configValues key =
      v.settings key := by
  have hget := (parseProbes_loaded (v.order.nodup_run (probeKeys_nodup v.data)) hrestarted
    herror).2.1 key
  rw [if_pos (v.order.mem_run.2 hkey), v.get?_data hkey] at hget
  rw [ConfigState.configValues, hget]
  rfl

/-- Other probes or other files: the parse asks for a restart at once. -/
theorem parse_of_changed {w : Watched V} {v : Version V}
    (hchanged : ProbesOrFilesChanged v.files v.data w.registry) :
    ∃ st, w.parse v = some ⟨st, none, []⟩ ∧ st.callbacks = Dict.empty := by
  refine ⟨(w.registry.dropNamespaces
    (w.registry.probeNames.filter (· ∉ probeKeys v.data))).resetConfigState, ?_, rfl⟩
  rw [parse, parseConfig_of_changed hchanged]
  rfl

/-! ### The parse at a start -/

/-- At a start every probe is new: nothing is raised, and the loop asks for no restart. -/
theorem loop_of_idle (v : Version V) {st : ConfigState V} (hidle : st.callbacks = Dict.empty) :
    (parseProbes true v.data (v.order.run (probeKeys v.data)) st).error = none ∧
      (parseProbes true v.data (v.order.run (probeKeys v.data)) st).restarted = false := by
  have hnew : ∀ key ∈ v.order.run (probeKeys v.data), key ∉ st.callbacks.keys := by
    intro key _
    simp [hidle]
  rcases parseProbes_of_new true v.data (v.order.nodup_run (probeKeys_nodup v.data)) hnew with
    ⟨hrestarted, herror⟩
  refine ⟨herror.2 ?_, hrestarted⟩
  intro key hkey
  exact v.mappings key (v.order.mem_run.1 hkey)

theorem parse_of_idle {w : Watched V} (hloaded : w.loaded = none)
    (hidle : w.registry.callbacks = Dict.empty) (v : Version V) :
    (ProbesOrFilesChanged v.files v.data w.registry ∧
        ∃ st, w.parse v = some ⟨st, none, []⟩ ∧ st.callbacks = Dict.empty) ∨
      (¬ ProbesOrFilesChanged v.files v.data w.registry ∧
        ∃ st, w.parse v = some ⟨st, some v, enumerateProbeConfigs st⟩ ∧
          st = { (parseProbes true v.data (v.order.run (probeKeys v.data)) w.registry).state with
            loadedFiles := some v.files }) := by
  by_cases hchanged : ProbesOrFilesChanged v.files v.data w.registry
  · left
    exact ⟨hchanged, parse_of_changed hchanged⟩
  · right
    rcases loop_of_idle v hidle with ⟨herror, hrestarted⟩
    refine ⟨hchanged, _, ?_, rfl⟩
    rw [parse, parseConfig_through hchanged herror hrestarted]
    simp [hloaded]

/-- The first parse leaves the namespaces of the probes of its version. -/
theorem mem_probeNames_of_start {w : Watched V} (hidle : w.registry.callbacks = Dict.empty) (v : Version V)
    (hchanged : ¬ ProbesOrFilesChanged v.files v.data w.registry)
    (hdefault : DEFAULT_NAMESPACE ∉ probeKeys v.data) {name : String} :
    name ∈ (parseProbes true v.data (v.order.run (probeKeys v.data)) w.registry).state.probeNames ↔
      name ∈ probeKeys v.data := by
  rcases loop_of_idle v hidle with ⟨herror, hrestarted⟩
  rcases parseProbes_loaded (v.order.nodup_run (probeKeys_nodup v.data)) hrestarted herror with
    ⟨_, hnamespaces, _⟩
  have hkeys : name ∈ (parseProbes true v.data (v.order.run (probeKeys v.data))
      w.registry).state.namespaces.keys ↔ name ∈ probeKeys v.data ∨ name ∈ w.registry.namespaces.keys := by
    rw [Dict.mem_keys_iff, Dict.mem_keys_iff]
    simp only [hnamespaces, IterOrder.mem_run]
    by_cases hname : name ∈ probeKeys v.data
    · simp [hname, v.get?_data hname]
    · simp [hname]
  rw [ConfigState.mem_probeNames, hkeys]
  constructor
  · rintro ⟨hname | hold, hlisted⟩
    · exact hname
    · -- A name that was registered before is one of the version, or the parse would have stopped.
      have hmem : name ∈ w.registry.probeNames := ConfigState.mem_probeNames.2 ⟨hold, hlisted⟩
      by_contra hnot
      refine hchanged (Or.inl ⟨List.ne_nil_of_mem hmem, ?_⟩)
      exact fun hsame => hnot ((hsame name).2 hmem)
  · intro hname
    refine ⟨Or.inl hname, ?_⟩
    intro hreserved
    exact hdefault (eq_default_of_reserved (mem_probeKeys.1 hname).2 hreserved ▸ hname)

/-- A start with a version that has no key for the reserved namespace gives every probe its settings
and a queue. -/
theorem inv_of_start {w : Watched V} (hidle : w.registry.callbacks = Dict.empty) (v : Version V)
    (hchanged : ¬ ProbesOrFilesChanged v.files v.data w.registry)
    (hdefault : DEFAULT_NAMESPACE ∉ probeKeys v.data) :
    let st : ConfigState V :=
      { (parseProbes true v.data (v.order.run (probeKeys v.data)) w.registry).state with
        loadedFiles := some v.files }
    (⟨st, some v, enumerateProbeConfigs st⟩ : Watched V).Inv := by
  intro st
  rcases loop_of_idle v hidle with ⟨herror, hrestarted⟩
  have hnodup := v.order.nodup_run (probeKeys_nodup v.data)
  rcases parseProbes_loaded hnodup hrestarted herror with ⟨hmappings, _, hcallbacks⟩
  have hblank : Blank st ∧ OwnQueues st := by
    refine parseProbes_blank hnodup hmappings ?_ ?_ ?_
    · intro key _
      simp [hidle]
    · intro key callback hkey
      simp [hidle] at hkey
    · intro key key' queue hkey
      simp [hidle] at hkey
  have hnames : ∀ name, name ∈ st.probeNames ↔ name ∈ probeKeys v.data :=
    fun name => mem_probeNames_of_start hidle v hchanged hdefault
  refine ⟨by simp, ?_, ?_, ?_, ?_, hblank.2⟩
  · intro v' hv'
    cases hv'
    exact hnames
  · intro v' hv'
    cases hv'
    rfl
  · intro v' hv' key hkey
    cases hv'
    exact configValues_of_loop herror hrestarted hkey
  · intro v' hv' key hkey
    cases hv'
    have hcallback : key ∈ st.callbacks.keys := (hcallbacks key).2 (Or.inl (v.order.mem_run.2 hkey))
    rcases Dict.mem_keys_iff.1 hcallback with ⟨callback, hget⟩
    rcases hblank.1 key callback hget with ⟨queue, rfl, hempty⟩
    refine ⟨st.configValues key, queue, [], ?_, hget, hempty, by simp, Dict.Same.refl _⟩
    exact List.mem_map.2 ⟨key, (hnames key).2 hkey, by rw [hget]; rfl⟩

omit [DecidableEq V] in
/-- A key for the reserved namespace is loaded, but no probe is started for it. -/
theorem not_delivers_of_reserved {v : Version V} {st : ConfigState V}
    (hdefault : DEFAULT_NAMESPACE ∈ probeKeys v.data) :
    ¬ (⟨st, some v, enumerateProbeConfigs st⟩ : Watched V).Delivers := by
  intro hdelivers
  rcases (hdelivers v rfl _ hdefault).1 with ⟨start, queue, puts, hmem, _⟩
  rcases List.mem_map.1 hmem with ⟨name, hname, hEq⟩
  have hEq' : name = DEFAULT_NAMESPACE := congrArg Prod.fst hEq
  refine (ConfigState.mem_probeNames.1 hname).2 ?_
  rw [hEq']
  decide

/-! ### A reload -/

section Reload

variable {w : Watched V} {prev : Version V}

omit [DecidableEq V] in
/-- The checks before the loop compare the version with the loaded one. -/
theorem Inv.probesOrFilesChanged_iff (hinv : w.Inv) (hloaded : w.loaded = some prev)
    (v : Version V) :
    ProbesOrFilesChanged v.files v.data w.registry ↔
      (¬ ∀ name, name ∈ probeKeys v.data ↔ name ∈ probeKeys prev.data) ∨ v.files ≠ prev.files := by
  have hnames := hinv.names prev hloaded
  have hne : w.registry.probeNames ≠ [] := by
    intro hnil
    rcases List.exists_mem_of_ne_nil _ prev.hasProbe with ⟨key, hkey⟩
    have hmem := (hnames key).2 hkey
    simp [hnil] at hmem
  have hfiles : filesChanged w.registry v.files = true ↔ v.files ≠ prev.files := by
    simp only [filesChanged, hinv.files prev hloaded, Bool.and_eq_true, decide_eq_true_eq]
    rw [and_iff_right prev.hasFile]
    exact ne_comm
  rw [ProbesOrFilesChanged, hfiles, and_iff_right hne]
  simp only [hnames]

/-- The loop over the probes of a version with the names of the loaded one. -/
theorem Inv.loop_spec (hinv : w.Inv) (hloaded : w.loaded = some prev) {v : Version V}
    (hkeys : ∀ name, name ∈ probeKeys v.data ↔ name ∈ probeKeys prev.data) :
    let r := parseProbes true v.data (v.order.run (probeKeys v.data)) w.registry
    r.error = none ∧
      (r.restarted = true ↔ ∃ key ∈ probeKeys v.data, key ∈ probeKeys prev.data ∧
        ¬ (nonHotswapSettings (v.settings key)).Same (nonHotswapSettings (prev.settings key))) ∧
      (r.restarted = false → r.state.callbacks = w.registry.callbacks ∧
        ∀ startUp name, Views startUp w.registry name → Views startUp r.state name) := by
  have hqueues : ∀ key ∈ v.order.run (probeKeys v.data),
      ∃ queue, w.registry.callbacks.get? key = some (some queue) := by
    intro key hkey
    have hprev := (hkeys key).1 (v.order.mem_run.1 hkey)
    rcases hinv.views prev hloaded key hprev with ⟨_, queue, _, _, hcallback, _⟩
    exact ⟨queue, hcallback⟩
  rcases parseProbes_of_queues (v.order.nodup_run (probeKeys_nodup v.data))
    (fun key hkey => v.mappings key (v.order.mem_run.1 hkey)) hqueues hinv.own with
    ⟨herror, hrestarted, hkept⟩
  refine ⟨herror, hrestarted.trans ⟨?_, ?_⟩, hkept⟩
  · -- The namespaces hold the settings of the loaded version.
    rintro ⟨key, hkey, settings, hdata, hhot⟩
    have hkey' := v.order.mem_run.1 hkey
    have hprev := (hkeys key).1 hkey'
    rw [v.get?_data hkey'] at hdata
    cases hdata
    rw [hinv.values prev hloaded key hprev] at hhot
    exact ⟨key, hkey', hprev, hhot⟩
  · rintro ⟨key, hkey, hprev, hhot⟩
    refine ⟨key, v.order.mem_run.2 hkey, v.settings key, v.get?_data hkey, ?_⟩
    rwa [hinv.values prev hloaded key hprev]

omit [DecidableEq V] in
/-- With the same names and files, a version can only differ in a setting. -/
theorem differs_iff_of_same {v : Version V}
    (hkeys : ∀ name, name ∈ probeKeys v.data ↔ name ∈ probeKeys prev.data)
    (hfiles : v.files = prev.files) :
    prev.Differs v ↔ ∃ key ∈ probeKeys v.data, key ∈ probeKeys prev.data ∧
      ¬ (nonHotswapSettings (v.settings key)).Same (nonHotswapSettings (prev.settings key)) := by
  simp [Version.Differs, hkeys, hfiles]

/-- A setting that cannot be swapped is another one: the loop asks for a restart. -/
theorem parse_of_restarted {v : Version V}
    (hsame : ¬ ProbesOrFilesChanged v.files v.data w.registry)
    (herror : (parseProbes true v.data (v.order.run (probeKeys v.data)) w.registry).error = none)
    (hrestarted :
      (parseProbes true v.data (v.order.run (probeKeys v.data)) w.registry).restarted = true) :
    ∃ st, w.parse v = some ⟨st, none, []⟩ ∧ st.callbacks = Dict.empty := by
  rcases parseConfig_of_same w.loaded.isNone v.order (fun _ : true = true => hsame) with
    ⟨hrestarted', herror', _, hcallbacks', _⟩
  rcases parseProbes_restarted (v.order.nodup_run (probeKeys_nodup v.data)) hrestarted with
    ⟨_, _, _, _, _, _, hempty, _⟩
  refine ⟨_, ?_, hcallbacks'.trans hempty⟩
  rw [parse]
  simp only [herror', herror, hrestarted', hrestarted, if_true]

/-- The loop has gone through: the registry holds the version, and every probe has seen it. -/
theorem Inv.of_loop (hinv : w.Inv) (hloaded : w.loaded = some prev) {v : Version V}
    (hkeys : ∀ name, name ∈ probeKeys v.data ↔ name ∈ probeKeys prev.data)
    (hrestarted :
      (parseProbes true v.data (v.order.run (probeKeys v.data)) w.registry).restarted = false) :
    (⟨{ (parseProbes true v.data (v.order.run (probeKeys v.data)) w.registry).state with
      loadedFiles := some v.files }, some v, w.startUp⟩ : Watched V).Inv := by
  rcases hinv.loop_spec hloaded hkeys with ⟨herror, _, hkept⟩
  rcases hkept hrestarted with ⟨hcallbacks, hviews⟩
  rcases parseProbes_loaded (v.order.nodup_run (probeKeys_nodup v.data)) hrestarted herror with
    ⟨_, hnamespaces, _⟩
  refine ⟨by simp, ?_, ?_, ?_, ?_, ?_⟩
  · intro v' hv' name
    cases hv'
    have hname := hinv.names prev hloaded name
    rw [ConfigState.mem_probeNames, Dict.mem_keys_iff] at hname ⊢
    simp only [hnamespaces, IterOrder.mem_run]
    by_cases hkey : name ∈ probeKeys v.data
    · have hprev := hname.2 ((hkeys name).1 hkey)
      simp [hkey, v.get?_data hkey, hprev.2]
    · rw [if_neg hkey, hname, ← hkeys name]
  · intro v' hv'
    cases hv'
    rfl
  · intro v' hv' key hkey
    cases hv'
    exact configValues_of_loop herror hrestarted hkey
  · intro v' hv' key hkey
    cases hv'
    exact hviews w.startUp key (hinv.views prev hloaded key ((hkeys key).1 hkey))
  · -- The loop adds no callback.
    intro key key' queue hkey hkey'
    change (parseProbes true v.data (v.order.run (probeKeys v.data))
      w.registry).state.callbacks.get? key = _ at hkey
    change (parseProbes true v.data (v.order.run (probeKeys v.data))
      w.registry).state.callbacks.get? key' = _ at hkey'
    rw [hcallbacks] at hkey hkey'
    exact hinv.own key key' queue hkey hkey'

/-- What a reload does, from a state that holds a version. -/
theorem parse_of_loaded (hinv : w.Inv) (hloaded : w.loaded = some prev) (v : Version V) :
    ∃ w', w.parse v = some w' ∧ w'.Inv ∧ (w'.loaded = none ↔ prev.Differs v) := by
  by_cases hchanged : ProbesOrFilesChanged v.files v.data w.registry
  · -- The probes or the files are others.
    rcases parse_of_changed hchanged with ⟨st, hparse, hidle⟩
    refine ⟨_, hparse, Inv.of_idle hidle, iff_of_true rfl ?_⟩
    rcases (hinv.probesOrFilesChanged_iff hloaded v).1 hchanged with hkeys | hfiles
    · exact Or.inl hkeys
    · exact Or.inr (Or.inl hfiles)
  · have hsame : (∀ name, name ∈ probeKeys v.data ↔ name ∈ probeKeys prev.data) ∧
        v.files = prev.files := by
      simpa only [not_or, not_not] using mt (hinv.probesOrFilesChanged_iff hloaded v).2 hchanged
    rcases hinv.loop_spec hloaded hsame.1 with ⟨herror, hrestarted, _⟩
    have hdiffers := hrestarted.trans (differs_iff_of_same hsame.1 hsame.2).symm
    cases hloop : (parseProbes true v.data (v.order.run (probeKeys v.data))
        w.registry).restarted with
    | true =>
        rcases parse_of_restarted hchanged herror hloop with ⟨st, hparse, hidle⟩
        exact ⟨_, hparse, Inv.of_idle hidle, iff_of_true rfl (hdiffers.1 hloop)⟩
    | false =>
        have hnot : ¬ prev.Differs v := by
          intro hdiffer
          simp [hdiffers.2 hdiffer] at hloop
        refine ⟨_, ?_, hinv.of_loop hloaded hsame.1 hloop, iff_of_false (by simp) hnot⟩
        rw [parse, parseConfig_through hchanged herror hloop]
        simp [hloaded]

end Reload

/-! ## All versions -/

theorem Inv.decides {w : Watched V} (hinv : w.Inv) : w.Decides := by
  intro v
  cases hloaded : w.loaded with
  | none =>
      rcases parse_of_idle hloaded (hinv.idle hloaded) v with ⟨_, st, hparse, _⟩ | ⟨_, st, hparse, _⟩
      · exact ⟨_, hparse, by simp⟩
      · exact ⟨_, hparse, by simp⟩
  | some prev =>
      rcases parse_of_loaded hinv hloaded v with ⟨w', hparse, _, hdiffers⟩
      refine ⟨w', hparse, ?_⟩
      intro prev' hprev
      cases hprev
      exact hdiffers

theorem Inv.parse {w w' : Watched V} {v : Version V} (hinv : w.Inv) (hstart : w.StartsUnreserved v)
    (h : w.parse v = some w') : w'.Inv := by
  cases hloaded : w.loaded with
  | none =>
      rcases parse_of_idle hloaded (hinv.idle hloaded) v with ⟨_, st, hparse, hst⟩ | ⟨hsame, st, hparse, rfl⟩
      · rw [hparse] at h
        cases h
        exact Inv.of_idle hst
      · rw [hparse] at h
        cases h
        exact inv_of_start (hinv.idle hloaded) v hsame (hstart hloaded hsame)
  | some prev =>
      rcases parse_of_loaded hinv hloaded v with ⟨w₁, hparse, hinv', _⟩
      rw [hparse] at h
      cases h
      exact hinv'

/-- Whatever versions are parsed one after the other, in whatever order the probe names are visited:
every parse decides on the restart as it should, and delivers, just when no version that is loaded at a
start has a key for the reserved namespace. -/
theorem reloads_delivered_iff (versions : List (Version V)) :
    (∀ w ∈ Run.visited parse init versions, w.Decides ∧ w.Delivers) ↔
      Run.StepsMeet parse StartsUnreserved init versions := by
  refine Run.visited_iff_stepsMeet (I := fun w : Watched V => w.Inv)
    (fun w hinv => ⟨hinv.decides, hinv.delivers⟩) ?_ ?_ (Inv.of_idle rfl)
  · intro w v w' hinv hstart h
    exact hinv.parse hstart h
  · intro w v w' hinv hnot h
    simp only [StartsUnreserved, Classical.not_imp, not_not] at hnot
    rcases hnot with ⟨hloaded, hsame, hdefault⟩
    rcases parse_of_idle hloaded (hinv.idle hloaded) v with ⟨hchanged, _⟩ | ⟨_, st, hparse, _⟩
    · exact absurd hchanged hsame
    · rw [hparse] at h
      cases h
      exact fun hboth => not_delivers_of_reserved hdefault hboth.2

/-! ### A file with a key for the reserved namespace -/

namespace Example

def reservedFile : ConfigData Nat :=
  (Dict.empty.set "tcp_connect" (some Dict.empty)).set DEFAULT_NAMESPACE (some Dict.empty)

def reserved : Version Nat where
  data := reservedFile
  files := ["config.yml"]
  order := .listed
  hasProbe := by decide +kernel
  mappings := by
    intro key hkey
    rw [show probeKeys reservedFile = ["tcp_connect", "DEFAULT"] by decide +kernel] at hkey
    rcases List.mem_cons.1 hkey with rfl | hkey
    · exact ⟨Dict.empty, by decide +kernel⟩
    · rcases List.mem_singleton.1 hkey with rfl
      exact ⟨Dict.empty, by decide +kernel⟩
  hasFile := by simp

end Example

omit [DecidableEq V] in
theorem not_differs_self (v : Version V) : ¬ v.Differs v := by
  rintro (hkeys | hfiles | ⟨key, _, _, hhot⟩)
  · exact hkeys fun _ => Iff.rfl
  · exact hfiles rfl
  · exact hhot (Dict.Same.refl _)

/-- The unchanged file asks for a restart. -/
theorem unchanged_file_restarts :
    ∃ w ∈ Run.visited parse init [Example.reserved], w.loaded = some Example.reserved ∧
      ¬ Example.reserved.Differs Example.reserved ∧
      ∃ w', w.parse Example.reserved = some w' ∧ w'.loaded = none := by
  refine ⟨_, List.mem_singleton_self _, rfl, not_differs_self _, ?_⟩
  exact ⟨_, rfl, rfl⟩

end Watched

end Config

end PidtreeBcc
