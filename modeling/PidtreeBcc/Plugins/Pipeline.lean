import PidtreeBcc.NetListen.Snapshot
import PidtreeBcc.Plugins.Sourceipmap

/-!
# Pipeline — from the dictionary of an event to the output

`_process_events` enriches an event, adds the metadata, sends the event through the plugins of the probe and
puts what comes out on the output.  The plugins change the event in place; an exception of one of them loses
the event.  The source map looks at its host files for each event, and loses it when one of them has changed and
cannot be read.
-/

namespace PidtreeBcc

open Support

namespace Plugins

/-! ## Events -/

/-- A value of an event: a number, a string, or the process tree. -/
inductive EventValue
  | num (n : Nat)
  | text (s : String)
  | proctree (procs : List NetListen.TreeProcess)
  deriving DecidableEq, Repr

abbrev EventDict := Dict String EventValue

/-- What the outside answers while one event is processed: process trees and logins, the clock, and the names
of the containers.  `textLogin` is for a process id that is no number. -/
structure Reading extends NetListen.Outside where
  textLogin : String → Option (Nat × String)
  timestamp : String
  names : Dict Nat String
  /-- What `reload_if_changed` comes to, for the watchers by position: nothing is done, the file is there to
  be loaded, or the check or the reading raises. -/
  checks : Nat → Except PyErr (Option Mapfile)

/-! ## Plugins -/

/-- The plugins of the repository, with their parameters and state. -/
inductive Plugin
  | identity
  | loginuidMap (topLevel : Bool)
  | sourceipmap (plugin : Sourceipmap)

/-- `_get_loginuid`, where no directory has the name of a list. -/
def getLoginuid (r : Reading) : EventValue → Option (Nat × String)
  | .num pid => r.login pid
  | .text s => r.textLogin s
  | .proctree _ => none

def processTl (r : Reading) (event : EventDict) : Except PyErr EventDict :=
  match event.get? "pid" with
  | none => .error (.builtin .KeyError)
  | some pid =>
      match getLoginuid r pid with
      | none => .ok event
      | some (loginuid, username) =>
          .ok ((event.set "loginuid" (.num loginuid)).set "loginname" (.text username))

def processPt (r : Reading) (event : EventDict) : Except PyErr EventDict :=
  match event.get? "proctree" with
  | none => .error (.builtin .KeyError)
  -- A number cannot be iterated over, and the characters of a string have no keys.
  | some (.num _) => .error (.builtin .TypeError)
  | some (.text s) => if s = "" then .ok event else .error (.builtin .TypeError)
  | some (.proctree procs) =>
      .ok (event.set "proctree" (.proctree (NetListen.addLogins r.toOutside procs)))

/-- `self.config.read_string(saddr, '')`, where the keys of the configuration are strings. -/
def sourceName (plugin : Sourceipmap) : EventValue → Except PyErr String
  | .text saddr => .ok (readString plugin.config saddr)
  | .num _ => .ok ""
  | .proctree _ => .error (.builtin .TypeError)

def processSourceipmap (plugin : Sourceipmap) (event : EventDict) : Except PyErr EventDict :=
  match event.get? "saddr" with
  | none => .ok event
  | some saddr => (sourceName plugin saddr).map fun name => event.set plugin.attributeKey (.text name)

/-- The loop over the watchers in `process`.  What was loaded before an exception stays loaded. -/
def checkWatchers : (Nat → Except PyErr (Option Mapfile)) → List Watcher → Dict String String →
    Dict String String × Except PyErr Unit
  | _, [], config => (config, .ok ())
  | checks, _ :: watchers, config =>
      match checks 0 with
      | .error err => (config, .error err)
      | .ok none => checkWatchers (fun i => checks (i + 1)) watchers config
      | .ok (some mapfile) =>
          checkWatchers (fun i => checks (i + 1)) watchers (config.merge (hostsLoader mapfile))

/-- `process`; the source map looks at its files first. -/
def Plugin.process (r : Reading) : Plugin → EventDict → Plugin × Except PyErr EventDict
  | .identity, event => (.identity, .ok event)
  | .loginuidMap true, event => (.loginuidMap true, processTl r event)
  | .loginuidMap false, event => (.loginuidMap false, processPt r event)
  | .sourceipmap plugin, event =>
      let checked := checkWatchers r.checks plugin.configWatchers plugin.config
      let plugin' := { plugin with config := checked.1 }
      match checked.2 with
      | .error err => (.sourceipmap plugin', .error err)
      | .ok () => (.sourceipmap plugin', processSourceipmap plugin' event)

/-- The plugins one after the other; those behind an exception do not run. -/
def runPlugins (r : Reading) : List Plugin → EventDict → List Plugin × Except PyErr EventDict
  | [], event => ([], .ok event)
  | plugin :: rest, event =>
      match plugin.process r event with
      | (plugin', .error err) => (plugin' :: rest, .error err)
      | (plugin', .ok event') =>
          let after := runPlugins r rest event'
          (plugin' :: after.1, after.2)

def addEventMetadata (r : Reading) (probeName : String) (event : EventDict) : EventDict :=
  (event.set "timestamp" (.text r.timestamp)).set "probe" (.text probeName)

/-- `_process_events` after the enrichment: the plugins, and the event that is put on the output. -/
def processEvents (r : Reading) (probeName : String) (plugins : List Plugin)
    (enriched : Except PyErr (Option EventDict)) : List Plugin × Except PyErr (Option EventDict) :=
  match enriched with
  | .error err => (plugins, .error err)
  | .ok none => (plugins, .ok none)
  | .ok (some event) =>
      -- An empty dictionary is false, like `None`.
      if event.entries = [] then (plugins, .ok none)
      else
        let processed := runPlugins r plugins (addEventMetadata r probeName event)
        (processed.1, processed.2.map some)

/-- The events of a probe one after the other, each with what the outside answers for it.  The output has
those that came through. -/
def outputOf (probeName : String) {α : Type*} (enrich : Reading → α → Except PyErr (Option EventDict)) :
    List Plugin → List (α × Reading) → List EventDict
  | _, [] => []
  | plugins, (raw, r) :: rest =>
      let processed := processEvents r probeName plugins (enrich r raw)
      let later := outputOf probeName enrich processed.1 rest
      match processed.2 with
      | .ok (some event) => event :: later
      -- An event whose processing raises is not put out, and the next one goes on.
      | _ => later

/-! ## Checks of the host files -/

/-- The checks of a session whose files can be read. -/
def Session.checks (st : Session) (due : Nat → Bool) (i : Nat) : Except PyErr (Option Mapfile) :=
  match st.plugin.configWatchers[i]? with
  | some watcher => .ok (if due i && watcher.modified then some (st.files watcher.filename) else none)
  | none => .ok none

/-- With files that can be read, the loop is that of the session. -/
theorem checkWatchers_of_readable (files : Files) :
    ∀ {watchers : List Watcher} {due : Nat → Bool} {checks : Nat → Except PyErr (Option Mapfile)}
      {config : Dict String String},
      (∀ i watcher, watchers[i]? = some watcher →
        checks i = .ok (if due i && watcher.modified then some (files watcher.filename) else none)) →
      checkWatchers checks watchers config = ((reloadAll files due watchers config).2, .ok ())
  | [], _, _, _, _ => rfl
  | watcher :: watchers, due, checks, config, h => by
      have hrest : ∀ config', checkWatchers (fun i => checks (i + 1)) watchers config' =
          ((reloadAll files (fun i => due (i + 1)) watchers config').2, .ok ()) := fun config' =>
        checkWatchers_of_readable files fun i other hother => h (i + 1) other (by simpa using hother)
      have hfirst := h 0 watcher rfl
      by_cases hreload : (due 0 && watcher.modified) = true
      · rw [if_pos hreload] at hfirst
        simp [checkWatchers, reloadAll, Watcher.reloadIfChanged, hfirst, hreload, hrest]
      · rw [if_neg hreload] at hfirst
        simp [checkWatchers, reloadAll, Watcher.reloadIfChanged, hfirst, hreload, hrest]

/-- The plugin of a session gives an event of the pipeline the name that it gives the events of the session. -/
theorem process_session (st : Session) (due : Nat → Bool) {r : Reading} (hchecks : r.checks = st.checks due)
    (event : EventDict) :
    ((Plugin.sourceipmap st.plugin).process r event).2 =
      processSourceipmap (st.plugin.reload st.files due) event := by
  have hloop : checkWatchers (st.checks due) st.plugin.configWatchers st.plugin.config =
      ((reloadAll st.files due st.plugin.configWatchers st.plugin.config).2, .ok ()) := by
    refine checkWatchers_of_readable st.files fun i watcher hwatcher => ?_
    simp [Session.checks, hwatcher]
  simp [Plugin.process, hchecks, hloop, processSourceipmap, sourceName, Sourceipmap.reload]

/-- No check of a host file of the plugin raises. -/
def Plugin.reloads (r : Reading) : Plugin → Bool
  | .sourceipmap plugin => (List.range plugin.configWatchers.length).all fun i => (r.checks i).isOk
  | _ => true

theorem checkWatchers_isOk :
    ∀ (watchers : List Watcher) (checks : Nat → Except PyErr (Option Mapfile))
      (config : Dict String String),
      (checkWatchers checks watchers config).2.isOk =
        (List.range watchers.length).all fun i => (checks i).isOk
  | [], _, _ => rfl
  | _ :: watchers, checks, config => by
      have hrest := checkWatchers_isOk watchers fun i => checks (i + 1)
      rw [List.length_cons, List.range_succ_eq_map, List.all_cons, List.all_map]
      unfold checkWatchers
      rcases hfirst : checks 0 with err | _ | mapfile
      · rfl
      · exact (hrest config).trans (Bool.true_and _).symm
      · exact (hrest (config.merge (hostsLoader mapfile))).trans (Bool.true_and _).symm

/-- The watchers stay as they were loaded. -/
theorem Plugin.reloads_process (r r' : Reading) (plugin : Plugin) (event : EventDict) :
    (plugin.process r event).1.reloads r' = plugin.reloads r' := by
  rcases plugin with _ | (_ | _) | plugin
  · rfl
  · rfl
  · rfl
  · simp only [Plugin.process]
    split <;> rfl

/-- A check that raises loses the event. -/
theorem Plugin.process_fails {r : Reading} {plugin : Plugin} (h : plugin.reloads r = false)
    (event : EventDict) : ∃ err, (plugin.process r event).2 = .error err := by
  rcases plugin with _ | topLevel | plugin
  · cases h
  · cases h
  · rw [Plugin.reloads, ← checkWatchers_isOk _ _ plugin.config] at h
    rcases hloop : checkWatchers r.checks plugin.configWatchers plugin.config with ⟨config, err | _⟩
    · exact ⟨err, by simp [Plugin.process, hloop]⟩
    · rw [hloop] at h
      cases h

/-- No check of a host file raises, for any of the plugins. -/
def allReload (r : Reading) (plugins : List Plugin) : Bool := plugins.all fun plugin => plugin.reloads r

theorem allReload_runPlugins (r r' : Reading) :
    ∀ (plugins : List Plugin) (event : EventDict),
      allReload r' (runPlugins r plugins event).1 = allReload r' plugins
  | [], _ => rfl
  | plugin :: rest, event => by
      have hfirst := plugin.reloads_process r r' event
      rcases hprocess : plugin.process r event with ⟨plugin', err | event'⟩
      · rw [hprocess] at hfirst
        simp [runPlugins, hprocess, allReload, hfirst]
      · have hrest := allReload_runPlugins r r' rest event'
        rw [hprocess] at hfirst
        simpa [runPlugins, hprocess, allReload, hfirst] using congrArg (plugin.reloads r' && ·) hrest

theorem allReload_processEvents (r r' : Reading) (probeName : String) (plugins : List Plugin)
    (enriched : Except PyErr (Option EventDict)) :
    allReload r' (processEvents r probeName plugins enriched).1 = allReload r' plugins := by
  rcases enriched with err | _ | event
  · rfl
  · rfl
  · unfold processEvents
    by_cases hempty : event.entries = []
    · simp [hempty]
    · simpa [hempty] using allReload_runPlugins r r' plugins _

/-! ## What the plugins leave alone -/

/-- The keys that the plugins of the repository add beside the one of the source map. -/
def LOGIN_KEYS : List String := ["loginuid", "loginname"]

/-- The plugin writes none of the keys. -/
def Plugin.Spares (keys : List String) : Plugin → Prop
  | .sourceipmap plugin => plugin.attributeKey ∉ keys
  | _ => True

instance (keys : List String) : (plugin : Plugin) → Decidable (plugin.Spares keys)
  | .identity => isTrue trivial
  | .loginuidMap _ => isTrue trivial
  | .sourceipmap plugin => inferInstanceAs (Decidable (plugin.attributeKey ∉ keys))

/-- The process tree without the logins that were added. -/
def treeOf (event : EventDict) : Option (List Udp.ProcessInfo) :=
  match event.get? "proctree" with
  | some (.proctree procs) => some (procs.map (·.info))
  | _ => none

/-- An event that the plugins can work on: it has a process id and a process tree. -/
structure Workable (event : EventDict) : Prop where
  pid : ∃ pid, event.get? "pid" = some pid
  tree : ∃ procs, event.get? "proctree" = some (.proctree procs)
  saddr : ∀ procs, event.get? "saddr" ≠ some (.proctree procs)

/-- Nothing that was there under the keys is changed, and the tree has the same processes. -/
structure Kept (keys : List String) (event event' : EventDict) : Prop where
  values : ∀ key ∈ keys, key ≠ "proctree" → event'.get? key = event.get? key
  tree : treeOf event' = treeOf event

theorem Kept.refl (keys : List String) (event : EventDict) : Kept keys event event :=
  ⟨fun _ _ _ => rfl, rfl⟩

theorem Kept.trans {keys : List String} {event event' event'' : EventDict}
    (h : Kept keys event event') (h' : Kept keys event' event'') : Kept keys event event'' :=
  ⟨fun key hkey hne => (h'.values key hkey hne).trans (h.values key hkey hne), h'.tree.trans h.tree⟩

theorem treeOf_set_of_ne {key : String} (h : key ≠ "proctree") (event : EventDict) (v : EventValue) :
    treeOf (event.set key v) = treeOf event := by
  simp [treeOf, Dict.get?_set_of_ne _ h]

/-- A write of another key keeps the tree and the values under the keys. -/
theorem kept_set {keys : List String} {key : String} (hkey : key ∉ keys) (htree : key ≠ "proctree")
    (event : EventDict) (v : EventValue) : Kept keys event (event.set key v) := by
  refine ⟨?_, treeOf_set_of_ne htree event v⟩
  intro key' hmem _
  refine Dict.get?_set_of_ne event ?_ v
  rintro rfl
  exact hkey hmem

theorem info_addLogins (w : NetListen.Outside) (procs : List NetListen.TreeProcess) :
    (NetListen.addLogins w procs).map (·.info) = procs.map (·.info) := by
  induction procs with
  | nil => rfl
  | cons proc rest ih =>
      unfold NetListen.addLogins
      split
      · rfl
      · simp [ih]

/-- A workable event stays workable when its keys are kept. -/
theorem Workable.of_kept {keys : List String} {event event' : EventDict}
    (h : Workable event) (hkept : Kept keys event event') (hpid : "pid" ∈ keys)
    (hsaddr : "saddr" ∈ keys) : Workable event' := by
  refine ⟨?_, ?_, ?_⟩
  · rw [hkept.values "pid" hpid (by decide)]
    exact h.pid
  · rcases h.tree with ⟨procs, hprocs⟩
    have htree : treeOf event' = some (procs.map (·.info)) := by
      rw [hkept.tree]
      simp [treeOf, hprocs]
    unfold treeOf at htree
    split at htree
    · rename_i procs' hprocs'
      exact ⟨procs', hprocs'⟩
    · cases htree
  · rw [hkept.values "saddr" hsaddr (by decide)]
    exact h.saddr

section Keys

variable {keys : List String} (hlogin : ∀ key ∈ LOGIN_KEYS, key ∉ keys)
include hlogin

theorem processTl_keeps {r : Reading} {event : EventDict} (h : Workable event) :
    ∃ event', processTl r event = .ok event' ∧ Kept keys event event' := by
  rcases h.pid with ⟨pid, hpid⟩
  unfold processTl
  simp only [hpid]
  cases getLoginuid r pid with
  | none => exact ⟨event, rfl, Kept.refl keys event⟩
  | some login =>
      refine ⟨_, rfl, ?_⟩
      have huid := kept_set (hlogin "loginuid" (by decide)) (by decide) event (.num login.1)
      exact huid.trans (kept_set (hlogin "loginname" (by decide)) (by decide) _ _)

omit hlogin in
theorem processPt_keeps {r : Reading} {event : EventDict} (h : Workable event) :
    ∃ event', processPt r event = .ok event' ∧ Kept keys event event' := by
  rcases h.tree with ⟨procs, hprocs⟩
  refine ⟨event.set "proctree" (.proctree (NetListen.addLogins r.toOutside procs)), ?_, ?_, ?_⟩
  · simp [processPt, hprocs]
  · intro key _ hne
    exact Dict.get?_set_of_ne _ (Ne.symm hne) _
  · simp [treeOf, hprocs, info_addLogins]

omit hlogin in
theorem processSourceipmap_keeps {plugin : Sourceipmap} {event : EventDict} (h : Workable event)
    (hkey : plugin.attributeKey ∉ keys) (htree : "proctree" ∈ keys) :
    ∃ event', processSourceipmap plugin event = .ok event' ∧ Kept keys event event' := by
  have hne : plugin.attributeKey ≠ "proctree" := fun hEq => hkey (hEq ▸ htree)
  unfold processSourceipmap
  cases hsaddr : event.get? "saddr" with
  | none => exact ⟨event, rfl, Kept.refl keys event⟩
  | some saddr =>
      cases saddr with
      | num n => exact ⟨_, rfl, kept_set hkey hne event _⟩
      | text s => exact ⟨_, rfl, kept_set hkey hne event _⟩
      | proctree procs => exact absurd hsaddr (h.saddr procs)

/-- A plugin that spares the keys of an event and has no trouble with its files neither fails on it nor changes
it there. -/
theorem Plugin.process_keeps {r : Reading} {plugin : Plugin} {event : EventDict} (h : Workable event)
    (hspares : plugin.Spares keys) (htree : "proctree" ∈ keys) (hreloads : plugin.reloads r = true) :
    ∃ event', (plugin.process r event).2 = .ok event' ∧ Kept keys event event' := by
  cases plugin with
  | identity => exact ⟨event, rfl, Kept.refl keys event⟩
  | loginuidMap topLevel =>
      cases topLevel with
      | true => exact processTl_keeps hlogin h
      | false => exact processPt_keeps h
  | sourceipmap plugin =>
      rw [Plugin.reloads, ← checkWatchers_isOk _ _ plugin.config] at hreloads
      rcases hloop : checkWatchers r.checks plugin.configWatchers plugin.config with ⟨config, err | _⟩
      · rw [hloop] at hreloads
        cases hreloads
      · have hkey : ({ plugin with config := config } : Sourceipmap).attributeKey ∉ keys := hspares
        simpa [Plugin.process, hloop] using processSourceipmap_keeps h hkey htree

/-- Plugins that spare the keys of an event bring it through, unchanged there, unless a host file gives trouble;
then they lose it. -/
theorem runPlugins_keeps (hpid : "pid" ∈ keys) (htree : "proctree" ∈ keys) (hsaddr : "saddr" ∈ keys)
    {r : Reading} :
    ∀ {plugins : List Plugin} {event : EventDict}, Workable event →
      (∀ plugin ∈ plugins, plugin.Spares keys) →
      if allReload r plugins then
        ∃ event', (runPlugins r plugins event).2 = .ok event' ∧ Kept keys event event'
      else ∃ err, (runPlugins r plugins event).2 = .error err
  | [], event, _, _ => ⟨event, rfl, Kept.refl keys event⟩
  | plugin :: rest, event, h, hspares => by
      cases hreloads : plugin.reloads r with
      | false =>
          rcases plugin.process_fails hreloads event with ⟨err, herr⟩
          rcases hprocess : plugin.process r event with ⟨plugin', result⟩
          rw [hprocess] at herr
          cases herr
          simp [allReload, hreloads, runPlugins, hprocess]
      | true =>
          rcases plugin.process_keeps hlogin h (hspares plugin (by simp)) htree hreloads with
            ⟨event', hrun, hkept⟩
          have hrest := runPlugins_keeps hpid htree hsaddr (r := r) (h.of_kept hkept hpid hsaddr)
            fun p hp => hspares p (List.mem_cons_of_mem plugin hp)
          have hallowed : allReload r (plugin :: rest) = allReload r rest := by
            simp [allReload, hreloads]
          rcases hprocess : plugin.process r event with ⟨plugin', result⟩
          rw [hprocess] at hrun
          cases hrun
          have hresult : (runPlugins r (plugin :: rest) event).2 = (runPlugins r rest event').2 := by
            simp [runPlugins, hprocess]
          rw [hallowed, hresult]
          split
          · rename_i hrun
            rw [if_pos hrun] at hrest
            rcases hrest with ⟨event'', hrest, hkept'⟩
            exact ⟨event'', hrest, hkept.trans hkept'⟩
          · rename_i hrun
            rwa [if_neg hrun] at hrest

/-- Where enrichment leaves a workable event, plugins that spare its keys bring it to the output with its
metadata, or lose it over a host file. -/
theorem processEvents_keeps (hpid : "pid" ∈ keys) (htree : "proctree" ∈ keys) (hsaddr : "saddr" ∈ keys)
    (r : Reading) (probeName : String) {plugins : List Plugin} {event : EventDict} (h : Workable event)
    (hspares : ∀ plugin ∈ plugins, plugin.Spares keys) :
    if allReload r plugins then
      ∃ event', (processEvents r probeName plugins (.ok (some event))).2 = .ok (some event') ∧
        Kept keys (addEventMetadata r probeName event) event'
    else ∃ err, (processEvents r probeName plugins (.ok (some event))).2 = .error err := by
  have hsome : event.entries ≠ [] := by
    rcases h.pid with ⟨pid, hget⟩
    intro hempty
    simp [Dict.get?, hempty] at hget
  have hmeta : Workable (addEventMetadata r probeName event) := by
    refine ⟨?_, ?_, ?_⟩
    · simpa [addEventMetadata, Dict.get?_set] using h.pid
    · simpa [addEventMetadata, Dict.get?_set] using h.tree
    · simpa [addEventMetadata, Dict.get?_set] using h.saddr
  have hrun := runPlugins_keeps hlogin hpid htree hsaddr (r := r) hmeta hspares
  split
  · rename_i hallowed
    rw [if_pos hallowed] at hrun
    rcases hrun with ⟨event', hrun, hkept⟩
    exact ⟨event', by simp [processEvents, hsome, hrun, Except.map], hkept⟩
  · rename_i hallowed
    rw [if_neg hallowed] at hrun
    rcases hrun with ⟨err, hrun⟩
    exact ⟨err, by simp [processEvents, hsome, hrun, Except.map]⟩

end Keys

theorem Plugin.spares_process {keys : List String} {plugin : Plugin} (h : plugin.Spares keys) (r : Reading)
    (event : EventDict) : (plugin.process r event).1.Spares keys := by
  rcases plugin with _ | (_ | _) | plugin
  · exact h
  · exact h
  · exact h
  · simp only [Plugin.process]
    split <;> exact h

theorem spares_runPlugins {keys : List String} (r : Reading) :
    ∀ {plugins : List Plugin} {event : EventDict}, (∀ plugin ∈ plugins, plugin.Spares keys) →
      ∀ plugin ∈ (runPlugins r plugins event).1, plugin.Spares keys
  | [], _, _ => by simp [runPlugins]
  | plugin :: rest, event, h => by
      have hfirst := Plugin.spares_process (h plugin (by simp)) r event
      have hlater : ∀ p ∈ rest, p.Spares keys := fun p hp => h p (List.mem_cons_of_mem plugin hp)
      rcases hprocess : plugin.process r event with ⟨plugin', err | event'⟩
      · rw [hprocess] at hfirst
        simpa [runPlugins, hprocess] using ⟨hfirst, hlater⟩
      · rw [hprocess] at hfirst
        simpa [runPlugins, hprocess] using ⟨hfirst, spares_runPlugins r hlater⟩

theorem spares_processEvents {keys : List String} (r : Reading) (probeName : String) {plugins : List Plugin}
    (enriched : Except PyErr (Option EventDict)) (h : ∀ plugin ∈ plugins, plugin.Spares keys) :
    ∀ plugin ∈ (processEvents r probeName plugins enriched).1, plugin.Spares keys := by
  rcases enriched with err | _ | event
  · exact h
  · exact h
  · unfold processEvents
    by_cases hempty : event.entries = []
    · simpa [hempty] using h
    · simpa [hempty] using spares_runPlugins r h

/-- When plugins that spare the keys bring through every event that they do not lose over a host file, the output
has one for each of these, in their order. -/
theorem forall₂_outputOf {α γ : Type*} {keys : List String} {probeName : String} {raw : γ → α}
    {enrich : Reading → α → Except PyErr (Option EventDict)} {P : γ × Reading → EventDict → Prop}
    {inputs : List (γ × Reading)}
    (hstep : ∀ x ∈ inputs, ∀ plugins : List Plugin, (∀ plugin ∈ plugins, plugin.Spares keys) →
      if allReload x.2 plugins then
        ∃ event, (processEvents x.2 probeName plugins (enrich x.2 (raw x.1))).2 = .ok (some event) ∧ P x event
      else ∃ err, (processEvents x.2 probeName plugins (enrich x.2 (raw x.1))).2 = .error err) :
    ∀ {plugins : List Plugin}, (∀ plugin ∈ plugins, plugin.Spares keys) →
      List.Forall₂ P (inputs.filter fun x => allReload x.2 plugins)
        (outputOf probeName enrich plugins (inputs.map (Prod.map raw id))) := by
  induction inputs with
  | nil => exact fun _ => List.Forall₂.nil
  | cons x rest ih =>
      intro plugins hspares
      have hfirst := hstep x (by simp) plugins hspares
      have hrest := ih (fun y hy => hstep y (List.mem_cons_of_mem x hy))
        (spares_processEvents x.2 probeName (enrich x.2 (raw x.1)) hspares)
      -- What the plugins of the rest lose is what those of the beginning would.
      simp only [allReload_processEvents] at hrest
      cases hallowed : allReload x.2 plugins with
      | true =>
          rw [if_pos hallowed] at hfirst
          rcases hfirst with ⟨event, hevent, hP⟩
          simpa [outputOf, hevent, hallowed] using ⟨hP, hrest⟩
      | false =>
          rw [if_neg (by simp [hallowed])] at hfirst
          rcases hfirst with ⟨err, herr⟩
          simpa [outputOf, herr, hallowed] using hrest

end Plugins

end PidtreeBcc
