import PidtreeBcc.Config.Delivery
import PidtreeBcc.Config.Process
import PidtreeBcc.Probes.InitialLoad

/-!
# LiveReload — from a changed configuration file to the maps in the kernel

The main process parses the file again and again, and puts changed settings on the queues of the probes.
Each probe is a process with two threads: one loads the filters for the first time, the other takes the
changes from the queue.  The steps of all of them interleave, and a parse may ask for a restart, after which
the probes are started anew.

- the probes that run are those of the file, and each of them has been told its settings;
- its threads come to rest after finitely many steps, and then its maps hold what a fresh start with the
  settings in the file would load.

The settings here are those that concern filters, so no plugin registers a namespace of its own.
-/

namespace PidtreeBcc

open Support

/-! ## What a reload puts on the queues -/

namespace Config

variable {V : Type*} [DecidableEq V]

/-- A loop that asks for no restart puts on the queue of a probe nothing but its settings. -/
theorem parseProbes_puts {data : ConfigData V} {keys : List String} :
    ∀ {st : ConfigState V}, keys.Nodup →
      (∀ key ∈ keys, ∃ settings, data.get? key = some (some settings)) →
      (∀ key ∈ keys, ∃ queue, st.callbacks.get? key = some (some queue)) → OwnQueues st →
      (parseProbes true data keys st).restarted = false →
      ∀ {name : String} {queue : Nat} {puts : List (Settings V)},
        st.callbacks.get? name = some (some queue) → st.queues[queue]? = some puts →
          ∃ new, (parseProbes true data keys st).state.queues[queue]? = some (puts ++ new) ∧
            ∀ settings ∈ new, data.get? name = some (some settings) := by
  induction keys with
  | nil =>
      intro st _ _ _ _ _ name queue puts _ hputs
      exact ⟨[], by simpa [parseProbes] using hputs, by simp⟩
  | cons key rest ih =>
      intro st hnodup hmappings hqueues hown hrestarted name queue puts hname hputs
      have hcons := List.nodup_cons.1 hnodup
      rcases hmappings key (by simp) with ⟨settings, hdata⟩
      rcases hqueues key (by simp) with ⟨queue', hqueue'⟩
      have hspec := parseProbe_queue_spec settings hqueue'
      cases hstep : parseProbe true key (some settings) st with
      | raised st' err =>
          rw [hstep] at hspec
          exact hspec.elim
      | restart st' => simp [parseProbes, hdata, hstep] at hrestarted
      | next st' =>
          rw [hstep] at hspec
          rcases hspec with ⟨_, hforward⟩
          rw [parseProbes_next hdata hstep] at hrestarted ⊢
          have hown' : OwnQueues st' := by
            unfold OwnQueues
            rw [hforward.callbacks]
            exact hown
          have hfirst : ∃ new, st'.queues[queue]? = some (puts ++ new) ∧
              ∀ settings ∈ new, data.get? name = some (some settings) := by
            rw [hforward.queues]
            by_cases hsame : settings.Same (st.configValues key)
            · exact ⟨[], by simpa [hsame] using hputs, by simp⟩
            · rw [if_neg hsame]
              by_cases hEq : queue' = queue
              · subst hEq
                have hkey : key = name := hown key name queue' hqueue' hname
                refine ⟨[settings], ?_, by simpa [← hkey] using hdata⟩
                rw [List.getElem?_modify_eq, hputs]
                rfl
              · refine ⟨[], ?_, by simp⟩
                rw [List.getElem?_modify_ne _ _ hEq, hputs, List.append_nil]
          rcases hfirst with ⟨new, hnew, hall⟩
          rcases ih hcons.2 (fun name hname => hmappings name (List.mem_cons_of_mem key hname))
            (fun name hname => hforward.callbacks ▸ hqueues name (List.mem_cons_of_mem key hname))
            hown' hrestarted (hforward.callbacks ▸ hname) hnew with ⟨new', hnew', hall'⟩
          refine ⟨new ++ new', by rw [hnew', List.append_assoc], ?_⟩
          intro c hc
          exact (List.mem_append.1 hc).elim (hall c) (hall' c)

namespace Watched

/-- A reload that asks for no restart: the same probes, their queues, and only their settings on them. -/
structure Reloaded (w w' : Watched V) (prev v : Version V) : Prop where
  loaded : w'.loaded = some v
  startUp : w'.startUp = w.startUp
  callbacks : w'.registry.callbacks = w.registry.callbacks
  keys : ∀ name, name ∈ probeKeys v.data ↔ name ∈ probeKeys prev.data
  puts : ∀ {name : String} {queue : Nat} {puts : List (Settings V)},
    w.registry.callbacks.get? name = some (some queue) → w.registry.queues[queue]? = some puts →
      ∃ new, w'.registry.queues[queue]? = some (puts ++ new) ∧
        ∀ settings ∈ new, v.data.get? name = some (some settings)

theorem Inv.reloaded {w w' : Watched V} {prev v : Version V} (hinv : w.Inv)
    (hloaded : w.loaded = some prev) (h : w.parse v = some w') (hkept : w'.loaded ≠ none) :
    w.Reloaded w' prev v := by
  by_cases hchanged : ProbesOrFilesChanged v.files v.data w.registry
  · rcases parse_of_changed hchanged with ⟨st, hparse, _⟩
    rw [hparse] at h
    cases h
    exact absurd rfl hkept
  · have hsame : (∀ name, name ∈ probeKeys v.data ↔ name ∈ probeKeys prev.data) ∧
        v.files = prev.files := by
      simpa only [not_or, not_not] using mt (hinv.probesOrFilesChanged_iff hloaded v).2 hchanged
    rcases hinv.loop_spec hloaded hsame.1 with ⟨herror, _, hquiet⟩
    cases hloop : (parseProbes true v.data (v.order.run (probeKeys v.data)) w.registry).restarted with
    | true =>
        rcases parse_of_restarted hchanged herror hloop with ⟨st, hparse, _⟩
        rw [hparse] at h
        cases h
        exact absurd rfl hkept
    | false =>
        have hqueues : ∀ key ∈ v.order.run (probeKeys v.data),
            ∃ queue, w.registry.callbacks.get? key = some (some queue) := by
          intro key hkey
          have hprev := (hsame.1 key).1 (v.order.mem_run.1 hkey)
          rcases hinv.views prev hloaded key hprev with ⟨_, queue, _, _, hcallback, _⟩
          exact ⟨queue, hcallback⟩
        rw [Watched.parse, parseConfig_through hchanged herror hloop] at h
        simp only [Bool.false_eq_true, if_false, hloaded, Option.isNone_some, Option.some.injEq] at h
        subst h
        refine ⟨rfl, rfl, (hquiet hloop).1, hsame.1, ?_⟩
        intro name queue puts hname hputs
        exact parseProbes_puts (v.order.nodup_run (probeKeys_nodup v.data))
          (fun key hkey => v.mappings key (v.order.mem_run.1 hkey)) hqueues hinv.own hloop hname hputs

/-- A parse at a start, with nothing on the queues yet. -/
structure FirstParse (w' : Watched V) (v : Version V) : Prop where
  loaded : w'.loaded = some v
  startUp : w'.startUp = enumerateProbeConfigs w'.registry
  blank : Blank w'.registry

theorem Inv.firstParse {w w' : Watched V} {v : Version V} (hinv : w.Inv) (hloaded : w.loaded = none)
    (h : w.parse v = some w') (hkept : w'.loaded ≠ none) : FirstParse w' v := by
  have hidle := hinv.idle hloaded
  rcases parse_of_idle hloaded hidle v with ⟨_, st, hparse, _⟩ | ⟨_, st, hparse, rfl⟩
  · rw [hparse] at h
    cases h
    exact absurd rfl hkept
  · rw [hparse] at h
    cases h
    refine ⟨rfl, rfl, ?_⟩
    exact (parseProbes_blank (v.order.nodup_run (probeKeys_nodup v.data))
      (fun key hkey => v.mappings key (v.order.mem_run.1 hkey)) (by simp [hidle])
      (by simp [Blank, hidle]) (by simp [OwnQueues, hidle])).1

end Watched

end Config

/-! ## The processes -/

namespace Probes

/-- The probe class in the module of that name. -/
def Probe.ofName : String → Option Probe
  | "tcp_connect" => some .tcpConnect
  | "udp_session" => some .udpSession
  | "net_listen" => some .netListen
  | _ => none

/-- The process of a probe, with the queue of its configuration changes. -/
structure Worker where
  probe : Probe
  queue : Option Nat
  state : PollState

/-- One item of `load_probes`; `none` is an exception, which ends the main process. -/
def loadProbe (e : Endian) (entry : String × ProbeConfig × Option Nat) : Option (String × Worker) :=
  match Probe.ofName entry.1 with
  | none => none
  | some probe =>
      match probe.buildProbeConfig e entry.2.1 false with
      | .error _ => none
      | .ok (built, userland) =>
          some (entry.1, ⟨probe, entry.2.2, PollState.init built userland entry.2.1⟩)

/-- `load_probes`. -/
def loadProbes (e : Endian) (entries : List (String × ProbeConfig × Option Nat)) :
    Option (Dict String Worker) :=
  ((entries.filter fun entry => Config.isProbeKey entry.1).mapM (loadProbe e)).map Dict.empty.update

/-- The settings that a parse has put on a queue. -/
def newPuts (old new : Config.ConfigState Setting) (queue : Option Nat) : List ProbeConfig :=
  match queue with
  | none => []
  | some queue => ((new.queues[queue]?).getD []).drop ((old.queues[queue]?).getD []).length

/-- The settings arrive at the probe. -/
def Worker.receive (w : Worker) (cs : List ProbeConfig) : Worker :=
  { w with state := { w.state with
      queue := w.state.queue ++ cs
      last := cs.getLastD w.state.last } }

/-- A step of the threads of a probe, on whose queue only a parse puts. -/
def threadStep (e : Endian) (probe : Probe) (s : PollState) : Action → Option PollState
  | .put _ => none
  | a => PollState.step e probe s a

/-- The main process and the probes. -/
structure Live where
  watched : Config.Watched Setting
  workers : Dict String Worker

inductive Event
  | parse (v : Config.Version Setting)
  | work (name : String) (a : Action)

namespace Live

def init : Live := ⟨Config.Watched.init, Dict.empty⟩

/-- A parse at a start is followed by the start of the probes, and one that asks for a restart by their
end. -/
def step (e : Endian) (s : Live) : Event → Option Live
  | .parse v =>
      match s.watched.parse v with
      | none => none
      | some watched =>
          if watched.loaded.isNone then some ⟨watched, Dict.empty⟩
          else if s.watched.loaded.isNone then
            (loadProbes e watched.startUp).map fun workers => ⟨watched, workers⟩
          else
            some ⟨watched, s.workers.mapValues fun w =>
              w.receive (newPuts s.watched.registry watched.registry w.queue)⟩
  | .work name a =>
      match s.workers.get? name with
      | none => none
      | some w =>
          (threadStep e w.probe w.state a).map fun state =>
            { s with workers := s.workers.set name { w with state := state } }

end Live

/-- Each probe of the file exists and starts with its settings. -/
def VersionLoadable (e : Endian) (v : Config.Version Setting) : Prop :=
  ∀ key ∈ Config.probeKeys v.data, ∃ probe, Probe.ofName key = some probe ∧
    Loadable e probe (v.settings key)

/-- A version that is parsed loads, without a key for the reserved namespace at a start; and a load fits. -/
def Live.Meets (e : Endian) (s : Live) : Event → Prop
  | .parse v => VersionLoadable e v ∧ s.watched.StartsUnreserved v
  | .work name a => ∀ w, s.workers.get? name = some w → PollState.Fits e w.state a

/-! ## The threads of one probe come to rest -/

def PollerPhase.stepsLeft : PollerPhase → Nat
  | waiting => 0
  | got _ => 5
  | netAssigned _ => 4
  | assigned _ => 3
  | built => 2
  | netLoaded => 1

def MainPhase.stepsLeft : MainPhase → Nat
  | starting => 2
  | netLoaded => 1
  | polling => 0
  | crashed => 0

namespace PollState

/-- A bound on the steps that the threads can take before the next parse. -/
def stepsLeft (s : PollState) : Nat := 6 * s.queue.length + s.poller.stepsLeft + s.main.stepsLeft

section Threads

variable {e : Endian} {probe : Probe} {s s' : PollState} {a : Action}

theorem step_of_threadStep (h : threadStep e probe s a = some s') : PollState.step e probe s a = some s' := by
  cases a with
  | put c => cases h
  | _ => exact h

theorem putsLoadable_of_threadStep (h : threadStep e probe s a = some s') : PutsLoadable e probe a := by
  cases a with
  | put c => cases h
  | _ => trivial

/-- A step leaves the last settings alone and shortens what is left to do. -/
theorem threadStep_spec (h : threadStep e probe s a = some s') :
    s'.last = s.last ∧ s'.stepsLeft < s.stepsLeft := by
  cases a with
  | put c => cases h
  | get =>
      rcases step_get (step_of_threadStep h) with ⟨c, rest, hpoller, hqueue, rfl⟩
      refine ⟨rfl, ?_⟩
      simp only [stepsLeft, hpoller, hqueue, PollerPhase.stepsLeft, List.length_cons]
      omega
  | assignNet =>
      simp only [threadStep, PollState.step] at h
      split at h
      · rename_i c hpoller
        split at h <;> cases h <;> simp [stepsLeft, hpoller, PollerPhase.stepsLeft]
      · cases h
  | assignGlobal =>
      rcases step_assignGlobal (step_of_threadStep h) with ⟨c, hpoller, rfl⟩
      simp [stepsLeft, hpoller, PollerPhase.stepsLeft]
  | finishBuild =>
      simp only [threadStep, PollState.step] at h
      split at h
      · rename_i c hpoller
        split at h <;> cases h <;> simp [stepsLeft, hpoller, PollerPhase.stepsLeft]
      · cases h
  | pollerNet order =>
      simp only [threadStep, PollState.step] at h
      split at h
      · rename_i hpoller
        split at h
        · split at h <;> cases h <;> simp [stepsLeft, hpoller, PollerPhase.stepsLeft]
        · cases h
      · cases h
  | pollerPorts order =>
      rcases step_pollerPorts (step_of_threadStep h) with ⟨hpoller, rfl⟩
      simp [stepsLeft, hpoller, PollerPhase.stepsLeft]
  | mainNet order =>
      simp only [threadStep, PollState.step] at h
      split at h
      · rename_i hmain
        split at h
        · split at h <;> cases h <;> simp [stepsLeft, hmain, MainPhase.stepsLeft]
        · cases h
      · cases h
  | mainPorts order =>
      simp only [threadStep, PollState.step] at h
      split at h
      · rename_i hmain
        split at h <;> cases h <;> simp [stepsLeft, hmain, MainPhase.stepsLeft]
      · cases h

/-- No deadlock: the thread that holds the mutex can go on, and if none does, either of them can. -/
theorem progress (e : Endian) (probe : Probe) (hlive : s.main ≠ .crashed) (hnot : ¬ s.Settled) :
    ∃ a s', threadStep e probe s a = some s' := by
  by_cases hheld : s.poller = .netLoaded
  · refine ⟨.pollerPorts .listed, ?_⟩
    simp only [threadStep, PollState.step, hheld]
    exact ⟨_, rfl⟩
  · cases hmain : s.main with
    | starting =>
        have hfree : s.mutexFree = true := by
          cases hpoller : s.poller <;> simp_all [mutexFree]
        refine ⟨.mainNet .listed, ?_⟩
        simp only [threadStep, PollState.step, hmain, hfree, if_true]
        split <;> exact ⟨_, rfl⟩
    | netLoaded =>
        refine ⟨.mainPorts .listed, ?_⟩
        simp only [threadStep, PollState.step, hmain]
        split <;> exact ⟨_, rfl⟩
    | crashed => exact absurd hmain hlive
    | polling =>
        cases hpoller : s.poller with
        | waiting =>
            cases hqueue : s.queue with
            | nil => exact absurd ⟨hmain, hpoller, hqueue⟩ hnot
            | cons c rest =>
                refine ⟨.get, ?_⟩
                simp only [threadStep, PollState.step, hpoller, hqueue]
                exact ⟨_, rfl⟩
        | got c =>
            refine ⟨.assignNet, ?_⟩
            simp only [threadStep, PollState.step, hpoller]
            split <;> exact ⟨_, rfl⟩
        | netAssigned c =>
            refine ⟨.assignGlobal, ?_⟩
            simp only [threadStep, PollState.step, hpoller]
            exact ⟨_, rfl⟩
        | assigned c =>
            refine ⟨.finishBuild, ?_⟩
            simp only [threadStep, PollState.step, hpoller]
            split <;> exact ⟨_, rfl⟩
        | built =>
            have hfree : s.mutexFree = true := by simp [mutexFree, hmain, hpoller]
            refine ⟨.pollerNet .listed, ?_⟩
            simp only [threadStep, PollState.step, hpoller, hfree, if_true]
            split <;> exact ⟨_, rfl⟩
        | netLoaded => exact absurd hpoller hheld

theorem threadStep_of_settled (e : Endian) (probe : Probe) (h : s.Settled) (a : Action) :
    threadStep e probe s a = none := by
  rcases h with ⟨hmain, hpoller, hqueue⟩
  cases a <;> simp [threadStep, PollState.step, hmain, hpoller, hqueue]

/-- With settings that load, the first load does not end the process. -/
theorem Inv.not_crashed {c : ProbeConfig} (hs : Inv e probe c s) (hlive : s.main ≠ .crashed)
    (hfits : Fits e s a) (h : threadStep e probe s a = some s') : s'.main ≠ .crashed := by
  cases a with
  | put c => cases h
  | mainNet order =>
      rcases hs.netFilters_load hfits with ⟨filters, items, hlist, hitems, hcanonical, hroom⟩
      rcases load_fresh_normal order hitems hcanonical hs.normal hroom with ⟨herror, _⟩
      rw [← loadNetFilters_eq hlist] at herror
      rcases step_mainNet (step_of_threadStep h) herror with ⟨_, _, rfl⟩
      simp
  | mainPorts order =>
      rcases hs.global with ⟨c₁, hc₁, hglobal₁⟩
      have herror := hc₁.globalFilters order s.probe.portFilterMap false
      rw [← hglobal₁] at herror
      rcases step_mainPorts (step_of_threadStep h) herror with ⟨_, rfl⟩
      simp
  | get =>
      rcases step_get (step_of_threadStep h) with ⟨c, rest, _, _, rfl⟩
      exact hlive
  | pollerPorts order =>
      rcases step_pollerPorts (step_of_threadStep h) with ⟨_, rfl⟩
      exact hlive
  | assignNet | assignGlobal | finishBuild | pollerNet order =>
      simp only [threadStep, PollState.step] at h
      repeat' split at h
      all_goals first
        | cases h
          exact hlive
        | cases h

end Threads

end PollState

/-! ## The start of the probes -/

theorem loadProbe_eq_some {e : Endian} {entry : String × ProbeConfig × Option Nat} {name : String}
    {w : Worker} (h : loadProbe e entry = some (name, w)) :
    entry.1 = name ∧ Probe.ofName name = some w.probe ∧ w.queue = entry.2.2 ∧
      ∃ built userland, w.probe.buildProbeConfig e entry.2.1 false = .ok (built, userland) ∧
        w.state = PollState.init built userland entry.2.1 := by
  unfold loadProbe at h
  cases hprobe : Probe.ofName entry.1 with
  | none => simp [hprobe] at h
  | some probe =>
      cases hbuilt : probe.buildProbeConfig e entry.2.1 false with
      | error err => simp [hprobe, hbuilt] at h
      | ok result =>
          simp only [hprobe, hbuilt, Option.some.injEq, Prod.mk.injEq] at h
          rcases h with ⟨rfl, rfl⟩
          exact ⟨rfl, hprobe, rfl, result.1, result.2, hbuilt, rfl⟩

theorem loadProbes_pairs {e : Endian} :
    ∀ {entries : List (String × ProbeConfig × Option Nat)} {pairs : List (String × Worker)},
      entries.mapM (loadProbe e) = some pairs →
        pairs.map Prod.fst = entries.map Prod.fst ∧
          ∀ pair ∈ pairs, ∃ entry ∈ entries, loadProbe e entry = some pair := by
  intro entries
  induction entries with
  | nil =>
      intro pairs h
      cases h
      exact ⟨rfl, by simp⟩
  | cons entry entries ih =>
      intro pairs h
      rw [List.mapM_cons] at h
      rcases Option.bind_eq_some_iff.1 h with ⟨pair, hpair, hrest⟩
      rcases Option.bind_eq_some_iff.1 hrest with ⟨pairs', hpairs', hEq⟩
      cases hEq
      rcases ih hpairs' with ⟨hnames, hall⟩
      refine ⟨?_, ?_⟩
      · rw [List.map_cons, List.map_cons, hnames, (loadProbe_eq_some hpair).1]
      · intro pair' hmem
        rcases List.mem_cons.1 hmem with rfl | hmem
        · exact ⟨entry, by simp, hpair⟩
        · rcases hall pair' hmem with ⟨entry', hentry', hload⟩
          exact ⟨entry', List.mem_cons_of_mem _ hentry', hload⟩

theorem loadProbes_spec {e : Endian} {entries : List (String × ProbeConfig × Option Nat)}
    {workers : Dict String Worker} (h : loadProbes e entries = some workers)
    (hnodup : (entries.map Prod.fst).Nodup) (hkeys : ∀ entry ∈ entries, Config.isProbeKey entry.1 = true) :
    (∀ name, name ∈ workers.keys ↔ name ∈ entries.map Prod.fst) ∧
      ∀ name w, workers.get? name = some w → ∃ entry ∈ entries, loadProbe e entry = some (name, w) := by
  rcases Option.map_eq_some_iff.1 h with ⟨pairs, hpairs, rfl⟩
  rw [List.filter_eq_self.2 hkeys] at hpairs
  rcases loadProbes_pairs hpairs with ⟨hnames, hall⟩
  have hmem : ∀ name, name ∈ (Dict.empty.update pairs).keys ↔ name ∈ entries.map Prod.fst := by
    intro name
    rw [Dict.mem_keys_update, hnames]
    simp
  refine ⟨hmem, ?_⟩
  intro name w hw
  have hname : name ∈ pairs.map Prod.fst := by
    rw [hnames]
    exact (hmem name).1 (Dict.mem_keys_iff.2 ⟨w, hw⟩)
  rcases List.mem_map.1 hname with ⟨⟨name', w'⟩, hpair, rfl⟩
  have hread := Dict.get?_update_of_mem (d := Dict.empty) (hnames ▸ hnodup) hpair
  rw [hread] at hw
  cases hw
  exact hall _ hpair

/-! ## The probes follow the file -/

/-- Settings with the same content ask for the same filters. -/
theorem Probe.filters_congr (probe : Probe) {c c' : ProbeConfig} (h : c.Same c') :
    probe.filters c = probe.filters c' ∧ probe.ports c = probe.ports c' := by
  have hget : ∀ key, (probe.merged c).get? key = (probe.merged c').get? key := by
    intro key
    have hmerge := Dict.get?_merge probe.configDefaults
    unfold Dict.merge at hmerge
    rw [Probe.merged, Probe.merged, hmerge, hmerge, h key]
  constructor
  · rw [Probe.filters, Probe.filters, Probe.netSetting, Probe.netSetting, hget]
  · rw [Probe.ports, Probe.ports, Probe.portSetting, Probe.portSetting, globalFilters, globalFilters,
      hget, hget]

/-- A worker, which has been told what is on the queue of its probe. -/
structure Follows (e : Endian) (watched : Config.Watched Setting) (name : String) (w : Worker) : Prop where
  probe : Probe.ofName name = some w.probe
  inv : ∃ c, PollState.Inv e w.probe c w.state
  live : w.state.main ≠ .crashed
  told : ∃ start queue puts, w.queue = some queue ∧ (name, start, some queue) ∈ watched.startUp ∧
    watched.registry.callbacks.get? name = some (some queue) ∧
    watched.registry.queues[queue]? = some puts ∧ w.state.last = puts.getLastD start

section Follows

variable {e : Endian} {watched watched' : Config.Watched Setting} {name : String} {w : Worker}
  {v prev : Config.Version Setting}

/-- What the worker was told last are the settings of its probe in the file. -/
theorem Follows.last_same (h : Follows e watched name w) (hinv : watched.Inv)
    (hnodup : (watched.startUp.map Prod.fst).Nodup) (hloaded : watched.loaded = some v)
    (hname : name ∈ Config.probeKeys v.data) : w.state.last.Same (v.settings name) := by
  rcases h.told with ⟨start, queue, puts, _, hstart, hcallback, hputs, hlast⟩
  rcases hinv.views v hloaded name hname with
    ⟨start', queue', puts', hstart', hcallback', hputs', _, hsame⟩
  rw [hcallback] at hcallback'
  cases hcallback'
  rw [hputs] at hputs'
  cases hputs'
  have hEq : (name, start, some queue) = (name, start', some queue) :=
    List.inj_on_of_nodup_map hnodup hstart hstart' rfl
  cases hEq
  rw [hlast, ← hinv.values v hloaded name hname]
  exact hsame

theorem newPuts_eq {old new : Config.ConfigState Setting} {queue : Nat} {puts cs : List ProbeConfig}
    (hold : old.queues[queue]? = some puts) (hnew : new.queues[queue]? = some (puts ++ cs)) :
    newPuts old new (some queue) = cs := by
  simp [newPuts, hold, hnew]

/-- Settings that load arrive at the probe. -/
theorem Follows.receive (h : Follows e watched name w) (hreloaded : watched.Reloaded watched' prev v)
    (hname : name ∈ Config.probeKeys prev.data) (hload : VersionLoadable e v) :
    Follows e watched' name (w.receive (newPuts watched.registry watched'.registry w.queue)) := by
  rcases h.told with ⟨start, queue, puts, hqueue, hstart, hcallback, hputs, hlast⟩
  rcases hreloaded.puts hcallback hputs with ⟨cs, hnew, hall⟩
  rw [hqueue, newPuts_eq hputs hnew]
  have hloadable : ∀ c ∈ cs, Loadable e w.probe c := by
    intro c hc
    have hkey := (hreloaded.keys name).2 hname
    rcases hload name hkey with ⟨probe, hprobe, hloadable⟩
    rw [h.probe] at hprobe
    cases hprobe
    have hdata := hall c hc
    rw [v.get?_data hkey] at hdata
    cases hdata
    exact hloadable
  refine ⟨h.probe, ?_, h.live, start, queue, puts ++ cs, hqueue, hreloaded.startUp ▸ hstart,
    hreloaded.callbacks ▸ hcallback, hnew, ?_⟩
  · rcases h.inv with ⟨c, hinv⟩
    refine ⟨c, ?_, hinv.loadable, ?_, hinv.normal, hinv.net, hinv.global, hinv.stage⟩
    · rw [Worker.receive, hinv.last]
      simp only [List.getLast?_append, List.getLastD_eq_getLast?]
      cases cs.getLast? <;> rfl
    · intro c' hc'
      exact (List.mem_append.1 hc').elim (hinv.queued c') (hloadable c')
  · rw [Worker.receive, hlast]
    simp only [List.getLast?_append, List.getLastD_eq_getLast?]
    cases cs.getLast? <;> rfl

/-- A thread of the probe takes a step. -/
theorem Follows.work (h : Follows e watched name w) {a : Action} {state : PollState}
    (hfits : PollState.Fits e w.state a) (hstep : threadStep e w.probe w.state a = some state) :
    Follows e watched name { w with state := state } := by
  rcases h.inv with ⟨c, hinv⟩
  rcases h.told with ⟨start, queue, puts, hqueue, hstart, hcallback, hputs, hlast⟩
  refine ⟨h.probe, ?_, hinv.not_crashed h.live hfits hstep, start, queue, puts, hqueue, hstart, hcallback,
    hputs, ?_⟩
  · exact hinv.step (PollState.putsLoadable_of_threadStep hstep) hfits
      (PollState.step_of_threadStep hstep)
  · rw [(PollState.threadStep_spec hstep).1, hlast]

/-- The maps of a probe that has come to rest. -/
theorem Follows.settled (h : Follows e watched name w) (hinv : watched.Inv)
    (hnodup : (watched.startUp.map Prod.fst).Nodup) (hloaded : watched.loaded = some v)
    (hname : name ∈ Config.probeKeys v.data) (hsettled : w.state.Settled) {orders : ReloadOrders}
    {st : ProbeState} (hstart : start e orders w.probe (v.settings name) = .ok st) :
    SameMaps w.state.probe st := by
  rcases h.inv with ⟨c, hpoll⟩
  rcases hpoll.settled hsettled with ⟨hlast, hnet, hglobal⟩
  have hsame := h.last_same hinv hnodup hloaded hname
  rw [hlast] at hsame
  rcases w.probe.filters_congr hsame with ⟨hfilters, hports⟩
  refine sameMaps_of_holds (c := v.settings name) ?_ ?_ hstart
  · intro items hitems
    exact hnet items (hfilters ▸ hitems)
  · unfold HoldsGlobal at hglobal ⊢
    rwa [← hports]

end Follows

/-- A worker that was just started. -/
theorem follows_of_start {e : Endian} {watched : Config.Watched Setting} {v : Config.Version Setting}
    (hinv : watched.Inv) (hfirst : watched.FirstParse v)
    (hnodup : (watched.startUp.map Prod.fst).Nodup) (hload : VersionLoadable e v) {name : String}
    (hname : name ∈ Config.probeKeys v.data) {entry : String × ProbeConfig × Option Nat}
    (hentry : entry ∈ watched.startUp) {w : Worker} (hw : loadProbe e entry = some (name, w)) :
    Follows e watched name w := by
  rcases loadProbe_eq_some hw with ⟨hEq, hprobe, hqueue, built, userland, hbuilt, hstate⟩
  rcases hload name hname with ⟨probe, hprobe', hloadable⟩
  rw [hprobe] at hprobe'
  cases hprobe'
  rcases hinv.views v hfirst.loaded name hname with
    ⟨start, queue, puts, hstart, hcallback, hputs, _, hsame⟩
  have hEntry : entry = (name, start, some queue) := List.inj_on_of_nodup_map hnodup hentry hstart hEq
  subst hEntry
  rcases hfirst.blank name (some queue) hcallback with ⟨queue', hqueue', hempty⟩
  cases hqueue'
  rw [hempty] at hputs
  cases hputs
  -- Nothing was put on the queue, so the settings of the start are those of the namespace.
  have hvalues : start = watched.registry.configValues name := by
    rw [hfirst.startUp] at hstart
    rcases List.mem_map.1 hstart with ⟨name', _, hpair⟩
    rcases Prod.mk.inj hpair with ⟨rfl, hrest⟩
    exact (Prod.mk.inj hrest).1.symm
  have hc : Loadable e w.probe start := by
    rw [hvalues, hinv.values v hfirst.loaded name hname]
    exact hloadable
  refine ⟨hprobe, ⟨start, ?_⟩, ?_, start, queue, [], hqueue, hstart, hcallback, hempty, ?_⟩
  · rw [hstate]
    exact PollState.inv_init hc hbuilt
  · rw [hstate]
    simp [PollState.init]
  · rw [hstate]
    rfl

namespace Live

/-- The probes that run are those of the loaded version, and each of them follows it. -/
structure Inv (e : Endian) (s : Live) : Prop where
  watched : s.watched.Inv
  nodup : ∀ v, s.watched.loaded = some v → (s.watched.startUp.map Prod.fst).Nodup
  names : ∀ v, s.watched.loaded = some v →
    ∀ name, name ∈ s.workers.keys ↔ name ∈ Config.probeKeys v.data
  follows : ∀ v, s.watched.loaded = some v →
    ∀ name w, s.workers.get? name = some w → Follows e s.watched name w

section Step

variable {e : Endian} {s s' : Live}

theorem step_of_start {v v' : Config.Version Setting} {watched : Config.Watched Setting}
    (hloaded : s.watched.loaded = none) (hparse : s.watched.parse v = some watched)
    (hkept : watched.loaded = some v') {workers : Dict String Worker}
    (hworkers : loadProbes e watched.startUp = some workers) :
    step e s (.parse v) = some ⟨watched, workers⟩ := by
  simp [step, hparse, hkept, hloaded, hworkers]

theorem step_of_reload {prev v v' : Config.Version Setting} {watched : Config.Watched Setting}
    (hloaded : s.watched.loaded = some prev)
    (hparse : s.watched.parse v = some watched) (hkept : watched.loaded = some v') :
    step e s (.parse v) = some ⟨watched, s.workers.mapValues fun w =>
      w.receive (newPuts s.watched.registry watched.registry w.queue)⟩ := by
  simp [step, hparse, hkept, hloaded]

theorem inv_init : Inv e init where
  watched := Config.Watched.Inv.of_idle rfl
  nodup v hv := by cases hv
  names v hv := by cases hv
  follows v hv := by cases hv

theorem Inv.started (hs : s.watched.Inv) {watched : Config.Watched Setting}
    {v : Config.Version Setting} (hloaded : s.watched.loaded = none) (hload : VersionLoadable e v)
    (hstart : s.watched.StartsUnreserved v) (hparse : s.watched.parse v = some watched)
    (hkept : watched.loaded ≠ none) {workers : Dict String Worker}
    (hworkers : loadProbes e watched.startUp = some workers) : Inv e ⟨watched, workers⟩ := by
  have hinv := hs.parse hstart hparse
  have hfirst := hs.firstParse hloaded hparse hkept
  have hfst : watched.startUp.map Prod.fst = watched.registry.probeNames := by
    rw [hfirst.startUp]
    exact Config.Process.map_fst_enumerateProbeConfigs _
  have hnodup : (watched.startUp.map Prod.fst).Nodup := by
    rw [hfst]
    exact Config.Process.probeNames_nodup _
  have hnames : ∀ name, name ∈ watched.startUp.map Prod.fst ↔ name ∈ Config.probeKeys v.data := by
    rw [hfst]
    exact hinv.names v hfirst.loaded
  have hkeys : ∀ entry ∈ watched.startUp, Config.isProbeKey entry.1 = true := by
    intro entry hentry
    exact (Config.mem_probeKeys.1 ((hnames entry.1).1 (List.mem_map_of_mem hentry))).2
  rcases loadProbes_spec hworkers hnodup hkeys with ⟨hmem, hall⟩
  have hsame : ∀ v', watched.loaded = some v' → v' = v := by
    intro v' hv'
    rw [hfirst.loaded] at hv'
    exact (Option.some.inj hv').symm
  refine ⟨hinv, fun _ _ => hnodup, ?_, ?_⟩
  · intro v' hv' name
    rw [hsame v' hv', ← hnames name]
    exact hmem name
  · intro v' hv' name w hw
    rcases hall name w hw with ⟨entry, hentry, hentry'⟩
    have hname : name ∈ Config.probeKeys v.data :=
      (hnames name).1 ((hmem name).1 (Dict.mem_keys_iff.2 ⟨w, hw⟩))
    exact follows_of_start hinv hfirst hnodup hload hname hentry hentry'

theorem Inv.reloaded (hs : Inv e s) {watched : Config.Watched Setting} {prev v : Config.Version Setting}
    (hloaded : s.watched.loaded = some prev) (hload : VersionLoadable e v)
    (hstart : s.watched.StartsUnreserved v) (hparse : s.watched.parse v = some watched)
    (hkept : watched.loaded ≠ none) :
    Inv e ⟨watched, s.workers.mapValues fun w =>
      w.receive (newPuts s.watched.registry watched.registry w.queue)⟩ := by
  have hreloaded := hs.watched.reloaded hloaded hparse hkept
  have hsame : ∀ v', watched.loaded = some v' → v' = v := by
    intro v' hv'
    rw [hreloaded.loaded] at hv'
    exact (Option.some.inj hv').symm
  refine ⟨hs.watched.parse hstart hparse, ?_, ?_, ?_⟩
  · intro v' _
    change (watched.startUp.map Prod.fst).Nodup
    rw [hreloaded.startUp]
    exact hs.nodup prev hloaded
  · intro v' hv' name
    rw [hsame v' hv', hreloaded.keys name, ← hs.names prev hloaded name, Dict.keys_mapValues]
  · intro v' _ name w hw
    rw [Dict.get?_mapValues] at hw
    rcases Option.map_eq_some_iff.1 hw with ⟨w₀, hw₀, rfl⟩
    have hname : name ∈ Config.probeKeys prev.data :=
      (hs.names prev hloaded name).1 (Dict.mem_keys_iff.2 ⟨w₀, hw₀⟩)
    exact (hs.follows prev hloaded name w₀ hw₀).receive hreloaded hname hload

theorem Inv.step {a : Event} (hs : Inv e s) (hmeets : Meets e s a) (h : Live.step e s a = some s') :
    Inv e s' := by
  cases a with
  | parse v =>
      rcases hmeets with ⟨hload, hstart⟩
      cases hparse : s.watched.parse v with
      | none => simp [Live.step, hparse] at h
      | some watched =>
          simp only [Live.step, hparse] at h
          cases hkept : watched.loaded with
          | none =>
              simp only [hkept, Option.isNone_none, if_true, Option.some.injEq] at h
              subst h
              refine ⟨hs.watched.parse hstart hparse, ?_, ?_, ?_⟩
              all_goals
                intro v' hv'
                exact absurd (hkept.symm.trans hv') (by simp)
          | some v' =>
              have hsome : watched.loaded ≠ none := by simp [hkept]
              simp only [hkept, Option.isNone_some, Bool.false_eq_true, if_false] at h
              cases hloaded : s.watched.loaded with
              | none =>
                  simp only [hloaded, Option.isNone_none, if_true] at h
                  rcases Option.map_eq_some_iff.1 h with ⟨workers, hworkers, rfl⟩
                  exact Inv.started hs.watched hloaded hload hstart hparse hsome hworkers
              | some prev =>
                  simp only [hloaded, Option.isNone_some, Bool.false_eq_true, if_false,
                    Option.some.injEq] at h
                  subst h
                  exact hs.reloaded hloaded hload hstart hparse hsome
  | work name a =>
      cases hw : s.workers.get? name with
      | none => simp [Live.step, hw] at h
      | some w =>
          simp only [Live.step, hw] at h
          rcases Option.map_eq_some_iff.1 h with ⟨state, hstate, rfl⟩
          refine ⟨hs.watched, hs.nodup, ?_, ?_⟩
          · intro v hv name'
            rw [Dict.mem_keys_set, ← hs.names v hv name']
            refine or_iff_right_of_imp ?_
            rintro rfl
            exact Dict.mem_keys_iff.2 ⟨w, hw⟩
          · intro v hv name' w' hw'
            rw [Dict.get?_set] at hw'
            by_cases hEq : name = name'
            · subst hEq
              rw [if_pos rfl] at hw'
              cases hw'
              exact (hs.follows v hv name w hw).work (hmeets w hw) hstate
            · rw [if_neg hEq] at hw'
              exact hs.follows v hv name' w' hw'

end Step

end Live

/-- The threads of a worker take steps that fit. -/
theorem Follows.work_run {e : Endian} {watched : Config.Watched Setting} {name : String} :
    ∀ {acts : List Action} {w : Worker} {state : PollState}, Follows e watched name w →
      Run.StepsMeet (threadStep e w.probe) (PollState.Fits e) w.state acts →
      acts.foldlM (threadStep e w.probe) w.state = some state →
        Follows e watched name { w with state := state } ∧
          acts.length + state.stepsLeft ≤ w.state.stepsLeft := by
  intro acts
  induction acts with
  | nil =>
      intro w state h _ hrun
      cases hrun
      exact ⟨h, by simp⟩
  | cons a rest ih =>
      intro w state h hmeets hrun
      rw [List.foldlM_cons] at hrun
      rcases Option.bind_eq_some_iff.1 hrun with ⟨state₁, hstep, hrest⟩
      rw [Run.stepsMeet_cons hstep] at hmeets
      rcases ih (h.work hmeets.1 hstep) hmeets.2 hrest with ⟨hfollows, hleft⟩
      have hless := (PollState.threadStep_spec hstep).2
      refine ⟨hfollows, ?_⟩
      rw [List.length_cons]
      simp only at hleft
      omega

namespace Example

/-- A file with one probe, which filters these ports. -/
def portsFile (excludeports : ProbeConfig) : Config.ConfigData Setting :=
  Dict.empty.set "tcp_connect" (some excludeports)

theorem probeKeys_portsFile (excludeports : ProbeConfig) :
    Config.probeKeys (portsFile excludeports) = ["tcp_connect"] := by
  change ["tcp_connect"].filter Config.isProbeKey = ["tcp_connect"]
  decide

theorem hasProbe_portsFile (excludeports : ProbeConfig) :
    Config.probeKeys (portsFile excludeports) ≠ [] := by
  rw [probeKeys_portsFile]
  simp

theorem mappings_portsFile (excludeports : ProbeConfig) : Config.AllMappings (portsFile excludeports) := by
  intro key hkey
  rw [probeKeys_portsFile] at hkey
  rw [List.mem_singleton.1 hkey]
  exact ⟨excludeports, rfl⟩

theorem hasFile : ["config.yml"] ≠ ([] : List String) := by simp

def version (excludeports : ProbeConfig) : Config.Version Setting where
  data := portsFile excludeports
  files := ["config.yml"]
  order := .listed
  hasProbe := hasProbe_portsFile excludeports
  mappings := mappings_portsFile excludeports
  hasFile := hasFile

/-- A start with one list of ports, and the reload of another one before the first load. -/
def portsChange : List Event := [.parse (version sshPorts), .parse (version httpPort)]

/-- The swap overtakes the first load. -/
def swapThenFirstLoad : List Action :=
  [.get, .assignNet, .assignGlobal, .finishBuild, .pollerNet .listed, .pollerPorts .listed,
    .mainNet .listed, .mainPorts .listed]

/-- A probe that was just started, with other settings on its queue. -/
def told (built : BuiltConfig) (c c' : ProbeConfig) : PollState :=
  { PollState.init built none c with queue := [c'], last := c' }

theorem versionLoadable {c : ProbeConfig} (hc : Loadable .little .tcpConnect c) :
    VersionLoadable .little (version c) := by
  intro key hkey
  rw [version, probeKeys_portsFile] at hkey
  rw [List.mem_singleton.1 hkey]
  exact ⟨.tcpConnect, rfl, hc⟩

theorem not_reserved (c : ProbeConfig) : Config.DEFAULT_NAMESPACE ∉ Config.probeKeys (version c).data := by
  rw [version, probeKeys_portsFile]
  decide

/-- The two parses: the probe is started with the first ports, and the second ones go on its queue. -/
theorem portsChange_parses : ∃ w w', Config.Watched.parse Config.Watched.init (version sshPorts) = some w ∧
    w.parse (version httpPort) = some w' ∧ w.startUp = [("tcp_connect", sshPorts, some 0)] ∧
      newPuts w.registry w'.registry (some 0) = [httpPort] ∧ w.loaded ≠ none ∧ w'.loaded ≠ none := by
  have hparse : (Config.Watched.parse Config.Watched.init (version sshPorts)).map (fun w => w.startUp) =
      some [("tcp_connect", sshPorts, some 0)] := by decide +kernel
  have hloads : (Config.Watched.parse Config.Watched.init (version sshPorts)).all
      (fun w => w.loaded.isSome) = true := by decide +kernel
  have hreparse : ((Config.Watched.parse Config.Watched.init (version sshPorts)).bind fun w =>
      (w.parse (version httpPort)).map fun w' => newPuts w.registry w'.registry (some 0)) =
        some [httpPort] := by decide +kernel
  have hreloads : ((Config.Watched.parse Config.Watched.init (version sshPorts)).bind fun w =>
      w.parse (version httpPort)).all (fun w' => w'.loaded.isSome) = true := by decide +kernel
  rcases Option.map_eq_some_iff.1 hparse with ⟨w, hw, hstartUp⟩
  rw [hw, Option.bind_some] at hreparse
  rcases Option.map_eq_some_iff.1 hreparse with ⟨w', hw', hputs⟩
  refine ⟨w, w', hw, hw', hstartUp, hputs, ?_, ?_⟩
  · intro hnone
    simp [hw, hnone] at hloads
  · intro hnone
    simp [hw, hw', hnone] at hreloads

theorem portsChange_reaches {built : BuiltConfig}
    (hbuilt : Probe.tcpConnect.buildProbeConfig .little sshPorts false = .ok (built, none))
    (hssh : Loadable .little .tcpConnect sshPorts) (hhttp : Loadable .little .tcpConnect httpPort) :
    Run.StepsMeet (Live.step .little) (Live.Meets .little) Live.init portsChange ∧
      ∃ s ∈ Run.visited (Live.step .little) Live.init portsChange,
        s.watched.loaded = some (version httpPort) ∧
        s.workers.get? "tcp_connect" = some ⟨.tcpConnect, some 0, told built sshPorts httpPort⟩ := by
  rcases portsChange_parses with ⟨w, w', hw, hw', hstartUp, hputs, hkept, hkept'⟩
  have hinit : (Config.Watched.init : Config.Watched Setting).Inv := Config.Watched.Inv.of_idle rfl
  have hloaded := (hinit.firstParse rfl hw hkept).loaded
  have hinv := hinit.parse (fun _ _ => not_reserved sshPorts) hw
  have hloaded' := (hinv.reloaded hloaded hw' hkept').loaded
  have hworkers : loadProbes .little w.startUp = some (Dict.empty.update [("tcp_connect",
      ⟨.tcpConnect, some 0, PollState.init built none sshPorts⟩)]) := by
    have hkey : Config.isProbeKey "tcp_connect" = true := by decide
    simp [hstartUp, loadProbes, loadProbe, hkey, Probe.ofName, hbuilt]
  have hfirst := Live.step_of_start (s := Live.init) rfl hw hloaded hworkers
  have hsecond := Live.step_of_reload (e := .little) (s := ⟨w, Dict.empty.update [("tcp_connect",
      ⟨.tcpConnect, some 0, PollState.init built none sshPorts⟩)]⟩) hloaded hw' hloaded'
  have hmeets : ∀ {s : Live} {c : ProbeConfig}, Loadable .little .tcpConnect c →
      s.Meets .little (.parse (version c)) :=
    fun hc => ⟨versionLoadable hc, fun _ _ => not_reserved _⟩
  rw [portsChange, Run.stepsMeet_cons hfirst, Run.stepsMeet_cons hsecond, Run.visited_cons hfirst,
    Run.visited_cons hsecond]
  refine ⟨⟨hmeets hssh, hmeets hhttp, trivial⟩, _,
    List.mem_cons_of_mem _ (List.mem_singleton_self _), hloaded', ?_⟩
  rw [Dict.get?_mapValues]
  simp [Worker.receive, hputs, PollState.init, told]

theorem swapThenFirstLoad_settles {built : BuiltConfig} {c c' : ProbeConfig}
    (hc : Loadable .little .tcpConnect c') (hnil : Probe.tcpConnect.filters c' = []) :
    Run.StepsMeet (threadStep .little .tcpConnect) (PollState.Fits .little) (told built c c')
        swapThenFirstLoad ∧
      ∃ p, swapThenFirstLoad.foldlM (threadStep .little .tcpConnect) (told built c c') =
        some ⟨p, .polling, .waiting, [], c'⟩ := by
  rcases hc.builds with ⟨hfilters, built', userland, hswap⟩
  have hports : globalFilters (Probe.tcpConnect.merged c') = Probe.tcpConnect.portSetting c' := rfl
  have hnet := hc.lists.net
  rw [hnil] at hnet
  have hload : ∀ capacity doDiff, loadFiltersIntoMap .little .listed [] (LpmTrie.empty capacity) doDiff =
      ⟨[], LpmTrie.empty capacity, none⟩ := by
    intro capacity doDiff
    cases doDiff <;> rfl
  have hempty : ∀ capacity, (LpmTrie.empty capacity : NetFilterMap).nodes.keys = [] := fun _ => rfl
  have herror := hc.globalFilters .listed
  have hset : SetPortsFit (Probe.tcpConnect.ports c').1 PortFilterMap.zeros := by
    intro i _ hset
    exact absurd rfl hset
  constructor
  · simp [swapThenFirstLoad, Run.StepsMeet, threadStep, PollState.step, PollState.Fits, PollState.init,
      told, PollState.mutexFree, PollState.loadNet, PollState.loadPorts, hfilters, hports, hswap, hnet,
      loadNetFilters_eq hnet, hload, hempty, hc.lists.port, herror, hset]
  · simp [swapThenFirstLoad, threadStep, PollState.step, PollState.init, told, PollState.mutexFree,
      PollState.loadNet, PollState.loadPorts, hfilters, hports, hswap, loadNetFilters_eq hnet, hload,
      herror]

end Example

end Probes

end PidtreeBcc
