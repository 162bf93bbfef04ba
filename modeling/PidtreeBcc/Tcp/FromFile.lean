import PidtreeBcc.Probes.LiveReload
import PidtreeBcc.Tcp.Events

/-!
# FromFile — the records of a connect probe that follows the configuration file

The processes reload their filters as the file changes, and the handlers in the kernel look at whatever the maps
hold.  Once the threads of the probe have come to rest, the maps hold the rules that the file denotes, and the
records are those of the connections that these rules let through.
-/

namespace PidtreeBcc

open Support

namespace Probes

section Follows

variable {e : Endian} {watched : Config.Watched Setting} {name : String} {w : Worker}
  {v : Config.Version Setting}

/-- The maps of a probe at rest hold the rules and the ports of its settings in the file. -/
theorem Follows.holdsFile (h : Follows e watched name w) (hinv : watched.Inv)
    (hnodup : (watched.startUp.map Prod.fst).Nodup) (hloaded : watched.loaded = some v)
    (hname : name ∈ Config.probeKeys v.data) (hsettled : w.state.Settled) {rules : List NetRule}
    (hrules : List.Forall₂ Denotes (w.probe.filters (v.settings name)) rules)
    (hown : OwnNumbers (w.probe.ports (v.settings name)).1) :
    HoldsRules e w.state.probe.netFilterMap rules ∧
      PassesUnfiltered
        (.ofMode (w.probe.ports (v.settings name)).2 (listedPorts (w.probe.ports (v.settings name)).1))
        w.state.probe.portFilterMap := by
  rcases h.inv with ⟨c, hpoll⟩
  rcases hpoll.settled hsettled with ⟨hlast, hnet, hglobal⟩
  have hsame := h.last_same hinv hnodup hloaded hname
  rw [hlast] at hsame
  rcases w.probe.filters_congr hsame with ⟨hfilters, hports⟩
  constructor
  · exact hnet _ (items_of_denotes e (hfilters ▸ hrules))
  · rw [← hports] at hown ⊢
    -- The ports are those that a first load would leave.
    have herror := hpoll.loadable.ports .listed PortFilterMap.zeros false
    have hfresh := hglobal.unique (holdsPorts_fresh herror (Or.inl rfl))
    rw [hfresh]
    exact (passesUnfiltered_iff herror).2 hown

end Follows

/-- A probe whose threads come to rest, in a state that a run of the processes visits. -/
structure AtRest (e : Endian) (events : List Event) (v : Config.Version Setting) (name : String)
    (probe : Probe) (state : PollState) : Prop where
  meets : Run.StepsMeet (Live.step e) (Live.Meets e) Live.init events
  reached : ∃ s ∈ Run.visited (Live.step e) Live.init events, s.watched.loaded = some v ∧
    ∃ w, s.workers.get? name = some w ∧ w.probe = probe ∧
      ∃ acts, Run.StepsMeet (threadStep e probe) (PollState.Fits e) w.state acts ∧
        acts.foldlM (threadStep e probe) w.state = some state
  rests : ∀ a, threadStep e probe state a = none

theorem AtRest.holdsFile {e : Endian} {events : List Event} {v : Config.Version Setting} {name : String}
    {probe : Probe} {state : PollState} (h : AtRest e events v name probe state) {rules : List NetRule}
    (hrules : List.Forall₂ Denotes (probe.filters (v.settings name)) rules)
    (hown : OwnNumbers (probe.ports (v.settings name)).1) :
    HoldsRules e state.probe.netFilterMap rules ∧
      PassesUnfiltered
        (.ofMode (probe.ports (v.settings name)).2 (listedPorts (probe.ports (v.settings name)).1))
        state.probe.portFilterMap := by
  rcases h.reached with ⟨s, hs, hv, w, hw, rfl, acts, hfits, hrun⟩
  have hinv : Live.Inv e s := Run.visited_of_stepsMeet
    (fun _ _ _ h hmeets hstep => Live.Inv.step h hmeets hstep) Live.inv_init h.meets s hs
  rcases (hinv.follows v hv name w hw).work_run hfits hrun with ⟨hfollows, _⟩
  have hsettled : state.Settled := by
    by_contra hnot
    rcases PollState.progress e w.probe hfollows.live hnot with ⟨a, state', hstep⟩
    rw [h.rests a] at hstep
    cases hstep
  have hname : name ∈ Config.probeKeys v.data := (hinv.names v hv name).1 (Dict.mem_keys_iff.2 ⟨w, hw⟩)
  exact hfollows.holdsFile hinv.watched (hinv.nodup v hv) hv hname hsettled hrules hown

end Probes

namespace Tcp

open Plugins Probes

namespace Example

/-- Two connects one after the other, under the same maps. -/
def connects (maps : Udp.FilterMaps) : List Step :=
  [.enter 7 ⟨1, 0, []⟩, .ret 7 ⟨0, memory, maps, 0⟩, .enter 8 ⟨2, 0, []⟩, .ret 8 ⟨0, memory, maps, 0⟩]

theorem connects_wellFormed (maps : Udp.FilterMaps) : Calls.WellFormed Fits Calls.idle (connects maps) :=
  ⟨rfl, ⟨_, rfl, trivial⟩, rfl, ⟨_, rfl, trivial⟩, trivial⟩

theorem completed_connects (maps : Udp.FilterMaps) : ∀ call ∈ Calls.completed Calls.idle (connects maps),
    call.result.maps = maps ∧ destPort .little call ≠ 0 := by
  intro call hcall
  have hlist : Calls.completed Calls.idle (connects maps) =
      [⟨7, ⟨1, 0, []⟩, ⟨0, memory, maps, 0⟩⟩, ⟨8, ⟨2, 0, []⟩, ⟨0, memory, maps, 0⟩⟩] := rfl
  have hports : ntohs .little (memory 1).skcDport ≠ 0 ∧ ntohs .little (memory 2).skcDport ≠ 0 := by decide
  rw [hlist] at hcall
  rcases List.mem_pair.1 hcall with rfl | rfl
  · exact ⟨rfl, hports.1⟩
  · exact ⟨rfl, hports.2⟩

theorem atRest : ∃ state,
    AtRest .little Probes.Example.portsChange (Probes.Example.version Probes.Example.httpPort) "tcp_connect"
      .tcpConnect state := by
  rcases Probes.Example.starts Probes.Example.sshPorts (by simp) with ⟨st₀, hst₀⟩
  rcases Probes.Example.starts_of_isOk (c := Probes.Example.httpPort) (by decide +kernel) with ⟨st, hst⟩
  rcases Probes.Example.started_built hst₀ with ⟨built, hbuilt, _⟩
  have hc₀ := Probes.Example.loadable_of_no_filters hst₀ (by decide +kernel)
  have hc := Probes.Example.loadable_of_no_filters hst (by decide +kernel)
  rcases Probes.Example.portsChange_reaches hbuilt hc₀ hc with ⟨hmeets, s, hs, hloaded, hw⟩
  rcases Probes.Example.swapThenFirstLoad_settles hc (by decide +kernel) with ⟨hfits, p, hrun⟩
  exact ⟨_, hmeets, ⟨s, hs, hloaded, _, hw, rfl, _, hfits, hrun⟩,
    PollState.threadStep_of_settled .little .tcpConnect ⟨rfl, rfl, rfl⟩⟩

end Example

end Tcp

end PidtreeBcc
