import PidtreeBcc.Containers.Coverage
import PidtreeBcc.Tcp.Events

/-!
# Names — the container names that events are given

An event of the kernel carries a mount namespace, and `enrich_container_name` looks up the name that the monitor
has for it.  The monitor learns names from listings and start events and forgets them with stops, while
containers come and go and namespaces pass from one to the next.

A running container keeps the name of its own from the moment its start is handled, until a late stop of an
earlier owner of its namespace takes the name away.
-/

namespace PidtreeBcc

open Support

namespace Containers

namespace WatchState

/-! ## The leaf -/

/-- The name that the monitor has for the namespace of the container is its own, or there may be none. -/
def NamedAs (mayLack : Prop) (monitor : MonitorState) (c : Container) : Prop :=
  monitor.containerNameMapping.get? c.nsId = some c.name ∨
    mayLack ∧ monitor.containerNameMapping.get? c.nsId = none

/-! ## What the monitor's steps leave of the names -/

section Monitor

variable {patterns : List String} {order : IterOrder NsId} {monitor : MonitorState}

/-- A baseline that does not raise names every container that is listed. -/
theorem names_baseline {rt : Runtime}
    (h : (monitor.runningContainersBaseline order (rt.scan patterns)).running = true) {id : String}
    {c : Container} (hget : rt.running.get? id = some c) (hmatch : c.matches patterns = true) :
    (monitor.runningContainersBaseline order (rt.scan patterns)).containerNameMapping.get? c.nsId =
      some c.name := by
  cases hload : (loadIntsetIntoMap order (rt.scan patterns).nsIds monitor.mntnsFilter true false).error with
  | some err => simp [MonitorState.runningContainersBaseline, hload] at h
  | none =>
      simp only [MonitorState.runningContainersBaseline, hload]
      refine Dict.get?_update_of_mem ?_ ?_
      · have hnodup := (rt.scan patterns).nsIds_nodup
        simpa [Function.comp_def] using hnodup
      · refine List.mem_map.2 ⟨Runtime.infoOf (id, c), ?_, rfl⟩
        refine List.mem_map.2 ⟨(id, c), ?_, rfl⟩
        exact List.mem_filter.2 ⟨Dict.mem_entries_iff.2 hget, hmatch⟩

/-- A start that does not raise names the container. -/
theorem names_start {info : MountNSInfo} (h : (monitor.start order info).running = true) :
    (monitor.start order info).containerNameMapping =
      monitor.containerNameMapping.set info.nsId info.containerName := by
  cases hload : (loadIntsetIntoMap order [info.nsId] monitor.mntnsFilter false false).error with
  | some err => simp [MonitorState.start, hload] at h
  | none => rw [MonitorState.start_of_room hload]

/-- A stop takes at most the name for the namespace that is tracked for its container. -/
theorem names_stop (id : String) (ns : NsId) :
    (monitor.stop order id).containerNameMapping.get? ns = monitor.containerNameMapping.get? ns ∨
      monitor.containerIdnsMapping.get? id = some ns ∧
        (monitor.stop order id).containerNameMapping.get? ns = none := by
  unfold MonitorState.stop
  cases htracked : monitor.containerIdnsMapping.get? id with
  | none => exact Or.inl rfl
  | some tracked =>
      dsimp only
      split
      · exact Or.inl rfl
      · split
        · exact Or.inl rfl
        · by_cases hns : tracked = ns
          · subst hns
            right
            simp [Dict.get?_erase]
          · left
            exact Dict.get?_erase_of_ne _ hns

/-- Names come and go with the namespaces; where they may lack, stops are free to take them. -/
theorem leaf_namedAs (mayLack : Prop) (patterns : List String) : Leaf (NamedAs mayLack) mayLack patterns where
  baseline h hget hmatch := Or.inl (names_baseline h hget hmatch)
  start h := by
    rw [NamedAs, names_start h]
    exact Or.inl (Dict.get?_set_self _ _ _)
  start_other h hns hnamed := by
    rw [NamedAs, names_start h, Dict.get?_set_of_ne _ hns]
    exact hnamed
  stop hnamed hfree := by
    rcases names_stop _ _ with hsame | ⟨htracked, hnone⟩
    · rw [NamedAs, hsame]
      exact hnamed
    · exact Or.inr ⟨hfree htracked, hnone⟩

end Monitor


/-! ## The names of events -/

/-- Whatever starts and stops while the monitor lists, subscribes and handles events, where every inspection
succeeds and tells of the container as it is at the time, none of them remembered from an earlier life of its
id, and as long as no matching container starts after a listing while no command is open.  An event from a
running container whose labels match, and whose start has been handled, is never given the name of another one:
it has the name of its container, or none.  If no stop removes the namespace of a running container either, it
has the name, and the kernel lets the container through. -/
theorem events_named {patterns : List String} {actions : List WatchAction}
    (hmeet : Run.StepsMeet (step patterns) (StartSeen patterns) init actions) :
    ∀ st ∈ Run.visited (step patterns) init actions, st.monitor.running = true →
      ∀ id c, st.runtime.running.get? id = some c → c.matches patterns = true →
        ⟨.start, id⟩ ∉ st.subscription.pending →
          ∀ (r : Plugins.Reading) (conn : Tcp.Connection) (formatted : Plugins.EventDict),
            (∀ ns : NsId, r.names.get? ns.toNat = st.monitor.containerNameMapping.get? ns) →
            conn.mntnsId = some c.nsId.toNat →
              ∃ event name, Tcp.enrichContainerName true r conn formatted = .ok event ∧
                event.get? "container_name" = some (.text name) ∧ (name = c.name ∨ name = "") ∧
                (Run.StepsMeet (step patterns) (StepCovers patterns) init actions →
                  name = c.name ∧ c.nsId ∈ st.monitor.mntnsFilter.keys) := by
  intro st hst hrunning id c hget hmatch hhandled r conn formatted hnames hconn
  have hname : (r.names.get? c.nsId.toNat).getD "" = c.name ∨
      (r.names.get? c.nsId.toNat).getD "" = "" := by
    have hweak : st.Holds (NamedAs True) patterns :=
      holds_of_stepKeeps (leaf_namedAs True patterns)
        (hmeet.mono fun _ _ hseen => ⟨hseen, Or.inl trivial⟩) st hst
    rw [hnames]
    rcases hweak.held hrunning id c hget hmatch with (hfound | ⟨_, hnone⟩) | hpending
    · simp [hfound]
    · simp [hnone]
    · exact absurd hpending hhandled
  refine ⟨formatted.set "container_name" (.text ((r.names.get? c.nsId.toNat).getD "")),
    (r.names.get? c.nsId.toNat).getD "", ?_, by simp, hname, ?_⟩
  · simp [Tcp.enrichContainerName, hconn]
  · intro hcovers
    have hkeeps := hcovers.mono fun _ _ h => h.keeps
    have hstrong : st.Holds (NamedAs False) patterns :=
      holds_of_stepKeeps (leaf_namedAs False patterns) hkeeps st hst
    have hfilter : st.Holds InFilter patterns := holds_of_stepKeeps (leaf_inFilter patterns) hkeeps st hst
    constructor
    · rcases hstrong.held hrunning id c hget hmatch with (hfound | ⟨hfalse, _⟩) | hpending
      · simp [hnames, hfound]
      · exact hfalse.elim
      · exact absurd hpending hhandled
    · rcases hfilter.held hrunning id c hget hmatch with hkey | hpending
      · exact hkey
      · exact absurd hpending hhandled

/-! ### An event from a container that was started and handled -/

namespace Example

/-- The reading of a process that has the name. -/
def reading : Plugins.Reading := { Tcp.Example.reading with names := Dict.empty.set 10 "web" }

def connection : Tcp.Connection := ⟨100, 0, 0, 80, some 10⟩

end Example

theorem delivered_container_named :
    ∃ event name, Tcp.enrichContainerName true Example.reading Example.connection Dict.empty = .ok event ∧
      event.get? "container_name" = some (.text name) ∧ name = "web" := by
  have hcovers : Run.StepsMeet (step ["app=web"]) (StepCovers ["app=web"]) init Example.delivered := by
    refine ⟨trivial, trivial, ?_, ?_, trivial⟩
    · intro _
      exact Or.inl rfl
    · intro id rest hpending
      have hstart : [(⟨.start, "c1"⟩ : ContainerEvent)] = ⟨.stop, id⟩ :: rest := hpending
      simp at hstart
  have hmem : (Run.visited (step ["app=web"]) init Example.delivered).get ⟨3, by decide +kernel⟩ ∈
      Run.visited (step ["app=web"]) init Example.delivered := List.get_mem _ _
  have hnamed : ∀ ns : NsId, Example.reading.names.get? ns.toNat =
      ((Run.visited (step ["app=web"]) init Example.delivered).get
        ⟨3, by decide +kernel⟩).monitor.containerNameMapping.get? ns := by
    have hmapping : ((Run.visited (step ["app=web"]) init Example.delivered).get
        ⟨3, by decide +kernel⟩).monitor.containerNameMapping = Dict.empty.set 10 "web" := by
      decide +kernel
    intro ns
    have hns : 10 = ns.toNat ↔ (10 : NsId) = ns := by simp [← BitVec.toNat_inj]
    rw [hmapping]
    simp [Example.reading, Dict.get?_set, hns]
  rcases events_named (hcovers.mono fun _ _ h => h.keeps.1) _ hmem (by decide +kernel) "c1" Example.web
      (by decide +kernel) (by decide +kernel) (by decide +kernel) Example.reading Example.connection
      Dict.empty hnamed rfl with ⟨event, name, hevent, htext, _, hright⟩
  exact ⟨event, name, hevent, htext, (hright hcovers).1⟩

end WatchState

end Containers

end PidtreeBcc
