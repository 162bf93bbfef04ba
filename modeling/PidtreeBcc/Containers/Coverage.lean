import PidtreeBcc.Containers.Lookups

/-!
# Coverage — running containers and the kernel map

Containers start and stop while the monitor lists them, opens the event command, handles its events and
opens it again.  An open command delivers what happens while it is open, and nothing else.

A matching container that runs is covered: its namespace is in the kernel map, or its start is among the
events that are still to be handled.  Coverage is lost when a container starts while no command is open,
and when a stop removes a namespace that has passed on to another container.
-/

namespace PidtreeBcc

open Support

namespace Containers

/-! ## The runtime -/

structure Container where
  name : String
  labels : Dict String String
  nsId : NsId
  deriving DecidableEq, Repr

/-- The running containers; each has a mount namespace of its own. -/
structure Runtime where
  running : Dict String Container
  ids : ∀ id ∈ running.keys, id ≠ ""
  positive : ∀ c ∈ running.values, c.nsId ≠ 0
  own : (running.values.map Container.nsId).Nodup

def Container.matches (patterns : List String) (c : Container) : Bool :=
  labelsMatch patterns c.labels = .ok true

structure ContainerEvent where
  eventType : ContainerEventType
  containerId : String
  deriving DecidableEq, Repr

namespace Runtime

def init : Runtime := ⟨Dict.empty, by simp, by simp, by simp⟩

local instance : LawfulBEq NsId := inferInstance

/-- A container starts. -/
def start (id : String) (c : Container) (rt : Runtime) : Option Runtime :=
  if h : (id ≠ "" ∧ id ∉ rt.running.keys) ∧ c.nsId ≠ 0 ∧
      c.nsId ∉ rt.running.values.map Container.nsId then
    some
      { running := rt.running.set id c
        ids := by
          intro id' hid'
          rcases Dict.mem_keys_set.1 hid' with rfl | hold
          · exact h.1.1
          · exact rt.ids id' hold
        positive := by
          intro c' hc'
          rcases Dict.mem_values_set.1 hc' with rfl | ⟨id', _, hget⟩
          · exact h.2.1
          · exact rt.positive c' (Dict.mem_values_iff.2 ⟨id', hget⟩)
        own := by
          have hvalues : (rt.running.set id c).values = rt.running.values ++ [c] := by
            simp [Dict.values, Dict.entries_set_of_not_mem h.1.2]
          rw [hvalues, List.map_append, List.map_singleton]
          exact rt.own.append (List.nodup_singleton _) (by simpa using h.2.2) }
  else none

/-- A container stops. -/
def stop (id : String) (rt : Runtime) : Runtime where
  running := rt.running.erase id
  ids := fun id' hid' => rt.ids id' (Dict.mem_keys_erase.1 hid').2
  positive := by
    intro c hc
    rcases Dict.mem_values_erase.1 hc with ⟨id', _, hget⟩
    exact rt.positive c (Dict.mem_values_iff.2 ⟨id', hget⟩)
  own := rt.own.sublist ((List.filter_sublist.map _).map _)

/-- What the listing of container `id` reports. -/
def infoOf (p : String × Container) : MountNSInfo := ⟨p.1, p.2.name, p.2.nsId, .start⟩

/-- The listing of the running containers whose labels match. -/
def scan (patterns : List String) (rt : Runtime) : Scan where
  infos := (rt.running.entries.filter fun p => p.2.matches patterns).map infoOf
  positive := by
    intro info hinfo
    rcases List.mem_map.1 hinfo with ⟨p, hp, rfl⟩
    exact rt.positive p.2 (List.mem_map_of_mem (List.mem_filter.1 hp).1)
  ids_nodup := by
    rw [List.map_map]
    exact rt.running.nodup.sublist (List.filter_sublist.map _)
  nsIds_nodup := by
    have hown := rt.own
    rw [Dict.values, List.map_map] at hown
    rw [List.map_map]
    exact hown.sublist (List.filter_sublist.map _)

theorem mem_nsIds_scan {patterns : List String} {rt : Runtime} {ns : NsId} :
    ns ∈ (rt.scan patterns).nsIds ↔ ∃ id c, rt.running.get? id = some c ∧
      c.matches patterns = true ∧ c.nsId = ns := by
  simp only [Scan.nsIds, scan, List.map_map, List.mem_map, List.mem_filter, Prod.exists,
    Dict.mem_entries_iff, Function.comp_def, infoOf, and_assoc]

end Runtime

/-! ## The monitor beside the runtime -/

/-- The event command: not started since the loop was entered, open, or ended; the events it has
printed are still to be handled. -/
inductive Subscription
  | none
  | opened (pending : List ContainerEvent)
  | ended (pending : List ContainerEvent)
  deriving DecidableEq, Repr

namespace Subscription

def pending : Subscription → List ContainerEvent
  | none => []
  | opened events => events
  | ended events => events

def isOpen : Subscription → Bool
  | opened _ => true
  | _ => false

/-- An event happens. -/
def emit (event : ContainerEvent) : Subscription → Subscription
  | opened events => opened (events ++ [event])
  | subscription => subscription

/-- The first event has been taken. -/
def next : Subscription → Subscription
  | opened events => opened events.tail
  | ended events => ended events.tail
  | none => none

end Subscription

structure WatchState where
  runtime : Runtime
  monitor : MonitorState
  subscription : Subscription

inductive WatchAction
  | startContainer (id : String) (c : Container)
  | stopContainer (id : String)
  | enter (order : IterOrder NsId) (now : Int)
  | subscribe
  | handle (order : IterOrder NsId) (now : Int)
  | endCommand

namespace WatchState

def init : WatchState := ⟨.init, .init, .none⟩

/-- What `monitor_container_mnt_namespaces` yields for an event: a start is inspected when it is
handled, and reported if the container runs and matches. -/
def yielded (patterns : List String) (rt : Runtime) (event : ContainerEvent) : Option MonitorEvent :=
  match event.eventType with
  | .start =>
      match h : rt.running.get? event.containerId with
      | none => none
      | some c =>
          if c.matches patterns then
            some ⟨Runtime.infoOf (event.containerId, c), fun _ =>
              rt.positive c (Dict.mem_values_iff.2 ⟨_, h⟩)⟩
          else none
  | .stop => some ⟨⟨event.containerId, "", 0, .stop⟩, by simp⟩

/-- The monitor after a step of its own; an exception ends the loop, and with it the event command. -/
def continueWith (st : WatchState) (subscription : Subscription) (monitor : MonitorState) :
    WatchState :=
  { st with
    monitor := monitor
    subscription := if monitor.running then subscription else .none }

/-- One step of the runtime or of the monitor.  Listing and inspecting take place at one moment, and see the
containers as they are then. -/
def step (patterns : List String) (st : WatchState) : WatchAction → Option WatchState
  | .startContainer id c =>
      (st.runtime.start id c).map fun rt =>
        { st with
          runtime := rt
          subscription := st.subscription.emit ⟨.start, id⟩ }
  | .stopContainer id =>
      if id ∈ st.runtime.running.keys then
        some { st with
          runtime := st.runtime.stop id
          subscription := st.subscription.emit ⟨.stop, id⟩ }
      else none
  | .enter order now =>
      -- `never_crash` enters again only after the loop has ended.
      if st.monitor.running then none
      else
        (st.monitor.step (.enter order now (st.runtime.scan patterns))).map
          (st.continueWith .none)
  | .subscribe =>
      if st.monitor.running ∧ st.subscription.isOpen = false ∧ st.subscription.pending = [] then
        some { st with subscription := .opened [] }
      else none
  | .handle order now =>
      match st.subscription.pending with
      | [] => none
      | event :: _ =>
          match yielded patterns st.runtime event with
          | none => some { st with subscription := st.subscription.next }
          | some ev =>
              (st.monitor.step (.event order now (st.runtime.scan patterns) ev)).map
                -- The event is off the command even when its handling ends the loop.
                (st.continueWith st.subscription.next)
  | .endCommand =>
      match st.subscription with
      | .opened events => some { st with subscription := .ended events }
      | _ => none

/-- With the command open and all its events handled, the namespace of every running container whose
labels match is in the kernel map. -/
def NoneMissed (patterns : List String) (st : WatchState) : Prop :=
  st.subscription = .opened [] → ∀ id c, st.runtime.running.get? id = some c →
    c.matches patterns = true → c.nsId ∈ st.monitor.mntnsFilter.keys

/-- A matching container starts while the command is open, or before the loop lists the containers.  A
stop that is handled, and not swallowed by a due baseline, does not remove the namespace of a running
container, unless that one's start is still to be handled. -/
def StepCovers (patterns : List String) (st : WatchState) : WatchAction → Prop
  | .startContainer _ c =>
      c.matches patterns = true → st.subscription.isOpen = true ∨ st.monitor.running = false
  | .handle _ now =>
      ∀ id rest, st.subscription.pending = ⟨.stop, id⟩ :: rest → ¬ st.monitor.Due now →
        ∀ ns, st.monitor.containerIdnsMapping.get? id = some ns →
          ∀ id' c, st.runtime.running.get? id' = some c → c.matches patterns = true →
            c.nsId = ns → ⟨.start, id'⟩ ∈ rest
  | _ => True

/-- A matching container starts while the command is open, or before the loop lists the containers. -/
def StartSeen (patterns : List String) (st : WatchState) : WatchAction → Prop
  | .startContainer _ c =>
      c.matches patterns = true → st.subscription.isOpen = true ∨ st.monitor.running = false
  | _ => True

/-- Starts are seen, and no stop takes the namespace of a running container away, unless stops are free to. -/
def StepKeeps (free : Prop) (patterns : List String) (st : WatchState) (a : WatchAction) : Prop :=
  st.StartSeen patterns a ∧ (free ∨ st.StepCovers patterns a)

theorem StepCovers.keeps {patterns : List String} {st : WatchState} {a : WatchAction}
    (h : st.StepCovers patterns a) : st.StepKeeps False patterns a := by
  refine ⟨?_, Or.inr h⟩
  cases a with
  | startContainer id c => exact h
  | _ => trivial

/-! ## The invariant -/

/-- While the loop runs, the monitor has what the leaf says of every running container whose labels match, or
the start of the container is among the events to be handled. -/
structure Holds (leaf : MonitorState → Container → Prop) (patterns : List String) (st : WatchState) : Prop where
  held : st.monitor.running = true → ∀ id c, st.runtime.running.get? id = some c →
    c.matches patterns = true → leaf st.monitor c ∨ ⟨.start, id⟩ ∈ st.subscription.pending
  running : st.subscription ≠ .none → st.monitor.running = true

/-- What the steps of the monitor do for a leaf.  A baseline brings it about for all containers that are listed
and a start for the one that is reported; a start of another namespace keeps it, and so does a stop that is not
about the namespace, or one that is free to take it. -/
structure Leaf (leaf : MonitorState → Container → Prop) (free : Prop) (patterns : List String) : Prop where
  baseline : ∀ {order : IterOrder NsId} {monitor : MonitorState} {rt : Runtime} {id : String} {c : Container},
    (monitor.runningContainersBaseline order (rt.scan patterns)).running = true →
      rt.running.get? id = some c → c.matches patterns = true →
        leaf (monitor.runningContainersBaseline order (rt.scan patterns)) c
  start : ∀ {order : IterOrder NsId} {monitor : MonitorState} {p : String × Container},
    (monitor.start order (Runtime.infoOf p)).running = true →
      leaf (monitor.start order (Runtime.infoOf p)) p.2
  start_other : ∀ {order : IterOrder NsId} {monitor : MonitorState} {info : MountNSInfo} {c : Container},
    (monitor.start order info).running = true → info.nsId ≠ c.nsId → leaf monitor c →
      leaf (monitor.start order info) c
  stop : ∀ {order : IterOrder NsId} {monitor : MonitorState} {id : String} {c : Container}, leaf monitor c →
    (monitor.containerIdnsMapping.get? id = some c.nsId → free) → leaf (monitor.stop order id) c

/-- The namespace of the container is in the kernel map. -/
def InFilter (monitor : MonitorState) (c : Container) : Prop := c.nsId ∈ monitor.mntnsFilter.keys

theorem holds_init (leaf : MonitorState → Container → Prop) (patterns : List String) :
    init.Holds leaf patterns where
  held := by
    intro h
    cases h
  running := by
    intro h
    exact absurd rfl h

theorem Holds.noneMissed {patterns : List String} {st : WatchState} (h : st.Holds InFilter patterns) :
    st.NoneMissed patterns := by
  intro hopen id c hget hmatch
  have hrunning : st.monitor.running = true := h.running (by simp [hopen])
  rcases h.held hrunning id c hget hmatch with hkey | hpending
  · exact hkey
  · simp [hopen, Subscription.pending] at hpending

/-! ## What the monitor's steps leave in the kernel map -/

section Monitor

variable {order : IterOrder NsId} {monitor : MonitorState}

/-- After a baseline that does not raise the map holds what was listed. -/
theorem mem_keys_baseline {scan : Scan}
    (h : (monitor.runningContainersBaseline order scan).running = true) (ns : NsId) :
    ns ∈ (monitor.runningContainersBaseline order scan).mntnsFilter.keys ↔ ns ∈ scan.nsIds := by
  cases hload : (loadIntsetIntoMap order scan.nsIds monitor.mntnsFilter true false).error with
  | some err => simp [MonitorState.runningContainersBaseline, hload] at h
  | none => exact (MonitorState.baseline_spec hload).2.1 ns

/-- A start that does not raise adds the namespace. -/
theorem mem_keys_start {info : MountNSInfo} (h : (monitor.start order info).running = true) (ns : NsId) :
    ns ∈ (monitor.start order info).mntnsFilter.keys ↔
      ns ∈ monitor.mntnsFilter.keys ∨ ns = info.nsId := by
  cases hload : (loadIntsetIntoMap order [info.nsId] monitor.mntnsFilter false false).error with
  | some err => simp [MonitorState.start, hload] at h
  | none =>
      have hkeys := ((IntsetMap.load_add_spec order [info.nsId]).2 hload).2 ns
      simpa [MonitorState.start, hload] using hkeys

/-- A stop keeps every namespace but the one tracked for the container. -/
theorem mem_keys_stop {id : String} {ns : NsId} (hns : ns ∈ monitor.mntnsFilter.keys)
    (htracked : monitor.containerIdnsMapping.get? id ≠ some ns) :
    ns ∈ (monitor.stop order id).mntnsFilter.keys := by
  cases hget : monitor.containerIdnsMapping.get? id with
  | none => simpa [MonitorState.stop, hget] using hns
  | some tracked =>
      have hne : ns ≠ tracked := by
        rintro rfl
        exact htracked hget
      have hkept : ns ∈ (loadIntsetIntoMap order [tracked] monitor.mntnsFilter false true).final.keys := by
        by_cases hmem : tracked ∈ monitor.mntnsFilter.keys
        · exact ((IntsetMap.load_delete_of_mem order hmem).2.2 ns).2 ⟨hns, hne⟩
        · -- Nothing is deleted, and the loader raises.
          have hone : order.run [tracked] = [tracked] := List.perm_singleton.1 (order.perm [tracked])
          have hnone : monitor.mntnsFilter.erase? tracked = none := if_neg hmem
          simpa [loadIntsetIntoMap, hone, IntsetMap.deleteAll, hnone] using hns
      unfold MonitorState.stop
      simp only [hget]
      split
      · exact hns
      · split <;> exact hkept

theorem leaf_inFilter (patterns : List String) : Leaf InFilter False patterns where
  baseline h hget hmatch :=
    (mem_keys_baseline h _).2 (Runtime.mem_nsIds_scan.2 ⟨_, _, hget, hmatch, rfl⟩)
  start h := (mem_keys_start h _).2 (Or.inr rfl)
  start_other h _ hkey := (mem_keys_start h _).2 (Or.inl hkey)
  stop hkey hfree := mem_keys_stop hkey hfree

end Monitor

/-! ## One step -/

/-- Running containers with one namespace are one. -/
theorem Runtime.eq_of_nsId_eq {rt : Runtime} {id id' : String} {c c' : Container}
    (hget : rt.running.get? id = some c) (hget' : rt.running.get? id' = some c')
    (hns : c.nsId = c'.nsId) : c = c' :=
  List.inj_on_of_nodup_map rt.own (Dict.mem_values_iff.2 ⟨id, hget⟩)
    (Dict.mem_values_iff.2 ⟨id', hget'⟩) hns

section Step

variable {leaf : MonitorState → Container → Prop} {free : Prop} {patterns : List String} {st : WatchState}

/-- The loop goes on only from a monitor that runs. -/
theorem Holds.continueWith {subscription : Subscription} {monitor : MonitorState}
    (h : monitor.running = true → ∀ id c, st.runtime.running.get? id = some c →
      c.matches patterns = true → leaf monitor c ∨ ⟨.start, id⟩ ∈ subscription.pending) :
    (st.continueWith subscription monitor).Holds leaf patterns := by
  cases hrunning : monitor.running with
  | true =>
      refine ⟨?_, fun _ => hrunning⟩
      intro _ id c hget hmatch
      simpa [WatchState.continueWith, hrunning] using h hrunning id c hget hmatch
  | false =>
      refine ⟨?_, ?_⟩
      · intro htrue
        exact absurd (hrunning.symm.trans htrue) (by simp)
      · intro hsub
        simp [WatchState.continueWith, hrunning] at hsub

theorem mem_pending_emit {sub : Subscription} {event event' : ContainerEvent}
    (h : event ∈ sub.pending) : event ∈ (sub.emit event').pending := by
  cases sub with
  | none => exact h
  | opened events => exact List.mem_append_left _ h
  | ended events => exact h

/-- An event can only be queued on a subscription that was made. -/
theorem ne_none_of_emit {sub : Subscription} {event : ContainerEvent} (h : sub.emit event ≠ .none) :
    sub ≠ .none := by
  rintro rfl
  exact h rfl

theorem Holds.startContainer {id : String} {c : Container} {rt : Runtime} (h : st.Holds leaf patterns)
    (hstart : st.runtime.start id c = some rt)
    (hseen : c.matches patterns = true → st.subscription.isOpen = true ∨ st.monitor.running = false) :
    Holds leaf patterns { st with runtime := rt, subscription := st.subscription.emit ⟨.start, id⟩ } := by
  have hrunning : rt.running = st.runtime.running.set id c := by
    unfold Runtime.start at hstart
    split at hstart
    · cases hstart
      rfl
    · cases hstart
  constructor
  · intro hmonitor id' c' hget hmatch
    rw [hrunning, Dict.get?_set] at hget
    by_cases hid : id = id'
    · -- The start of the new container is still to be handled.
      subst hid
      rw [if_pos rfl] at hget
      cases hget
      rcases hseen hmatch with hopen | hstopped
      · right
        cases hsub : st.subscription with
        | opened events => simp [Subscription.emit, Subscription.pending]
        | none => simp [hsub, Subscription.isOpen] at hopen
        | ended events => simp [hsub, Subscription.isOpen] at hopen
      · exact absurd (hstopped.symm.trans hmonitor) (by simp)
    · rw [if_neg hid] at hget
      rcases h.held hmonitor id' c' hget hmatch with hleaf | hpending
      · exact Or.inl hleaf
      · exact Or.inr (mem_pending_emit hpending)
  · exact fun hsub => h.running (ne_none_of_emit hsub)

theorem Holds.stopContainer {id : String} (h : st.Holds leaf patterns) :
    Holds leaf patterns
      { st with
        runtime := st.runtime.stop id
        subscription := st.subscription.emit ⟨.stop, id⟩ } := by
  constructor
  · intro hmonitor id' c hget hmatch
    have hold : st.runtime.running.get? id' = some c := by
      rw [Runtime.stop, Dict.get?_erase] at hget
      split at hget
      · cases hget
      · exact hget
    rcases h.held hmonitor id' c hold hmatch with hleaf | hpending
    · exact Or.inl hleaf
    · exact Or.inr (mem_pending_emit hpending)
  · exact fun hsub => h.running (ne_none_of_emit hsub)

theorem pending_next {sub : Subscription} {event : ContainerEvent} {rest : List ContainerEvent}
    (h : sub.pending = event :: rest) : sub.next.pending = rest := by
  cases sub with
  | none => cases h
  | opened events =>
      have hevents : events = event :: rest := h
      simp [Subscription.next, Subscription.pending, hevents]
  | ended events =>
      have hevents : events = event :: rest := h
      simp [Subscription.next, Subscription.pending, hevents]

/-- An event that yields nothing is no loss: its container does not run, or its labels do not match. -/
theorem Holds.skip {event : ContainerEvent} {rest : List ContainerEvent} (h : st.Holds leaf patterns)
    (hpending : st.subscription.pending = event :: rest)
    (hyielded : yielded patterns st.runtime event = none) :
    Holds leaf patterns { st with subscription := st.subscription.next } := by
  constructor
  · intro hmonitor id c hget hmatch
    rcases h.held hmonitor id c hget hmatch with hleaf | hmem
    · exact Or.inl hleaf
    · right
      rw [hpending] at hmem
      rw [pending_next hpending]
      rcases List.mem_cons.1 hmem with rfl | hrest
      · -- This start would have been reported.
        simp only [yielded] at hyielded
        split at hyielded
        · rename_i hnone
          exact absurd (hget.symm.trans hnone) (by simp)
        · rename_i c' hsome
          have hEq : c = c' := Option.some.inj (hget.symm.trans hsome)
          rw [if_pos (hEq ▸ hmatch)] at hyielded
          cases hyielded
      · exact hrest
  · intro hsub
    apply h.running
    intro hnone
    simp [hnone, Subscription.next] at hsub

/-- A start that is reported is one of a running container whose labels match. -/
theorem yielded_start {rt : Runtime} {id : String} {ev : MonitorEvent}
    (h : yielded patterns rt ⟨.start, id⟩ = some ev) :
    ∃ c, rt.running.get? id = some c ∧ ev.info = Runtime.infoOf (id, c) := by
  simp only [yielded] at h
  split at h
  · cases h
  · rename_i c hsome
    split at h
    · cases h
      exact ⟨c, hsome, rfl⟩
    · cases h

/-- After a start the leaf holds of the container that it is about, and of those of which it held before. -/
theorem Holds.after_start (hleaf : Leaf leaf free patterns) {order : IterOrder NsId} {startedId : String}
    {started : Container} {rest : List ContainerEvent} (h : st.Holds leaf patterns)
    (hloop : st.monitor.running = true)
    (hpending : st.subscription.pending = ⟨.start, startedId⟩ :: rest)
    (hstarted : st.runtime.running.get? startedId = some started)
    (hrunning : (st.monitor.start order (Runtime.infoOf (startedId, started))).running = true)
    {id : String} {c : Container} (hget : st.runtime.running.get? id = some c)
    (hmatch : c.matches patterns = true) :
    leaf (st.monitor.start order (Runtime.infoOf (startedId, started))) c ∨ ⟨.start, id⟩ ∈ rest := by
  by_cases hns : started.nsId = c.nsId
  · -- No other running container has this namespace.
    have hEq : started = c := Runtime.eq_of_nsId_eq hstarted hget hns
    exact Or.inl (hEq ▸ hleaf.start hrunning)
  · rcases h.held hloop id c hget hmatch with hheld | hmem
    · exact Or.inl (hleaf.start_other hrunning hns hheld)
    · rw [hpending] at hmem
      rcases List.mem_cons.1 hmem with hEq | hrest
      · have hid : id = startedId := congrArg ContainerEvent.containerId hEq
        have hc : started = c := Option.some.inj (hstarted.symm.trans (hid ▸ hget))
        exact absurd (congrArg Container.nsId hc) hns
      · exact Or.inr hrest

/-- A stop takes at most what concerns the namespace that is tracked for its container. -/
theorem Holds.after_stop (hleaf : Leaf leaf free patterns) {order : IterOrder NsId} {stoppedId : String}
    {rest : List ContainerEvent} (h : st.Holds leaf patterns) (hloop : st.monitor.running = true)
    (hpending : st.subscription.pending = ⟨.stop, stoppedId⟩ :: rest)
    {id : String} {c : Container} (hget : st.runtime.running.get? id = some c)
    (hmatch : c.matches patterns = true)
    (howner : st.monitor.containerIdnsMapping.get? stoppedId = some c.nsId → free ∨ ⟨.start, id⟩ ∈ rest) :
    leaf (st.monitor.stop order stoppedId) c ∨ ⟨.start, id⟩ ∈ rest := by
  by_cases hrest : ⟨.start, id⟩ ∈ rest
  · exact Or.inr hrest
  · rcases h.held hloop id c hget hmatch with hheld | hmem
    · -- Where the namespace is that of the stopped container, the stop is free to take it.
      exact Or.inl (hleaf.stop hheld fun htracked => (howner htracked).resolve_right hrest)
    · rw [hpending] at hmem
      rcases List.mem_cons.1 hmem with hEq | hmem
      · cases hEq
      · exact absurd hmem hrest

/-- Handling an event keeps what the leaf says of the running containers. -/
theorem Holds.handle (hleaf : Leaf leaf free patterns) {order : IterOrder NsId} {now : Int}
    {st' : WatchState} (h : st.Holds leaf patterns)
    (hkeeps : st.StepKeeps free patterns (.handle order now))
    (hstep : st.step patterns (.handle order now) = some st') : st'.Holds leaf patterns := by
  unfold WatchState.step at hstep
  cases hpending : st.subscription.pending with
  | nil => simp [hpending] at hstep
  | cons event rest =>
      simp only [hpending] at hstep
      cases hyielded : yielded patterns st.runtime event with
      | none =>
          simp only [hyielded, Option.some.injEq] at hstep
          subst hstep
          exact h.skip hpending hyielded
      | some ev =>
          simp only [hyielded] at hstep
          rcases Option.map_eq_some_iff.1 hstep with ⟨monitor, hmonitor, rfl⟩
          apply Holds.continueWith
          intro hrunning id c hget hmatch
          simp only [MonitorState.step, Option.ite_none_right_eq_some] at hmonitor
          rcases hmonitor with ⟨hloop, hmonitor⟩
          rw [pending_next hpending]
          by_cases hdue : st.monitor.Due now
          · -- The due baseline takes the place of the event.
            simp only [if_pos hdue, Option.some.injEq] at hmonitor
            subst hmonitor
            exact Or.inl (hleaf.baseline hrunning hget hmatch)
          · simp only [if_neg hdue] at hmonitor
            rcases event with ⟨eventType, eventId⟩
            cases eventType with
            | start =>
                rcases yielded_start hyielded with ⟨started, hstarted, hinfo⟩
                have htype : (Runtime.infoOf (eventId, started)).eventType = .start := rfl
                simp only [hinfo, htype, Option.some.injEq] at hmonitor
                subst hmonitor
                exact h.after_start hleaf hloop hpending hstarted hrunning hget hmatch
            | stop =>
                have hev : ev.info = ⟨eventId, "", 0, .stop⟩ := by
                  simp only [yielded, Option.some.injEq] at hyielded
                  rw [← hyielded]
                simp only [hev, Option.some.injEq] at hmonitor
                subst hmonitor
                refine h.after_stop hleaf hloop hpending hget hmatch ?_
                intro htracked
                rcases hkeeps.2 with hfree | hcovers
                · exact Or.inl hfree
                · exact Or.inr (hcovers eventId rest hpending hdue _ htracked id c hget hmatch rfl)

theorem Holds.step (hleaf : Leaf leaf free patterns) {action : WatchAction} {st' : WatchState}
    (h : st.Holds leaf patterns) (hkeeps : st.StepKeeps free patterns action)
    (hstep : st.step patterns action = some st') : st'.Holds leaf patterns := by
  cases action with
  | startContainer id c =>
      rcases Option.map_eq_some_iff.1 hstep with ⟨rt, hstart, rfl⟩
      exact h.startContainer hstart hkeeps.1
  | stopContainer id =>
      simp only [WatchState.step, Option.ite_none_right_eq_some, Option.some.injEq] at hstep
      rcases hstep with ⟨_, rfl⟩
      exact h.stopContainer
  | enter order now =>
      simp only [WatchState.step, Option.ite_none_left_eq_some] at hstep
      rcases Option.map_eq_some_iff.1 hstep.2 with ⟨monitor, hmonitor, rfl⟩
      cases hmonitor
      apply Holds.continueWith
      intro hrunning id c hget hmatch
      exact Or.inl (hleaf.baseline hrunning hget hmatch)
  | subscribe =>
      simp only [WatchState.step, Option.ite_none_right_eq_some, Option.some.injEq] at hstep
      rcases hstep with ⟨⟨hrunning, _, hnil⟩, rfl⟩
      refine ⟨?_, fun _ => hrunning⟩
      intro _ id c hget hmatch
      rcases h.held hrunning id c hget hmatch with hheld | hmem
      · exact Or.inl hheld
      · simp [hnil] at hmem
  | handle order now => exact h.handle hleaf hkeeps hstep
  | endCommand =>
      cases hsub : st.subscription with
      | opened events =>
          simp only [WatchState.step, hsub, Option.some.injEq] at hstep
          subst hstep
          refine ⟨?_, fun _ => h.running (by simp [hsub])⟩
          intro hmonitor id c hget hmatch
          simpa [hsub, Subscription.pending] using h.held hmonitor id c hget hmatch
      | none => simp [WatchState.step, hsub] at hstep
      | ended events => simp [WatchState.step, hsub] at hstep

end Step

/-- In every run whose steps meet their condition, the leaf holds of the running containers. -/
theorem holds_of_stepKeeps {leaf : MonitorState → Container → Prop} {free : Prop} {patterns : List String}
    (hleaf : Leaf leaf free patterns) {actions : List WatchAction}
    (hmeet : Run.StepsMeet (step patterns) (StepKeeps free patterns) init actions) :
    ∀ st ∈ Run.visited (step patterns) init actions, st.Holds leaf patterns :=
  Run.visited_of_stepsMeet (I := fun st => st.Holds leaf patterns)
    (fun _ _ _ h hkeeps hstep => h.step hleaf hkeeps hstep) (holds_init leaf patterns) hmeet

/-- In every interleaving of the runtime with the monitor, no running container whose labels match is
missed in a state where the command is open and its events are handled, as long as every step covers:
no matching container starts after a listing while no command is open, and no stop removes the
namespace of a running container. -/
theorem none_missed_of_steps_cover {patterns : List String} {actions : List WatchAction}
    (hmeet : Run.StepsMeet (step patterns) (StepCovers patterns) init actions) :
    ∀ st ∈ Run.visited (step patterns) init actions, st.NoneMissed patterns := by
  exact fun st hst =>
    (holds_of_stepKeeps (leaf_inFilter patterns) (hmeet.mono fun _ _ h => h.keeps) st hst).noneMissed

/-! ### A start that is delivered, and a start between listing and subscription -/

namespace Example

def web : Container := ⟨"web", Dict.empty.set "app" "web", 10⟩

/-- The container starts after the subscription, and its event is handled. -/
def delivered : List WatchAction :=
  [.enter .listed 0, .subscribe, .startContainer "c1" web, .handle .listed 1]

/-- The container starts after the listing and before the subscription. -/
def inTheGap : List WatchAction :=
  [.enter .listed 0, .startContainer "c1" web, .subscribe]

end Example

theorem delivered_start_covered :
    Run.StepsMeet (step ["app=web"]) (StepCovers ["app=web"]) init Example.delivered ∧
      ∀ st ∈ Run.visited (step ["app=web"]) init Example.delivered, st.NoneMissed ["app=web"] := by
  have hmeet : Run.StepsMeet (step ["app=web"]) (StepCovers ["app=web"]) init Example.delivered := by
    refine ⟨trivial, trivial, ?_, ?_, trivial⟩
    · intro _
      exact Or.inl rfl
    · intro id rest hpending
      have hstart : [(⟨.start, "c1"⟩ : ContainerEvent)] = ⟨.stop, id⟩ :: rest := hpending
      simp at hstart
  exact ⟨hmeet, none_missed_of_steps_cover hmeet⟩

theorem gap_start_missed :
    ∃ st ∈ Run.visited (step ["app=web"]) init Example.inTheGap, st.subscription = .opened [] ∧
      st.runtime.running.get? "c1" = some Example.web ∧ Example.web.matches ["app=web"] = true ∧
      Example.web.nsId ∉ st.monitor.mntnsFilter.keys := by
  refine ⟨(Run.visited (step ["app=web"]) init Example.inTheGap).get
    ⟨2, by decide +kernel⟩, List.get_mem _ _, ?_⟩
  decide +kernel

end WatchState

end Containers

end PidtreeBcc
