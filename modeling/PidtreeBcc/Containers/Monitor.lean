import PidtreeBcc.Filtering.IntsetMap
import PidtreeBcc.Support.Run

/-!
# Monitor — the bookkeeping of containers that match the labels

The monitor keeps three structures: the kernel map of mount namespaces, the namespace of each container
id, and the container name of each namespace.  A baseline replaces the first one and merges into the
other two; start and stop events update all three.  A due baseline takes the place of the event that
triggered it.

The three agree as long as no step meets a stale entry, and the first stale entry sets them apart.
-/

namespace PidtreeBcc

open Support

namespace Containers

inductive ContainerEventType
  | start
  | stop
  deriving DecidableEq, Repr

structure MountNSInfo where
  containerId : String
  containerName : String
  nsId : NsId
  eventType : ContainerEventType
  deriving DecidableEq, Repr

/-- What a listing of the running containers finds: each container once, with its own namespace. -/
structure Scan where
  infos : List MountNSInfo
  positive : ∀ info ∈ infos, info.nsId ≠ 0
  ids_nodup : (infos.map MountNSInfo.containerId).Nodup
  nsIds_nodup : (infos.map MountNSInfo.nsId).Nodup

/-- An event of the monitor; a start is reported with the namespace of the container. -/
structure MonitorEvent where
  info : MountNSInfo
  positive : info.eventType = .start → info.nsId ≠ 0

def CONTAINER_BASELINE_INTERVAL : Int := 30 * 60

/-- The size that the template gives to the kernel map. -/
def MNTNS_FILTER_MAP_SIZE : Nat := 512

structure MonitorState where
  mntnsFilter : IntsetMap
  containerIdnsMapping : Dict String NsId
  containerNameMapping : Dict NsId String
  lastBaseline : Int
  /-- The loop is running: it was entered and has not raised since. -/
  running : Bool
  /-- What the last step raised. -/
  raised : Option PyErr

inductive MonitorAction
  | enter (order : IterOrder NsId) (now : Int) (scan : Scan)
  | event (order : IterOrder NsId) (now : Int) (scan : Scan) (ev : MonitorEvent)

namespace Scan

def nsIds (scan : Scan) : List NsId := scan.infos.map MountNSInfo.nsId

def ids (scan : Scan) : List String := scan.infos.map MountNSInfo.containerId

def empty : Scan := ⟨[], by simp, by simp, by simp⟩

end Scan

namespace MonitorState

def init : MonitorState :=
  ⟨BoundedMap.empty MNTNS_FILTER_MAP_SIZE, Dict.empty, Dict.empty, 0, false, none⟩

/-- `_running_containers_baseline`; an exception leaves the loop. -/
def runningContainersBaseline (order : IterOrder NsId) (scan : Scan) (st : MonitorState) :
    MonitorState :=
  let r := loadIntsetIntoMap order scan.nsIds st.mntnsFilter true false
  match r.error with
  | some err =>
      { st with
        mntnsFilter := r.final
        running := false
        raised := some err }
  | none =>
      { st with
        mntnsFilter := r.final
        -- Names and ids are added to those from before; a baseline removes none.
        containerNameMapping :=
          st.containerNameMapping.update (scan.infos.map fun info => (info.nsId, info.containerName))
        containerIdnsMapping :=
          st.containerIdnsMapping.update (scan.infos.map fun info => (info.containerId, info.nsId))
        raised := none }

/-- The handling of a stop event. -/
def stop (order : IterOrder NsId) (containerId : String) (st : MonitorState) : MonitorState :=
  match st.containerIdnsMapping.get? containerId with
  -- Nothing is known of the container, or it has stopped before.
  | none => { st with raised := none }
  | some nsId =>
      let popped := { st with containerIdnsMapping := st.containerIdnsMapping.erase containerId }
      -- `0` counts as no namespace.
      if nsId = 0 then { popped with raised := none }
      else
        let r := loadIntsetIntoMap order [nsId] st.mntnsFilter false true
        match r.error with
        | some err =>
            { popped with
              mntnsFilter := r.final
              running := false
              raised := some err }
        | none =>
            { popped with
              mntnsFilter := r.final
              containerNameMapping := st.containerNameMapping.erase nsId
              raised := none }

/-- The handling of a start event. -/
def start (order : IterOrder NsId) (info : MountNSInfo) (st : MonitorState) : MonitorState :=
  let r := loadIntsetIntoMap order [info.nsId] st.mntnsFilter false false
  match r.error with
  | some err =>
      { st with
        mntnsFilter := r.final
        running := false
        raised := some err }
  | none =>
      { st with
        mntnsFilter := r.final
        containerNameMapping := st.containerNameMapping.set info.nsId info.containerName
        containerIdnsMapping := st.containerIdnsMapping.set info.containerId info.nsId
        raised := none }

/-- A baseline is due. -/
def Due (st : MonitorState) (now : Int) : Prop :=
  CONTAINER_BASELINE_INTERVAL < now - st.lastBaseline

instance (st : MonitorState) (now : Int) : Decidable (st.Due now) :=
  inferInstanceAs (Decidable (_ < _))

/-- One step of `_monitor_running_containers`.  The loop can be entered anew at any time, because
`never_crash` does so after every exception. -/
def step (st : MonitorState) : MonitorAction → Option MonitorState
  | .enter order now scan =>
      some (runningContainersBaseline order scan { st with lastBaseline := now, running := true })
  | .event order now scan ev =>
      if st.running then
        if st.Due now then
          some (runningContainersBaseline order scan { st with lastBaseline := now })
        else
          match ev.info.eventType with
          | .stop => some (stop order ev.info.containerId st)
          | .start => some (start order ev.info st)
      else none

/-! ## When the three structures agree -/

/-- The last step did not raise, and the namespaces in the kernel map are those that containers are
mapped to and those that have a name. -/
structure Consistent (st : MonitorState) : Prop where
  raised : st.raised = none
  filter : ∀ ns, ns ∈ st.mntnsFilter.keys ↔ ns ∈ st.containerIdnsMapping.values
  names : ∀ ns, ns ∈ st.containerNameMapping.keys ↔ ns ∈ st.containerIdnsMapping.values

/-- The kernel map has room for the namespaces. -/
def HasRoom (st : MonitorState) (nsIds : List NsId) : Prop :=
  (st.mntnsFilter.keys ++ nsIds).toFinset.card ≤ st.mntnsFilter.capacity

/-- The listing still shows every namespace that is tracked. -/
def BaselineFits (st : MonitorState) (scan : Scan) : Prop :=
  st.HasRoom scan.nsIds ∧ ∀ ns ∈ st.containerIdnsMapping.values, ns ∈ scan.nsIds

/-- No other tracked container has the namespace of the one that stops. -/
def StopFits (st : MonitorState) (containerId : String) : Prop :=
  ∀ ns, st.containerIdnsMapping.get? containerId = some ns →
    ∀ id, id ≠ containerId → st.containerIdnsMapping.get? id ≠ some ns

/-- The container that starts is not tracked with a namespace of its own that is now another one. -/
def StartFits (st : MonitorState) (info : MountNSInfo) : Prop :=
  st.HasRoom [info.nsId] ∧
    ∀ ns, st.containerIdnsMapping.get? info.containerId = some ns →
      ns = info.nsId ∨ ∃ id, id ≠ info.containerId ∧ st.containerIdnsMapping.get? id = some ns

/-- The condition of each step on the state before it. -/
def StepFits (st : MonitorState) : MonitorAction → Prop
  | .enter _ _ scan => st.BaselineFits scan
  | .event _ now scan ev =>
      if st.Due now then st.BaselineFits scan
      else
        match ev.info.eventType with
        | .stop => st.StopFits ev.info.containerId
        | .start => st.StartFits ev.info

/-- The structures agree, and no tracked namespace is zero. -/
structure Inv (st : MonitorState) : Prop where
  consistent : st.Consistent
  positive : ∀ ns ∈ st.containerIdnsMapping.values, ns ≠ 0

theorem inv_init : init.Inv :=
  ⟨⟨rfl, by simp [init], by simp [init]⟩, by simp [init]⟩

/-! ## A baseline -/

theorem mem_values_update (d : Dict String NsId) (scan : Scan) (ns : NsId) :
    ns ∈ (d.update (scan.infos.map fun info => (info.containerId, info.nsId))).values ↔
      ns ∈ scan.nsIds ∨ ∃ id, id ∉ scan.ids ∧ d.get? id = some ns := by
  have hfst : (scan.infos.map fun info => (info.containerId, info.nsId)).map Prod.fst = scan.ids := by
    simp [Scan.ids, Function.comp_def]
  have hnodup : ((scan.infos.map fun info => (info.containerId, info.nsId)).map Prod.fst).Nodup := by
    rw [hfst]
    exact scan.ids_nodup
  rw [Dict.mem_values_iff]
  constructor
  · rintro ⟨id, hid⟩
    by_cases hmem : id ∈ scan.ids
    · rcases List.mem_map.1 hmem with ⟨info, hinfo, rfl⟩
      have hget := Dict.get?_update_of_mem (d := d) hnodup
        (List.mem_map.2 ⟨info, hinfo, rfl⟩)
      rw [hid] at hget
      cases hget
      exact Or.inl (List.mem_map.2 ⟨info, hinfo, rfl⟩)
    · rw [Dict.get?_update_of_not_mem (hfst ▸ hmem)] at hid
      exact Or.inr ⟨id, hmem, hid⟩
  · rintro (hns | ⟨id, hmem, hid⟩)
    · rcases List.mem_map.1 hns with ⟨info, hinfo, rfl⟩
      exact ⟨info.containerId, Dict.get?_update_of_mem hnodup (List.mem_map.2 ⟨info, hinfo, rfl⟩)⟩
    · refine ⟨id, ?_⟩
      rw [Dict.get?_update_of_not_mem (hfst ▸ hmem)]
      exact hid

/-- What a baseline leaves when it could load the map: it replaces the kernel map and merges into the
other two. -/
theorem baseline_spec {st : MonitorState} {order : IterOrder NsId} {scan : Scan}
    (hload : (loadIntsetIntoMap order scan.nsIds st.mntnsFilter true false).error = none) :
    (st.runningContainersBaseline order scan).raised = none ∧
      (∀ ns, ns ∈ (st.runningContainersBaseline order scan).mntnsFilter.keys ↔ ns ∈ scan.nsIds) ∧
      (∀ ns, ns ∈ (st.runningContainersBaseline order scan).containerNameMapping.keys ↔
        ns ∈ st.containerNameMapping.keys ∨ ns ∈ scan.nsIds) ∧
      ∀ ns, ns ∈ (st.runningContainersBaseline order scan).containerIdnsMapping.values ↔
        ns ∈ scan.nsIds ∨ ∃ id, id ∉ scan.ids ∧ st.containerIdnsMapping.get? id = some ns := by
  have hkeys := ((IntsetMap.load_diff_spec order scan.nsIds (m := st.mntnsFilter)).2 hload).2
  have hfst : (scan.infos.map fun info => (info.nsId, info.containerName)).map Prod.fst =
      scan.nsIds := by
    simp [Scan.nsIds, Function.comp_def]
  refine ⟨by simp [runningContainersBaseline, hload], ?_, ?_, ?_⟩
  · intro ns
    simpa [runningContainersBaseline, hload] using hkeys ns
  · intro ns
    simp only [runningContainersBaseline, hload, Dict.mem_keys_update, hfst]
  · intro ns
    simpa [runningContainersBaseline, hload] using
      mem_values_update st.containerIdnsMapping scan ns

/-- A baseline keeps the structures in agreement just when the listing shows all that is tracked. -/
theorem Inv.baseline {st : MonitorState} (h : st.Inv) (order : IterOrder NsId) (scan : Scan) :
    (st.BaselineFits scan → (st.runningContainersBaseline order scan).Inv) ∧
      ((st.runningContainersBaseline order scan).Consistent → st.BaselineFits scan) := by
  have herror := (IntsetMap.load_diff_spec order scan.nsIds (m := st.mntnsFilter)).1
  cases hload : (loadIntsetIntoMap order scan.nsIds st.mntnsFilter true false).error with
  | some err =>
      -- The ids do not fit in the map, so the baseline raises.
      rw [hload] at herror
      constructor
      · intro hfits
        exact absurd (herror.2 hfits.1) (by simp)
      · intro hcons
        have hraised := hcons.raised
        simp [runningContainersBaseline, hload] at hraised
  | none =>
      have hroom : st.HasRoom scan.nsIds := herror.1 hload
      rcases baseline_spec hload with ⟨hraised, hfilter, hnames, hvalues⟩
      constructor
      · intro hfits
        -- Whatever is tracked beside the listed containers has a listed namespace.
        have hlisted : ∀ ns,
            ns ∈ (st.runningContainersBaseline order scan).containerIdnsMapping.values ↔
              ns ∈ scan.nsIds := by
          intro ns
          rw [hvalues]
          apply or_iff_left_of_imp
          rintro ⟨id, _, hid⟩
          exact hfits.2 ns (Dict.mem_values_iff.2 ⟨id, hid⟩)
        refine ⟨⟨hraised, ?_, ?_⟩, ?_⟩
        · intro ns
          rw [hfilter, hlisted]
        · intro ns
          rw [hnames, hlisted, h.consistent.names]
          exact or_iff_right_of_imp (hfits.2 ns)
        · intro ns hns
          rcases List.mem_map.1 ((hlisted ns).1 hns) with ⟨info, hinfo, rfl⟩
          exact scan.positive info hinfo
      · intro hcons
        refine ⟨hroom, ?_⟩
        intro ns hns
        -- A tracked namespace keeps its name, so it must be in the kernel map.
        have hname := (hnames ns).2 (Or.inl ((h.consistent.names ns).2 hns))
        exact (hfilter ns).1 ((hcons.filter ns).2 ((hcons.names ns).1 hname))

/-! ## A stop -/

/-- What a stop of a tracked container leaves. -/
theorem Inv.stop_eq {st : MonitorState} (h : st.Inv) (order : IterOrder NsId) {containerId : String}
    {nsId : NsId} (hget : st.containerIdnsMapping.get? containerId = some nsId) :
    st.stop order containerId =
      { st with
        containerIdnsMapping := st.containerIdnsMapping.erase containerId
        mntnsFilter := (loadIntsetIntoMap order [nsId] st.mntnsFilter false true).final
        containerNameMapping := st.containerNameMapping.erase nsId
        raised := none } ∧
      ∀ ns, ns ∈ (loadIntsetIntoMap order [nsId] st.mntnsFilter false true).final.keys ↔
        ns ∈ st.mntnsFilter.keys ∧ ns ≠ nsId := by
  have hvalue : nsId ∈ st.containerIdnsMapping.values := Dict.mem_values_iff.2 ⟨_, hget⟩
  have hpos : nsId ≠ 0 := h.positive nsId hvalue
  -- The namespace is in the kernel map, so deleting it does not raise.
  rcases IntsetMap.load_delete_of_mem order ((h.consistent.filter nsId).2 hvalue) with
    ⟨herror, _, hkeys⟩
  refine ⟨?_, hkeys⟩
  simp only [MonitorState.stop, hget, if_neg hpos, herror]

/-- A stop keeps the structures in agreement just when no other container has the namespace. -/
theorem Inv.stop {st : MonitorState} (h : st.Inv) (order : IterOrder NsId) (containerId : String) :
    (st.StopFits containerId → (st.stop order containerId).Inv) ∧
      ((st.stop order containerId).Consistent → st.StopFits containerId) := by
  cases hget : st.containerIdnsMapping.get? containerId with
  | none =>
      have hstop : st.stop order containerId = { st with raised := none } := by
        simp [MonitorState.stop, hget]
      rw [hstop]
      constructor
      · intro _
        exact ⟨⟨rfl, h.consistent.filter, h.consistent.names⟩, h.positive⟩
      · intro _ ns hns
        rw [hget] at hns
        cases hns
  | some nsId =>
      rcases h.stop_eq order hget with ⟨hstop, hkeys⟩
      rw [hstop]
      constructor
      · intro hfits
        -- The stopped container was the only one with this namespace.
        have hrest : ∀ ns, ns ∈ (st.containerIdnsMapping.erase containerId).values ↔
            ns ∈ st.containerIdnsMapping.values ∧ ns ≠ nsId :=
          fun ns => Dict.mem_values_erase_of_own hget (hfits nsId hget)
        refine ⟨⟨rfl, ?_, ?_⟩, ?_⟩
        · intro ns
          rw [hkeys, hrest, h.consistent.filter]
        · intro ns
          rw [Dict.mem_keys_erase, hrest, h.consistent.names]
          exact and_comm
        · intro ns hns
          exact h.positive ns ((hrest ns).1 hns).1
      · intro hcons ns hns id hne hid
        rw [hget] at hns
        cases hns
        -- The other container still has a value that the kernel map has lost.
        have hvalue := Dict.mem_values_erase.2 ⟨id, hne, hid⟩
        exact ((hkeys nsId).1 ((hcons.filter nsId).2 hvalue)).2 rfl

/-! ## A start -/

theorem start_of_full {st : MonitorState} {order : IterOrder NsId} {info : MountNSInfo} {err : PyErr}
    (h : (loadIntsetIntoMap order [info.nsId] st.mntnsFilter false false).error = some err) :
    ¬ (st.start order info).Consistent := by
  intro hcons
  have hraised := hcons.raised
  simp [MonitorState.start, h] at hraised

theorem start_of_room {st : MonitorState} {order : IterOrder NsId} {info : MountNSInfo}
    (h : (loadIntsetIntoMap order [info.nsId] st.mntnsFilter false false).error = none) :
    st.start order info =
      { st with
        mntnsFilter := (loadIntsetIntoMap order [info.nsId] st.mntnsFilter false false).final
        containerNameMapping := st.containerNameMapping.set info.nsId info.containerName
        containerIdnsMapping := st.containerIdnsMapping.set info.containerId info.nsId
        raised := none } := by
  simp [MonitorState.start, h]

/-- A start keeps the structures in agreement just when it does not leave a stale namespace behind. -/
theorem Inv.start {st : MonitorState} (h : st.Inv) (order : IterOrder NsId) {info : MountNSInfo}
    (hpos : info.nsId ≠ 0) :
    (st.StartFits info → (st.start order info).Inv) ∧
      ((st.start order info).Consistent → st.StartFits info) := by
  rcases IntsetMap.load_add_spec order [info.nsId] (m := st.mntnsFilter) with
    ⟨herror, hfinal⟩
  cases hload : (loadIntsetIntoMap order [info.nsId] st.mntnsFilter false false).error with
  | some err =>
      -- The map is full, so the start raises.
      rw [hload] at herror
      constructor
      · intro hfits
        exact absurd (herror.2 hfits.1) (by simp)
      · exact fun hcons => absurd hcons (start_of_full hload)
  | none =>
      rcases hfinal hload with ⟨_, hkeys⟩
      have hroom : st.HasRoom [info.nsId] := herror.1 hload
      rw [start_of_room hload]
      constructor
      · intro hfits
        -- The namespace that the container had before is its new one or still held by another.
        have hall : ∀ ns, ns ∈ (st.containerIdnsMapping.set info.containerId info.nsId).values ↔
            ns ∈ st.containerIdnsMapping.values ∨ ns = info.nsId :=
          fun ns => Dict.mem_values_set_of_held hfits.2
        refine ⟨⟨rfl, ?_, ?_⟩, ?_⟩
        · intro ns
          rw [hkeys, hall, h.consistent.filter, List.mem_singleton]
        · intro ns
          rw [Dict.mem_keys_set, hall, h.consistent.names]
          exact or_comm
        · intro ns hns
          rcases (hall ns).1 hns with hold | rfl
          · exact h.positive ns hold
          · exact hpos
      · intro hcons
        refine ⟨hroom, ?_⟩
        intro ns hns
        -- The kernel map keeps the namespace that the container had, so it must be tracked.
        have hmem : ns ∈ st.mntnsFilter.keys :=
          (h.consistent.filter ns).2 (Dict.mem_values_iff.2 ⟨_, hns⟩)
        have hvalue := (hcons.filter ns).1 ((hkeys ns).2 (Or.inl hmem))
        exact Dict.mem_values_set.1 hvalue

/-! ## Runs -/

theorem Inv.of_timestamp {st : MonitorState} (h : st.Inv) (now : Int) (running : Bool) :
    Inv { st with lastBaseline := now, running := running } :=
  ⟨⟨h.consistent.raised, h.consistent.filter, h.consistent.names⟩, h.positive⟩

/-- One step keeps the structures in agreement just when it meets its condition. -/
theorem Inv.step {st st' : MonitorState} {action : MonitorAction} (h : st.Inv)
    (hstep : st.step action = some st') :
    (st.StepFits action → st'.Inv) ∧ (st'.Consistent → st.StepFits action) := by
  cases action with
  | enter order now scan =>
      cases hstep
      exact (h.of_timestamp now true).baseline order scan
  | event order now scan ev =>
      simp only [MonitorState.step] at hstep
      by_cases hrunning : st.running = true
      · rw [if_pos hrunning] at hstep
        unfold StepFits
        by_cases hdue : st.Due now
        · simp only [if_pos hdue, Option.some.injEq] at hstep ⊢
          subst hstep
          exact (h.of_timestamp now st.running).baseline order scan
        · simp only [if_neg hdue] at hstep ⊢
          cases htype : ev.info.eventType with
          | stop =>
              simp only [htype, Option.some.injEq] at hstep ⊢
              subst hstep
              exact h.stop order ev.info.containerId
          | start =>
              simp only [htype, Option.some.injEq] at hstep ⊢
              subst hstep
              exact h.start order (ev.positive htype)
      · rw [if_neg hrunning] at hstep
        cases hstep

/-- In a run of the monitor the kernel map, the values of the id mapping and the keys of the name mapping
stay equal, without an exception, if and only if every step meets its condition: a baseline lists every
tracked namespace, a stopped container does not share its namespace with a tracked one, a started one
leaves no stale namespace behind, and the kernel map has room. -/
theorem consistent_iff_steps_fit (actions : List MonitorAction) :
    (∀ st ∈ Run.visited MonitorState.step init actions, st.Consistent) ↔
      Run.StepsMeet MonitorState.step StepFits init actions := by
  refine Run.visited_iff_stepsMeet (I := Inv) (fun st h => h.consistent) ?_ ?_ inv_init
  · intro st action st' h hfits hstep
    exact (h.step hstep).1 hfits
  · intro st action st' h hfits hstep hcons
    exact hfits ((h.step hstep).2 hcons)

/-! ### A stop that a due baseline swallows -/

namespace Example

def redis : MountNSInfo := ⟨"c1", "redis", 10, .start⟩

def onlyRedis : Scan := ⟨[redis], by decide, by decide, by decide⟩

/-- `c1` is found at time 0 and stops at time 2000, when a baseline is due that finds nothing. -/
def swallowedStop : List MonitorAction :=
  [.enter .listed 0 onlyRedis,
    .event .listed 2000 Scan.empty ⟨⟨"c1", "", 0, .stop⟩, by decide⟩]

end Example

/-- The stopped container stays in the id mapping while the kernel map is empty. -/
theorem stale_after_swallowed_stop :
    ∃ st ∈ Run.visited MonitorState.step init Example.swallowedStop, ¬ st.Consistent := by
  refine ⟨(Run.visited MonitorState.step init Example.swallowedStop).get ⟨1, by decide +kernel⟩,
    List.get_mem _ _, ?_⟩
  intro h
  have hfilter := h.filter 10
  revert hfilter
  decide +kernel

end MonitorState

end Containers

end PidtreeBcc
