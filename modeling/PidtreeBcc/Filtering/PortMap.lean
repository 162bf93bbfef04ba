import Mathlib.Data.List.Chain
import PidtreeBcc.Filtering.NetMap
import PidtreeBcc.Support.Overwrite

/-!
# PortMap — the global port filter

The global filter is an array of 65536 bytes.  Element 0 holds the mode, every other element tells
whether its port is listed.  The loader writes the elements one at a time: the listed ports first,
then the leftovers of the previous load, and the mode last.
-/

namespace PidtreeBcc

open Support

abbrev PortFilterMap := BitVec 16 → BitVec 8

namespace PortFilterMap

/-- The array as it is allocated. -/
def zeros : PortFilterMap := fun _ => 0

/-- The element that `ebpf_map[c_int(port)]` names. -/
def index (port : Int) : Except PyErr (BitVec 16) :=
  let key := (BitVec.ofInt 32 port).toInt
  if 65536 ≤ key then .error (.builtin .IndexError)
  -- Only the upper bound is checked on the Python side, the kernel refuses the rest.
  else if key < 0 then .error (.builtin .Exception)
  else .ok (BitVec.ofInt 16 key)

/-- Ports above 0 whose element is set. -/
def currentState (m : PortFilterMap) : List Int :=
  ((List.range 65536).filter (fun k => 0 < k ∧ 0 < m (BitVec.ofNat 16 k))).map Int.ofNat

/-- Assign the elements one after the other. -/
def setItems : List (Int × BitVec 8) → PortFilterMap → LoadRun PortFilterMap
  | [], m => ⟨[], m, none⟩
  | (port, value) :: rest, m =>
      match index port with
      -- All elements are parsed before the first one is written.
      | .error err => ⟨[], m, some err⟩
      | .ok i =>
          let r := setItems rest (Function.update m i value)
          ⟨Function.update m i value :: r.states, r.final, r.error⟩

end PortFilterMap

/-! ## The loader -/

/-- `range(start, stop)`. -/
def pyRange (start stop : Int) : List Int :=
  (List.range (stop - start).toNat).map (fun i => start + Int.ofNat i)

def portRangeMapper (portRange : List Char) : Except PyErr (List Int) :=
  (splitRange portRange).map (fun b => pyRange (max 1 b.1) (min 65535 (b.2 + 1)))

/-- The ports that one element of a global filter contributes. -/
def PortSpec.globalPorts : PortSpec → Except PyErr (List Int)
  | .int n => .ok [n]
  | .str s =>
      if '-' ∈ s.toList then portRangeMapper s.toList
      else (pyInt s.toList).map (fun n => [n])

/-- `load_port_filters_into_map`; `order` is the iteration order of the sets of ports. -/
def loadPortFiltersIntoMap (order : IterOrder Int) (filters : List PortSpec) (mode : PortFilterMode)
    (m : PortFilterMap) (doDiff : Bool) : LoadRun PortFilterMap :=
  if mode = .include ∨ mode = .exclude then
    let currentState := if doDiff then m.currentState else []
    match filters.mapM PortSpec.globalPorts with
    | .error err => ⟨[], m, some err⟩
    | .ok ports =>
        let portset := ports.flatten.dedup
        let leftovers := currentState.filter (· ∉ portset)
        -- Element 0, the mode, is written last.
        PortFilterMap.setItems
          ((order.run portset).map (·, 1) ++ (order.run leftovers).map (·, 0) ++
            [(0, BitVec.ofNat 8 mode.value)]) m
  else
    ⟨[], m, some (.raised .ValueError
      ("Invalid global port filtering mode: " ++ toString mode.value))⟩

/-! ## The kernel side -/

def isPortGloballyFiltered (m : PortFilterMap) (port : BitVec 16) : Bool :=
  let mode := m 0
  let isMatch := m port
  (mode = BitVec.ofNat 8 PortFilterMode.exclude.value && isMatch ≠ 0) ||
    (mode = BitVec.ofNat 8 PortFilterMode.include.value && isMatch = 0)

/-- A verdict above port 0 depends on the mode and on one element. -/
theorem isPortGloballyFiltered_congr {m m' : PortFilterMap} {port : BitVec 16} (hmode : m 0 = m' 0)
    (hport : m port = m' port) : isPortGloballyFiltered m port = isPortGloballyFiltered m' port := by
  unfold isPortGloballyFiltered
  rw [hmode, hport]

/-! ## Well-formed loads -/

/-- A port of 1..65535, or a range string of two non-negative numbers. -/
def PortSpec.GlobalPort : PortSpec → Prop
  | .int n => 1 ≤ n ∧ n ≤ 65535
  | .str s => '-' ∈ s.toList ∧ ∃ a b, splitRange s.toList = .ok (a, b) ∧ 0 ≤ a ∧ 0 ≤ b

/-- One call of the loader. -/
structure PortLoad where
  order : IterOrder Int
  filters : List PortSpec
  mode : PortFilterMode

namespace PortLoad

structure Valid (l : PortLoad) : Prop where
  mode : l.mode = .include ∨ l.mode = .exclude
  filters : ∀ spec ∈ l.filters, spec.GlobalPort

def run (l : PortLoad) (m : PortFilterMap) (doDiff : Bool) : LoadRun PortFilterMap :=
  loadPortFiltersIntoMap l.order l.filters l.mode m doDiff

/-- The call lists the port. -/
def lists (l : PortLoad) (port : Int) : Bool :=
  l.filters.any (fun spec =>
    match spec.globalPorts with
    | .ok ports => port ∈ ports
    | .error _ => false)

/-- What the array holds after the call. -/
def content (l : PortLoad) : PortFilterMap := fun i =>
  if i = 0 then BitVec.ofNat 8 l.mode.value
  else if l.lists (i.toNat : Int) then 1 else 0

end PortLoad

theorem mem_pyRange {start stop n : Int} : n ∈ pyRange start stop ↔ start ≤ n ∧ n < stop := by
  simp only [pyRange, List.mem_map, List.mem_range]
  constructor
  · rintro ⟨i, hi, rfl⟩
    have hi' : (i : Int) < stop - start := by omega
    exact ⟨by simp, by simpa using (by omega : start + (i : Int) < stop)⟩
  · rintro ⟨h₁, h₂⟩
    exact ⟨(n - start).toNat, by omega, by simp; omega⟩

/-- A well-formed element parses, and its ports are ports. -/
theorem PortSpec.GlobalPort.globalPorts {spec : PortSpec} (h : spec.GlobalPort) :
    ∃ ports, spec.globalPorts = .ok ports ∧ ∀ n ∈ ports, 1 ≤ n ∧ n ≤ 65535 := by
  cases spec with
  | int n =>
      refine ⟨[n], rfl, ?_⟩
      intro k hk
      rw [List.mem_singleton.1 hk]
      exact h
  | str s =>
      rcases h with ⟨hdash, a, b, hsplit, _, _⟩
      refine ⟨pyRange (max 1 a) (min 65535 (b + 1)), ?_, ?_⟩
      · simp [PortSpec.globalPorts, hdash, portRangeMapper, hsplit, Except.map]
      · intro n hn
        rw [mem_pyRange] at hn
        omega

theorem mapM_globalPorts {specs : List PortSpec} (h : ∀ spec ∈ specs, spec.GlobalPort) :
    ∃ ports, specs.mapM PortSpec.globalPorts = .ok ports ∧
      ∀ n ∈ ports.flatten, 1 ≤ n ∧ n ≤ 65535 := by
  induction specs with
  | nil => exact ⟨[], rfl, by simp⟩
  | cons spec specs ih =>
      rcases (h spec (by simp)).globalPorts with ⟨ps, hps, hbound⟩
      rcases ih (fun s hs => h s (by simp [hs])) with ⟨ports, hports, hbounds⟩
      refine ⟨ps :: ports, ?_, ?_⟩
      · rw [List.mapM_cons, hps, hports]
        rfl
      · intro n hn
        rw [List.flatten_cons, List.mem_append] at hn
        rcases hn with hn | hn
        · exact hbound n hn
        · exact hbounds n hn

/-- Listing a port is being among the ports that the elements parse to. -/
theorem PortLoad.lists_iff {l : PortLoad} {ports : List (List Int)}
    (h : l.filters.mapM PortSpec.globalPorts = .ok ports) (n : Int) :
    l.lists n = true ↔ n ∈ ports.flatten := by
  unfold PortLoad.lists
  generalize l.filters = specs at h
  induction specs generalizing ports with
  | nil =>
      cases h
      simp
  | cons spec specs ih =>
      rw [List.mapM_cons] at h
      cases hspec : spec.globalPorts with
      | error err =>
          rw [hspec] at h
          cases h
      | ok ps =>
          cases hrest : specs.mapM PortSpec.globalPorts with
          | error err =>
              rw [hspec, hrest] at h
              cases h
          | ok ports' =>
              rw [hspec, hrest] at h
              cases h
              rw [List.any_cons, Bool.or_eq_true, ih hrest, hspec]
              simp

/-! ## One call -/

namespace PortFilterMap

theorem index_of_port {n : Int} (h₀ : 0 ≤ n) (h₁ : n ≤ 65535) :
    index n = .ok (BitVec.ofInt 16 n) := by
  have hkey : (BitVec.ofInt 32 n).toInt = n := by
    rw [BitVec.toInt_ofInt]
    exact Int.bmod_eq_of_le (by omega) (by omega)
  have hlow : ¬ n < 0 := by omega
  have hhigh : ¬ 65536 ≤ n := by omega
  simp [index, hkey, hlow, hhigh]

theorem toNat_of_port {n : Int} (h₀ : 0 ≤ n) (h₁ : n ≤ 65535) :
    ((BitVec.ofInt 16 n).toNat : Int) = n := by
  obtain ⟨k, rfl⟩ : ∃ k : Nat, n = k := ⟨n.toNat, by omega⟩
  rw [BitVec.ofInt_natCast, BitVec.toNat_ofNat, Nat.mod_eq_of_lt (by omega)]

/-- Within the array the loop is a sequence of overwrites. -/
theorem setItems_of_ports {ws : List (Int × BitVec 8)} (h : ∀ w ∈ ws, 0 ≤ w.1 ∧ w.1 ≤ 65535) :
    ∀ m : PortFilterMap,
      (setItems ws m).error = none ∧
        (setItems ws m).final =
          Overwrite.apply m (ws.map (fun w => (BitVec.ofInt 16 w.1, w.2))) ∧
        (setItems ws m).states =
          Overwrite.trail m (ws.map (fun w => (BitVec.ofInt 16 w.1, w.2))) := by
  induction ws with
  | nil =>
      intro m
      exact ⟨rfl, rfl, rfl⟩
  | cons w ws ih =>
      intro m
      rcases w with ⟨port, value⟩
      have hport := h (port, value) (by simp)
      have hindex := index_of_port hport.1 hport.2
      rcases ih (fun w hw => h w (by simp [hw])) (Function.update m (BitVec.ofInt 16 port) value)
        with ⟨herror, hfinal, hstates⟩
      simp only [setItems, hindex, List.map_cons, Overwrite.apply, Overwrite.trail]
      exact ⟨herror, hfinal, by rw [hstates]⟩

theorem mem_currentState {m : PortFilterMap} {n : Int} :
    n ∈ m.currentState ↔ 1 ≤ n ∧ n ≤ 65535 ∧ m (BitVec.ofInt 16 n) ≠ 0 := by
  simp only [currentState, List.mem_map, List.mem_filter, List.mem_range]
  constructor
  · rintro ⟨k, ⟨hlt, hk⟩, rfl⟩
    have hk' : 0 < k ∧ 0 < m (BitVec.ofNat 16 k) := by simpa using hk
    refine ⟨by simp; omega, by simp; omega, ?_⟩
    have hne : m (BitVec.ofNat 16 k) ≠ 0 := by
      intro hzero
      simp [hzero] at hk'
    simpa using hne
  · rintro ⟨h₁, h₂, hne⟩
    obtain ⟨k, rfl⟩ : ∃ k : Nat, n = k := ⟨n.toNat, by omega⟩
    have hk : m (BitVec.ofNat 16 k) ≠ 0 := by simpa using hne
    have hpos : 0 < m (BitVec.ofNat 16 k) := by
      rw [BitVec.lt_def]
      refine Nat.pos_of_ne_zero ?_
      intro hzero
      exact hk (BitVec.eq_of_toNat_eq hzero)
    refine ⟨k, ⟨by omega, ?_⟩, rfl⟩
    have hk₀ : 0 < k := by omega
    simpa [hk₀] using hpos

end PortFilterMap

/-! ### The writes of a call -/

section PortWrites

variable {order : IterOrder Int} {filters : List PortSpec} {mode : PortFilterMode}
  {m : PortFilterMap} {doDiff : Bool} {ports : List (List Int)}

/-- What the loader writes: the listed ports, the leftovers, and the mode. -/
def portWrites (order : IterOrder Int) (mode : PortFilterMode) (m : PortFilterMap) (doDiff : Bool)
    (listed : List Int) : List (Int × BitVec 8) :=
  (order.run listed.dedup).map (·, 1) ++
    (order.run ((if doDiff then m.currentState else []).filter (· ∉ listed.dedup))).map (·, 0) ++
      [0].map (·, BitVec.ofNat 8 mode.value)

theorem loadPortFilters_eq (hmode : mode = .include ∨ mode = .exclude)
    (hports : filters.mapM PortSpec.globalPorts = .ok ports) :
    loadPortFiltersIntoMap order filters mode m doDiff =
      PortFilterMap.setItems (portWrites order mode m doDiff ports.flatten) m := by
  unfold loadPortFiltersIntoMap
  rw [if_pos hmode, hports]
  rfl

/-- A write sets a listed port, clears one that is not listed any more, or stores the mode. -/
theorem mem_portWrites {listed : List Int} {w : Int × BitVec 8} :
    w ∈ portWrites order mode m doDiff listed ↔
      (w.1 ∈ listed ∧ w.2 = 1) ∨
      (doDiff = true ∧ w.1 ∈ m.currentState ∧ w.1 ∉ listed ∧ w.2 = 0) ∨
      (w.1 = 0 ∧ w.2 = BitVec.ofNat 8 mode.value) := by
  rcases w with ⟨n, v⟩
  simp only [portWrites, List.mem_append, List.mem_map, IterOrder.mem_run, List.mem_dedup,
    List.mem_filter, List.mem_singleton, decide_eq_true_eq, Prod.mk.injEq]
  cases doDiff <;> grind

end PortWrites

/-! ### A well-formed call -/

namespace PortLoad

@[simp] theorem content_zero (l : PortLoad) : l.content 0 = BitVec.ofNat 8 l.mode.value := rfl

theorem content_ofInt {l : PortLoad} {n : Int} (h₀ : 1 ≤ n) (h₁ : n ≤ 65535) :
    l.content (BitVec.ofInt 16 n) = if l.lists n then 1 else 0 := by
  have htoNat := PortFilterMap.toNat_of_port (by omega : 0 ≤ n) h₁
  have hne : BitVec.ofInt 16 n ≠ 0 := by
    intro hzero
    rw [hzero] at htoNat
    have hn : 0 = n := htoNat
    omega
  unfold content
  rw [if_neg hne, htoNat]

namespace Valid

variable {l : PortLoad} {m : PortFilterMap} {doDiff : Bool} {ports : List (List Int)}

theorem writes_inside (hbounds : ∀ n ∈ ports.flatten, 1 ≤ n ∧ n ≤ 65535) :
    ∀ w ∈ portWrites l.order l.mode m doDiff ports.flatten, 0 ≤ w.1 ∧ w.1 ≤ 65535 := by
  intro w hw
  rcases mem_portWrites.1 hw with ⟨hmem, _⟩ | ⟨_, hmem, _, _⟩ | ⟨hzero, _⟩
  · have hn := hbounds _ hmem
    omega
  · have hn := PortFilterMap.mem_currentState.1 hmem
    omega
  · omega

/-- Every write stores what the array holds in the end. -/
theorem writes_toward (m : PortFilterMap) (doDiff : Bool)
    (hports : l.filters.mapM PortSpec.globalPorts = .ok ports)
    (hbounds : ∀ n ∈ ports.flatten, 1 ≤ n ∧ n ≤ 65535) :
    Overwrite.Toward l.content ((portWrites l.order l.mode m doDiff ports.flatten).map
      (fun w => (BitVec.ofInt 16 w.1, w.2))) := by
  have hlists := lists_iff hports
  intro w' hw'
  rcases List.mem_map.1 hw' with ⟨w, hw, rfl⟩
  rcases mem_portWrites.1 hw with ⟨hmem, hv⟩ | ⟨_, hmem, hnot, hv⟩ | ⟨hzero, hv⟩
  · have hn := hbounds _ hmem
    simp [content_ofInt hn.1 hn.2, (hlists w.1).2 hmem, hv]
  · have hn := PortFilterMap.mem_currentState.1 hmem
    have hfalse : l.lists w.1 = false := by
      rw [← Bool.not_eq_true]
      exact fun htrue => hnot ((hlists w.1).1 htrue)
    simp [content_ofInt hn.1 hn.2.1, hfalse, hv]
  · have hvalue : w.2 = l.content 0 := hv
    simpa [hzero] using hvalue

/-- An element that no write touches is clear, before and after. -/
theorem untouched_clear (hports : l.filters.mapM PortSpec.globalPorts = .ok ports)
    (hm : doDiff = true ∨ m = PortFilterMap.zeros) {i : BitVec 16}
    (hi : ∀ w ∈ portWrites l.order l.mode m doDiff ports.flatten, BitVec.ofInt 16 w.1 ≠ i) :
    m i = l.content i := by
  have hi₀ : i ≠ 0 := by
    intro hzero
    exact hi (0, BitVec.ofNat 8 l.mode.value) (mem_portWrites.2 (by simp)) (by simp [hzero])
  have hback : BitVec.ofInt 16 (i.toNat : Int) = i := by simp
  have hpos : 1 ≤ (i.toNat : Int) ∧ (i.toNat : Int) ≤ 65535 := by
    have hne : i.toNat ≠ 0 := fun hzero => hi₀ (BitVec.eq_of_toNat_eq hzero)
    have hlt := i.isLt
    omega
  have hnot : (i.toNat : Int) ∉ ports.flatten := by
    intro hmem
    exact hi (i.toNat, 1) (mem_portWrites.2 (Or.inl ⟨hmem, rfl⟩)) hback
  have hclear : l.content i = 0 := by
    rw [← hback, content_ofInt hpos.1 hpos.2, if_neg]
    rw [lists_iff hports]
    exact hnot
  rw [hclear]
  rcases hm with hdiff | hzeros
  · -- An element that is set would be a leftover.
    by_contra hset
    have hmem : (i.toNat : Int) ∈ m.currentState := by
      rw [PortFilterMap.mem_currentState, hback]
      exact ⟨hpos.1, hpos.2, hset⟩
    exact hi (i.toNat, 0) (mem_portWrites.2 (Or.inr (Or.inl ⟨hdiff, hmem, hnot, rfl⟩))) hback
  · rw [hzeros]
    rfl

/-- What a call does to the array: it ends at the content of the call, and on the way every element
has its old value or the one it ends with. -/
theorem run_spec (h : l.Valid) (doDiff : Bool) (hm : doDiff = true ∨ m = PortFilterMap.zeros) :
    (l.run m doDiff).error = none ∧ (l.run m doDiff).final = l.content ∧
      ∀ s ∈ (l.run m doDiff).states, ∀ i, s i = m i ∨ s i = l.content i := by
  rcases mapM_globalPorts h.filters with ⟨ports, hports, hbounds⟩
  have hrun : l.run m doDiff = PortFilterMap.setItems
      (portWrites l.order l.mode m doDiff ports.flatten) m := loadPortFilters_eq h.mode hports
  have htoward := writes_toward m doDiff hports hbounds
  rcases PortFilterMap.setItems_of_ports (writes_inside hbounds) m with ⟨herror, hfinal, hstates⟩
  refine ⟨hrun ▸ herror, ?_, ?_⟩
  · rw [hrun, hfinal]
    funext i
    rw [htoward.apply]
    split_ifs with hi
    · rfl
    · apply untouched_clear hports hm
      intro w hw hEq
      exact hi (by simpa using ⟨w.1, ⟨w.2, hw⟩, hEq⟩)
  · rw [hrun, hstates]
    intro s hs i
    exact htoward.trail hs i

end Valid

end PortLoad

/-! ## Sequences of calls -/

/-- One call in a sequence: the array it found and what it did. -/
structure PortStep where
  load : PortLoad
  before : PortFilterMap
  run : LoadRun PortFilterMap

/-- The calls one after the other, up to the first that raises; all but the first one diff. -/
def portStepsFrom : Bool → List PortLoad → PortFilterMap → List PortStep
  | _, [], _ => []
  | doDiff, l :: rest, m =>
      let r := l.run m doDiff
      ⟨l, m, r⟩ ::
        match r.error with
        | some _ => []
        | none => portStepsFrom true rest r.final

/-- A sequence of calls on one array that starts zeroed. -/
def portSteps (calls : List PortLoad) : List PortStep :=
  portStepsFrom false calls PortFilterMap.zeros

/-- After every write of the call each port has the verdict from before the call or the one from
after it. -/
def PortStep.GlitchFree (step : PortStep) : Prop :=
  ∀ s ∈ step.run.states, ∀ port, port ≠ 0 →
    isPortGloballyFiltered s port = isPortGloballyFiltered step.before port ∨
      isPortGloballyFiltered s port = isPortGloballyFiltered step.run.final port

/-- What every call of a sequence does, and how it meets the next one. -/
theorem portStepsFrom_spec {calls : List PortLoad} (hvalid : ∀ l ∈ calls, l.Valid) :
    ∀ (doDiff : Bool) {m : PortFilterMap}, doDiff = true ∨ m = PortFilterMap.zeros →
      (portStepsFrom doDiff calls m).map PortStep.load = calls ∧
        (∀ step ∈ portStepsFrom doDiff calls m,
          step.run.error = none ∧ step.run.final = step.load.content ∧
            ∀ s ∈ step.run.states, ∀ i, s i = step.before i ∨ s i = step.load.content i) ∧
        (∀ step ∈ (portStepsFrom doDiff calls m).head?, step.before = m) ∧
        (portStepsFrom doDiff calls m).IsChain (fun prev step => step.before = prev.load.content) := by
  induction calls with
  | nil =>
      intro doDiff m _
      simp [portStepsFrom]
  | cons l rest ih =>
      intro doDiff m hm
      have hspec := (hvalid l (by simp)).run_spec doDiff hm
      rcases ih (fun l' hl' => hvalid l' (by simp [hl'])) true (m := (l.run m doDiff).final)
        (Or.inl rfl) with ⟨hloads, hsteps, hhead, hchain⟩
      have hunfold : portStepsFrom doDiff (l :: rest) m =
          ⟨l, m, l.run m doDiff⟩ :: portStepsFrom true rest (l.run m doDiff).final := by
        simp [portStepsFrom, hspec.1]
      rw [hunfold]
      refine ⟨by simp [hloads], ?_, by simp, hchain.cons ?_⟩
      · intro step hstep
        rcases List.mem_cons.1 hstep with rfl | hstep
        · exact hspec
        · exact hsteps step hstep
      · intro step hstep
        exact (hhead step hstep).trans hspec.2.1

/-- Reloading the global port filter depends on the last call only: every call of a sequence is
carried out and leaves what the same call leaves on a zeroed array.  A call that keeps the mode of
the previous one never shows a verdict that is neither the old one nor the new one. -/
theorem port_reloads_path_independent (calls : List PortLoad) (hvalid : ∀ l ∈ calls, l.Valid) :
    (portSteps calls).map PortStep.load = calls ∧
      (∀ step ∈ portSteps calls, step.run.error = none ∧ ∀ order,
        let fresh := ({ step.load with order := order } : PortLoad).run PortFilterMap.zeros false
        fresh.error = none ∧ step.run.final = fresh.final) ∧
      (portSteps calls).IsChain
        (fun prev step => prev.load.mode = step.load.mode → step.GlitchFree) := by
  rcases portStepsFrom_spec hvalid false (Or.inr rfl) with
    ⟨hloads, hsteps, _, hchain⟩
  refine ⟨hloads, ?_, ?_⟩
  · intro step hstep
    refine ⟨(hsteps step hstep).1, ?_⟩
    intro order
    have hmem : step.load ∈ calls := by
      rw [← hloads]
      exact List.mem_map.2 ⟨step, hstep, rfl⟩
    have hfresh : ({ step.load with order := order } : PortLoad).Valid :=
      ⟨(hvalid _ hmem).mode, (hvalid _ hmem).filters⟩
    have hspec := hfresh.run_spec false (Or.inr (rfl : PortFilterMap.zeros = _))
    exact ⟨hspec.1, (hsteps step hstep).2.1.trans hspec.2.1.symm⟩
  · refine hchain.imp_of_mem_tail_imp ?_
    intro prev step _ htail hbefore hmode s hs port _
    rcases hsteps step (List.mem_of_mem_tail htail) with ⟨_, hfinal, hstates⟩
    -- The mode element is the same before, after and in between.
    have hmode₀ : step.before 0 = step.load.content 0 := by
      rw [hbefore]
      simp [PortLoad.content, hmode]
    have hs₀ : s 0 = step.load.content 0 := by
      rcases hstates s hs 0 with h | h
      · exact h.trans hmode₀
      · exact h
    rcases hstates s hs port with hold | hnew
    · exact Or.inl (isPortGloballyFiltered_congr (hs₀.trans hmode₀.symm) hold)
    · rw [hfinal]
      exact Or.inr (isPortGloballyFiltered_congr hs₀ hnew)

/-! ### Two calls that exclude ports -/

namespace Example

def webPorts : PortLoad := ⟨.listed, [.int 80, .str "100-200"], .exclude⟩

def httpsPort : PortLoad := ⟨.reversed, [.int 443], .exclude⟩

theorem portLoads_valid : ∀ l ∈ [webPorts, httpsPort], l.Valid := by
  intro l hl
  rcases List.mem_pair.1 hl with rfl | rfl
  · refine ⟨Or.inr rfl, ?_⟩
    intro spec hspec
    rcases List.mem_pair.1 hspec with rfl | rfl
    · exact ⟨by decide, by decide⟩
    · exact ⟨by decide, 100, 200, splitRange_toDigits 100 200, by decide, by decide⟩
  · refine ⟨Or.inr rfl, ?_⟩
    intro spec hspec
    rw [List.mem_singleton.1 hspec]
    exact ⟨by decide, by decide⟩

end Example

/-- Both calls are carried out, and the second one is free of glitches. -/
theorem port_reloads_of_two_calls :
    ∃ first second, portSteps [Example.webPorts, Example.httpsPort] = [first, second] ∧
      second.run.error = none ∧ second.GlitchFree := by
  rcases port_reloads_path_independent _ Example.portLoads_valid with ⟨hloads, hsteps, hchain⟩
  obtain ⟨first, second, hpair⟩ : ∃ first second,
      portSteps [Example.webPorts, Example.httpsPort] = [first, second] := by
    refine List.length_eq_two.1 ?_
    simpa using congrArg List.length hloads
  rw [hpair] at hloads hsteps hchain
  have hmodes : first.load = Example.webPorts ∧ second.load = Example.httpsPort := by
    simpa using hloads
  refine ⟨first, second, hpair, (hsteps second (by simp)).1, ?_⟩
  exact List.isChain_pair.1 hchain (by simp [hmodes, Example.webPorts, Example.httpsPort])

end PidtreeBcc
