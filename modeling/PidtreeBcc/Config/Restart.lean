import PidtreeBcc.Config.Process

/-!
# Restart — what the parse after a requested restart does

A restart empties every namespace but keeps it registered.  The next parse of the same file takes the
registered names for loaded probes, so whether it goes through is decided by the names the restart left.
-/

namespace PidtreeBcc

open Support

namespace Config

variable {V : Type*} [DecidableEq V]

/-- Every probe with a callback has a namespace. -/
def Registered (st : ConfigState V) : Prop :=
  ∀ name ∈ st.callbacks.keys, name ∈ st.namespaces.keys

/-- The parse of the restarted `main()` asks for no other restart and loads every probe. -/
def Converges (order : IterOrder String) (files : List String) (data : ConfigData V)
    (st : ConfigState V) : Prop :=
  let r := parseConfig true order true files data st
  r.restarted = false ∧ r.error = none ∧
    ∀ key ∈ probeKeys data, ∃ settings,
      data.get? key = some (some settings) ∧ r.state.namespaces.get? key = some settings

/-- Every probe of the file is a mapping. -/
def AllMappings (data : ConfigData V) : Prop :=
  ∀ key ∈ probeKeys data, ∃ settings, data.get? key = some (some settings)

/-- The names that the restart keeps are all those of the file, or none.  With no probe loaded, a
restart comes from the reserved key, which then has to be the first one visited. -/
def KeptNamesFit (order : IterOrder String) (files : List String) (data : ConfigData V)
    (st : ConfigState V) : Prop :=
  ((∀ name ∈ st.probeNames, name ∉ probeKeys data) ∨
      ∀ key ∈ probeKeys data, key ∈ st.probeNames) ∧
    (¬ ProbesOrFilesChanged files data st → st.probeNames = [] →
      (order.run (probeKeys data)).head? = some DEFAULT_NAMESPACE)

/-! ## Callbacks have namespaces -/

omit [DecidableEq V] in
theorem registered_init : Registered (ConfigState.init : ConfigState V) := by
  intro name hname
  simp [ConfigState.init] at hname

omit [DecidableEq V] in
theorem Registered.grows {key : String} {st st' : ConfigState V} (h : Registered st)
    (hgrows : Grows key st st') : Registered st' := by
  intro name hname
  rcases hgrows.callbacks name hname with hkey | hold
  · exact (hgrows.names name).2 (Or.inl hkey)
  · exact (hgrows.names name).2 (Or.inr (h name hold))

omit [DecidableEq V] in
theorem registered_of_no_callbacks {st : ConfigState V} (h : st.callbacks = Dict.empty) :
    Registered st := by
  intro name hname
  simp [h] at hname

theorem Registered.parseProbes {watch : Bool} {data : ConfigData V} {keys : List String} :
    ∀ {st : ConfigState V}, Registered st → Registered (parseProbes watch data keys st).state := by
  induction keys with
  | nil => exact fun h => h
  | cons key rest ih =>
      intro st h
      cases hdata : data.get? key with
      | none => simpa [Config.parseProbes, hdata] using h
      | some probeConfig =>
          have hspec := parseProbe_spec watch key probeConfig st
          simp only [Config.parseProbes, hdata]
          cases hstep : parseProbe watch key probeConfig st with
          | raised st' err =>
              rw [hstep] at hspec
              exact h.grows hspec
          | restart st' =>
              rw [hstep] at hspec
              exact registered_of_no_callbacks (by rw [hspec.2]; rfl)
          | next st' =>
              rw [hstep] at hspec
              rcases hspec with ⟨settings, _, hloaded⟩
              exact ih (h.grows hloaded.grows)

theorem Registered.parseConfig {mainThread watch : Bool} {order : IterOrder String}
    {files : List String} {data : ConfigData V} {st : ConfigState V} (h : Registered st) :
    Registered (parseConfig mainThread order watch files data st).state := by
  by_cases hsame : watch = true → ¬ ProbesOrFilesChanged files data st
  · rcases parseConfig_of_same mainThread order hsame with
      ⟨_, _, hnamespaces, hcallbacks, _⟩
    intro name hname
    rw [hcallbacks] at hname
    rw [hnamespaces]
    exact h.parseProbes name hname
  · rcases Classical.not_imp.1 hsame with ⟨rfl, hnot⟩
    rw [parseConfig_of_changed (Classical.not_not.1 hnot)]
    exact registered_of_no_callbacks rfl

omit [DecidableEq V] in
theorem Registered.loadHosts {hosts : List (Settings V)} :
    ∀ {st : ConfigState V}, Registered st → Registered (loadHosts hosts st) := by
  induction hosts with
  | nil => exact fun h => h
  | cons host rest ih =>
      intro st h
      refine ih ?_
      intro name hname
      exact Dict.mem_keys_set.2 (Or.inr (h name hname))

namespace Process

theorem registered_step {modules : Modules V} {watch : Bool} {p p' : Process V} {a : Action V}
    (h : Registered p.registry) (hstep : step modules watch p a = some p') :
    Registered p'.registry := by
  have hparse : ∀ mainThread order files data,
      Registered (p.parse mainThread order watch files data).registry := by
    intro mainThread order files data
    rw [registry_parse]
    exact h.parseConfig
  cases a with
  | parse order files data =>
      cases hphase : p.phase with
      | starting =>
          simp only [step, hphase, Option.some.injEq] at hstep
          exact hstep ▸ hparse true order files data
      | running =>
          simp only [step, hphase, Option.ite_none_right_eq_some, Option.some.injEq] at hstep
          exact hstep.2 ▸ hparse false order files data
      | parsed => simp [step, hphase] at hstep
      | ended => simp [step, hphase] at hstep
  | loadProbes hosts =>
      simp only [step, Option.ite_none_right_eq_some, Option.some.injEq] at hstep
      rcases hstep with ⟨_, rfl⟩
      unfold loadProbes
      simp only
      split
      · split
        · exact h.loadHosts
        · exact h
      · exact h
  | sighup =>
      simp only [step, Option.ite_none_left_eq_some, Option.some.injEq] at hstep
      rcases hstep with ⟨_, rfl⟩
      exact h

theorem registered_of_visited {modules : Modules V} {watch : Bool} {actions : List (Action V)}
    {p : Process V} (h : p ∈ init :: Run.visited (step modules watch) init actions) :
    Registered p.registry := by
  rcases List.mem_cons.1 h with rfl | hvisited
  · exact registered_init
  · exact Run.visited_of_inv (I := fun p : Process V => Registered p.registry)
      (fun _ _ _ hp hstep => registered_step hp hstep) registered_init p hvisited

end Process

/-! ## The parse after a restart -/

section Converges

variable {order order' : IterOrder String} {files : List String} {data : ConfigData V}
  {st : ConfigState V}

/-- From a state without callbacks and with no other files loaded, the registered names decide. -/
theorem converges_of_reset (hcallbacks : st.callbacks = Dict.empty)
    (hfiles : filesChanged st files = false) :
    Converges order files data st ↔ AllMappings data ∧
      (st.probeNames = [] ∨ ∀ name, name ∈ probeKeys data ↔ name ∈ st.probeNames) := by
  by_cases hchanged : ProbesOrFilesChanged files data st
  · have hnot : ¬ (st.probeNames = [] ∨ ∀ name, name ∈ probeKeys data ↔ name ∈ st.probeNames) := by
      rcases hchanged with ⟨hne, hdiffer⟩ | hfiles'
      · rintro (hnil | hsame)
        · exact hne hnil
        · exact hdiffer hsame
      · rw [hfiles] at hfiles'
        cases hfiles'
    have hrestarted : (parseConfig true order true files data st).restarted = true := by
      rw [parseConfig_of_changed hchanged]
    refine iff_of_false ?_ ?_
    · intro hconv
      rw [hconv.1] at hrestarted
      cases hrestarted
    · exact fun h => hnot h.2
  · have hnames : st.probeNames = [] ∨ ∀ name, name ∈ probeKeys data ↔ name ∈ st.probeNames := by
      by_cases hnil : st.probeNames = []
      · exact Or.inl hnil
      · by_contra hboth
        exact hchanged (Or.inl ⟨hnil, fun hsame => hboth (Or.inr hsame)⟩)
    have hnew : ∀ key ∈ order.run (probeKeys data), key ∉ st.callbacks.keys := by
      intro key _
      simp [hcallbacks]
    rcases parseProbes_of_new true data
      (order.nodup_run (probeKeys_nodup data)) hnew with ⟨hloop, herror⟩
    rcases parseConfig_of_same true order (fun _ => hchanged) with
      ⟨hrestarted', herror', _⟩
    have hrestarted : (parseConfig true order true files data st).restarted = false := by
      rw [hrestarted', hloop]
    have herror_iff : (parseConfig true order true files data st).error = none ↔
        AllMappings data := by
      rw [herror', herror]
      simp only [IterOrder.mem_run, AllMappings]
    constructor
    · intro hconv
      exact ⟨herror_iff.1 hconv.2.1, hnames⟩
    · rintro ⟨hmappings, _⟩
      have hnone := herror_iff.2 hmappings
      refine ⟨hrestarted, hnone, ?_⟩
      intro key hkey
      rcases hmappings key hkey with ⟨settings, hdata⟩
      refine ⟨settings, hdata, ?_⟩
      rw [(parseConfig_loaded hrestarted hnone).2]
      simp [hkey, hdata]

/-- Probes or files have changed: the restart keeps the loaded probes that the file still has. -/
theorem converges_of_changed {mainThread : Bool} (hchanged : ProbesOrFilesChanged files data st) :
    Converges order' files data (parseConfig mainThread order true files data st).state ↔
      AllMappings data ∧ KeptNamesFit order files data st := by
  rw [parseConfig_of_changed hchanged]
  rw [converges_of_reset (by rfl) (by rfl)]
  have hkept : ∀ name,
      name ∈ ((st.dropNamespaces
        (st.probeNames.filter (· ∉ probeKeys data))).resetConfigState).probeNames ↔
        name ∈ st.probeNames ∧ name ∈ probeKeys data := by
    intro name
    simp only [ConfigState.mem_probeNames, ConfigState.keys_resetConfigState,
      ConfigState.dropNamespaces, Dict.mem_keys_filterKeys, List.mem_filter, decide_eq_true_eq]
    tauto
  refine and_congr_right fun _ => ?_
  rw [KeptNamesFit, and_iff_left (fun hsame _ => absurd hchanged hsame),
    List.eq_nil_iff_forall_not_mem]
  simp only [hkept]
  refine or_congr ?_ ?_
  · exact ⟨fun h name hname hkey => h name ⟨hname, hkey⟩, fun h name hboth => h name hboth.1 hboth.2⟩
  · exact ⟨fun h key hkey => ((h key).1 hkey).1,
      fun h name => ⟨fun hkey => ⟨h name hkey, hkey⟩, And.right⟩⟩

omit [DecidableEq V] in
/-- A probe with a callback whose namespace is not listed as a probe is the reserved key. -/
theorem eq_default_of_unlisted {key : String} (hreg : Registered st) (hkey : key ∈ probeKeys data)
    (hcallback : key ∈ st.callbacks.keys) (hunlisted : key ∉ st.probeNames) :
    key = DEFAULT_NAMESPACE := by
  refine eq_default_of_reserved (mem_probeKeys.1 hkey).2 ?_
  by_contra hreserved
  exact hunlisted (ConfigState.mem_probeNames.2 ⟨hreg key hcallback, hreserved⟩)

/-! ### A restart in the loop -/

/-- What a restart in the loop leaves: all names are kept, and the keys up to the one that asked for it
are registered too. -/
structure LoopRestart (order : IterOrder String) (data : ConfigData V) (st kept : ConfigState V)
    (before : List String) (key : String) (after : List String) : Prop where
  run : order.run (probeKeys data) = before ++ key :: after
  callback : key ∈ st.callbacks.keys
  names : ∀ name, name ∈ kept.probeNames ↔
    (name ∈ before ∨ name = key ∨ name ∈ st.namespaces.keys) ∧ name ∉ NON_PROBE_NAMESPACES

theorem exists_loopRestart {mainThread : Bool} (hsame : ¬ ProbesOrFilesChanged files data st)
    (hrestarted : (parseConfig mainThread order true files data st).restarted = true) :
    let kept := (parseConfig mainThread order true files data st).state
    (∃ before key after, LoopRestart order data st kept before key after) ∧
      kept.callbacks = Dict.empty ∧ filesChanged kept files = false := by
  intro kept
  rcases parseConfig_of_same mainThread order (fun _ => hsame) with
    ⟨hrestarted', _, hnamespaces, hcallbacks, hloaded⟩
  rcases parseProbes_restarted (order.nodup_run (probeKeys_nodup data))
    (hrestarted' ▸ hrestarted) with
      ⟨before, key, after, hrun, hmem, _, hempty, hnofiles, hnames⟩
  refine ⟨⟨before, key, after, hrun, hmem, ?_⟩, hcallbacks.trans hempty, ?_⟩
  · intro name
    rw [ConfigState.mem_probeNames, hnamespaces, hnames]
  · -- The list of loaded files was cleared, or it is the one of this parse.
    rcases hloaded with h | h
    · simp [kept, filesChanged, h, hnofiles]
    · simp [kept, filesChanged, h]

namespace LoopRestart

variable {kept : ConfigState V} {before after : List String} {key : String}

omit [DecidableEq V]

theorem mem_probeKeys_iff (h : LoopRestart order data st kept before key after) (name : String) :
    name ∈ probeKeys data ↔ name ∈ before ++ key :: after := by
  rw [← h.run, IterOrder.mem_run]

theorem ne_key_of_mem_before (h : LoopRestart order data st kept before key after) {name : String}
    (hname : name ∈ before) : name ≠ key := by
  have hnodup := order.nodup_run (probeKeys_nodup data)
  rw [h.run] at hnodup
  exact (List.nodup_append.1 hnodup).2.2 name hname key (by simp)

/-- If no probe was loaded, only the reserved key can have had a callback. -/
theorem key_eq_default (h : LoopRestart order data st kept before key after)
    (hreg : Registered st) (hnil : st.probeNames = []) : key = DEFAULT_NAMESPACE := by
  have hkey : key ∈ probeKeys data := (h.mem_probeKeys_iff key).2 (by simp)
  exact eq_default_of_unlisted hreg hkey h.callback (by simp [hnil])

/-- If no probe was loaded, the names that are kept are those of the keys before. -/
theorem probeNames_eq_nil_iff (h : LoopRestart order data st kept before key after)
    (hnil : st.probeNames = []) (hdefault : key = DEFAULT_NAMESPACE) :
    kept.probeNames = [] ↔ before = [] := by
  have hreserved : key ∈ NON_PROBE_NAMESPACES := by
    rw [hdefault]
    decide
  rw [List.eq_nil_iff_forall_not_mem, List.eq_nil_iff_forall_not_mem]
  refine forall_congr' fun name => not_congr ?_
  rw [h.names]
  constructor
  · rintro ⟨hbefore | rfl | hold, hlisted⟩
    · exact hbefore
    · exact absurd hreserved hlisted
    · have hmem : name ∈ st.probeNames := ConfigState.mem_probeNames.2 ⟨hold, hlisted⟩
      simp [hnil] at hmem
  · intro hbefore
    refine ⟨Or.inl hbefore, ?_⟩
    intro hlisted
    -- The reserved key comes only once.
    have hkey := (mem_probeKeys.1 ((h.mem_probeKeys_iff name).2 (by simp [hbefore]))).2
    have hname := eq_default_of_reserved hkey hlisted
    exact h.ne_key_of_mem_before hbefore (hname.trans hdefault.symm)

theorem head_eq_default_iff (h : LoopRestart order data st kept before key after)
    (hdefault : key = DEFAULT_NAMESPACE) :
    (order.run (probeKeys data)).head? = some DEFAULT_NAMESPACE ↔ before = [] := by
  rw [h.run]
  cases hbefore : before with
  | nil => simp [hdefault]
  | cons name rest =>
      have hne : name ≠ key := h.ne_key_of_mem_before (by simp [hbefore])
      simpa [← hdefault] using hne

/-- If the loaded probes are those of the file, the restart keeps them all. -/
theorem mem_probeNames_iff (h : LoopRestart order data st kept before key after)
    (hloaded : ∀ name, name ∈ probeKeys data ↔ name ∈ st.probeNames) (name : String) :
    name ∈ probeKeys data ↔ name ∈ kept.probeNames := by
  rw [h.names]
  constructor
  · intro hname
    have hlisted := ConfigState.mem_probeNames.1 ((hloaded name).1 hname)
    exact ⟨Or.inr (Or.inr hlisted.1), hlisted.2⟩
  · rintro ⟨hbefore | rfl | hold, hlisted⟩
    · exact (h.mem_probeKeys_iff name).2 (by simp [hbefore])
    · exact (h.mem_probeKeys_iff name).2 (by simp)
    · exact (hloaded name).2 (ConfigState.mem_probeNames.2 ⟨hold, hlisted⟩)

end LoopRestart

/-- A setting that cannot be swapped has changed: the restart keeps all names, and registers those
that the loop has reached. -/
theorem converges_of_loop {mainThread : Bool} (hreg : Registered st)
    (hsame : ¬ ProbesOrFilesChanged files data st)
    (hrestarted : (parseConfig mainThread order true files data st).restarted = true) :
    Converges order' files data (parseConfig mainThread order true files data st).state ↔
      AllMappings data ∧ KeptNamesFit order files data st := by
  rcases exists_loopRestart hsame hrestarted with ⟨⟨before, key, after, h⟩, hcallbacks, hfiles⟩
  rw [converges_of_reset hcallbacks hfiles]
  refine and_congr_right fun _ => ?_
  by_cases hnil : st.probeNames = []
  · -- Nothing was loaded, so the key is the reserved one, which is never among the kept names.
    have hdefault := h.key_eq_default hreg hnil
    have hnotsame : ¬ ∀ name, name ∈ probeKeys data ↔
        name ∈ (parseConfig mainThread order true files data st).state.probeNames := by
      intro hall
      have hkey := (hall key).1 ((h.mem_probeKeys_iff key).2 (by simp))
      refine ((h.names key).1 hkey).2 ?_
      rw [hdefault]
      decide
    rw [or_iff_left hnotsame, h.probeNames_eq_nil_iff hnil hdefault,
      ← h.head_eq_default_iff hdefault]
    unfold KeptNamesFit
    simp [hnil, hsame]
  · -- The loaded probes are those of the file, and the restart keeps them all.
    have hloaded : ∀ name, name ∈ probeKeys data ↔ name ∈ st.probeNames := by
      by_contra hdiffer
      exact hsame (Or.inl ⟨hnil, hdiffer⟩)
    refine iff_of_true (Or.inr (h.mem_probeNames_iff hloaded))
      ⟨Or.inr fun name hname => (hloaded name).1 hname, ?_⟩
    intro _ hempty
    exact absurd hempty hnil

/-- After a parse that asked for a restart, the next parse of the same file goes through just when
every probe is a mapping and the names that the restart keeps fit the file. -/
theorem restart_converges_iff {modules : Modules V} {watch mainThread : Bool}
    {actions : List (Action V)} {p : Process V}
    (hreach : p ∈ Process.init :: Run.visited (Process.step modules watch) Process.init actions)
    (hrestarted : (parseConfig mainThread order true files data p.registry).restarted = true) :
    Converges order' files data (parseConfig mainThread order true files data p.registry).state ↔
      AllMappings data ∧ KeptNamesFit order files data p.registry := by
  by_cases hchanged : ProbesOrFilesChanged files data p.registry
  · exact converges_of_changed hchanged
  · exact converges_of_loop (Process.registered_of_visited hreach) hchanged hrestarted

end Converges

/-! ### A probe replaced, and a probe added -/

namespace Example

def tcpFile : ConfigData Nat := Dict.empty.set "tcp_connect" (some Dict.empty)

def udpFile : ConfigData Nat := Dict.empty.set "udp_session" (some Dict.empty)

def bothFile : ConfigData Nat := tcpFile.set "udp_session" (some Dict.empty)

/-- The process runs with `tcp_connect`. -/
def start : List (Action Nat) := [.parse .listed ["config.yml"] tcpFile, .loadProbes []]

def modules : Modules Nat := ⟨fun _ => true, fun _ => false⟩

end Example

theorem replaced_probe_converges :
    ∃ p ∈ Run.visited (Process.step Example.modules true) Process.init Example.start,
      (parseConfig false .listed true ["config.yml"] Example.udpFile p.registry).restarted = true ∧
        Converges .listed ["config.yml"] Example.udpFile
          (parseConfig false .listed true ["config.yml"] Example.udpFile p.registry).state := by
  refine ⟨(Run.visited (Process.step Example.modules true) Process.init Example.start).get
    ⟨1, by decide +kernel⟩, List.get_mem _ _, by decide +kernel, ?_⟩
  refine (restart_converges_iff (List.mem_cons_of_mem _ (List.get_mem _ _))
    (by decide +kernel)).2 ⟨?_, Or.inl (by decide +kernel), ?_⟩
  · intro key hkey
    rw [show probeKeys Example.udpFile = ["udp_session"] by decide +kernel] at hkey
    rcases List.mem_singleton.1 hkey with rfl
    exact ⟨Dict.empty, by decide +kernel⟩
  · intro _ hnil
    exact absurd hnil (by decide +kernel)

/-- With a probe added, the restarted parse finds one of the two names registered and asks for a
restart again. -/
theorem added_probe_keeps_restarting :
    ∃ p ∈ Run.visited (Process.step Example.modules true) Process.init Example.start,
      (parseConfig false .listed true ["config.yml"] Example.bothFile p.registry).restarted = true ∧
        ¬ Converges .listed ["config.yml"] Example.bothFile
          (parseConfig false .listed true ["config.yml"] Example.bothFile p.registry).state := by
  refine ⟨(Run.visited (Process.step Example.modules true) Process.init Example.start).get
    ⟨1, by decide +kernel⟩, List.get_mem _ _, by decide +kernel, ?_⟩
  intro hconverges
  exact absurd hconverges.1 (by decide +kernel)

end Config

end PidtreeBcc
