import PidtreeBcc.Config.StaticConf

/-!
# Parse — loading a configuration file into the registry

`parseConfig` compares the file with what is loaded, and either loads its probes, or asks for a restart:
at once when the probes or the files have changed, or at the first probe with a changed setting that
cannot be swapped.  The set of probe names is visited in an arbitrary order.
-/

namespace PidtreeBcc

open Support

namespace Config

variable {V : Type*} [DecidableEq V]

/-- The state that a parse leaves, whether it asked for a restart, and what it raised. -/
structure ParseOutcome (V : Type*) where
  state : ConfigState V
  restarted : Bool
  error : Option PyErr

/-- Keys that start with an underscore name no probe. -/
def isProbeKey (key : String) : Bool := key.toList.head? ≠ some '_'

def probeKeys (data : ConfigData V) : List String := data.keys.filter isProbeKey

/-- `_non_hotswap_settings`. -/
def nonHotswapSettings (settings : Settings V) : Settings V :=
  settings.filterKeys fun key => key ∉ HOT_SWAPPABLE_SETTINGS

/-- How one round of the per-probe loop ends. -/
inductive ProbeStep (V : Type*)
  | raised (st : ConfigState V) (err : PyErr)
  | restart (st : ConfigState V)
  | next (st : ConfigState V)

/-- Clear the namespace and load the settings; anything but a mapping is refused. -/
def storeProbe (key : String) (probeConfig : Option (Settings V)) (st : ConfigState V) :
    ProbeStep V :=
  match probeConfig with
  | none => .raised (st.load key Dict.empty) (.builtin .AttributeError)
  | some settings => .next (st.load key settings)

/-- One round of the per-probe loop. -/
def parseProbe (watch : Bool) (key : String) (probeConfig : Option (Settings V))
    (st₀ : ConfigState V) : ProbeStep V :=
  let st := st₀.getNamespace key
  match st.callbacks.get? key with
  -- The first time a namespace is seen: its change queue is made, when there is a watch.
  | none => storeProbe key probeConfig (st.addCallback watch key)
  | some callback =>
      if watch then
        match probeConfig with
        -- It differs from the loaded settings, and `_non_hotswap_settings` needs a mapping.
        | none => .raised st (.builtin .AttributeError)
        | some settings =>
            if settings.Same (st.configValues key) then storeProbe key probeConfig st
            -- Only a new process can take in the settings that cannot be swapped.
            else if ¬ (nonHotswapSettings settings).Same
                (nonHotswapSettings (st.configValues key)) then
              .restart st.resetConfigState
            else
              match callback with
              | none => .raised st (.builtin .TypeError)
              | some queue => storeProbe key probeConfig (st.put queue settings)
      else storeProbe key probeConfig st

/-- The per-probe loop; a restart breaks it. -/
def parseProbes (watch : Bool) (data : ConfigData V) :
    List String → ConfigState V → ParseOutcome V
  | [], st => ⟨st, false, none⟩
  | key :: rest, st =>
      match data.get? key with
      | none => ⟨st, false, some (.builtin .KeyError)⟩
      | some probeConfig =>
          match parseProbe watch key probeConfig st with
          | .raised st' err => ⟨st', false, some err⟩
          -- The probes behind it are not loaded by this parse.
          | .restart st' => ⟨st', true, none⟩
          | .next st' => parseProbes watch data rest st'

/-- The two sets of names are different. -/
def namesDiffer (a b : List String) : Bool := !(a.all (· ∈ b) && b.all (· ∈ a))

/-- The loaded files are known and are not these. -/
def filesChanged (st : ConfigState V) (files : List String) : Bool :=
  match st.loadedFiles with
  | none => false
  | some loaded => loaded ≠ [] && loaded ≠ files

/-- `parse_config`, after the file and the files it includes were read: `files` is the sorted list of
their paths and `order` the iteration order of the probe names. -/
def parseConfig (mainThread : Bool) (order : IterOrder String) (watch : Bool) (files : List String)
    (data : ConfigData V) (st : ConfigState V) : ParseOutcome V :=
  let configProbeNames := probeKeys data
  let currentProbeNames := st.probeNames
  -- Probes or included files came or went: the registry is emptied, and the process restarts.
  if watch && ((currentProbeNames ≠ [] && namesDiffer configProbeNames currentProbeNames) ||
      filesChanged st files) then
    ⟨(st.dropNamespaces (currentProbeNames.filter (· ∉ configProbeNames))).resetConfigState,
      true, none⟩
  else
    let r := parseProbes watch data (order.run configProbeNames) st
    match r.error with
    | some _ => r
    | none =>
        -- `self_restart` signals the process, and in the main thread the handler raises at once.
        if mainThread && r.restarted then r
        else { r with state := { r.state with loadedFiles := some files } }

/-- `enumerate_probe_configs`: name, settings and change queue of each probe. -/
def enumerateProbeConfigs (st : ConfigState V) : List (String × Settings V × Option Nat) :=
  st.probeNames.map fun name => (name, st.configValues name, (st.callbacks.get? name).join)

/-! ## Names -/

omit [DecidableEq V] in
theorem mem_probeKeys {data : ConfigData V} {key : String} :
    key ∈ probeKeys data ↔ key ∈ data.keys ∧ isProbeKey key = true := by
  simp [probeKeys]

omit [DecidableEq V] in
theorem probeKeys_nodup (data : ConfigData V) : (probeKeys data).Nodup :=
  data.keys_nodup.filter _

theorem namesDiffer_iff {a b : List String} :
    namesDiffer a b = true ↔ ¬ ∀ name, name ∈ a ↔ name ∈ b := by
  simp only [namesDiffer, Bool.not_eq_true', Bool.and_eq_false_iff, List.all_eq_false,
    decide_eq_true_eq]
  constructor
  · rintro (⟨name, hmem, hnot⟩ | ⟨name, hmem, hnot⟩) hsame
    · exact hnot ((hsame name).1 hmem)
    · exact hnot ((hsame name).2 hmem)
  · intro hdiffer
    by_contra hnone
    refine hdiffer ?_
    intro name
    constructor
    · intro hmem
      by_contra hnot
      exact hnone (Or.inl ⟨name, hmem, hnot⟩)
    · intro hmem
      by_contra hnot
      exact hnone (Or.inr ⟨name, hmem, hnot⟩)

/-- A probe key in the reserved names is `DEFAULT`. -/
theorem eq_default_of_reserved {key : String} (hkey : isProbeKey key = true)
    (hmem : key ∈ NON_PROBE_NAMESPACES) : key = DEFAULT_NAMESPACE := by
  simp only [NON_PROBE_NAMESPACES, List.mem_cons, List.not_mem_nil, or_false] at hmem
  rcases hmem with rfl | rfl | rfl
  · rfl
  · exact absurd hkey (by decide)
  · exact absurd hkey (by decide)

/-! ## One round of the loop -/

/-- Names are only added by a round, and a callback only for its key. -/
structure Grows (key : String) (st st' : ConfigState V) : Prop where
  names : ∀ name, name ∈ st'.namespaces.keys ↔ name = key ∨ name ∈ st.namespaces.keys
  callbacks : ∀ name, name ∈ st'.callbacks.keys → name = key ∨ name ∈ st.callbacks.keys

/-- What a round that goes on has done: the namespace holds the settings, and there is a callback. -/
structure Loaded (key : String) (settings : Settings V) (st st' : ConfigState V) : Prop where
  namespaces : ∀ name, st'.namespaces.get? name =
    if key = name then some settings else st.namespaces.get? name
  callbacks : ∀ name, name ∈ st'.callbacks.keys ↔ name = key ∨ name ∈ st.callbacks.keys

omit [DecidableEq V] in
theorem Loaded.grows {key : String} {settings : Settings V} {st st' : ConfigState V}
    (h : Loaded key settings st st') : Grows key st st' := by
  refine ⟨?_, fun name hname => (h.callbacks name).1 hname⟩
  intro name
  rw [Dict.mem_keys_iff, Dict.mem_keys_iff, h.namespaces]
  by_cases hname : key = name
  · simp [hname]
  · simp [hname, Ne.symm hname]

/-- What storing the settings of a key does, from a state that has only gained the key. -/
def StoreSpec (key : String) (probeConfig : Option (Settings V)) (st : ConfigState V) :
    ProbeStep V → Prop
  | .raised st' _ => probeConfig = none ∧ Grows key st st'
  | .restart _ => False
  | .next st' => ∃ settings, probeConfig = some settings ∧ Loaded key settings st st'

omit [DecidableEq V] in
theorem storeProbe_spec {key : String} {probeConfig : Option (Settings V)} {st st₁ : ConfigState V}
    (hnamespaces : ∀ name, key ≠ name → st₁.namespaces.get? name = st.namespaces.get? name)
    (hcallbacks : ∀ name, name ∈ st₁.callbacks.keys ↔ name = key ∨ name ∈ st.callbacks.keys) :
    StoreSpec key probeConfig st (storeProbe key probeConfig st₁) := by
  have hload : ∀ settings : Settings V, Loaded key settings st (st₁.load key settings) := by
    intro settings
    refine ⟨?_, hcallbacks⟩
    intro name
    rw [ConfigState.get?_load]
    by_cases hname : key = name
    · simp [hname]
    · simp [hname, hnamespaces name hname]
  cases probeConfig with
  | none => exact ⟨rfl, (hload Dict.empty).grows⟩
  | some settings => exact ⟨settings, rfl, hload settings⟩

omit [DecidableEq V] in
theorem get?_getNamespace_of_ne {key name : String} (h : key ≠ name) (st : ConfigState V) :
    (st.getNamespace key).namespaces.get? name = st.namespaces.get? name := by
  unfold ConfigState.getNamespace
  cases st.namespaces.get? key with
  | some _ => rfl
  | none => exact Dict.get?_set_of_ne _ h _

omit [DecidableEq V] in
theorem grows_getNamespace (key : String) (st : ConfigState V) :
    Grows key st (st.getNamespace key) :=
  ⟨fun _ => ConfigState.mem_keys_getNamespace, fun name hname => Or.inr (by simpa using hname)⟩

/-- A round whose key has no callback stores the settings. -/
theorem parseProbe_of_new (watch : Bool) {key : String} (probeConfig : Option (Settings V))
    {st : ConfigState V} (h : key ∉ st.callbacks.keys) :
    StoreSpec key probeConfig st (parseProbe watch key probeConfig st) := by
  have hget : st.callbacks.get? key = none := Dict.get?_eq_none_iff.2 h
  simp only [parseProbe, ConfigState.callbacks_getNamespace, hget]
  refine storeProbe_spec ?_ ?_
  · intro name hname
    rw [ConfigState.namespaces_addCallback]
    exact get?_getNamespace_of_ne hname st
  · intro name
    rw [ConfigState.mem_keys_addCallback, ConfigState.callbacks_getNamespace]

/-- The three ways a round can end. -/
theorem parseProbe_spec (watch : Bool) (key : String) (probeConfig : Option (Settings V))
    (st : ConfigState V) :
    match parseProbe watch key probeConfig st with
    | .raised st' _ => Grows key st st'
    | .restart st' => key ∈ st.callbacks.keys ∧ st' = (st.getNamespace key).resetConfigState
    | .next st' => ∃ settings, probeConfig = some settings ∧ Loaded key settings st st' := by
  have hweaken : ∀ r : ProbeStep V, StoreSpec key probeConfig st r →
      match r with
      | .raised st' _ => Grows key st st'
      | .restart st' => key ∈ st.callbacks.keys ∧ st' = (st.getNamespace key).resetConfigState
      | .next st' => ∃ settings, probeConfig = some settings ∧ Loaded key settings st st' := by
    intro r hr
    cases r with
    | raised st' err => exact hr.2
    | restart st' => exact hr.elim
    | next st' => exact hr
  cases hget : st.callbacks.get? key with
  | none => exact hweaken _ (parseProbe_of_new watch probeConfig (Dict.get?_eq_none_iff.1 hget))
  | some callback =>
      have hmem : key ∈ st.callbacks.keys := Dict.mem_keys_iff.2 ⟨callback, hget⟩
      have hkeys : ∀ name, name ∈ st.callbacks.keys ↔ name = key ∨ name ∈ st.callbacks.keys :=
        fun name => (or_iff_right_of_imp fun hname => hname ▸ hmem).symm
      have hstore : StoreSpec key probeConfig st
          (storeProbe key probeConfig (st.getNamespace key)) :=
        storeProbe_spec (fun name hname => get?_getNamespace_of_ne hname st) (by simpa using hkeys)
      simp only [parseProbe, ConfigState.callbacks_getNamespace, hget]
      cases watch with
      | false => exact hweaken _ hstore
      | true =>
          cases probeConfig with
          | none => exact grows_getNamespace key st
          | some settings =>
              simp only [if_true]
              by_cases hsame : settings.Same (st.configValues key)
              · simp only [ConfigState.configValues_getNamespace, if_pos hsame]
                exact hweaken _ hstore
              · simp only [ConfigState.configValues_getNamespace, if_neg hsame]
                by_cases hhot : ¬ (nonHotswapSettings settings).Same
                    (nonHotswapSettings (st.configValues key))
                · simp only [if_pos hhot]
                  exact ⟨hmem, trivial⟩
                · simp only [if_neg hhot]
                  cases callback with
                  | none => exact grows_getNamespace key st
                  | some queue =>
                      refine hweaken _ (storeProbe_spec ?_ ?_)
                      · intro name hname
                        exact get?_getNamespace_of_ne hname st
                      · simpa using hkeys

/-! ## The per-probe loop -/

theorem parseProbes_next {watch : Bool} {data : ConfigData V} {key : String} {rest : List String}
    {probeConfig : Option (Settings V)} {st st' : ConfigState V}
    (hdata : data.get? key = some probeConfig)
    (hstep : parseProbe watch key probeConfig st = .next st') :
    parseProbes watch data (key :: rest) st = parseProbes watch data rest st' := by
  simp [parseProbes, hdata, hstep]

/-- A loop that ends normally has loaded every key, and left the other namespaces alone. -/
theorem parseProbes_loaded {watch : Bool} {data : ConfigData V} {keys : List String} :
    ∀ {st : ConfigState V}, keys.Nodup → (parseProbes watch data keys st).restarted = false →
      (parseProbes watch data keys st).error = none →
      (∀ key ∈ keys, ∃ settings, data.get? key = some (some settings)) ∧
        (∀ name, (parseProbes watch data keys st).state.namespaces.get? name =
          if name ∈ keys then (data.get? name).join else st.namespaces.get? name) ∧
        ∀ name, name ∈ (parseProbes watch data keys st).state.callbacks.keys ↔
          name ∈ keys ∨ name ∈ st.callbacks.keys := by
  induction keys with
  | nil =>
      intro st _ _ _
      simp [parseProbes]
  | cons key rest ih =>
      intro st hnodup hrestarted herror
      have hcons := List.nodup_cons.1 hnodup
      cases hdata : data.get? key with
      | none => simp [parseProbes, hdata] at herror
      | some probeConfig =>
          have hspec := parseProbe_spec watch key probeConfig st
          cases hstep : parseProbe watch key probeConfig st with
          | raised st' err => simp [parseProbes, hdata, hstep] at herror
          | restart st' => simp [parseProbes, hdata, hstep] at hrestarted
          | next st' =>
              rw [hstep] at hspec
              rcases hspec with ⟨settings, rfl, hloaded⟩
              rw [parseProbes_next hdata hstep] at hrestarted herror ⊢
              rcases ih hcons.2 hrestarted herror with ⟨hmappings, hnamespaces, hcallbacks⟩
              refine ⟨?_, ?_, ?_⟩
              · intro name hname
                rcases List.mem_cons.1 hname with rfl | hname
                · exact ⟨settings, hdata⟩
                · exact hmappings name hname
              · intro name
                rw [hnamespaces, hloaded.namespaces]
                by_cases hkey : key = name
                · subst hkey
                  simp [hcons.1, hdata]
                · simp [hkey, Ne.symm hkey]
              · intro name
                rw [hcallbacks, hloaded.callbacks, List.mem_cons, or_left_comm, or_assoc]

/-- A loop over keys without callbacks loads them all, if they are all mappings, and raises if not. -/
theorem parseProbes_of_new (watch : Bool) (data : ConfigData V) {keys : List String} :
    ∀ {st : ConfigState V}, keys.Nodup → (∀ key ∈ keys, key ∉ st.callbacks.keys) →
      (parseProbes watch data keys st).restarted = false ∧
        ((parseProbes watch data keys st).error = none ↔
          ∀ key ∈ keys, ∃ settings, data.get? key = some (some settings)) := by
  induction keys with
  | nil =>
      intro st _ _
      simp [parseProbes]
  | cons key rest ih =>
      intro st hnodup hnew
      have hcons := List.nodup_cons.1 hnodup
      cases hdata : data.get? key with
      | none => simp [parseProbes, hdata]
      | some probeConfig =>
          have hspec := parseProbe_of_new watch probeConfig
            (hnew key (by simp))
          cases hstep : parseProbe watch key probeConfig st with
          | raised st' err =>
              rw [hstep] at hspec
              rcases hspec with ⟨rfl, hgrows⟩
              simp [parseProbes, hdata, hstep]
          | restart st' =>
              rw [hstep] at hspec
              exact hspec.elim
          | next st' =>
              rw [hstep] at hspec
              rcases hspec with ⟨settings, rfl, hloaded⟩
              have hnew' : ∀ name ∈ rest, name ∉ st'.callbacks.keys := by
                intro name hname hmem
                rcases (hloaded.callbacks name).1 hmem with rfl | hold
                · exact hcons.1 hname
                · exact hnew name (by simp [hname]) hold
              simpa [parseProbes, hdata, hstep] using ih hcons.2 hnew'

/-- Where a restart in the loop comes from: a key that has a callback; the keys before it were
loaded, and then everything was cleared. -/
theorem parseProbes_restarted {watch : Bool} {data : ConfigData V} {keys : List String} :
    ∀ {st : ConfigState V}, keys.Nodup → (parseProbes watch data keys st).restarted = true →
      ∃ before key after, keys = before ++ key :: after ∧ key ∈ st.callbacks.keys ∧
        (parseProbes watch data keys st).error = none ∧
        (parseProbes watch data keys st).state.callbacks = Dict.empty ∧
        (parseProbes watch data keys st).state.loadedFiles = none ∧
        ∀ name, name ∈ (parseProbes watch data keys st).state.namespaces.keys ↔
          name ∈ before ∨ name = key ∨ name ∈ st.namespaces.keys := by
  induction keys with
  | nil =>
      intro st _ hrestarted
      simp [parseProbes] at hrestarted
  | cons key rest ih =>
      intro st hnodup hrestarted
      have hcons := List.nodup_cons.1 hnodup
      cases hdata : data.get? key with
      | none => simp [parseProbes, hdata] at hrestarted
      | some probeConfig =>
          have hspec := parseProbe_spec watch key probeConfig st
          cases hstep : parseProbe watch key probeConfig st with
          | raised st' err => simp [parseProbes, hdata, hstep] at hrestarted
          | restart st' =>
              rw [hstep] at hspec
              rcases hspec with ⟨hmem, rfl⟩
              refine ⟨[], key, rest, rfl, hmem, ?_⟩
              simp [parseProbes, hdata, hstep, ConfigState.mem_keys_getNamespace,
                ConfigState.resetConfigState, Dict.keys_mapValues]
          | next st' =>
              rw [hstep] at hspec
              rcases hspec with ⟨settings, rfl, hloaded⟩
              rw [parseProbes_next hdata hstep] at hrestarted ⊢
              rcases ih hcons.2 hrestarted with
                ⟨before, key', after, rfl, hmem, herror, hcallbacks, hfiles, hnames⟩
              -- The key that asks for the restart had its callback before this round.
              have hold : key' ∈ st.callbacks.keys := by
                rcases (hloaded.callbacks key').1 hmem with rfl | hold
                · exact absurd (by simp) hcons.1
                · exact hold
              refine ⟨key :: before, key', after, rfl, hold, herror, hcallbacks, hfiles, ?_⟩
              intro name
              rw [hnames, hloaded.grows.names, List.mem_cons, or_assoc]
              tauto

/-! ## The whole parse -/

/-- The probes or the files are not those that are loaded. -/
def ProbesOrFilesChanged (files : List String) (data : ConfigData V) (st : ConfigState V) : Prop :=
  (st.probeNames ≠ [] ∧ ¬ ∀ name, name ∈ probeKeys data ↔ name ∈ st.probeNames) ∨
    filesChanged st files = true

omit [DecidableEq V] in
theorem probesOrFilesChanged_iff {files : List String} {data : ConfigData V} {st : ConfigState V} :
    ((st.probeNames ≠ [] && namesDiffer (probeKeys data) st.probeNames) ||
      filesChanged st files) = true ↔ ProbesOrFilesChanged files data st := by
  simp only [ProbesOrFilesChanged, Bool.or_eq_true, Bool.and_eq_true, decide_eq_true_eq,
    namesDiffer_iff]

variable {mainThread watch : Bool} {order : IterOrder String} {files : List String}
  {data : ConfigData V} {st : ConfigState V}

theorem parseConfig_of_changed (h : ProbesOrFilesChanged files data st) :
    parseConfig mainThread order true files data st =
      ⟨(st.dropNamespaces (st.probeNames.filter (· ∉ probeKeys data))).resetConfigState,
        true, none⟩ := by
  unfold parseConfig
  exact if_pos (by simpa using probesOrFilesChanged_iff.2 h)

/-- A parse that gets to the loop ends the way the loop does. -/
theorem parseConfig_of_same (mainThread : Bool) (order : IterOrder String)
    (h : watch = true → ¬ ProbesOrFilesChanged files data st) :
    let r := parseProbes watch data (order.run (probeKeys data)) st
    let r' := parseConfig mainThread order watch files data st
    r'.restarted = r.restarted ∧ r'.error = r.error ∧
      r'.state.namespaces = r.state.namespaces ∧ r'.state.callbacks = r.state.callbacks ∧
      (r'.state.loadedFiles = r.state.loadedFiles ∨ r'.state.loadedFiles = some files) := by
  intro r r'
  have hr' : r' = match r.error with
      | some _ => r
      | none =>
          if mainThread && r.restarted then r
          else { r with state := { r.state with loadedFiles := some files } } := by
    refine if_neg ?_
    intro hcond
    rcases Bool.and_eq_true_iff.1 hcond with ⟨hwatch, hchanged⟩
    exact h hwatch (probesOrFilesChanged_iff.1 hchanged)
  rw [hr']
  cases herror : r.error with
  | some err => exact ⟨rfl, herror, rfl, rfl, Or.inl rfl⟩
  | none =>
      by_cases hmain : (mainThread && r.restarted) = true
      · rw [if_pos hmain]
        exact ⟨rfl, herror, rfl, rfl, Or.inl rfl⟩
      · rw [if_neg hmain]
        exact ⟨rfl, rfl, rfl, rfl, Or.inr rfl⟩

/-- What a parse that goes through has loaded. -/
theorem parseConfig_loaded
    (hrestarted : (parseConfig mainThread order watch files data st).restarted = false)
    (herror : (parseConfig mainThread order watch files data st).error = none) :
    (∀ key ∈ probeKeys data, ∃ settings, data.get? key = some (some settings)) ∧
      ∀ name, (parseConfig mainThread order watch files data st).state.namespaces.get? name =
        if name ∈ probeKeys data then (data.get? name).join else st.namespaces.get? name := by
  have hsame : watch = true → ¬ ProbesOrFilesChanged files data st := by
    rintro rfl hchanged
    rw [parseConfig_of_changed hchanged] at hrestarted
    exact absurd hrestarted (by simp)
  rcases parseConfig_of_same mainThread order hsame with
    ⟨hrestarted', herror', hnamespaces, _, _⟩
  rcases parseProbes_loaded (order.nodup_run (probeKeys_nodup data))
    (hrestarted' ▸ hrestarted) (herror' ▸ herror) with ⟨hmappings, hget, _⟩
  refine ⟨fun key hkey => hmappings key (order.mem_run.2 hkey), ?_⟩
  intro name
  rw [hnamespaces, hget]
  simp only [IterOrder.mem_run]

end Config

end PidtreeBcc
