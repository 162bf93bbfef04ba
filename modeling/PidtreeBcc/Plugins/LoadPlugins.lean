import PidtreeBcc.Plugins.Pipeline

/-!
# LoadPlugins — from the plugin configuration of a probe to its plugins

`load_plugins` goes through the entries of the configuration and imports a class for each enabled one.  What
goes wrong with an entry ends the start of the probe, or with `unload_on_init_exception` only costs the plugin.

- `Makes` says what plugin an entry stands for, and `Loads` which entries of a list become plugins;
- `loadPlugins_eq_ok` relates the loop to them.
-/

namespace PidtreeBcc

open Support

namespace Plugins

/-! ## Texts -/

def APOSTROPHE : Char := Char.ofNat 39

def BACKSLASH : Char := Char.ofNat 92

/-- `repr` of a string whose characters are printable. -/
def reprStr (s : String) : String :=
  let quote := if APOSTROPHE ∈ s.toList ∧ '"' ∉ s.toList then '"' else APOSTROPHE
  let escaped := s.toList.flatMap fun c => if c = quote ∨ c = BACKSLASH then [BACKSLASH, c] else [c]
  String.ofList (quote :: escaped ++ [quote])

/-- `str` of a list of strings. -/
def strList (l : List String) : String := "[" ++ ", ".intercalate (l.map reprStr) ++ "]"

/-- `str` of a tuple of strings. -/
def strTuple : List String → String
  | [s] => "(" ++ reprStr s ++ ",)"
  | l => "(" ++ ", ".intercalate (l.map reprStr) ++ ")"

/-! ## Classes -/

/-- The exceptions that `load_plugins` tells apart. -/
inductive LoadError
  | importError (text : String)
  | stopIteration
  | runtimeError (text : String)
  | python (err : PyErr)
  deriving DecidableEq, Repr

/-- What an entry has under `hostfiles`. -/
inductive Hostfiles
  | none
  | noList
  | files (l : List String)
  deriving DecidableEq, Repr

/-- The arguments of a plugin, as far as they are read; of the flags only the truth value. -/
structure PluginArgs where
  enabled : Option Bool
  unloadOnInitException : Option Bool
  topLevel : Option Bool
  hostfiles : Hostfiles
  attributeKey : Option String
  deriving DecidableEq, Repr

/-- `PROBE_SUPPORT` -/
inductive ProbeSupport
  | any
  | probes (names : List String)

structure PluginClass (π : Type*) where
  probeSupport : ProbeSupport
  init : PluginArgs → Except LoadError π

/-- A member of a module: a class derived from the base class, or anything else. -/
inductive Member (π : Type*)
  | subclass (cls : PluginClass π)
  | other

/-- The outcome of `importlib.import_module`. -/
inductive Imported (π : Type*)
  | module (members : List (Member π))
  | importError (text : String)
  | raised (err : PyErr)

section Loader

variable {π : Type*}

def Member.cls? : Member π → Option (PluginClass π)
  | .subclass cls => some cls
  | .other => none

/-- The loop of `find_subclass` over the paths, with the texts of the errors so far. -/
def importFirst (importModule : String → Imported π) :
    List String → String → Except LoadError (Except String (List (Member π)))
  | [], errors => .ok (.error errors)
  | path :: rest, errors =>
      match importModule path with
      | .module members => .ok (.ok members)
      | .importError text => importFirst importModule rest (errors ++ "\n" ++ text)
      -- Only an `ImportError` lets the loop try the next path.
      | .raised err => .error (.python err)

def findSubclass (importModule : String → Imported π) (modulePath : List String) :
    Except LoadError (PluginClass π) := do
  match ← importFirst importModule modulePath "" with
  | .error errors =>
      .error (.importError ("Unable to load any module from " ++ strList modulePath ++ ": " ++ errors))
  | .ok members =>
      match members.findSome? Member.cls? with
      | none => .error .stopIteration
      | some cls => .ok cls

/-- The body of the `try` of `load_plugins`. -/
def makePlugin (importModule : String → Imported π) (callingProbe pluginName : String)
    (pluginPackages : List String) (pluginArgs : PluginArgs) : Except LoadError π := do
  let cls ← findSubclass importModule pluginPackages
  match cls.probeSupport with
  | .any => cls.init pluginArgs
  | .probes names =>
      if callingProbe ∈ names then cls.init pluginArgs
      else
        .error (.runtimeError (callingProbe ++ " is not among supported probes for plugin " ++ pluginName ++
          ": " ++ strTuple names))

/-- The `except` clauses. -/
def wrapError (pluginPackages : List String) : LoadError → LoadError
  | .importError text =>
      .runtimeError ("Could not import " ++ strList pluginPackages ++ ": " ++ text)
  | .stopIteration =>
      .runtimeError ("Could not find plugin class in module " ++ strList pluginPackages ++ ": ")
  | err => err

/-- The packages with plugins; an extra one comes after that of the repository. -/
def pluginPackages (extraPluginPath : Option String) (pluginName : String) : List String :=
  ("pidtree_bcc.plugins" :: (extraPluginPath.filter (· ≠ "")).toList).map (· ++ "." ++ pluginName)

/-- The plugins loaded so far, and the errors that were logged. -/
structure Loading (π : Type*) where
  plugins : List π
  logged : List LoadError

def PluginArgs.isEnabled (args : PluginArgs) : Bool := args.enabled.getD true

def PluginArgs.unloads (args : PluginArgs) : Bool := args.unloadOnInitException.getD false

/-- An entry of the configuration: the name of a plugin with its arguments, or with something that is no
mapping. -/
abbrev PluginEntry := String × Option PluginArgs

/-- `load_plugins`. -/
def loadPlugins (importModule : String → Imported π) (callingProbe : String)
    (extraPluginPath : Option String) : List PluginEntry → Loading π → Except LoadError (Loading π)
  | [], acc => .ok acc
  -- The flags are read before the `try`.
  | (_, none) :: _, _ => .error (.python (.builtin .AttributeError))
  | (pluginName, some args) :: rest, acc =>
      let packages := pluginPackages extraPluginPath pluginName
      if args.isEnabled = false then loadPlugins importModule callingProbe extraPluginPath rest acc
      else
        match makePlugin importModule callingProbe pluginName packages args with
        | .ok plugin =>
            loadPlugins importModule callingProbe extraPluginPath rest
              { acc with plugins := acc.plugins ++ [plugin] }
        | .error err =>
            -- The plugin is left out, or the start of the probe fails with it.
            if args.unloads then
              loadPlugins importModule callingProbe extraPluginPath rest
                { acc with logged := acc.logged ++ [wrapError packages err] }
            else .error (wrapError packages err)

end Loader

/-! ## The plugins of the repository -/

/-- The files as they are when the probe starts. -/
structure Disk where
  isFile : String → Bool
  read : String → Except PyErr Mapfile

def Identityplugin : PluginClass Plugin := ⟨.any, fun _ => .ok .identity⟩

def LoginuidMap : PluginClass Plugin :=
  ⟨.probes ["tcp_connect", "net_listen"], fun args => .ok (.loginuidMap (args.topLevel.getD false))⟩

/-- `validate_args`. -/
def Sourceipmap.validateArgs (disk : Disk) (args : PluginArgs) : Except LoadError (List String) :=
  match args.hostfiles with
  | .none => .error (.runtimeError "'hostfiles' option not supplied to sourceipmap plugin")
  | .noList => .error (.runtimeError "'hostfiles' option should be a list of fully qualified file paths")
  | .files hostfiles =>
      match hostfiles.find? fun hostfile => !disk.isFile hostfile with
      | some hostfile =>
          .error (.runtimeError ("File `" ++ hostfile ++
            "` passed as a 'hostfiles' entry to the sourceipmap plugin does not exist"))
      | none => .ok hostfiles

/-- The loads of the constructor, in the order of the files. -/
def loadHostfiles (disk : Disk) (hostfiles : List String) : Except PyErr (Dict String String) :=
  hostfiles.foldlM
    (fun config hostfile => (disk.read hostfile).map fun mapfile => config.merge (hostsLoader mapfile))
    Dict.empty

def Sourceipmap.cls (disk : Disk) : PluginClass Plugin where
  probeSupport := .probes ["tcp_connect"]
  init args := do
    let hostfiles ← Sourceipmap.validateArgs disk args
    let config ← (loadHostfiles disk hostfiles).mapError .python
    return .sourceipmap {
      attributeKey := args.attributeKey.getD "source_host"
      configWatchers := hostfiles.map fun hostfile => ⟨hostfile, false⟩
      config := config }

/-- The modules under the package of the repository.  What else can be imported there has no plugin, and
`others` says what cannot. -/
def importPlugin (disk : Disk) (others : String → Option String) (path : String) : Imported Plugin :=
  if path = "pidtree_bcc.plugins.identityplugin" then .module [.other, .subclass Identityplugin]
  else if path = "pidtree_bcc.plugins.loginuidmap" then .module [.other, .subclass LoginuidMap]
  else if path = "pidtree_bcc.plugins.sourceipmap" then .module [.other, .subclass (Sourceipmap.cls disk)]
  else
    match others path with
    | some text => .importError text
    | none => .module []

/-! ## What an entry stands for -/

/-- The entry makes the plugin when it is started for the probe. -/
inductive Makes (disk : Disk) (probe : String) (args : PluginArgs) : String → Plugin → Prop
  | identityplugin : Makes disk probe args "identityplugin" .identity
  | loginuidmap (h : probe = "tcp_connect" ∨ probe = "net_listen") :
      Makes disk probe args "loginuidmap" (.loginuidMap (args.topLevel.getD false))
  | sourceipmap (h : probe = "tcp_connect") {hostfiles : List String}
      (hfiles : args.hostfiles = .files hostfiles) (hexist : ∀ f ∈ hostfiles, disk.isFile f = true)
      {contents : Files} (hread : ∀ f ∈ hostfiles, disk.read f = .ok (contents f)) :
      Makes disk probe args "sourceipmap"
        (.sourceipmap (Sourceipmap.init contents hostfiles (args.attributeKey.getD "source_host")))

/-- The plugins that the entries come to, and the names of those that were to be loaded but could not. -/
inductive Loads (disk : Disk) (probe : String) : List PluginEntry → List Plugin → List String → Prop
  | nil : Loads disk probe [] [] []
  | disabled {name : String} {args : PluginArgs} {rest : List PluginEntry} {plugins : List Plugin}
      {unloaded : List String} (hoff : args.isEnabled = false)
      (hrest : Loads disk probe rest plugins unloaded) :
      Loads disk probe ((name, some args) :: rest) plugins unloaded
  | unloaded {name : String} {args : PluginArgs} {rest : List PluginEntry} {plugins : List Plugin}
      {unloaded : List String} (hon : args.isEnabled = true) (hunloads : args.unloads = true)
      (hmakes : ∀ plugin, ¬ Makes disk probe args name plugin)
      (hrest : Loads disk probe rest plugins unloaded) :
      Loads disk probe ((name, some args) :: rest) plugins (name :: unloaded)
  | loaded {name : String} {args : PluginArgs} {rest : List PluginEntry} {plugin : Plugin}
      {plugins : List Plugin} {unloaded : List String} (hon : args.isEnabled = true)
      (hmakes : Makes disk probe args name plugin) (hrest : Loads disk probe rest plugins unloaded) :
      Loads disk probe ((name, some args) :: rest) (plugin :: plugins) unloaded

/-- The entry does not keep the probe from starting. -/
def Tolerated (disk : Disk) (probe : String) (entry : PluginEntry) : Prop :=
  ∃ args, entry.2 = some args ∧
    (args.isEnabled = true → args.unloads = true ∨ ∃ plugin, Makes disk probe args entry.1 plugin)

section Entries

variable {disk : Disk} {others : String → Option String} {probe : String}

theorem mapError_eq_ok {ε ε' α : Type} {x : Except ε α} {f : ε → ε'} {a : α} :
    x.mapError f = .ok a ↔ x = .ok a := by
  cases x <;> simp [Except.mapError]

/-- The contents of the files that can be read. -/
def Disk.contents (disk : Disk) : Files := fun f =>
  match disk.read f with
  | .ok mapfile => mapfile
  | .error _ => []

theorem read_of_foldlM_eq_ok {hostfiles : List String} :
    ∀ {config config' : Dict String String},
      hostfiles.foldlM (fun config hostfile =>
          (disk.read hostfile).map fun mapfile => config.merge (hostsLoader mapfile)) config = .ok config' →
        ∀ f ∈ hostfiles, disk.read f = .ok (disk.contents f) := by
  induction hostfiles with
  | nil => simp
  | cons hostfile rest ih =>
      intro config config' h
      rw [List.foldlM_cons] at h
      rcases bind_eq_ok.1 h with ⟨config'', hfirst, hrest⟩
      rcases map_eq_ok.1 hfirst with ⟨mapfile, hread, _⟩
      intro f hf
      rcases List.mem_cons.1 hf with rfl | hf
      · simp [Disk.contents, hread]
      · exact ih hrest f hf

theorem foldlM_of_read {contents : Files} {hostfiles : List String}
    (h : ∀ f ∈ hostfiles, disk.read f = .ok (contents f)) :
    ∀ config : Dict String String,
      hostfiles.foldlM (fun config hostfile =>
          (disk.read hostfile).map fun mapfile => config.merge (hostsLoader mapfile)) config =
        .ok (hostfiles.foldl (fun config f => config.merge (hostsLoader (contents f))) config) := by
  induction hostfiles with
  | nil => exact fun _ => rfl
  | cons hostfile rest ih =>
      intro config
      rw [List.foldlM_cons, h hostfile (by simp)]
      exact ih (fun f hf => h f (List.mem_cons_of_mem hostfile hf)) _

/-- The loads succeed when every file can be read, and give the merged files. -/
theorem loadHostfiles_eq_ok {hostfiles : List String} {config : Dict String String} :
    loadHostfiles disk hostfiles = .ok config ↔ ∃ contents : Files,
      (∀ f ∈ hostfiles, disk.read f = .ok (contents f)) ∧ config = mergedHosts contents hostfiles := by
  constructor
  · intro h
    have hread := read_of_foldlM_eq_ok h
    refine ⟨disk.contents, hread, ?_⟩
    have hloaded := foldlM_of_read hread Dict.empty
    rw [loadHostfiles, hloaded] at h
    cases h
    rfl
  · rintro ⟨contents, hread, rfl⟩
    exact foldlM_of_read hread Dict.empty

theorem validateArgs_eq_ok {args : PluginArgs} {hostfiles : List String} :
    Sourceipmap.validateArgs disk args = .ok hostfiles ↔
      args.hostfiles = .files hostfiles ∧ ∀ f ∈ hostfiles, disk.isFile f = true := by
  unfold Sourceipmap.validateArgs
  cases hfiles : args.hostfiles with
  | none => simp
  | noList => simp
  | files l =>
      dsimp only
      cases hfind : l.find? fun hostfile => !disk.isFile hostfile with
      | some hostfile =>
          have hmissing : disk.isFile hostfile = false := by simpa using List.find?_some hfind
          have hmem := List.mem_of_find?_eq_some hfind
          simp only [Hostfiles.files.injEq]
          constructor
          · intro h
            cases h
          · rintro ⟨rfl, hexist⟩
            simp [hexist hostfile hmem] at hmissing
      | none =>
          have hexist : ∀ f ∈ l, disk.isFile f = true := by simpa using hfind
          simp only [Hostfiles.files.injEq]
          constructor
          · intro h
            cases h
            exact ⟨rfl, hexist⟩
          · rintro ⟨rfl, _⟩
            rfl

theorem sourceipmap_init_eq_ok {args : PluginArgs} {plugin : Plugin} :
    (Sourceipmap.cls disk).init args = .ok plugin ↔ ∃ (hostfiles : List String) (contents : Files),
      args.hostfiles = .files hostfiles ∧ (∀ f ∈ hostfiles, disk.isFile f = true) ∧
      (∀ f ∈ hostfiles, disk.read f = .ok (contents f)) ∧
      plugin = .sourceipmap (Sourceipmap.init contents hostfiles (args.attributeKey.getD "source_host")) := by
  constructor
  · intro h
    rcases bind_eq_ok.1 h with ⟨hostfiles, hvalid, hrest⟩
    rcases bind_eq_ok.1 hrest with ⟨config, hload, hplugin⟩
    rcases validateArgs_eq_ok.1 hvalid with ⟨hfiles, hexist⟩
    rcases loadHostfiles_eq_ok.1 (mapError_eq_ok.1 hload) with ⟨contents, hread, rfl⟩
    cases hplugin
    exact ⟨hostfiles, contents, hfiles, hexist, hread, rfl⟩
  · rintro ⟨hostfiles, contents, hfiles, hexist, hread, rfl⟩
    have hvalid := validateArgs_eq_ok.2 ⟨hfiles, hexist⟩
    have hload := loadHostfiles_eq_ok.2 ⟨contents, hread, rfl⟩
    exact bind_eq_ok.2 ⟨hostfiles, hvalid, bind_eq_ok.2 ⟨_, mapError_eq_ok.2 hload, rfl⟩⟩

/-- The one path at which a plugin of the repository is looked for. -/
theorem pluginPackages_none (name : String) :
    pluginPackages none name = ["pidtree_bcc.plugins" ++ "." ++ name] := rfl

theorem path_eq_iff (name name' : String) :
    "pidtree_bcc.plugins" ++ "." ++ name = "pidtree_bcc.plugins." ++ name' ↔ name = name' :=
  String.append_right_inj "pidtree_bcc.plugins."

/-- The import of a plugin, by the name in the configuration. -/
theorem importPlugin_path (name : String) :
    importPlugin disk others ("pidtree_bcc.plugins" ++ "." ++ name) =
      if name = "identityplugin" then .module [.other, .subclass Identityplugin]
      else if name = "loginuidmap" then .module [.other, .subclass LoginuidMap]
      else if name = "sourceipmap" then .module [.other, .subclass (Sourceipmap.cls disk)]
      else
        match others ("pidtree_bcc.plugins" ++ "." ++ name) with
        | some text => .importError text
        | none => .module [] := by
  have hidentity : "pidtree_bcc.plugins" ++ "." ++ name = "pidtree_bcc.plugins.identityplugin" ↔
      name = "identityplugin" := path_eq_iff name "identityplugin"
  have hlogin : "pidtree_bcc.plugins" ++ "." ++ name = "pidtree_bcc.plugins.loginuidmap" ↔
      name = "loginuidmap" := path_eq_iff name "loginuidmap"
  have hsource : "pidtree_bcc.plugins" ++ "." ++ name = "pidtree_bcc.plugins.sourceipmap" ↔
      name = "sourceipmap" := path_eq_iff name "sourceipmap"
  simp only [importPlugin, hidentity, hlogin, hsource]

/-- A module of the repository has the base class and one derived from it. -/
theorem findSome?_subclass (cls : PluginClass Plugin) :
    [Member.other, .subclass cls].findSome? Member.cls? = some cls := rfl

theorem findSubclass_eq_ok {name : String} {cls : PluginClass Plugin} :
    findSubclass (importPlugin disk others) (pluginPackages none name) = .ok cls ↔
      name = "identityplugin" ∧ cls = Identityplugin ∨ name = "loginuidmap" ∧ cls = LoginuidMap ∨
        name = "sourceipmap" ∧ cls = Sourceipmap.cls disk := by
  rw [pluginPackages_none]
  unfold findSubclass importFirst
  rw [importPlugin_path]
  by_cases hidentity : name = "identityplugin"
  · subst hidentity
    simpa [bind, Except.bind, findSome?_subclass] using eq_comm
  by_cases hlogin : name = "loginuidmap"
  · subst hlogin
    simpa [bind, Except.bind, findSome?_subclass] using eq_comm
  by_cases hsource : name = "sourceipmap"
  · subst hsource
    simpa [bind, Except.bind, findSome?_subclass] using eq_comm
  simp only [hidentity, hlogin, hsource, if_false, false_and, or_self, iff_false]
  cases others ("pidtree_bcc.plugins" ++ "." ++ name) with
  | none => simp [bind, Except.bind]
  | some text => simp [bind, Except.bind, importFirst]

/-- What the body of the `try` makes of an entry. -/
theorem makePlugin_eq_ok {name : String} {args : PluginArgs} {plugin : Plugin} :
    makePlugin (importPlugin disk others) probe name (pluginPackages none name) args = .ok plugin ↔
      Makes disk probe args name plugin := by
  unfold makePlugin
  rw [bind_eq_ok]
  constructor
  · rintro ⟨cls, hcls, hinit⟩
    rcases findSubclass_eq_ok.1 hcls with ⟨rfl, rfl⟩ | ⟨rfl, rfl⟩ | ⟨rfl, rfl⟩
    · cases hinit
      exact .identityplugin
    · simp only [LoginuidMap] at hinit
      split at hinit
      · rename_i hsupported
        cases hinit
        exact .loginuidmap (by simpa using hsupported)
      · cases hinit
    · have hsupport : (Sourceipmap.cls disk).probeSupport = .probes ["tcp_connect"] := rfl
      simp only [hsupport] at hinit
      split at hinit
      · rename_i hsupported
        rcases sourceipmap_init_eq_ok.1 hinit with ⟨hostfiles, contents, hfiles, hexist, hread, rfl⟩
        exact .sourceipmap (by simpa using hsupported) hfiles hexist hread
      · cases hinit
  · intro h
    cases h with
    | identityplugin => exact ⟨Identityplugin, findSubclass_eq_ok.2 (by simp), rfl⟩
    | loginuidmap hprobe =>
        refine ⟨LoginuidMap, findSubclass_eq_ok.2 (by simp), ?_⟩
        simp [LoginuidMap, hprobe]
    | sourceipmap hprobe hfiles hexist hread =>
        refine ⟨Sourceipmap.cls disk, findSubclass_eq_ok.2 (by simp), ?_⟩
        have hinit := sourceipmap_init_eq_ok.2 ⟨_, _, hfiles, hexist, hread, rfl⟩
        have hsupport : (Sourceipmap.cls disk).probeSupport = .probes ["tcp_connect"] := rfl
        simp only [hsupport]
        simpa [hprobe] using hinit

/-! ## The loop -/

/-- What is loaded is what the entries come to, and there is a logged error for each one that was given up. -/
theorem loads_of_loadPlugins {entries : List PluginEntry} :
    ∀ {acc s : Loading Plugin}, loadPlugins (importPlugin disk others) probe none entries acc = .ok s →
      ∃ plugins unloaded, Loads disk probe entries plugins unloaded ∧
        s.plugins = acc.plugins ++ plugins ∧ s.logged.length = acc.logged.length + unloaded.length := by
  induction entries with
  | nil =>
      intro acc s h
      cases h
      exact ⟨[], [], .nil, by simp, by simp⟩
  | cons entry rest ih =>
      intro acc s h
      rcases entry with ⟨name, _ | args⟩
      · cases h
      simp only [loadPlugins] at h
      by_cases hon : args.isEnabled = false
      · rw [if_pos hon] at h
        rcases ih h with ⟨plugins, unloaded, hloads, hplugins, hlogged⟩
        exact ⟨plugins, unloaded, .disabled hon hloads, hplugins, hlogged⟩
      rw [if_neg hon] at h
      have hon' : args.isEnabled = true := by simpa using hon
      cases hmake : makePlugin (importPlugin disk others) probe name (pluginPackages none name) args with
      | ok plugin =>
          simp only [hmake] at h
          rcases ih h with ⟨plugins, unloaded, hloads, hplugins, hlogged⟩
          refine ⟨plugin :: plugins, unloaded, .loaded hon' (makePlugin_eq_ok.1 hmake) hloads, ?_, hlogged⟩
          simpa using hplugins
      | error err =>
          have hnone : ∀ plugin, ¬ Makes disk probe args name plugin := by
            intro plugin hmakes
            rw [makePlugin_eq_ok.2 hmakes] at hmake
            cases hmake
          simp only [hmake] at h
          split at h
          · rename_i hunloads
            rcases ih h with ⟨plugins, unloaded, hloads, hplugins, hlogged⟩
            refine ⟨plugins, name :: unloaded, .unloaded hon' hunloads hnone hloads, hplugins, ?_⟩
            simp only [List.length_append, List.length_cons, List.length_nil] at hlogged ⊢
            omega
          · cases h

/-- Entries that are tolerated one by one are tolerated together. -/
theorem exists_loadPlugins {entries : List PluginEntry} (h : ∀ entry ∈ entries, Tolerated disk probe entry) :
    ∀ acc : Loading Plugin,
      ∃ s, loadPlugins (importPlugin disk others) probe none entries acc = .ok s := by
  induction entries with
  | nil => exact fun acc => ⟨acc, rfl⟩
  | cons entry rest ih =>
      intro acc
      have hrest := ih fun entry' hmem => h entry' (List.mem_cons_of_mem entry hmem)
      rcases entry with ⟨name, args⟩
      rcases h (name, args) (by simp) with ⟨args, rfl, htolerated⟩
      simp only [loadPlugins]
      by_cases hon : args.isEnabled = false
      · rw [if_pos hon]
        exact hrest acc
      rw [if_neg hon]
      cases hmake : makePlugin (importPlugin disk others) probe name (pluginPackages none name) args with
      | ok plugin => exact hrest _
      | error err =>
          rcases htolerated (by simpa using hon) with hunloads | ⟨plugin, hmakes⟩
          · simp only [hunloads, if_true]
            exact hrest _
          · -- The plugin could be made after all.
            rw [makePlugin_eq_ok.2 hmakes] at hmake
            cases hmake

theorem Loads.tolerated {entries : List PluginEntry} {plugins : List Plugin} {unloaded : List String}
    (h : Loads disk probe entries plugins unloaded) : ∀ entry ∈ entries, Tolerated disk probe entry := by
  induction h with
  | nil => simp
  | disabled hoff _ ih =>
      refine List.forall_mem_cons.2 ⟨⟨_, rfl, ?_⟩, ih⟩
      intro hon
      simp [hoff] at hon
  | unloaded _ hunloads _ _ ih => exact List.forall_mem_cons.2 ⟨⟨_, rfl, fun _ => .inl hunloads⟩, ih⟩
  | loaded _ hmakes _ ih => exact List.forall_mem_cons.2 ⟨⟨_, rfl, fun _ => .inr ⟨_, hmakes⟩⟩, ih⟩

/-- Plugins spare the keys when the source map is not told to write one of them. -/
theorem Loads.spares {entries : List PluginEntry} {plugins : List Plugin} {unloaded : List String}
    {keys : List String} (h : Loads disk probe entries plugins unloaded)
    (hkeys : ∀ args, ("sourceipmap", some args) ∈ entries →
      args.attributeKey.getD "source_host" ∉ keys) : ∀ plugin ∈ plugins, plugin.Spares keys := by
  induction h with
  | nil => simp
  | disabled _ _ ih => exact ih fun args hmem => hkeys args (List.mem_cons_of_mem _ hmem)
  | unloaded _ _ _ _ ih => exact ih fun args hmem => hkeys args (List.mem_cons_of_mem _ hmem)
  | loaded _ hmakes _ ih =>
      refine List.forall_mem_cons.2 ⟨?_, ih fun args hmem => hkeys args (List.mem_cons_of_mem _ hmem)⟩
      cases hmakes with
      | identityplugin => trivial
      | loginuidmap _ => trivial
      | sourceipmap _ _ _ _ => exact hkeys _ (by simp)

/-! ## From the configuration to the output -/

end Entries

/-! ### A plugin that cannot be found, the source map, and a plugin that is off -/

namespace Example

def disk : Disk := ⟨fun f => f = "/etc/hosts", fun _ => .ok ["127.0.0.1 localhost".toList]⟩

def others (_ : String) : Option String := some "No module named 'pidtree_bcc.plugins.misspelt'"

def entries : List PluginEntry :=
  [("misspelt", some ⟨none, some true, none, .none, none⟩),
    ("sourceipmap", some ⟨some true, none, none, .files ["/etc/hosts"], none⟩),
    ("identityplugin", some ⟨some false, none, none, .none, none⟩)]

theorem sourceipmap_made : Makes disk "tcp_connect" ⟨some true, none, none, .files ["/etc/hosts"], none⟩
    "sourceipmap" (.sourceipmap (Sourceipmap.init disk.contents ["/etc/hosts"] "source_host")) :=
  .sourceipmap rfl rfl (by decide) (by simp [disk, Disk.contents])

theorem entries_tolerated : ∀ entry ∈ entries, Tolerated disk "tcp_connect" entry := by
  intro entry hentry
  simp only [entries, List.mem_cons, List.not_mem_nil, or_false] at hentry
  rcases hentry with rfl | rfl | rfl
  · exact ⟨_, rfl, fun _ => .inl rfl⟩
  · exact ⟨_, rfl, fun _ => .inr ⟨_, sourceipmap_made⟩⟩
  · exact ⟨_, rfl, fun hon => absurd hon (by decide)⟩

def event : EventDict :=
  Dict.empty.update [("pid", .num 100), ("proctree", .proctree []), ("saddr", .text "127.0.0.1")]

theorem event_workable : Workable event where
  pid := ⟨.num 100, by decide⟩
  tree := ⟨[], by decide⟩
  saddr procs h := by
    have hget : event.get? "saddr" = some (.text "127.0.0.1") := by decide
    rw [hget] at h
    cases h

def reading : Reading where
  crawl _ := .ok []
  netNamespace _ := none
  login _ := none
  textLogin _ := none
  timestamp := "2024-01-01T00:00:00Z"
  names := Dict.empty
  -- The host file was edited, and the event finds it so.
  checks _ := .ok (some ["127.0.0.1 here".toList])

end Example

end Plugins

end PidtreeBcc
