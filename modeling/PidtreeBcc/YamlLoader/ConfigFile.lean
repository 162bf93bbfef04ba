import PidtreeBcc.Config.Parse
import PidtreeBcc.YamlLoader.Expansion

/-!
# ConfigFile — from the files to the settings of the probes

`parse_config` first loads the configuration file and what it includes, and then takes the data into the
registry.  The two parts meet here: what a probe is given are the settings in the document of the file with its
includes replaced, and the files that are remembered are those that it is made of.
-/

namespace PidtreeBcc

open Support

namespace YamlLoader

variable {V W : Type}

/-! ## Data as configuration data -/

section Data

variable (text : V → Option String) (value : Data V → W)

/-- The entries of a mapping whose keys are all strings; `text` gives the strings among the scalars. -/
def stringKeys (entries : List (Option V × Data V)) : Option (List (String × Data V)) :=
  entries.mapM fun entry => (entry.1.bind text).map fun key => (key, entry.2)

/-- What a probe has in the file: the values of its settings, or something that is not a mapping. -/
def Data.settings : Data V → Option (Option (Config.Settings W))
  | .dict entries => (stringKeys text entries).map fun settings => some ((Dict.empty.update settings).mapValues value)
  | _ => some none

/-- The data of a configuration file, a mapping with strings for keys. -/
def Data.configData : Data V → Option (Config.ConfigData W)
  | .dict entries =>
      (stringKeys text entries).bind fun probes =>
        (probes.mapM fun (probe : String × Data V) =>
          (Data.settings text value probe.2).map fun settings => (probe.1, settings)).map
            fun configs => Dict.empty.update configs
  | _ => none

end Data

/-! ## Parsing -/

section Parse

variable [DecidableEq V] [DecidableEq W] (construct : Node V → Construction V)

/-- `parse_config`, for data that are configuration data; others raise before the registry is touched. -/
def parseConfigFile (outside : Outside V) (depth : Nat) (text : V → Option String) (value : Data V → W)
    (mainThread : Bool) (order : IterOrder String) (watch : Bool) (configFile : String) (stopFlag : Option Nat)
    (st : Config.ConfigState W) : LoadM (Option (Config.ParseOutcome W)) := do
  let (data, files) ← loadConfig construct outside depth configFile stopFlag
  return (data.configData text value).map fun configData =>
    Config.parseConfig mainThread order watch files configData st

open Eff in
/-- Where the local files have a content for the configuration file, a parse hands the data of the content to
the registry, with the sorted list of the files that are reached; and if it goes through, each probe has the
settings that it has in the content. -/
theorem parse_of_content {ι : Type} [Finite ι] (hfaithful : Faithful construct) {fs : LocalFiles ι V}
    (hacyclic : fs.Acyclic) {content : String → Option (Data V)} (hcontent : fs.IsContent content)
    {text : V → Option String} {value : Data V → W} {configFile : String} {data : Data V}
    (hdata : content configFile = some data) {configData : Config.ConfigData W}
    (hconfig : data.configData text value = some configData) (mainThread : Bool) (order : IterOrder String)
    (watch : Bool) (stopFlag : Option Nat) (st : Config.ConfigState W) (cls : LoaderClass) :
    ∃ depth, ∀ n, depth ≤ n → ∃ files,
      (files.Pairwise (· < ·) ∧ ∀ path, path ∈ files ↔ fs.Reaches configFile path) ∧
      (exec (parseConfigFile construct fs.outside n text value mainThread order watch configFile stopFlag st)
        cls).1 = .ok (some (Config.parseConfig mainThread order watch files configData st)) ∧
      ((Config.parseConfig mainThread order watch files configData st).restarted = false →
        (Config.parseConfig mainThread order watch files configData st).error = none →
        ∀ name ∈ Config.probeKeys configData, ∃ settings, configData.get? name = some (some settings) ∧
          (Config.parseConfig mainThread order watch files configData st).state.namespaces.get? name =
            some settings) := by
  rcases LocalFiles.loadConfig_eventually (LocalFiles.wellFounded_includes hacyclic) hfaithful hcontent configFile
    stopFlag cls with ⟨depth, hdepth⟩
  refine ⟨depth, fun n hn => ?_⟩
  have hload := hdepth n hn
  rw [hdata] at hload
  rcases hload with ⟨files, hexec, hsorted, hreaches⟩
  refine ⟨files, ⟨hsorted, hreaches⟩, ?_, ?_⟩
  · rw [parseConfigFile, exec_bind]
    rcases hrun : exec (loadConfig construct fs.outside n configFile stopFlag) cls with ⟨r, cls'⟩
    rw [hrun] at hexec
    cases hexec
    simp [hconfig]
  · intro hrestarted herror name hname
    rcases Config.parseConfig_loaded hrestarted herror with ⟨hmappings, hnamespaces⟩
    rcases hmappings name hname with ⟨settings, hsettings⟩
    exact ⟨settings, hsettings, by rw [hnamespaces, if_pos hname, hsettings, Option.join_some]⟩

/-- The settings of the two probes of the example, their includes replaced. -/
example : ((Example.expanded.configData some fun data => data.key?.isSome).map fun configData =>
    (configData.keys, configData.values.map fun settings => settings.map Dict.entries)) =
      some (["tcp_connect", "udp_session"],
        [some [("excludeports", false)], some [("excludeports", false)]]) := by decide

end Parse

end YamlLoader

end PidtreeBcc
