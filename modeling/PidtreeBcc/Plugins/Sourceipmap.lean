import Mathlib.Data.List.Induction
import PidtreeBcc.Support.Dict
import PidtreeBcc.Support.Run

/-!
# Sourceipmap — names for source addresses

The plugin merges host files into one configuration namespace.  Each file has a watcher that loads it
again after it has changed; a load writes the entries of the file and removes none.

What the namespace says therefore depends on the order of the loads.  The names are those of the current
files just when, each time the watchers have caught up, every address loaded meanwhile is named as it was
loaded last, and every other address is named as before.
-/

namespace PidtreeBcc

open Support

namespace Plugins

/-! ## Host files -/

/-- White space of `str.strip` and `str.split`. -/
def isspace (c : Char) : Bool :=
  (9 ≤ c.toNat && c.toNat ≤ 13) || (0x1c ≤ c.toNat && c.toNat ≤ 0x20) ||
    (0x2000 ≤ c.toNat && c.toNat ≤ 0x200a) ||
    c.toNat ∈ [0x85, 0xa0, 0x1680, 0x2028, 0x2029, 0x202f, 0x205f, 0x3000]

def strip (s : List Char) : List Char :=
  ((s.dropWhile isspace).reverse.dropWhile isspace).reverse

def split (s : List Char) : List (List Char) := (s.splitOnP isspace).filter fun word => word ≠ []

/-- A file as the lines that iterating over it gives. -/
abbrev Mapfile := List (List Char)

def hostsLoader (mapfile : Mapfile) : Dict String String :=
  let lines := (mapfile.filter fun line => line.head? ≠ some '#' && strip line ≠ []).map strip
  lines.foldl
    (fun returnDict line =>
      match split line with
      -- Lines without a word were left out above.
      | [] => returnDict
      | key :: names =>
          returnDict.set (String.ofList key) (String.ofList ([' '].intercalate names)))
    Dict.empty

example : (hostsLoader ["# 127.0.0.1 not me\n".toList, "169.254.0.1 derp\n".toList]).entries =
    [("169.254.0.1", "derp")] := by decide

/-- A line that is not blank has a first word. -/
theorem split_ne_nil {s : List Char} {c : Char} (hc : c ∈ s) (hspace : isspace c = false) :
    split s ≠ [] := by
  have hword : ∃ word ∈ s.splitOnP isspace, word ≠ [] := by
    induction s with
    | nil => simp at hc
    | cons c' rest ih =>
        rw [List.splitOnP_cons_eq_if_modifyHead]
        by_cases hfirst : isspace c' = true
        · have hrest : c ∈ rest := by
            rcases List.mem_cons.1 hc with rfl | hrest
            · simp [hspace] at hfirst
            · exact hrest
          obtain ⟨word, hmem, hne⟩ := ih hrest
          exact ⟨word, by simp [hfirst, hmem], hne⟩
        · -- The character goes to the front of the next word.
          obtain ⟨word, words, hwords⟩ := List.exists_cons_of_ne_nil (List.splitOnP_ne_nil isspace rest)
          exact ⟨c' :: word, by simp [hfirst, hwords], by simp⟩
  obtain ⟨word, hmem, hne⟩ := hword
  have hkept : word ∈ split s := by simp [split, hmem, hne]
  exact List.ne_nil_of_mem hkept

theorem split_strip_ne_nil {line : List Char} (h : strip line ≠ []) : split (strip line) ≠ [] := by
  have hmid : (line.dropWhile isspace).reverse.dropWhile isspace ≠ [] := by
    intro hnil
    exact h (by simp [strip, hnil])
  have hspace := List.head_dropWhile_not isspace hmid
  exact split_ne_nil (by simp [strip]) hspace

/-! ## Watchers -/

/-- The files as they are now. -/
abbrev Files := String → Mapfile

/-- A `ConfigurationWatcher`, with whether its file has changed since it was loaded last. -/
structure Watcher where
  filename : String
  modified : Bool
  deriving DecidableEq, Repr

/-- `reload_if_changed`; `due` says that the watcher checks its file at all. -/
def Watcher.reloadIfChanged (files : Files) (due : Bool) (watcher : Watcher)
    (config : Dict String String) : Watcher × Dict String String :=
  -- What the file has no more is not taken out of the configuration.
  if due && watcher.modified then
    ({ watcher with modified := false }, config.merge (hostsLoader (files watcher.filename)))
  else (watcher, config)

/-- The watchers in their order; `due` is given by position. -/
def reloadAll (files : Files) :
    (Nat → Bool) → List Watcher → Dict String String → List Watcher × Dict String String
  | _, [], config => ([], config)
  | due, watcher :: watchers, config =>
      let first := watcher.reloadIfChanged files (due 0) config
      let rest := reloadAll files (fun i => due (i + 1)) watchers first.2
      (first.1 :: rest.1, rest.2)

/-- The contents of the files merged in their order. -/
def mergedHosts (files : Files) (hostfiles : List String) : Dict String String :=
  hostfiles.foldl (fun merged hostfile => merged.merge (hostsLoader (files hostfile))) Dict.empty

/-- `read_string(saddr, '')` -/
def readString (config : Dict String String) (saddr : String) : String := (config.get? saddr).getD ""

theorem mergedHosts_congr {files files' : Files} {hostfiles : List String}
    (h : ∀ hostfile ∈ hostfiles, files hostfile = files' hostfile) :
    mergedHosts files hostfiles = mergedHosts files' hostfiles := by
  refine List.foldl_ext _ _ _ fun merged hostfile hmem => ?_
  rw [h hostfile hmem]

theorem readString_merge (config loaded : Dict String String) (saddr : String) :
    readString (config.merge loaded) saddr = (loaded.get? saddr).getD (readString config saddr) := by
  cases hloaded : loaded.get? saddr <;> simp [readString, Dict.get?_merge, hloaded]

/-- Later files take precedence, and a name that no file has is empty. -/
theorem readString_mergedHosts (files : Files) (hostfiles : List String) (saddr : String) :
    readString (mergedHosts files hostfiles) saddr =
      (hostfiles.reverse.findSome? fun hostfile =>
        (hostsLoader (files hostfile)).get? saddr).getD "" := by
  induction hostfiles using List.reverseRecOn with
  | nil => simp [mergedHosts, readString]
  | append_singleton hostfiles hostfile ih =>
      have hmerge : mergedHosts files (hostfiles ++ [hostfile]) =
          (mergedHosts files hostfiles).merge (hostsLoader (files hostfile)) := by
        simp [mergedHosts]
      rw [hmerge, readString_merge, ih]
      cases hfile : (hostsLoader (files hostfile)).get? saddr <;> simp [hfile]

/-! ## The plugin -/

abbrev Event := Dict String String

structure Sourceipmap where
  attributeKey : String
  configWatchers : List Watcher
  config : Dict String String

namespace Sourceipmap

/-- The plugin of a new process. -/
def init (files : Files) (hostfiles : List String) (attributeKey : String) : Sourceipmap where
  attributeKey := attributeKey
  configWatchers := hostfiles.map fun hostfile => ⟨hostfile, false⟩
  config := hostfiles.foldl (fun config hostfile => config.merge (hostsLoader (files hostfile))) Dict.empty

def reload (files : Files) (due : Nat → Bool) (plugin : Sourceipmap) : Sourceipmap :=
  let reloaded := reloadAll files due plugin.configWatchers plugin.config
  { plugin with configWatchers := reloaded.1, config := reloaded.2 }

/-- The event with the name that `config` has for its source address. -/
def annotate (attributeKey : String) (config : Dict String String) (event : Event) : Event :=
  match event.get? "saddr" with
  | none => event
  | some saddr => event.set attributeKey (readString config saddr)

def process (files : Files) (due : Nat → Bool) (plugin : Sourceipmap) (event : Event) :
    Sourceipmap × Event :=
  let plugin' := plugin.reload files due
  (plugin', annotate plugin'.attributeKey plugin'.config event)

end Sourceipmap

open Sourceipmap

theorem annotate_eq_iff (attributeKey : String) {config config' : Dict String String} :
    (∀ event, annotate attributeKey config event = annotate attributeKey config' event) ↔
      ∀ saddr, readString config saddr = readString config' saddr := by
  constructor
  · intro h saddr
    have hevent := congrArg (fun event : Event => event.get? attributeKey) (h (Dict.empty.set "saddr" saddr))
    simpa [annotate] using hevent
  · intro h event
    cases hsaddr : event.get? "saddr" with
    | none => simp [annotate, hsaddr]
    | some saddr => simp [annotate, hsaddr, h saddr]

/-! ## Edits and events -/

/-- The plugin and its files.  `base` and `since` are history that the code does not keep: the merged
files when the watchers had caught up last, and all that was loaded since. -/
structure Session where
  files : Files
  plugin : Sourceipmap
  base : Dict String String
  since : Dict String String

/-- A file gets new contents, or an event is processed while some of the watchers are due. -/
inductive SessionAction
  | edit (filename : String) (mapfile : Mapfile)
  | process (due : Nat → Bool) (event : Event)

namespace Session

def init (files : Files) (hostfiles : List String) (attributeKey : String) : Session where
  files := files
  plugin := Sourceipmap.init files hostfiles attributeKey
  base := mergedHosts files hostfiles
  since := Dict.empty

/-- The current contents of the host files, merged in the configured order. -/
def merged (st : Session) : Dict String String :=
  mergedHosts st.files (st.plugin.configWatchers.map Watcher.filename)

/-- Every watcher whose file changed has reloaded. -/
def settled (st : Session) : Bool := st.plugin.configWatchers.all fun watcher => !watcher.modified

def edit (st : Session) (filename : String) (mapfile : Mapfile) : Session :=
  { st with
    files := Function.update st.files filename mapfile
    plugin := { st.plugin with configWatchers := st.plugin.configWatchers.map fun watcher =>
      if watcher.filename = filename then { watcher with modified := true } else watcher } }

/-- What has been loaded once the due watchers have reloaded. -/
def sinceReload (st : Session) (due : Nat → Bool) : Dict String String :=
  (reloadAll st.files due st.plugin.configWatchers st.since).2

def process (st : Session) (due : Nat → Bool) (event : Event) : Session :=
  let st' := { st with
    plugin := (st.plugin.process st.files due event).1
    since := st.sinceReload due }
  if st'.settled then { st' with base := st'.merged, since := Dict.empty } else st'

def step (st : Session) : SessionAction → Option Session
  | .edit filename mapfile => some (st.edit filename mapfile)
  | .process due event => some (st.process due event)

/-- If the watchers have caught up, an event gets the name that the current files give its source. -/
def NamesCurrent (st : Session) : Prop :=
  st.settled = true → ∀ due event,
    (st.plugin.process st.files due event).2 = annotate st.plugin.attributeKey st.merged event

/-- When the watchers catch up, the files give every address that has been loaded since they last had the
name it was loaded with last, and every other address the name they gave it then. -/
def LoadsAgree (st : Session) (a : SessionAction) : Prop :=
  ∀ due event, a = .process due event → (st.process due event).settled = true →
    ∀ saddr, match (st.sinceReload due).get? saddr with
      | some name => readString st.merged saddr = name
      | none => readString st.merged saddr = readString st.base saddr

variable {st : Session}

/-! ### What a reload changes -/

theorem reloadAll_of_settled {files : Files} :
    ∀ {watchers : List Watcher} {due : Nat → Bool} {config : Dict String String},
      (∀ watcher ∈ watchers, watcher.modified = false) →
        reloadAll files due watchers config = (watchers, config)
  | [], _, _, _ => rfl
  | watcher :: watchers, due, config, h => by
      have hfirst : watcher.modified = false := h watcher (by simp)
      have hrest : ∀ other ∈ watchers, other.modified = false :=
        fun other hother => h other (List.mem_cons_of_mem watcher hother)
      simp [reloadAll, Watcher.reloadIfChanged, hfirst, reloadAll_of_settled hrest]

theorem filename_reloadAll (files : Files) :
    ∀ (watchers : List Watcher) (due : Nat → Bool) (config : Dict String String),
      (reloadAll files due watchers config).1.map Watcher.filename = watchers.map Watcher.filename
  | [], _, _ => rfl
  | watcher :: watchers, due, config => by
      have hrest := filename_reloadAll files watchers (fun i => due (i + 1))
      by_cases hreload : (due 0 && watcher.modified) = true
      · simp [reloadAll, Watcher.reloadIfChanged, hreload, hrest]
      · simp [reloadAll, Watcher.reloadIfChanged, hreload, hrest]

/-- The names in `config` are those loaded in `since`, and for the rest those of `base`. -/
def NamesFrom (config since base : Dict String String) : Prop :=
  ∀ saddr, readString config saddr = (since.get? saddr).getD (readString base saddr)

theorem NamesFrom.merge {config since base : Dict String String} (h : NamesFrom config since base)
    (loaded : Dict String String) : NamesFrom (config.merge loaded) (since.merge loaded) base := by
  intro saddr
  cases hloaded : loaded.get? saddr with
  | none =>
      -- No entry is removed, so the name is the one from before.
      simpa [readString_merge, Dict.get?_merge, hloaded] using h saddr
  | some name => simp [readString_merge, Dict.get?_merge, hloaded]

theorem NamesFrom.reloadAll (files : Files) {base : Dict String String} :
    ∀ {watchers : List Watcher} {due : Nat → Bool} {config since : Dict String String},
      NamesFrom config since base →
        NamesFrom (reloadAll files due watchers config).2 (reloadAll files due watchers since).2 base
  | [], _, _, _, h => h
  | watcher :: watchers, due, config, since, h => by
      by_cases hreload : (due 0 && watcher.modified) = true
      · -- The same entries go into both, and then the rest is loaded.
        have hmerge := h.merge (hostsLoader (files watcher.filename))
        simpa [Plugins.reloadAll, Watcher.reloadIfChanged, hreload] using hmerge.reloadAll files
      · simpa [Plugins.reloadAll, Watcher.reloadIfChanged, hreload] using h.reloadAll files

/-! ### What every run keeps -/

theorem process_files (st : Session) (due : Nat → Bool) (event : Event) :
    (st.process due event).files = st.files := by
  simp only [process]
  split <;> rfl

theorem process_plugin (st : Session) (due : Nat → Bool) (event : Event) :
    (st.process due event).plugin = (st.plugin.process st.files due event).1 := by
  simp only [process]
  split <;> rfl

theorem merged_process (st : Session) (due : Nat → Bool) (event : Event) :
    (st.process due event).merged = st.merged := by
  simp only [merged, process_files, process_plugin, Sourceipmap.process, Sourceipmap.reload,
    filename_reloadAll]

theorem history_of_settled {due : Nat → Bool} {event : Event}
    (h : (st.process due event).settled = true) :
    (st.process due event).base = st.merged ∧ (st.process due event).since = Dict.empty := by
  rw [settled, process_plugin] at h
  have hmerged := merged_process st due event
  rw [← hmerged]
  simp [process, settled, h, merged]

theorem history_of_not_settled {due : Nat → Bool} {event : Event}
    (h : ¬ (st.process due event).settled = true) :
    (st.process due event).base = st.base ∧ (st.process due event).since = st.sinceReload due := by
  rw [settled, process_plugin] at h
  simp [process, settled, h]

theorem modified_of_settled (h : st.settled = true) :
    ∀ watcher ∈ st.plugin.configWatchers, watcher.modified = false := by
  simpa [settled] using h

theorem namesCurrent_iff :
    st.NamesCurrent ↔ (st.settled = true →
      ∀ saddr, readString st.plugin.config saddr = readString st.merged saddr) := by
  refine forall_congr' fun hsettled => ?_
  have hreload : ∀ due, st.plugin.reload st.files due = st.plugin := by
    intro due
    simp [Sourceipmap.reload, reloadAll_of_settled (modified_of_settled hsettled)]
  rw [← annotate_eq_iff st.plugin.attributeKey]
  simp only [Sourceipmap.process, hreload]
  exact forall_const _

/-- An edit leaves the watchers caught up only if none of them watches the file. -/
theorem settled_edit {filename : String} {mapfile : Mapfile}
    (h : (st.edit filename mapfile).settled = true) :
    st.settled = true ∧ (st.edit filename mapfile).merged = st.merged := by
  -- A watcher of the file would have been marked.
  have hnone : ∀ watcher ∈ st.plugin.configWatchers,
      watcher.filename ≠ filename ∧ watcher.modified = false := by
    intro watcher hmem
    have hflag := modified_of_settled h _ (List.mem_map.2 ⟨watcher, hmem, rfl⟩)
    by_cases hname : watcher.filename = filename
    · simp [hname] at hflag
    · exact ⟨hname, by simpa [hname] using hflag⟩
  refine ⟨?_, ?_⟩
  · simpa [settled] using fun watcher hmem => (hnone watcher hmem).2
  · have hnames : (st.edit filename mapfile).plugin.configWatchers.map Watcher.filename =
        st.plugin.configWatchers.map Watcher.filename := by
      simp only [edit, List.map_map]
      refine List.map_congr_left fun watcher _ => ?_
      by_cases hname : watcher.filename = filename <;> simp [hname]
    rw [merged, hnames]
    refine mergedHosts_congr fun hostfile hmem => ?_
    obtain ⟨watcher, hwatcher, rfl⟩ := List.mem_map.1 hmem
    simp [edit, (hnone watcher hwatcher).1]

structure Inv (st : Session) : Prop where
  names : NamesFrom st.plugin.config st.since st.base
  current : st.NamesCurrent

theorem inv_init (files : Files) (hostfiles : List String) (attributeKey : String) :
    Inv (init files hostfiles attributeKey) := by
  have hmerged : (init files hostfiles attributeKey).merged = mergedHosts files hostfiles := by
    simp [merged, init, Sourceipmap.init, Function.comp_def]
  refine ⟨fun saddr => rfl, namesCurrent_iff.2 ?_⟩
  rw [hmerged]
  exact fun _ _ => rfl

theorem Inv.edit (hinv : Inv st) (filename : String) (mapfile : Mapfile) :
    Inv (st.edit filename mapfile) := by
  refine ⟨hinv.names, namesCurrent_iff.2 ?_⟩
  intro hsettled
  obtain ⟨hbefore, hmerged⟩ := settled_edit hsettled
  rw [hmerged]
  exact namesCurrent_iff.1 hinv.current hbefore

theorem Inv.names_process (hinv : Inv st) (due : Nat → Bool) (event : Event) :
    NamesFrom (st.process due event).plugin.config (st.sinceReload due) st.base := by
  rw [process_plugin]
  exact hinv.names.reloadAll st.files

/-- Once the watchers have caught up, the condition says what the names are compared with. -/
theorem namesCurrent_process_iff (hinv : Inv st) (due : Nat → Bool) (event : Event) :
    (st.process due event).NamesCurrent ↔ st.LoadsAgree (.process due event) := by
  have hconfig := hinv.names_process due event
  have hcondition : st.LoadsAgree (.process due event) ↔
      ((st.process due event).settled = true → ∀ saddr,
        match (st.sinceReload due).get? saddr with
        | some name => readString st.merged saddr = name
        | none => readString st.merged saddr = readString st.base saddr) := by
    constructor
    · exact fun h => h due event rfl
    · intro h due' event' hEq
      cases hEq
      exact h
  rw [hcondition, namesCurrent_iff, merged_process]
  refine forall_congr' fun hsettled => forall_congr' fun saddr => ?_
  rw [hconfig saddr]
  cases hsince : (st.sinceReload due).get? saddr <;> simp [eq_comm]

theorem Inv.process (hinv : Inv st) {due : Nat → Bool} {event : Event}
    (hcond : st.LoadsAgree (.process due event)) : Inv (st.process due event) := by
  have hcurrent := (namesCurrent_process_iff hinv due event).2 hcond
  refine ⟨?_, hcurrent⟩
  by_cases hsettled : (st.process due event).settled = true
  · -- The history starts anew from the merged files.
    obtain ⟨hbase, hsince⟩ := history_of_settled hsettled
    intro saddr
    have hname := namesCurrent_iff.1 hcurrent hsettled saddr
    rw [hbase, hsince]
    simpa [merged_process] using hname
  · -- The history goes on with what was loaded.
    obtain ⟨hbase, hsince⟩ := history_of_not_settled hsettled
    rw [hbase, hsince]
    exact hinv.names_process due event

theorem Inv.step {a : SessionAction} {st' : Session} (hinv : Inv st) (hcond : st.LoadsAgree a)
    (h : st.step a = some st') : Inv st' := by
  cases a with
  | edit filename mapfile =>
      cases h
      exact hinv.edit filename mapfile
  | process due event =>
      cases h
      exact hinv.process hcond

theorem Inv.not_current {a : SessionAction} {st' : Session} (hinv : Inv st)
    (hcond : ¬ st.LoadsAgree a) (h : st.step a = some st') : ¬ st'.NamesCurrent := by
  cases a with
  | edit filename mapfile =>
      -- The condition says nothing about an edit.
      exact absurd (fun _ _ hEq => by cases hEq) hcond
  | process due event =>
      cases h
      exact fun hcurrent => hcond ((namesCurrent_process_iff hinv due event).1 hcurrent)

/-- Whenever the watchers have caught up, events get the names that the current files give their sources,
just when each catching up agrees with the loads it consisted of. -/
theorem names_current_iff (files : Files) (hostfiles : List String) (attributeKey : String)
    (acts : List SessionAction) :
    (∀ st ∈ Run.visited step (init files hostfiles attributeKey) acts, st.NamesCurrent) ↔
      Run.StepsMeet step LoadsAgree (init files hostfiles attributeKey) acts :=
  Run.visited_iff_stepsMeet (I := Inv) (fun _ hinv => hinv.current)
    (fun _ _ _ hinv hcond h => hinv.step hcond h)
    (fun _ _ _ hinv hcond h => hinv.not_current hcond h)
    (inv_init files hostfiles attributeKey)

/-- The only entry of the only file is removed, and the watcher reloads. -/
def removedEntry : List SessionAction :=
  [.edit "/etc/hosts" [], .process (fun _ => true) (Dict.empty.set "saddr" "10.0.0.1")]

theorem removed_entry_reported :
    ∃ st, removedEntry.foldlM step
        (init (fun _ => ["10.0.0.1 web\n".toList]) ["/etc/hosts"] "source_host") = some st ∧
      ¬ st.NamesCurrent := by
  refine ⟨_, rfl, ?_⟩
  intro hcurrent
  have hevent := hcurrent (by decide) (fun _ => true) (Dict.empty.set "saddr" "10.0.0.1")
  have hname := congrArg (fun event : Event => event.get? "source_host") hevent
  exact absurd hname (by decide)

/-- An event during whose processing the watchers catch up gets its name from what they have loaded. -/
theorem process_output (st : Session) (due : Nat → Bool) (event : Event)
    (h : (st.process due event).settled = true) :
    (st.plugin.process st.files due event).2 =
      ((st.process due event).plugin.process (st.process due event).files due event).2 := by
  have hreload : (st.process due event).plugin.reload (st.process due event).files due =
      (st.process due event).plugin := by
    simp [Sourceipmap.reload, reloadAll_of_settled (modified_of_settled h)]
  calc
    (st.plugin.process st.files due event).2
        = annotate (st.process due event).plugin.attributeKey (st.process due event).plugin.config
            event := by rw [process_plugin]; rfl
    _ = ((st.process due event).plugin.process (st.process due event).files due event).2 := by
          simp only [Sourceipmap.process, hreload]

end Session

end Plugins

end PidtreeBcc
