import PidtreeBcc.Containers.Monitor
import PidtreeBcc.Support.LruCache

/-!
# Lookups — the memoised lookups of a container

A listing asks for every container's inspection and for the mount namespace of its main process.  The
client, the inspections and the namespaces are memoised: a value that was returned once is returned again
until it is forgotten, an exception is not remembered.

A listing reports the current namespace of a container as long as what the caches hold for it is what the
lookups would say now, and the container has a main process.
-/

namespace PidtreeBcc

open Support

namespace Containers

/-! ## Globs -/

/-- One item of a glob; a set holds ranges of characters. -/
inductive GlobItem
  | star
  | any
  | literal (c : Char)
  | set (negated : Bool) (ranges : List (Char × Char))
  deriving DecidableEq, Repr

/-- The ranges of a bracket: `a-z`, or a single character. -/
def globRanges : List Char → List (Char × Char)
  | [] => []
  | lo :: '-' :: hi :: rest => (lo, hi) :: globRanges rest
  | c :: rest => (c, c) :: globRanges rest

/-- The inside of a bracket and what follows it.  The first character of the inside may be the closing
bracket itself. -/
def splitBracket (pat : List Char) : Option (List Char × List Char) :=
  match pat with
  | [] => none
  | c :: rest =>
      if ']' ∈ rest then some (c :: rest.takeWhile (· ≠ ']'), (rest.dropWhile (· ≠ ']')).tail)
      else none

/-- The bracket that `pat` opens with, after the `[`. -/
def globBracket (pat : List Char) : Option (GlobItem × List Char) :=
  let negated := pat.head? = some '!'
  match splitBracket (if negated then pat.tail else pat) with
  | none => none
  | some (inside, rest) => some (.set negated (globRanges inside), rest)

/-- The items of a glob; a bracket that is not closed is a literal one. -/
def globItems : Nat → List Char → List GlobItem
  | 0, _ => []
  | _ + 1, [] => []
  | fuel + 1, '*' :: rest => .star :: globItems fuel rest
  | fuel + 1, '?' :: rest => .any :: globItems fuel rest
  | fuel + 1, '[' :: rest =>
      match globBracket rest with
      | some (item, rest') => item :: globItems fuel rest'
      | none => .literal '[' :: globItems fuel rest
  | fuel + 1, c :: rest => .literal c :: globItems fuel rest

/-- A single character fits an item. -/
def GlobItem.fits (c : Char) : GlobItem → Bool
  | .star => true
  | .any => true
  | .literal c' => c = c'
  | .set negated ranges => (ranges.any fun r => r.1 ≤ c && c ≤ r.2) != negated

def globMatches : List GlobItem → List Char → Bool
  | [], s => s.isEmpty
  | .star :: items, s => s.tails.any fun rest => globMatches items rest
  | _ :: _, [] => false
  | item :: items, c :: s => item.fits c && globMatches items s

/-- `fnmatch.fnmatch`, where case is significant. -/
def fnmatch (name pat : String) : Bool :=
  globMatches (globItems pat.toList.length pat.toList) name.toList

example : fnmatch "web-1" "web-[0-9]" = true := by decide +kernel

example : fnmatch "web-x" "web-[!0-9]*" = true := by decide +kernel

/-! ## Label patterns -/

/-- `s.split('=', 1)`. -/
def splitEquals (s : List Char) : List String :=
  if '=' ∈ s then
    [String.ofList (s.takeWhile (· ≠ '=')), String.ofList (s.dropWhile (· ≠ '=')).tail]
  else [String.ofList s]

/-- The pairs of one pattern, each as the list that `split` returns. -/
def unpackPatternSet (patternSet : String) : List (List String) :=
  (patternSet.toList.splitOn ',').map splitEquals

/-- Every pair of the pattern matches.  A pair without `=` cannot be unpacked, if the loop gets there. -/
def matchesPatternSet (labels : Dict String String) : List (List String) → Except PyErr Bool
  | [] => .ok true
  | [labelKey, pattern] :: rest =>
      match labels.get? labelKey with
      | none => .ok false
      | some value => if fnmatch value pattern then matchesPatternSet labels rest else .ok false
  | _ :: _ => .error (.builtin .ValueError)

/-- One of the patterns matches; a container without labels matches none. -/
def matchesAny (labels : Dict String String) : List (List (List String)) → Except PyErr Bool
  | [] => .ok false
  | patternSet :: rest =>
      match matchesPatternSet labels patternSet with
      | .error err => .error err
      | .ok true => .ok true
      | .ok false => matchesAny labels rest

def labelsMatch (patterns : List String) (labels : Dict String String) : Except PyErr Bool :=
  if labels.entries = [] then .ok false else matchesAny labels (patterns.map unpackPatternSet)

/-! ## The container runtime -/

inductive ContainerizerClient
  | docker
  | nerdctl
  deriving DecidableEq, Repr

/-- What `inspect` prints of a container; there is no `State.Pid` if reading it raises. -/
structure InspectData where
  name : String
  labels : Dict String String
  pid : Option Nat
  deriving DecidableEq, Repr

/-- What the outside answers at some moment.  The inode of a namespace is that of
`/proc/<pid>/ns/mnt`, if `os.stat` does not raise. -/
structure Snapshot where
  containerdMetadata : Bool
  inspect : ContainerizerClient → String → Except PyErr InspectData
  mntnsInode : Nat → Option NsId

/-- The client that detection finds. -/
def Snapshot.client (w : Snapshot) : ContainerizerClient :=
  if w.containerdMetadata then .nerdctl else .docker

/-- `extract_container_name`. -/
def extractContainerName (data : InspectData) : String :=
  let name := String.ofList (data.name.toList.dropWhile (· = '/'))
  if name ≠ "" then name else (data.labels.get? "io.kubernetes.pod.name").getD ""

/-! ## The memoised functions -/

/-- The caches of `detect_containerizer_client`, `inspect_container` and `get_container_mntns_id`; the
arguments of the last one are the container and `second_try`, and `none` is the value -1. -/
structure Caches where
  client : LruCache 1 Unit ContainerizerClient
  inspect : LruCache 2048 String InspectData
  mntns : LruCache 20000 (String × Bool) (Option NsId)

def Caches.init : Caches := ⟨.empty, .empty, .empty⟩

def detectContainerizerClient (w : Snapshot) (caches : Caches) : ContainerizerClient × Caches :=
  let client := (caches.client.get? ()).getD w.client
  (client, { caches with client := caches.client.store () client })

def inspectContainer (w : Snapshot) (sha : String) (caches : Caches) :
    Except PyErr InspectData × Caches :=
  match caches.inspect.get? sha with
  -- A hit makes the entry the one used last.
  | some data => (.ok data, { caches with inspect := caches.inspect.store sha data })
  | none =>
      let r := detectContainerizerClient w caches
      match w.inspect r.1 sha with
      -- An exception is not memoised.
      | .error err => (.error err, r.2)
      | .ok data => (.ok data, { r.2 with inspect := r.2.inspect.store sha data })

/-- The memoisation of `get_container_mntns_id`. -/
def memoMntnsId (key : String × Bool) (compute : Caches → Option NsId × Caches) (caches : Caches) :
    Option NsId × Caches :=
  match caches.mntns.get? key with
  -- An answer that stands for a failure is memoised like any other.
  | some ns => (ns, { caches with mntns := caches.mntns.store key ns })
  | none =>
      let r := compute caches
      (r.1, { r.2 with mntns := r.2.mntns.store key r.1 })

/-- `get_container_mntns_id` with `second_try`, after the sleep. -/
def getContainerMntnsIdAgain (w : Snapshot) (sha : String) : Caches → Option NsId × Caches :=
  memoMntnsId (sha, true) fun caches =>
    let r := inspectContainer w sha caches
    match r.1 with
    | .error _ => (none, r.2)
    | .ok data => (data.pid.bind w.mntnsInode, r.2)

/-- `get_container_mntns_id`; `later` is what the outside answers after the sleep. -/
def getContainerMntnsId (now later : Snapshot) (sha : String) : Caches → Option NsId × Caches :=
  memoMntnsId (sha, false) fun caches =>
    let r := inspectContainer now sha caches
    match r.1 with
    | .error _ => (none, r.2)
    | .ok data =>
        -- There may be no process yet: sleep and try again.
        if data.pid = some 0 then getContainerMntnsIdAgain later sha r.2
        else (data.pid.bind now.mntnsInode, r.2)

def filterContainersWithLabelPatterns (w : Snapshot) (patterns : List String) :
    List String → Caches → List (String × String) × Caches
  | [], caches => ([], caches)
  | containerId :: rest, caches =>
      let r := inspectContainer w containerId caches
      let selected :=
        match r.1 with
        | .error _ => []
        | .ok info =>
            match labelsMatch patterns info.labels with
            -- A pattern that raises passes over the container, and so does a failed inspection.
            | .ok true => [(containerId, extractContainerName info)]
            | _ => []
      let s := filterContainersWithLabelPatterns w patterns rest r.2
      (selected ++ s.1, s.2)

/-- The namespaces of the selected containers. -/
def mntNamespacesOf (now later : Snapshot) :
    List (String × String) → Caches → List MountNSInfo × Caches
  | [], caches => ([], caches)
  | (containerId, name) :: rest, caches =>
      if containerId = "" then mntNamespacesOf now later rest caches
      else
        let r := getContainerMntnsId now later containerId caches
        let reported :=
          match r.1 with
          -- Only namespaces that were found are reported.
          | some ns => if ns ≠ 0 then [⟨containerId, name, ns, .start⟩] else []
          | none => []
        let s := mntNamespacesOf now later rest r.2
        (reported ++ s.1, s.2)

/-- `list_container_mnt_namespaces` of the containers that the generator lists. -/
def listContainerMntNamespaces (patterns : List String) (now later : Snapshot)
    (listed : List String) (caches : Caches) : List MountNSInfo × Caches :=
  let r := filterContainersWithLabelPatterns now patterns listed caches
  mntNamespacesOf now later r.1 r.2

/-! ## Listings -/

/-- A call of `list_container_mnt_namespaces`, for a baseline or a start event: the containers listed,
and what the outside answers now and after a sleep. -/
structure ListCall where
  listed : List String
  now : Snapshot
  later : Snapshot

/-- The caches, and the last call with its result. -/
structure LookupState where
  caches : Caches
  last : Option (ListCall × List MountNSInfo)

namespace LookupState

def init : LookupState := ⟨.init, none⟩

def step (patterns : List String) (st : LookupState) (call : ListCall) : Option LookupState :=
  let r := listContainerMntNamespaces patterns call.now call.later call.listed st.caches
  some ⟨r.2, some (call, r.1)⟩

end LookupState

/-- The lookups would give namespace `ns` at the time of the call, for a container whose inspection
gives `data`; a container without a main process yet has one after the sleep. -/
def ListCall.HasNamespace (call : ListCall) (id : String) (data : InspectData) (ns : NsId) : Prop :=
  ns ≠ 0 ∧
    ((∃ pid, data.pid = some pid ∧ pid ≠ 0 ∧ call.now.mntnsInode pid = some ns) ∨
      (data.pid = some 0 ∧ ∃ data' pid, call.later.inspect call.later.client id = .ok data' ∧
        data'.pid = some pid ∧ pid ≠ 0 ∧ call.later.mntnsInode pid = some ns))

/-- The listing reports the current namespace of every container whose labels match. -/
def ListCall.Reports (patterns : List String) (call : ListCall) (infos : List MountNSInfo) : Prop :=
  ∀ id ∈ call.listed, id ≠ "" → ∀ data ns, call.now.inspect call.now.client id = .ok data →
    labelsMatch patterns data.labels = .ok true → call.HasNamespace id data ns →
      (∃ info ∈ infos, info.containerId = id ∧ info.nsId = ns) ∧
        ∀ info ∈ infos, info.containerId = id → info.nsId = ns

def LookupState.Reports (patterns : List String) (st : LookupState) : Prop :=
  ∀ call infos, st.last = some (call, infos) → call.Reports patterns infos

/-- What the caches hold for a container is what the lookups say now: its labels still match, its main
process is the one of `data`, and its namespace is `ns`. -/
structure Current (patterns : List String) (now : Snapshot) (id : String) (data : InspectData)
    (ns : NsId) (caches : Caches) : Prop where
  client : ∀ client, caches.client.get? () = some client → client = now.client
  inspect : ∀ old, caches.inspect.get? id = some old →
    labelsMatch patterns old.labels = .ok true ∧ old.pid = data.pid
  mntns : ∀ old, caches.mntns.get? (id, false) = some old → old = some ns

/-- Every listed container that would be reported has a main process, and nothing outdated is cached
for it. -/
def LookupState.UpToDate (patterns : List String) (st : LookupState) (call : ListCall) : Prop :=
  ∀ id ∈ call.listed, id ≠ "" → ∀ data ns, call.now.inspect call.now.client id = .ok data →
    labelsMatch patterns data.labels = .ok true → call.HasNamespace id data ns →
      data.pid ≠ some 0 ∧ Current patterns call.now id data ns st.caches

/-! ## What one lookup leaves in the caches -/

section Lookup

/-- A successful inspection is cached. -/
theorem inspectContainer_cached {w : Snapshot} {sha : String} {caches : Caches} {data : InspectData}
    (h : (inspectContainer w sha caches).1 = .ok data) :
    (inspectContainer w sha caches).2.inspect.get? sha = some data := by
  unfold inspectContainer at h ⊢
  cases hget : caches.inspect.get? sha with
  | some old =>
      simp only [hget] at h ⊢
      cases h
      exact LruCache.get?_store_self (by decide) _ _ _
  | none =>
      simp only [hget] at h ⊢
      cases hinspect : w.inspect (detectContainerizerClient w caches).1 sha with
      | error err =>
          rw [hinspect] at h
          cases h
      | ok new =>
          rw [hinspect] at h
          cases h
          exact LruCache.get?_store_self (by decide) _ _ _

variable {patterns : List String} {now later : Snapshot} {id : String} {data : InspectData} {ns : NsId}
  {caches : Caches}

theorem Current.detect (h : Current patterns now id data ns caches) :
    (detectContainerizerClient now caches).1 = now.client ∧
      Current patterns now id data ns (detectContainerizerClient now caches).2 := by
  have hclient : (caches.client.get? ()).getD now.client = now.client := by
    cases hget : caches.client.get? () with
    | none => rfl
    | some client => exact h.client client hget
  refine ⟨hclient, ?_, h.inspect, h.mntns⟩
  intro client hget
  rcases LruCache.get?_of_store hget with ⟨_, hEq⟩ | hold
  · exact hEq.symm.trans hclient
  · exact h.client client hold

/-- Caching an inspection keeps what is cached for `id` current, if that of `id` is. -/
theorem Current.store_inspect (h : Current patterns now id data ns caches) {sha : String}
    {new : InspectData}
    (hnew : sha = id → labelsMatch patterns new.labels = .ok true ∧ new.pid = data.pid) :
    Current patterns now id data ns { caches with inspect := caches.inspect.store sha new } := by
  refine ⟨h.client, ?_, h.mntns⟩
  intro old hget
  rcases LruCache.get?_of_store hget with ⟨hsha, rfl⟩ | hold
  · exact hnew hsha
  · exact h.inspect old hold

theorem Current.store_mntns (h : Current patterns now id data ns caches) {key : String × Bool}
    {new : Option NsId} (hnew : key = (id, false) → new = some ns) :
    Current patterns now id data ns { caches with mntns := caches.mntns.store key new } := by
  refine ⟨h.client, h.inspect, ?_⟩
  intro old hget
  rcases LruCache.get?_of_store hget with ⟨hkey, rfl⟩ | hold
  · exact hnew hkey
  · exact h.mntns old hold

/-- An inspection of any container keeps what is cached for `id` current, and one of `id` gives labels
that match and the main process. -/
theorem Current.inspectContainer (h : Current patterns now id data ns caches)
    (hnow : now.inspect now.client id = .ok data) (hlabels : labelsMatch patterns data.labels = .ok true)
    (sha : String) :
    Current patterns now id data ns (inspectContainer now sha caches).2 ∧
      (sha = id → ∃ found, (Containers.inspectContainer now sha caches).1 = .ok found ∧
        labelsMatch patterns found.labels = .ok true ∧ found.pid = data.pid) := by
  unfold Containers.inspectContainer
  cases hget : caches.inspect.get? sha with
  | some old =>
      have hold : sha = id → labelsMatch patterns old.labels = .ok true ∧ old.pid = data.pid := by
        rintro rfl
        exact h.inspect old hget
      exact ⟨h.store_inspect hold, fun hsha => ⟨old, rfl, hold hsha⟩⟩
  | none =>
      rcases h.detect with ⟨hclient, hcurrent⟩
      simp only [hclient]
      cases hinspect : now.inspect now.client sha with
      | error err =>
          refine ⟨hcurrent, ?_⟩
          rintro rfl
          rw [hnow] at hinspect
          cases hinspect
      | ok new =>
          have hnew : sha = id → labelsMatch patterns new.labels = .ok true ∧ new.pid = data.pid := by
            rintro rfl
            rw [hnow] at hinspect
            cases hinspect
            exact ⟨hlabels, rfl⟩
          exact ⟨hcurrent.store_inspect hnew, fun hsha => ⟨new, rfl, hnew hsha⟩⟩

/-- A memoised lookup keeps what is cached for `id` current, if the lookup itself does and gives the
namespace of `id`. -/
theorem Current.memoMntnsId (h : Current patterns now id data ns caches) {key : String × Bool}
    {compute : Caches → Option NsId × Caches}
    (hcompute : Current patterns now id data ns (compute caches).2)
    (hns : key = (id, false) → (compute caches).1 = some ns) :
    Current patterns now id data ns (memoMntnsId key compute caches).2 ∧
      (key = (id, false) → (Containers.memoMntnsId key compute caches).1 = some ns) := by
  cases hget : caches.mntns.get? key with
  | some old =>
      have hold : key = (id, false) → old = some ns := by
        rintro rfl
        exact h.mntns old hget
      have hhit : Containers.memoMntnsId key compute caches =
          (old, { caches with mntns := caches.mntns.store key old }) := by
        simp only [Containers.memoMntnsId, hget]
      rw [hhit]
      exact ⟨h.store_mntns hold, hold⟩
  | none =>
      have hmiss : Containers.memoMntnsId key compute caches = ((compute caches).1,
          { (compute caches).2 with
            mntns := (compute caches).2.mntns.store key (compute caches).1 }) := by
        simp only [Containers.memoMntnsId, hget]
      rw [hmiss]
      exact ⟨hcompute.store_mntns hns, hns⟩

/-- The second try finds the inspection of the first one in the cache. -/
theorem Current.again (h : Current patterns now id data ns caches) {sha : String} {found : InspectData}
    (hfound : caches.inspect.get? sha = some found) :
    Current patterns now id data ns (getContainerMntnsIdAgain later sha caches).2 := by
  have hinspect : Containers.inspectContainer later sha caches =
      (.ok found, { caches with inspect := caches.inspect.store sha found }) := by
    simp [Containers.inspectContainer, hfound]
  refine (h.memoMntnsId ?_ (by simp)).1
  simp only [hinspect]
  apply h.store_inspect
  rintro rfl
  exact h.inspect found hfound

/-- A namespace lookup of any container keeps what is cached for `id` current, and one of `id` gives its
namespace. -/
theorem Current.getContainerMntnsId (h : Current patterns now id data ns caches) (later : Snapshot)
    (hnow : now.inspect now.client id = .ok data) (hlabels : labelsMatch patterns data.labels = .ok true)
    {pid : Nat} (hpid : data.pid = some pid) (hne : pid ≠ 0) (hinode : now.mntnsInode pid = some ns)
    (sha : String) :
    Current patterns now id data ns (getContainerMntnsId now later sha caches).2 ∧
      (sha = id → (Containers.getContainerMntnsId now later sha caches).1 = some ns) := by
  rcases h.inspectContainer hnow hlabels sha with ⟨hcurrent, hself⟩
  have hlookup : Current patterns now id data ns (Containers.getContainerMntnsId now later sha caches).2 ∧
      ((sha, false) = (id, false) →
        (Containers.getContainerMntnsId now later sha caches).1 = some ns) := by
    apply h.memoMntnsId
    · cases hinspect : (Containers.inspectContainer now sha caches).1 with
      | error err =>
          simp only [hinspect]
          exact hcurrent
      | ok found =>
          simp only [hinspect]
          split
          · exact hcurrent.again (inspectContainer_cached hinspect)
          · exact hcurrent
    · intro hkey
      rcases hself (congrArg Prod.fst hkey) with ⟨found, hinspect, _, hfound⟩
      simp [hinspect, hfound, hpid, hne, hinode]
  exact ⟨hlookup.1, fun hsha => hlookup.2 (by rw [hsha])⟩

end Lookup

/-! ## A whole listing -/

section Listing

variable {patterns : List String} {now : Snapshot} {id : String} {data : InspectData} {ns : NsId}

/-- The filter keeps what is cached for `id` current, and selects it if it is listed. -/
theorem Current.filterContainers (hnow : now.inspect now.client id = .ok data)
    (hlabels : labelsMatch patterns data.labels = .ok true) :
    ∀ (listed : List String) {caches : Caches}, Current patterns now id data ns caches →
      Current patterns now id data ns
          (filterContainersWithLabelPatterns now patterns listed caches).2 ∧
        (id ∈ listed → ∃ name,
          (id, name) ∈ (filterContainersWithLabelPatterns now patterns listed caches).1)
  | [], caches, h => ⟨h, by simp⟩
  | sha :: rest, caches, h => by
      rcases h.inspectContainer hnow hlabels sha with ⟨hcurrent, hself⟩
      rcases Current.filterContainers hnow hlabels rest hcurrent with ⟨hrest, hmem⟩
      refine ⟨hrest, ?_⟩
      intro hid
      by_cases hsha : sha = id
      · rcases hself hsha with ⟨found, hinspect, hmatch, _⟩
        refine ⟨extractContainerName found, ?_⟩
        refine List.mem_append_left _ ?_
        rw [hinspect]
        simp [hmatch, hsha]
      · rcases hmem (List.mem_of_ne_of_mem (Ne.symm hsha) hid) with ⟨name, hname⟩
        exact ⟨name, List.mem_append_right _ hname⟩

/-- The reports of a loop are those about the first container and those of the rest. -/
theorem mem_mntNamespacesOf {later : Snapshot} {sha name : String} {rest : List (String × String)}
    {caches : Caches} (hempty : sha ≠ "") {info : MountNSInfo} :
    info ∈ (mntNamespacesOf now later ((sha, name) :: rest) caches).1 ↔
      (∃ found, (getContainerMntnsId now later sha caches).1 = some found ∧ found ≠ 0 ∧
        info = ⟨sha, name, found, .start⟩) ∨
      info ∈ (mntNamespacesOf now later rest (getContainerMntnsId now later sha caches).2).1 := by
  simp only [Containers.mntNamespacesOf, if_neg hempty, List.mem_append]
  refine or_congr_left ?_
  cases hlookup : (getContainerMntnsId now later sha caches).1 with
  | none => simp
  | some found =>
      by_cases hzero : found = 0 <;> simp [hzero]

/-- Every report of `id` has its namespace, and there is one if it was selected. -/
theorem Current.mntNamespacesOf (later : Snapshot) (hnow : now.inspect now.client id = .ok data)
    (hlabels : labelsMatch patterns data.labels = .ok true) {pid : Nat} (hpid : data.pid = some pid)
    (hne : pid ≠ 0) (hinode : now.mntnsInode pid = some ns) (hns : ns ≠ 0) (hid : id ≠ "") :
    ∀ (selected : List (String × String)) {caches : Caches},
      Current patterns now id data ns caches →
      (∀ name, (id, name) ∈ selected →
          ∃ info ∈ (mntNamespacesOf now later selected caches).1,
            info.containerId = id ∧ info.nsId = ns) ∧
        ∀ info ∈ (mntNamespacesOf now later selected caches).1,
          info.containerId = id → info.nsId = ns
  | [], caches, h => by simp [Containers.mntNamespacesOf]
  | (sha, name) :: rest, caches, h => by
      by_cases hempty : sha = ""
      · have hskip : Containers.mntNamespacesOf now later ((sha, name) :: rest) caches =
            Containers.mntNamespacesOf now later rest caches := by
          simp [Containers.mntNamespacesOf, hempty]
        rcases Current.mntNamespacesOf later hnow hlabels hpid hne hinode hns hid rest h with
          ⟨hreported, honly⟩
        rw [hskip]
        refine ⟨?_, honly⟩
        intro name' hname'
        refine hreported name' (List.mem_of_ne_of_mem ?_ hname')
        rintro hEq
        exact hid ((congrArg Prod.fst hEq).trans hempty)
      · rcases h.getContainerMntnsId later hnow hlabels hpid hne hinode sha with
          ⟨hcurrent, hself⟩
        rcases Current.mntNamespacesOf later hnow hlabels hpid hne hinode hns hid rest
          hcurrent with ⟨hreported, honly⟩
        constructor
        · intro name' hname'
          by_cases hsha : sha = id
          · exact ⟨⟨sha, name, ns, .start⟩,
              (mem_mntNamespacesOf hempty).2 (Or.inl ⟨ns, hself hsha, hns, rfl⟩), hsha, rfl⟩
          · have hrest : (id, name') ∈ rest := by
              refine List.mem_of_ne_of_mem ?_ hname'
              intro hEq
              exact hsha (congrArg Prod.fst hEq).symm
            rcases hreported name' hrest with ⟨info, hinfo, hfields⟩
            exact ⟨info, (mem_mntNamespacesOf hempty).2 (Or.inr hinfo), hfields⟩
        · intro info hinfo hinfoId
          rcases (mem_mntNamespacesOf hempty).1 hinfo with ⟨found, hfound, _, rfl⟩ | hinfo
          · -- The first report is about `sha`, so `sha` is `id`.
            rw [hself hinfoId] at hfound
            exact (Option.some.inj hfound).symm
          · exact honly info hinfo hinfoId

/-- A call that finds nothing outdated reports every current namespace. -/
theorem LookupState.reports_of_upToDate {st st' : LookupState} {call : ListCall}
    (hcurrent : st.UpToDate patterns call) (h : st.step patterns call = some st') :
    st'.Reports patterns := by
  cases h
  intro call' infos hlast
  cases hlast
  intro id hid hne data ns hnow hlabels hns
  rcases hcurrent id hid hne data ns hnow hlabels hns with ⟨hpid, hcached⟩
  rcases hns with ⟨hpos, ⟨pid, hdata, hpid', hinode⟩ | ⟨hzero, _⟩⟩
  · rcases hcached.filterContainers hnow hlabels call.listed with ⟨hfiltered, hselected⟩
    rcases Current.mntNamespacesOf call.later hnow hlabels hdata hpid' hinode hpos hne _
      hfiltered with ⟨hreported, honly⟩
    rcases hselected hid with ⟨name, hname⟩
    exact ⟨hreported name hname, honly⟩
  · exact absurd hzero hpid

end Listing

/-- In every history of the runtime and every sequence of listings, each listing reports the current
namespaces, as long as every listing finds nothing outdated in the caches for a container that it would
report, and such a container has a main process. -/
theorem listings_report_current {patterns : List String} {calls : List ListCall}
    (hmeet : Run.StepsMeet (LookupState.step patterns) (LookupState.UpToDate patterns)
      LookupState.init calls) :
    ∀ st ∈ Run.visited (LookupState.step patterns) LookupState.init calls, st.Reports patterns := by
  refine Run.visited_of_stepsMeet (I := fun st => st.Reports patterns) ?_ ?_ hmeet
  · intro st call st' _ hcurrent h
    exact LookupState.reports_of_upToDate hcurrent h
  · intro call infos hlast
    cases hlast

/-! ### A container that is inspected in vain, found, and started again -/

namespace Example

def web : InspectData := ⟨"/web", Dict.empty.set "app" "web", some 100⟩

/-- Only `c1` is known, as `data`; process 100 has namespace 10, and process 200 has 20. -/
def runtime (data : Except PyErr InspectData) : Snapshot where
  containerdMetadata := false
  inspect := fun _ id => if id = "c1" then data else .error (.builtin .Exception)
  mntnsInode := fun pid => if pid = 100 then some 10 else if pid = 200 then some 20 else none

def listing (data : Except PyErr InspectData) : ListCall := ⟨["c1"], runtime data, runtime data⟩

/-- The inspection fails at first. -/
def foundLate : List ListCall :=
  [listing (.error (.builtin .Exception)), listing (.ok web), listing (.ok web)]

/-- The container is started again under its id. -/
def startedAgain : List ListCall :=
  [listing (.ok web), listing (.ok { web with pid := some 200 })]

end Example

/-- Only the container of the example can be reported. -/
theorem upToDate_listing {st : LookupState} {data : Except PyErr InspectData}
    (hcached : data = .ok Example.web →
      Current ["app=web"] (Example.runtime data) "c1" Example.web 10 st.caches)
    (hdata : data = .ok Example.web ∨ ∃ err, data = .error err) :
    st.UpToDate ["app=web"] (Example.listing data) := by
  intro id hid _ found ns hnow _ hns
  rcases List.mem_singleton.1 hid with rfl
  rcases hdata with rfl | ⟨err, rfl⟩
  · have hfound : Example.web = found := Except.ok.inj hnow
    subst hfound
    rcases hns with ⟨_, ⟨pid, hpid, _, hinode⟩ | ⟨hzero, _⟩⟩
    · have hEq : 100 = pid := Option.some.inj hpid
      subst hEq
      have hten : (10 : NsId) = ns := Option.some.inj hinode
      subst hten
      exact ⟨by decide, hcached rfl⟩
    · cases hzero
  · cases hnow

theorem late_container_reported :
    Run.StepsMeet (LookupState.step ["app=web"]) (LookupState.UpToDate ["app=web"]) LookupState.init
        Example.foundLate ∧
      ∀ st ∈ Run.visited (LookupState.step ["app=web"]) LookupState.init Example.foundLate,
        st.Reports ["app=web"] := by
  have hmeet : Run.StepsMeet (LookupState.step ["app=web"]) (LookupState.UpToDate ["app=web"])
      LookupState.init Example.foundLate := by
    refine ⟨?_, ?_, ?_, trivial⟩
    · exact upToDate_listing (fun h => by cases h) (Or.inr ⟨_, rfl⟩)
    · -- Nothing is cached but the kind of the runtime.
      refine upToDate_listing (fun _ => ⟨?_, ?_, ?_⟩) (Or.inl rfl)
      · decide +kernel
      · intro old hold
        have hnone := hold.symm.trans (by decide +kernel : _ = none)
        cases hnone
      · intro old hold
        have hnone := hold.symm.trans (by decide +kernel : _ = none)
        cases hnone
    · -- The inspection and the namespace found are cached.
      refine upToDate_listing (fun _ => ⟨?_, ?_, ?_⟩) (Or.inl rfl)
      · decide +kernel
      · intro old hold
        have hweb := hold.symm.trans (by decide +kernel : _ = some Example.web)
        cases hweb
        exact ⟨by decide +kernel, rfl⟩
      · intro old hold
        have hten := hold.symm.trans (by decide +kernel : _ = some (some (10 : NsId)))
        cases hten
        rfl
  exact ⟨hmeet, listings_report_current hmeet⟩

/-- The second listing reports the namespace of the process that is gone. -/
theorem started_again_reported_stale :
    ∃ st ∈ Run.visited (LookupState.step ["app=web"]) LookupState.init Example.startedAgain,
      st.last = some (Example.listing (.ok { Example.web with pid := some 200 }),
        [⟨"c1", "web", 10, .start⟩]) ∧
      ¬ st.Reports ["app=web"] := by
  refine ⟨(Run.visited (LookupState.step ["app=web"]) LookupState.init Example.startedAgain).get
    ⟨1, by decide +kernel⟩, List.get_mem _ _, rfl, ?_⟩
  intro hreports
  have hreported := hreports _ _ rfl "c1" (List.mem_singleton_self _) (by decide)
    { Example.web with pid := some 200 } 20 rfl (by decide +kernel)
    ⟨by decide, Or.inl ⟨200, rfl, by decide, rfl⟩⟩
  have hstale := hreported.2 ⟨"c1", "web", 10, .start⟩ (List.mem_singleton_self _) rfl
  exact absurd hstale (by decide)

end Containers

end PidtreeBcc
