import PidtreeBcc.Filtering.Rules
import PidtreeBcc.Plugins.Pipeline
import PidtreeBcc.Probes.PortFilters
import PidtreeBcc.Probes.ProcessTree
import PidtreeBcc.Tcp.Kernel

/-!
# Events — the connect probe from the calls to its output

`enrich_event` turns an event of the kernel into a dictionary with the process tree and readable addresses.
The last section puts the sides together: the output has a record for each connection that the filters in
force let through, and for no other.
-/

namespace PidtreeBcc

open Support

namespace Tcp

open Plugins

/-! ## Userland -/

/-- `enrich_container_name`; the same setting decides whether events have a mount namespace. -/
def enrichContainerName (containerLabels : Bool) (r : Reading) (c : Connection)
    (formatted : EventDict) : Except PyErr EventDict :=
  if containerLabels then
    match c.mntnsId with
    | none => .error (.builtin .AttributeError)
    | some id => .ok (formatted.set "container_name" (.text ((r.names.get? id).getD "")))
  else .ok formatted

/-- The dictionary that `enrich_event` builds. -/
def formatEvent (r : Reading) (c : Connection) : EventDict :=
  let proctree :=
    match r.crawl c.pid.toNat with
    | .ok infos => infos.map fun info => ⟨info, none⟩
    | .error _ => []
  let error :=
    match r.crawl c.pid.toNat with
    | .ok _ => ""
    | .error trace => trace.text
  Dict.empty.update
    [("pid", .num c.pid.toNat), ("proctree", .proctree proctree), ("daddr", .text (intToIp c.daddr)),
      ("saddr", .text (intToIp c.saddr)), ("port", .num c.dport.toNat), ("error", .text error)]

/-- `enrich_event`. -/
def enrichEvent (containerLabels : Bool) (r : Reading) (c : Connection) :
    Except PyErr (Option EventDict) :=
  (enrichContainerName containerLabels r c (formatEvent r c)).map some

/-- The keys that an event has before it reaches the plugins. -/
def EVENT_KEYS : List String :=
  ["pid", "proctree", "daddr", "saddr", "port", "error", "container_name", "timestamp", "probe"]

/-! ## Records of connections -/

/-- The address of the destination, as it lies in memory. -/
def destination (e : Endian) (call : Call) : Ipv4 :=
  packL e (call.result.memory call.entry.sk).skcDaddr

def source (e : Endian) (call : Call) : Ipv4 := packL e (call.result.memory call.entry.sk).skcRcvSaddr

/-- The port of the destination. -/
def destPort (e : Endian) (call : Call) : BitVec 16 :=
  ntohs e (call.result.memory call.entry.sk).skcDport

/-- The event is the record of the call, with what the outside answered for it. -/
structure Describes (containerLabels : Bool) (call : Call) (r : Reading) (event : EventDict) :
    Prop where
  pid : event.get? "pid" = some (.num call.thread.toNat)
  daddr : event.get? "daddr" = some (.text (inetNtoa (destination .little call)))
  saddr : event.get? "saddr" = some (.text (inetNtoa (source .little call)))
  port : event.get? "port" = some (.num (destPort .little call).toNat)
  /-- The tree, or the traceback of the attempt to read it. -/
  tree : match r.crawl call.thread.toNat with
    | .ok infos => treeOf event = some infos ∧ event.get? "error" = some (.text "")
    | .error trace => treeOf event = some [] ∧ event.get? "error" = some (.text trace.text)
  container : event.get? "container_name" =
    if containerLabels then some (.text ((r.names.get? call.result.mntnsId).getD "")) else none
  probe : event.get? "probe" = some (.text "tcp_connect")

/-- What the filters in force say of a call: no rule that decides its destination filters the port, and the
port filter lets it through. -/
structure Passes (rules : List NetRule) (ports : Probes.PortFilter) (call : Call) : Prop where
  net : ∀ i r, Decides rules i r (destination .little call) →
    r.filtersPort (destPort .little call) = false
  port : ports.passes (destPort .little call).toNat = true

theorem login_keys_spared : ∀ key ∈ LOGIN_KEYS, key ∉ EVENT_KEYS := by decide

section Record

variable {containerLabels : Bool} {r : Reading} {call : Call}

/-- The event that enrichment makes of a report. -/
def enriched (containerLabels : Bool) (r : Reading) (call : Call) : EventDict :=
  let formatted := formatEvent r (eventOf .little containerLabels call)
  if containerLabels then
    formatted.set "container_name" (.text ((r.names.get? call.result.mntnsId).getD ""))
  else formatted

/-- A report has a mount namespace when one is needed. -/
theorem enrichEvent_eventOf :
    enrichEvent containerLabels r (eventOf .little containerLabels call) =
      .ok (some (enriched containerLabels r call)) := by
  cases containerLabels <;> rfl

theorem get?_enriched (key : String) :
    (enriched containerLabels r call).get? key =
      if containerLabels = true ∧ key = "container_name" then
        some (.text ((r.names.get? call.result.mntnsId).getD ""))
      else (formatEvent r (eventOf .little containerLabels call)).get? key := by
  unfold enriched
  cases containerLabels with
  | false => simp
  | true => simp [Dict.get?_set, eq_comm]

theorem workable_enriched : Workable (enriched containerLabels r call) := by
  refine ⟨?_, ?_, ?_⟩
  · simp [get?_enriched, formatEvent, Dict.update, Dict.get?_set]
  · simp [get?_enriched, formatEvent, Dict.update, Dict.get?_set]
  · simp [get?_enriched, formatEvent, Dict.update, Dict.get?_set]

/-- An event with the values that enrichment and the metadata gave it is the record of its call. -/
theorem Describes.of_kept {event : EventDict}
    (h : Kept EVENT_KEYS (addEventMetadata r "tcp_connect" (enriched containerLabels r call)) event) :
    Describes containerLabels call r event := by
  have hmeta : ∀ key ∈ EVENT_KEYS, key ≠ "proctree" → key ≠ "timestamp" → key ≠ "probe" →
      event.get? key = (enriched containerLabels r call).get? key := by
    intro key hkey htree htime hprobe
    rw [h.values key hkey htree]
    simp [addEventMetadata, Dict.get?_set, Ne.symm htime, Ne.symm hprobe]
  refine ⟨?_, ?_, ?_, ?_, ?_, ?_, ?_⟩
  · rw [hmeta "pid" (by decide) (by decide) (by decide) (by decide), get?_enriched]
    simp [formatEvent, Dict.update, Dict.get?_set, eventOf, Return.connection]
  · rw [hmeta "daddr" (by decide) (by decide) (by decide) (by decide), get?_enriched]
    simp [formatEvent, Dict.update, Dict.get?_set, eventOf, Return.connection, intToIp, destination]
  · rw [hmeta "saddr" (by decide) (by decide) (by decide) (by decide), get?_enriched]
    simp [formatEvent, Dict.update, Dict.get?_set, eventOf, Return.connection, intToIp, source]
  · rw [hmeta "port" (by decide) (by decide) (by decide) (by decide), get?_enriched]
    simp [formatEvent, Dict.update, Dict.get?_set, eventOf, Return.connection, destPort]
  · have htree : treeOf event = treeOf (enriched containerLabels r call) := by
      rw [h.tree]
      simp [addEventMetadata, treeOf_set_of_ne]
    rw [htree, hmeta "error" (by decide) (by decide) (by decide) (by decide), get?_enriched, treeOf,
      get?_enriched]
    cases hcrawl : r.crawl call.thread.toNat with
    | ok infos =>
        simp [formatEvent, Dict.update, Dict.get?_set, eventOf, Return.connection, hcrawl,
          Function.comp_def]
    | error trace =>
        simp [formatEvent, Dict.update, Dict.get?_set, eventOf, Return.connection, hcrawl]
  · rw [hmeta "container_name" (by decide) (by decide) (by decide) (by decide), get?_enriched]
    cases containerLabels with
    | true => simp
    | false => simp [formatEvent, Dict.update, Dict.get?_set]
  · rw [h.values "probe" (by decide) (by decide)]
    simp [addEventMetadata]

/-- An event of the kernel comes through plugins that spare its keys, as the record of its call, unless it is
lost over a host file. -/
theorem describes_of_processed {plugins : List Plugin}
    (hspares : ∀ plugin ∈ plugins, plugin.Spares EVENT_KEYS) :
    if allReload r plugins then
      ∃ event,
        (processEvents r "tcp_connect" plugins
          (enrichEvent containerLabels r (eventOf .little containerLabels call))).2 = .ok (some event) ∧
        Describes containerLabels call r event
    else ∃ err,
      (processEvents r "tcp_connect" plugins
        (enrichEvent containerLabels r (eventOf .little containerLabels call))).2 = .error err := by
  rw [enrichEvent_eventOf]
  have hworkable : Workable (enriched containerLabels r call) := workable_enriched
  have hkeeps := processEvents_keeps login_keys_spared (by decide) (by decide) (by decide) r "tcp_connect"
    hworkable hspares
  split
  · rename_i hreload
    rw [if_pos hreload] at hkeeps
    rcases hkeeps with ⟨event, hevent, hkept⟩
    exact ⟨event, hevent, Describes.of_kept hkept⟩
  · rename_i hreload
    rwa [if_neg hreload] at hkeeps

end Record

/-- A record without an error has the tree of its process, as the crawl found it. -/
theorem Describes.ancestry {containerLabels : Bool} {call : Call} {r : Reading} {event : EventDict}
    {table : Probes.ProcessTable} {rounds : Nat} (h : Describes containerLabels call r event)
    (hcrawl : Probes.crawlProcessTree (fun _ => table) rounds call.thread.toNat =
      some (r.crawl call.thread.toNat))
    (hpid : call.thread.toNat ≠ 0) (herror : event.get? "error" = some (.text "")) :
    ∃ tree, treeOf event = some tree ∧ Probes.Ancestry table call.thread.toNat tree := by
  have htree := h.tree
  cases hr : r.crawl call.thread.toNat with
  | ok infos =>
      rw [hr] at htree hcrawl
      exact ⟨infos, htree.1, Probes.ancestry_of_crawl hpid hcrawl⟩
  | error trace =>
      rw [hr, herror] at htree
      -- The header of a traceback is there whatever its frames.
      have hempty : trace.text = "" := by simpa using htree.2.symm
      have hheader := (String.append_eq_empty_iff.1 hempty).1
      exact absurd hheader (by decide)

/-! ## From the calls to the output -/

/-- Filter maps that hold a list of rules and a port filter report just the calls that these let through. -/
theorem reported_iff_passes {containerLabels : Bool} {call : Call} {rules : List NetRule}
    {ports : Probes.PortFilter} (hrules : HoldsRules .little call.result.maps.netFilter rules)
    (hports : Probes.PassesUnfiltered ports call.result.maps.portFilter)
    (hzero : destPort .little call ≠ 0) :
    Reported .little containerLabels call ↔
      call.entry.Followed containerLabels ∧ call.result.ret = 0 ∧ Passes rules ports call := by
  have hport := hports (destPort .little call) hzero
  have haddr : isAddrPortFiltered .little call.result.maps.netFilter
      (call.result.memory call.entry.sk).skcDaddr (destPort .little call) = false ↔
        ∀ i r, Decides rules i r (destination .little call) →
          r.filtersPort (destPort .little call) = false := by
    rcases hrules.verdict (destination .little call) (destPort .little call) with ⟨hnone, hsome⟩
    rw [destination, unpackL_packL] at hnone hsome
    by_cases hcontains : ∃ r ∈ rules, r.Contains (destination .little call)
    · rcases hsome hcontains with ⟨i, r, hdecides, hverdict⟩
      rw [hverdict]
      constructor
      · -- The deciding rule is unique.
        intro hfalse j s hs
        rw [← (hdecides.unique hs).2]
        exact hfalse
      · exact fun h => h i r hdecides
    · refine iff_of_true (hnone fun r hr hc => hcontains ⟨r, hr, hc⟩) ?_
      intro i r hdecides
      exact absurd ⟨r, List.mem_of_getElem? hdecides.1, hdecides.2.1⟩ hcontains
  constructor
  · rintro ⟨hfollowed, hreports⟩
    exact ⟨hfollowed, hreports.succeeded, haddr.1 hreports.addr, hport.2 hreports.port⟩
  · rintro ⟨hfollowed, hret, hpasses⟩
    exact ⟨hfollowed, hret, haddr.2 hpasses.net, hport.1 hpasses.port⟩

/-- What is left of the images of a list, in any order, is the image of what is left of the list. -/
theorem exists_map_eq_of_subperm {α β : Type*} {f : α → β} {received : List β} {l : List α}
    (h : received.Subperm (l.map f)) : ∃ l' : List α, received = l'.map f ∧ l'.Subperm l := by
  rcases h with ⟨kept, hperm, hsub⟩
  rcases List.sublist_map_iff.1 hsub with ⟨l₀, hl₀, rfl⟩
  have hcomp : Relation.Comp (· = List.map f ·) List.Perm received l₀ := by
    rw [List.eq_map_comp_perm]
    exact hperm.symm
  rcases hcomp with ⟨l', hEq, hl'⟩
  exact ⟨l', hEq, hl'.subperm.trans hl₀.subperm⟩

/-- The output has the records of the calls whose events are received and not lost over a host file. -/
theorem describes_output {containerLabels : Bool} (calls : List Call) {readings : List Reading}
    {plugins : List Plugin} (hspares : ∀ plugin ∈ plugins, plugin.Spares EVENT_KEYS) :
    List.Forall₂ (fun x event => Describes containerLabels x.1 x.2 event)
      ((calls.zip readings).filter fun x => allReload x.2 plugins)
      (outputOf "tcp_connect" (enrichEvent containerLabels) plugins
        ((calls.map (eventOf .little containerLabels)).zip readings)) := by
  rw [List.zip_map_left]
  exact forall₂_outputOf (fun x _ _ hspares => describes_of_processed hspares) hspares

/-- The received events are those of different calls that the kernel reports, and of all of them when the
followed calls fit the hash and every event is received. -/
theorem exists_calls {containerLabels : Bool} {steps : List Step} {received : List Connection}
    (hwell : Calls.WellFormed Fits Calls.idle steps)
    (hreceived : received.Subperm (run .little containerLabels steps).events) :
    ∃ calls : List Call, received = calls.map (eventOf .little containerLabels) ∧
      calls.Subperm ((Calls.completed Calls.idle steps).filter fun call =>
        Reported .little containerLabels call) ∧
      (FitsCurrsock containerLabels steps →
        received.Perm (run .little containerLabels steps).events →
          calls.Perm ((Calls.completed Calls.idle steps).filter fun call =>
            Reported .little containerLabels call)) := by
  have hsub := TrackedCalls.events_sublist (p := probe .little containerLabels) hwell
  rw [filterMap_eventOf, ← run_eq] at hsub
  rcases exists_map_eq_of_subperm (hreceived.trans hsub.subperm) with ⟨calls, rfl, hcalls⟩
  refine ⟨calls, rfl, hcalls, ?_⟩
  intro hroom hall
  have hevents : (run .little containerLabels steps).events =
      reports .little containerLabels (Calls.completed Calls.idle steps) := by
    rw [run_eq, ← filterMap_eventOf]
    exact TrackedCalls.events_eq hwell fun before after hsplit =>
      following_eq .little containerLabels _ ▸ hroom before after hsplit
  -- As many calls as reports, so none of them is missing.
  refine hcalls.perm_of_length_le ?_
  rw [hevents, reports] at hall
  simpa using hall.length_eq.ge

/-- On a little-endian host, with plugins that spare the keys of the events, whatever the interleaving of the
calls, and whatever events are lost on the way to userland or overtake each other there.  The output has one
record for each event received for which no check of a host file raises, and these are of different calls that
the kernel reports.  No report is missing among the events when the followed calls fit the hash and every event
is received.  A call to a port other than 0, whose element of the map is the mode, is reported just when it is
followed and successful and the rules and the port filter that the maps hold at its return let it through. -/
theorem connect_records_exact (containerLabels : Bool) {steps : List Step} {received : List Connection}
    {plugins : List Plugin} (readings : List Reading)
    (hwell : Calls.WellFormed Fits Calls.idle steps)
    (hreceived : received.Subperm (run .little containerLabels steps).events)
    (hspares : ∀ plugin ∈ plugins, plugin.Spares EVENT_KEYS) :
    ∃ calls : List Call,
      calls.Subperm ((Calls.completed Calls.idle steps).filter fun call =>
        Reported .little containerLabels call) ∧
      (FitsCurrsock containerLabels steps →
        received.Perm (run .little containerLabels steps).events →
          calls.Perm ((Calls.completed Calls.idle steps).filter fun call =>
            Reported .little containerLabels call)) ∧
      List.Forall₂ (fun x event => Describes containerLabels x.1 x.2 event)
        ((calls.zip readings).filter fun x => allReload x.2 plugins)
        (outputOf "tcp_connect" (enrichEvent containerLabels) plugins (received.zip readings)) ∧
      ∀ call ∈ Calls.completed Calls.idle steps, ∀ rules ports,
        HoldsRules .little call.result.maps.netFilter rules →
        Probes.PassesUnfiltered ports call.result.maps.portFilter → destPort .little call ≠ 0 →
        (Reported .little containerLabels call ↔ call.entry.Followed containerLabels ∧
          call.result.ret = 0 ∧ Passes rules ports call) := by
  rcases exists_calls hwell hreceived with ⟨calls, rfl, hcalls, hcomplete⟩
  exact ⟨calls, hcalls, hcomplete, describes_output calls hspares,
    fun call _ rules ports hrules hports hzero => reported_iff_passes hrules hports hzero⟩

namespace Example

/-- The tree has one process, with a login. -/
def reading : Reading where
  crawl _ := .ok [⟨100, "curl", "root"⟩]
  netNamespace _ := none
  login _ := some (1000, "ann")
  textLogin _ := none
  timestamp := "2024-01-01T00:00:00Z"
  names := Dict.empty
  checks _ := .ok none

end Example

/-- Two connects that overlap, with their events received in the other order. -/
theorem connect_records_of_overlap :
    ∃ calls : List Call,
      calls.Perm ((Calls.completed Calls.idle Example.overlap).filter fun call =>
        Reported .little false call) ∧
      List.Forall₂ (fun x event => Describes false x.1 x.2 event)
        (calls.zip [Example.reading, Example.reading])
        (outputOf "tcp_connect" (enrichEvent false) [.identity, .loginuidMap true]
          ((run .little false Example.overlap).events.reverse.zip
            [Example.reading, Example.reading])) := by
  have hperm : (run .little false Example.overlap).events.reverse.Perm
      (run .little false Example.overlap).events := List.reverse_perm _
  have hspares : ∀ plugin ∈ [Plugin.identity, .loginuidMap true], plugin.Spares EVENT_KEYS := by decide
  rcases connect_records_exact false [Example.reading, Example.reading] Example.overlap_wellFormed
    hperm.subperm hspares with ⟨calls, _, hcomplete, hrecords, _⟩
  exact ⟨calls, hcomplete Example.overlap_fits hperm, by simpa [allReload, Plugin.reloads] using hrecords⟩

end Tcp

end PidtreeBcc
