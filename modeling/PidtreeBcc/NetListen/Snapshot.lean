import PidtreeBcc.Probes.Probe
import PidtreeBcc.Udp.Sessions

/-!
# Snapshot — the listening sockets that are reported from userland

One iteration of the snapshot thread goes through the connections that `psutil` lists and sends an event for
each socket that listens and is not filtered, on the same path as the events of the kernel.  That path names
the container of an event by its mount namespace, which a snapshot event does not have.
-/

namespace PidtreeBcc

open Support

namespace NetListen

/-! ## Connections -/

/-- `conn.status`. -/
inductive Status
  | established
  | synSent
  | synRecv
  | finWait1
  | finWait2
  | timeWait
  | close
  | closeWait
  | lastAck
  | listen
  | closing
  | none
  deriving DecidableEq, Repr

/-- `conn.type`. -/
inductive SockType
  | stream
  | dgram
  deriving DecidableEq, Repr

/-- An element of `psutil.net_connections('inet4')`; the address is printed as four numbers. -/
structure Connection where
  pid : Option Nat
  status : Status
  type : SockType
  ip : Ipv4
  port : BitVec 16
  deriving DecidableEq, Repr

def socket.IPPROTO_TCP : Nat := 6

def socket.IPPROTO_UDP : Nat := 17

/-- What the outside answers while one connection is handled: the process tree or a traceback, the network
namespace of a process, and the login of a process. -/
structure Outside where
  crawl : Nat → Except Udp.Traceback (List Udp.ProcessInfo)
  netNamespace : Nat → Option Nat
  login : Nat → Option (Nat × String)

/-! ## Events -/

/-- `NetListenWrapper`, which has no field `mntns_id`. -/
structure NetListenWrapper where
  pid : Nat
  laddr : BitVec 32
  port : BitVec 16
  protocol : Nat
  deriving DecidableEq, Repr

/-- A process of a tree, with its login if a plugin added it. -/
structure TreeProcess where
  info : Udp.ProcessInfo
  login : Option (Nat × String)
  deriving DecidableEq, Repr

structure ListenEvent where
  pid : Nat
  port : BitVec 16
  proctree : List TreeProcess
  laddr : String
  protocol : String
  error : String
  containerName : Option String
  login : Option (Nat × String)
  deriving DecidableEq, Repr

/-- The socket that an event is about. -/
structure Socket where
  pid : Nat
  laddr : String
  port : BitVec 16
  protocol : String
  deriving DecidableEq, Repr

def ListenEvent.socket (event : ListenEvent) : Socket :=
  ⟨event.pid, event.laddr, event.port, event.protocol⟩

/-- `PROTO_MAP.get(protocol, 'unknown')`, on the constants that a snapshot passes. -/
def protoName (protocol : Nat) : String :=
  if protocol = socket.IPPROTO_TCP then "tcp" else if protocol = socket.IPPROTO_UDP then "udp" else "unknown"

/-- The plugins of the repository that support the probe. -/
inductive Plugin
  | identity
  | loginuidMap (topLevel : Bool)
  deriving DecidableEq, Repr

/-- The loop of `_process_pt`, which stops at process 1. -/
def addLogins (w : Outside) : List TreeProcess → List TreeProcess
  | [] => []
  | proc :: rest =>
      if proc.info.pid = 1 then proc :: rest
      else { proc with login := (w.login proc.info.pid).or proc.login } :: addLogins w rest

def Plugin.process (w : Outside) : Plugin → ListenEvent → ListenEvent
  | .identity, event => event
  | .loginuidMap true, event => { event with login := (w.login event.pid).or event.login }
  | .loginuidMap false, event => { event with proctree := addLogins w event.proctree }

/-- The dictionary that `enrich_event` builds. -/
def formatEvent (w : Outside) (event : NetListenWrapper) : ListenEvent where
  pid := event.pid
  port := event.port
  proctree :=
    match w.crawl event.pid with
    | .ok proctree => proctree.map fun info => ⟨info, none⟩
    | .error _ => []
  laddr := intToIp event.laddr
  protocol := protoName event.protocol
  error :=
    match w.crawl event.pid with
    | .ok _ => ""
    | .error trace => trace.text
  containerName := none
  login := none

/-! ## The probe -/

/-- The settings that a snapshot reads; `names` is there when the probe filters on container labels. -/
structure SnapshotProbe where
  logTcp : Bool
  logUdp : Bool
  filters : Probes.UserlandFilters
  netNamespace : Option Nat
  names : Option (Dict Nat String)
  plugins : List Plugin
  deriving DecidableEq

namespace SnapshotProbe

variable (probe : SnapshotProbe)

/-- `enrich_container_name`, for an event whose mount namespace may be missing. -/
def enrichContainerName (mntnsId : Option Nat) (event : ListenEvent) : Except PyErr ListenEvent :=
  match probe.names, mntnsId with
  | none, _ => .ok event
  -- The wrapper of a connection has no `mntns_id`.
  | some _, none => .error (.builtin .AttributeError)
  | some names, some id => .ok { event with containerName := some ((names.get? id).getD "") }

/-- `enrich_event`, on an event from a snapshot. -/
def enrichEvent (w : Outside) (event : NetListenWrapper) : Except PyErr ListenEvent :=
  probe.enrichContainerName none (formatEvent w event)

/-- `_process_events`, without the time stamp: the event that is put on the output. -/
def processEvents (w : Outside) (event : NetListenWrapper) : Except PyErr ListenEvent :=
  (probe.enrichEvent w event).map fun event =>
    probe.plugins.foldl (fun event plugin => plugin.process w event) event

/-- `_filter_net_namespace`, as a truth value. -/
def filterNetNamespace (w : Outside) (pid : Nat) : Bool :=
  match probe.netNamespace with
  | none => false
  | some 0 => false
  | some own =>
      match w.netNamespace pid with
      | none => false
      | some ns => ns ≠ 0 && ns ≠ own

/-- The protocol under which a connection is logged. -/
def protocolOf (conn : Connection) : Option Nat :=
  if probe.logTcp ∧ conn.status = .listen then some socket.IPPROTO_TCP
  else if probe.logUdp ∧ conn.status = .none ∧ conn.type = .dgram then some socket.IPPROTO_UDP
  else none

/-- The body of the loop over the connections. -/
def handleConnection (e : Endian) (w : Outside) (conn : Connection) :
    Except PyErr (Option ListenEvent) :=
  match conn.pid with
  | none => .ok none
  | some 0 => .ok none
  | some pid => do
      let protocol := probe.protocolOf conn
      -- The address is converted even if the connection is not one to report.
      let ipAddr ← ipToInt e (inetNtoa conn.ip)
      match protocol with
      | none => return none
      | some protocol =>
          if !probe.filters.filtering.isFiltered ipAddr conn.port.toNat &&
              probe.filters.portFilter.passes conn.port.toNat && !probe.filterNetNamespace w pid then
            let event ← probe.processEvents w ⟨pid, ipAddr, conn.port, protocol⟩
            return some event
          else return none

/-- One iteration of `_snapshot_worker`: the events that it puts on the output, and the exception that ends
it, if any. -/
def snapshot (e : Endian) : List (Connection × Outside) → List ListenEvent × Option PyErr
  | [] => ([], none)
  | (conn, w) :: rest =>
      match probe.handleConnection e w conn with
      -- The loop has no `try`: the connections behind this one are not looked at.
      | .error err => ([], some err)
      | .ok event =>
          let r := snapshot e rest
          (event.toList ++ r.1, r.2)

/-! ## What a snapshot has to report -/

/-- The process is in another network namespace than the one that is asked for. -/
def InOtherNamespace (w : Outside) (pid : Nat) : Prop :=
  ∃ own ns, probe.netNamespace = some own ∧ own ≠ 0 ∧ w.netNamespace pid = some ns ∧ ns ≠ 0 ∧ ns ≠ own

/-- The connection is a socket that is logged as the protocol. -/
def Logged (conn : Connection) (protocol : Nat) : Prop :=
  (probe.logTcp = true ∧ conn.status = .listen ∧ protocol = socket.IPPROTO_TCP) ∨
    (probe.logUdp = true ∧ conn.status = .none ∧ conn.type = .dgram ∧ protocol = socket.IPPROTO_UDP)

/-- The connection is to be reported, for the process and as the protocol. -/
structure Reports (e : Endian) (w : Outside) (conn : Connection) (pid protocol : Nat) : Prop where
  process : conn.pid = some pid ∧ pid ≠ 0
  logged : probe.Logged conn protocol
  unfiltered : probe.filters.filtering.isFiltered (unpackL e conn.ip) conn.port.toNat = false
  port : probe.filters.portFilter.passes conn.port.toNat = true
  namespaces : ¬ probe.InOtherNamespace w pid

/-- The socket that is reported for a connection. -/
def socketOf (e : Endian) (conn : Connection) (pid protocol : Nat) : Socket :=
  ⟨pid, intToIp (unpackL e conn.ip), conn.port, protoName protocol⟩

/-- `sockets` are those of the connections to be reported, in the order of the list. -/
inductive Reported (e : Endian) : List (Connection × Outside) → List Socket → Prop
  | nil : Reported e [] []
  | skip {conn : Connection} {w : Outside} {rest : List (Connection × Outside)} {sockets : List Socket}
      (h : ∀ pid protocol, ¬ probe.Reports e w conn pid protocol)
      (hrest : Reported e rest sockets) : Reported e ((conn, w) :: rest) sockets
  | report {conn : Connection} {w : Outside} {rest : List (Connection × Outside)}
      {sockets : List Socket} {pid protocol : Nat} (h : probe.Reports e w conn pid protocol)
      (hrest : Reported e rest sockets) :
      Reported e ((conn, w) :: rest) (socketOf e conn pid protocol :: sockets)

/-- The iteration ends without an exception and puts one event on the output for each connection that is to
be reported, in the order of the list, and no other. -/
structure SnapshotExact (e : Endian) (conns : List (Connection × Outside)) : Prop where
  completes : (probe.snapshot e conns).2 = none
  events : probe.Reported e conns ((probe.snapshot e conns).1.map ListenEvent.socket)

section Iteration

variable {probe} {e : Endian} {w : Outside} {conn : Connection}

theorem filterNetNamespace_iff {pid : Nat} :
    probe.filterNetNamespace w pid = true ↔ probe.InOtherNamespace w pid := by
  unfold filterNetNamespace InOtherNamespace
  cases probe.netNamespace with
  | none => simp
  | some own =>
      cases own with
      | zero => simp
      | succ own =>
          cases w.netNamespace pid with
          | none => simp
          | some ns => simp

theorem protocolOf_eq_some {protocol : Nat} :
    probe.protocolOf conn = some protocol ↔ probe.Logged conn protocol := by
  unfold protocolOf Logged
  by_cases htcp : probe.logTcp = true ∧ conn.status = .listen
  · -- A listening socket has another status than one that could be logged as udp.
    rw [if_pos htcp, Option.some.injEq]
    constructor
    · exact fun hEq => Or.inl ⟨htcp.1, htcp.2, hEq.symm⟩
    · rintro (⟨_, _, hEq⟩ | ⟨_, hstatus, _⟩)
      · exact hEq.symm
      · exact absurd (htcp.2.symm.trans hstatus) (by decide)
  · rw [if_neg htcp]
    by_cases hudp : probe.logUdp = true ∧ conn.status = .none ∧ conn.type = .dgram
    · rw [if_pos hudp, Option.some.injEq]
      constructor
      · exact fun hEq => Or.inr ⟨hudp.1, hudp.2.1, hudp.2.2, hEq.symm⟩
      · rintro (⟨hlog, hstatus, _⟩ | ⟨_, _, _, hEq⟩)
        · exact absurd ⟨hlog, hstatus⟩ htcp
        · exact hEq.symm
    · rw [if_neg hudp]
      refine iff_of_false (fun hEq => by cases hEq) ?_
      rintro (⟨hlog, hstatus, _⟩ | ⟨hlog, hstatus, htype, _⟩)
      · exact htcp ⟨hlog, hstatus⟩
      · exact hudp ⟨hlog, hstatus, htype⟩

/-- The three tests of a connection that is logged. -/
theorem tests_iff {pid protocol : Nat} (hpid : conn.pid = some pid ∧ pid ≠ 0)
    (hlogged : probe.Logged conn protocol) :
    (!probe.filters.filtering.isFiltered (unpackL e conn.ip) conn.port.toNat &&
        probe.filters.portFilter.passes conn.port.toNat && !probe.filterNetNamespace w pid) = true ↔
      probe.Reports e w conn pid protocol := by
  rw [Bool.and_eq_true, Bool.and_eq_true, Bool.not_eq_true', Bool.not_eq_true',
    ← Bool.not_eq_true (probe.filterNetNamespace w pid), filterNetNamespace_iff]
  constructor
  · rintro ⟨⟨hunfiltered, hport⟩, hnamespaces⟩
    exact ⟨hpid, hlogged, hunfiltered, hport, hnamespaces⟩
  · rintro ⟨_, _, hunfiltered, hport, hnamespaces⟩
    exact ⟨⟨hunfiltered, hport⟩, hnamespaces⟩

/-- What the loop does with a connection of a process. -/
theorem handleConnection_eq {pid : Nat} (hpid : conn.pid = some pid) (hne : pid ≠ 0) :
    probe.handleConnection e w conn =
      match probe.protocolOf conn with
      | none => .ok none
      | some protocol =>
          if !probe.filters.filtering.isFiltered (unpackL e conn.ip) conn.port.toNat &&
              probe.filters.portFilter.passes conn.port.toNat && !probe.filterNetNamespace w pid then
            (probe.processEvents w ⟨pid, unpackL e conn.ip, conn.port, protocol⟩).map some
          else .ok none := by
  have hip : ipToInt e (inetNtoa conn.ip) = .ok (unpackL e conn.ip) :=
    ipToInt_eq_ok.2 ⟨conn.ip, inetAton_inetNtoa conn.ip, rfl⟩
  cases pid with
  | zero => exact absurd rfl hne
  | succ pid =>
      have hsome : ∀ x : Except PyErr ListenEvent, (x >>= fun event => .ok (some event)) = x.map some := by
        intro x
        cases x <;> rfl
      unfold handleConnection
      simp only [hpid, hip]
      cases probe.protocolOf conn with
      | none => rfl
      | some protocol => simp only [← hsome]; rfl

/-- A connection that is not to be reported is passed over. -/
theorem handleConnection_of_not (h : ∀ pid protocol, ¬ probe.Reports e w conn pid protocol) :
    probe.handleConnection e w conn = .ok none := by
  cases hpid : conn.pid with
  | none => simp [handleConnection, hpid]
  | some pid =>
      by_cases hne : pid = 0
      · subst hne
        simp [handleConnection, hpid]
      · rw [handleConnection_eq hpid hne]
        cases hprotocol : probe.protocolOf conn with
        | none => rfl
        | some protocol =>
            have htests := tests_iff (e := e) (w := w) ⟨hpid, hne⟩ (protocolOf_eq_some.1 hprotocol)
            exact if_neg fun hpass => h pid protocol (htests.1 hpass)

/-- A connection that is to be reported goes through the path of the kernel's events. -/
theorem handleConnection_of_reports {pid protocol : Nat} (h : probe.Reports e w conn pid protocol) :
    probe.handleConnection e w conn =
      (probe.processEvents w ⟨pid, unpackL e conn.ip, conn.port, protocol⟩).map some := by
  rw [handleConnection_eq h.process.1 h.process.2, protocolOf_eq_some.2 h.logged]
  exact if_pos ((tests_iff h.process h.logged).2 h)

/-! ## The path of an event -/

/-- A plugin leaves the socket of an event alone. -/
theorem socket_process (plugin : Plugin) (event : ListenEvent) :
    (plugin.process w event).socket = event.socket := by
  cases plugin with
  | identity => rfl
  | loginuidMap topLevel => cases topLevel <;> rfl

theorem socket_foldl (plugins : List Plugin) (event : ListenEvent) :
    (plugins.foldl (fun event plugin => plugin.process w event) event).socket = event.socket := by
  induction plugins generalizing event with
  | nil => rfl
  | cons plugin plugins ih => exact (ih _).trans (socket_process plugin event)

/-- Without container labels the path ends with the event of the socket. -/
theorem processEvents_of_no_labels (hnames : probe.names = none) (wrapper : NetListenWrapper) :
    ∃ event, probe.processEvents w wrapper = .ok event ∧
      event.socket = ⟨wrapper.pid, intToIp wrapper.laddr, wrapper.port, protoName wrapper.protocol⟩ := by
  have hname : probe.enrichEvent w wrapper = .ok (formatEvent w wrapper) := by
    simp [enrichEvent, enrichContainerName, hnames]
  unfold processEvents
  rw [hname]
  exact ⟨_, rfl, socket_foldl _ _⟩

/-- With container labels the path raises: the event has no mount namespace. -/
theorem processEvents_of_labels {names : Dict Nat String} (hnames : probe.names = some names)
    (wrapper : NetListenWrapper) :
    probe.processEvents w wrapper = .error (.builtin .AttributeError) := by
  simp [processEvents, enrichEvent, enrichContainerName, hnames, Except.map]

/-! ## The iteration -/

/-- Without container labels every snapshot is exact. -/
theorem snapshotExact_of_no_labels (hnames : probe.names = none) :
    ∀ conns : List (Connection × Outside), probe.SnapshotExact e conns
  | [] => ⟨rfl, .nil⟩
  | (conn, w) :: rest => by
      have ih := snapshotExact_of_no_labels hnames rest
      by_cases hreports : ∃ pid protocol, probe.Reports e w conn pid protocol
      · rcases hreports with ⟨pid, protocol, hreports⟩
        rcases processEvents_of_no_labels (w := w) hnames
          ⟨pid, unpackL e conn.ip, conn.port, protocol⟩ with ⟨event, hevent, hsocket⟩
        have hhandle : probe.handleConnection e w conn = .ok (some event) := by
          rw [handleConnection_of_reports hreports, hevent]
          rfl
        have hsnapshot : probe.snapshot e ((conn, w) :: rest) =
            (event :: (probe.snapshot e rest).1, (probe.snapshot e rest).2) := by
          simp [snapshot, hhandle]
        refine ⟨by rw [hsnapshot]; exact ih.completes, ?_⟩
        rw [hsnapshot, List.map_cons, hsocket]
        exact .report hreports ih.events
      · have hnot : ∀ pid protocol, ¬ probe.Reports e w conn pid protocol :=
          fun pid protocol h => hreports ⟨pid, protocol, h⟩
        have hsnapshot : probe.snapshot e ((conn, w) :: rest) = probe.snapshot e rest := by
          simp [snapshot, handleConnection_of_not hnot]
        refine ⟨by rw [hsnapshot]; exact ih.completes, ?_⟩
        rw [hsnapshot]
        exact .skip hnot ih.events

/-- A snapshot that has nothing to report does nothing. -/
theorem snapshotExact_of_none :
    ∀ {conns : List (Connection × Outside)},
      (∀ c ∈ conns, ∀ pid protocol, ¬ probe.Reports e c.2 c.1 pid protocol) →
        probe.snapshot e conns = ([], none) ∧ probe.Reported e conns []
  | [], _ => ⟨rfl, .nil⟩
  | (conn, w) :: rest, h => by
      have hnot := h (conn, w) (by simp)
      rcases snapshotExact_of_none (fun c hc => h c (List.mem_cons_of_mem _ hc)) with
        ⟨hsnapshot, hreported⟩
      refine ⟨?_, .skip hnot hreported⟩
      simp [snapshot, handleConnection_of_not hnot, hsnapshot]

/-- With container labels the first connection to be reported ends the iteration. -/
theorem snapshot_of_labels {names : Dict Nat String} (hnames : probe.names = some names) :
    ∀ {conns : List (Connection × Outside)},
      (∃ c ∈ conns, ∃ pid protocol, probe.Reports e c.2 c.1 pid protocol) →
        probe.snapshot e conns = ([], some (.builtin .AttributeError))
  | [], h => by simp at h
  | (conn, w) :: rest, h => by
      by_cases hreports : ∃ pid protocol, probe.Reports e w conn pid protocol
      · rcases hreports with ⟨pid, protocol, hreports⟩
        have hhandle : probe.handleConnection e w conn = .error (.builtin .AttributeError) := by
          rw [handleConnection_of_reports hreports, processEvents_of_labels hnames]
          rfl
        simp [snapshot, hhandle]
      · have hnot : ∀ pid protocol, ¬ probe.Reports e w conn pid protocol :=
          fun pid protocol h => hreports ⟨pid, protocol, h⟩
        have hrest : ∃ c ∈ rest, ∃ pid protocol, probe.Reports e c.2 c.1 pid protocol := by
          rcases h with ⟨c, hc, hc'⟩
          rcases List.mem_cons.1 hc with rfl | hc
          · exact absurd hc' hreports
          · exact ⟨c, hc, hc'⟩
        have ih := snapshot_of_labels hnames hrest
        simp [snapshot, handleConnection_of_not hnot, ih]

end Iteration

end SnapshotProbe

/-- A snapshot is complete and exact just when the probe has no container labels or there is nothing to
report. -/
theorem snapshot_exact_iff (e : Endian) (probe : SnapshotProbe) (conns : List (Connection × Outside)) :
    probe.SnapshotExact e conns ↔
      probe.names = none ∨ ∀ c ∈ conns, ∀ pid protocol, ¬ probe.Reports e c.2 c.1 pid protocol := by
  constructor
  · intro hexact
    by_contra hcondition
    push Not at hcondition
    rcases hcondition with ⟨hnames, c, hc, pid, protocol, hreports⟩
    rcases Option.ne_none_iff_exists'.1 hnames with ⟨names, hnames⟩
    have hsnapshot := SnapshotProbe.snapshot_of_labels hnames ⟨c, hc, pid, protocol, hreports⟩
    have hcompletes := hexact.completes
    rw [hsnapshot] at hcompletes
    cases hcompletes
  · rintro (hnames | hnone)
    · exact SnapshotProbe.snapshotExact_of_no_labels hnames conns
    · rcases SnapshotProbe.snapshotExact_of_none hnone with ⟨hsnapshot, hreported⟩
      exact ⟨by rw [hsnapshot], by rw [hsnapshot]; exact hreported⟩

/-! ### A listening socket of a probe with container labels -/

namespace Example

def labelled : SnapshotProbe :=
  ⟨true, false, ⟨[], .allBut []⟩, none, some (Dict.empty.set 10 "web"), []⟩

def listening : Connection := ⟨some 100, .listen, .stream, ⟨127, 0, 0, 1⟩, 80⟩

def outside : Outside := ⟨fun _ => .ok [], fun _ => none, fun _ => none⟩

end Example

/-- The listening socket is to be reported, and the iteration ends at it. -/
theorem labelled_snapshot_raises :
    Example.labelled.Reports .little Example.outside Example.listening 100 socket.IPPROTO_TCP ∧
      Example.labelled.snapshot .little [(Example.listening, Example.outside)] =
        ([], some (.builtin .AttributeError)) ∧
      ¬ Example.labelled.SnapshotExact .little [(Example.listening, Example.outside)] := by
  have hsnapshot : Example.labelled.snapshot .little [(Example.listening, Example.outside)] =
      ([], some (.builtin .AttributeError)) := by decide +kernel
  refine ⟨⟨⟨rfl, by decide⟩, Or.inl ⟨rfl, rfl, rfl⟩, by decide, by decide, ?_⟩, hsnapshot, ?_⟩
  · rintro ⟨own, ns, hown, _⟩
    cases hown
  · intro hexact
    have hcompletes := hexact.completes
    rw [hsnapshot] at hcompletes
    cases hcompletes


end NetListen

end PidtreeBcc
