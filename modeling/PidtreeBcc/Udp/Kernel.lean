import PidtreeBcc.Filtering.NetMap
import PidtreeBcc.Filtering.PortMap
import PidtreeBcc.Udp.Sessions

/-!
# Kernel — the BPF side of the UDP session probe

The hash `tracing` holds the socket pointers whose session the kernel has announced.  A send announces
a START for a socket that is not there and a CONTINUE otherwise; a release announces the END and drops
the socket.  The hash is bounded: an update that has no room for a new socket is refused, which nobody
looks at.
-/

namespace PidtreeBcc

open Support

/-- The keys that a `BPF_HASH` has room for unless it says otherwise. -/
def BPF_HASH_SIZE : Nat := 10240

namespace Udp

def AF_INET : BitVec 16 := 2

def IPPROTO_UDP : BitVec 8 := 17

def SESSION_START : BitVec 8 := 1

abbrev Tracing := Dict SockPointer (BitVec 8)

namespace Tracing

/-- The socket is there already, or the hash is not full. -/
def HasRoom (tracing : Tracing) (sock : SockPointer) : Prop :=
  sock ∈ tracing.keys ∨ tracing.size < BPF_HASH_SIZE

instance (tracing : Tracing) (sock : SockPointer) : Decidable (HasRoom tracing sock) :=
  inferInstanceAs (Decidable (_ ∨ _))

/-- `tracing.update`. -/
def update (tracing : Tracing) (sock : SockPointer) (flag : BitVec 8) : Tracing :=
  if HasRoom tracing sock then tracing.set sock flag else tracing

variable {tracing : Tracing} {sock : SockPointer}

theorem update_of_hasRoom (h : HasRoom tracing sock) (flag : BitVec 8) :
    update tracing sock flag = tracing.set sock flag := if_pos h

theorem update_of_not_hasRoom (h : ¬ HasRoom tracing sock) (flag : BitVec 8) :
    update tracing sock flag = tracing := if_neg h

/-- An update takes no socket out. -/
theorem mem_keys_update_of_mem {s : SockPointer} (h : s ∈ tracing.keys) (flag : BitVec 8) :
    s ∈ (update tracing sock flag).keys := by
  unfold update
  split
  · exact Dict.mem_keys_set.2 (Or.inr h)
  · exact h

end Tracing

/-- The filter maps that the handlers look at. -/
structure FilterMaps where
  netFilter : NetFilterMap
  portFilter : PortFilterMap

/-- Nothing is filtered. -/
def FilterMaps.empty : FilterMaps := ⟨LpmTrie.empty none, PortFilterMap.zeros⟩

/-- What `kprobe__udp_sendmsg` reads of its arguments; addresses and ports are in network order, and
those of the message are zero when it names no destination. -/
structure UdpSendmsg where
  sock : SockPointer
  family : BitVec 16
  sinAddr : BitVec 32
  sinPort : BitVec 16
  skDaddr : BitVec 32
  skDport : BitVec 16
  pid : BitVec 32
  mntnsId : Nat
  deriving DecidableEq, Repr

structure InetRelease where
  sock : SockPointer
  protocol : BitVec 8
  mntnsId : Nat
  deriving DecidableEq, Repr

/-- The destination of a message: its own, or the one its socket is connected to. -/
def UdpSendmsg.dest (e : Endian) (c : UdpSendmsg) : Dest where
  daddr := if c.sinAddr ≠ 0 then c.sinAddr else c.skDaddr
  dport := ntohs e (if c.sinPort ≠ 0 then c.sinPort else c.skDport)

/-- The datagram is one that the probe reports: an IPv4 one whose container is included, if the probe
filters on containers, and which no filter drops. -/
def UdpSendmsg.unfiltered (e : Endian) (maps : FilterMaps) (mntnsFilter : Option (List Nat))
    (c : UdpSendmsg) : Bool :=
  c.family = AF_INET && (mntnsFilter.all fun included => c.mntnsId ∈ included) &&
    !(isAddrPortFiltered e maps.netFilter (c.dest e).daddr (c.dest e).dport ||
      isPortGloballyFiltered maps.portFilter (c.dest e).dport)

/-- `kprobe__udp_sendmsg`; the container test is compiled in when there is a `mntnsFilter`. -/
def kprobeUdpSendmsg (e : Endian) (maps : FilterMaps) (mntnsFilter : Option (List Nat))
    (c : UdpSendmsg) (tracing : Tracing) : Option SessionEvent × Tracing :=
  if c.family ≠ AF_INET then (none, tracing)
  else if !(mntnsFilter.all fun included => c.mntnsId ∈ included) then (none, tracing)
  else
    let dest := c.dest e
    if isAddrPortFiltered e maps.netFilter dest.daddr dest.dport ||
        isPortGloballyFiltered maps.portFilter dest.dport then (none, tracing)
    else
      match tracing.get? c.sock with
      -- Whether the datagram is the first one is read off the hash.
      | some _ => (some (.sessionContinue c.sock dest), tracing)
      | none => (some (.sessionStart c.sock c.pid dest), Tracing.update tracing c.sock SESSION_START)

def kprobeInetRelease (mntnsFilter : Option (List Nat)) (c : InetRelease) (tracing : Tracing) :
    Option SessionEvent × Tracing :=
  if c.protocol ≠ IPPROTO_UDP then (none, tracing)
  else
    match tracing.get? c.sock with
    | none => (none, tracing)
    | some _ => (some (.sessionEnd c.sock (mntnsFilter.map fun _ => c.mntnsId)), tracing.erase c.sock)

/-! ## What the handlers announce -/

/-- A datagram that is filtered leaves no trace. -/
theorem kprobeUdpSendmsg_of_filtered {e : Endian} {maps : FilterMaps}
    {mntnsFilter : Option (List Nat)} {c : UdpSendmsg} (h : c.unfiltered e maps mntnsFilter = false)
    (tracing : Tracing) : kprobeUdpSendmsg e maps mntnsFilter c tracing = (none, tracing) := by
  simp only [UdpSendmsg.unfiltered, Bool.and_eq_false_iff, decide_eq_false_iff_not,
    Bool.not_eq_false'] at h
  unfold kprobeUdpSendmsg
  rcases h with (hfamily | hmntns) | hfilter
  · simp [hfamily]
  · simp [hmntns]
  · by_cases hfamily : c.family = AF_INET
    · simp [hfamily, hfilter]
    · simp [hfamily]

/-- An unfiltered datagram is announced: as a CONTINUE if its socket is traced, as a START if not, and
its socket is traced afterwards if the hash has room for it. -/
theorem kprobeUdpSendmsg_of_unfiltered {e : Endian} {maps : FilterMaps}
    {mntnsFilter : Option (List Nat)} {c : UdpSendmsg} (h : c.unfiltered e maps mntnsFilter = true)
    (tracing : Tracing) :
    kprobeUdpSendmsg e maps mntnsFilter c tracing =
      if c.sock ∈ tracing.keys then (some (.sessionContinue c.sock (c.dest e)), tracing)
      else
        (some (.sessionStart c.sock c.pid (c.dest e)), Tracing.update tracing c.sock SESSION_START) := by
  simp only [UdpSendmsg.unfiltered, Bool.and_eq_true, decide_eq_true_eq, Bool.not_eq_true'] at h
  rcases h with ⟨⟨hfamily, hmntns⟩, hfilter⟩
  unfold kprobeUdpSendmsg
  cases hget : tracing.get? c.sock with
  | none =>
      have hnot : c.sock ∉ tracing.keys := Dict.get?_eq_none_iff.1 hget
      simp [hfamily, hmntns, hfilter, hnot]
  | some flag =>
      have hmem : c.sock ∈ tracing.keys := Dict.mem_keys_iff.2 ⟨flag, hget⟩
      simp [hfamily, hmntns, hfilter, hmem]

/-- A release of a traced UDP socket is announced as an END, any other one is not. -/
theorem kprobeInetRelease_eq (mntnsFilter : Option (List Nat)) (c : InetRelease)
    (tracing : Tracing) :
    kprobeInetRelease mntnsFilter c tracing =
      if c.protocol = IPPROTO_UDP ∧ c.sock ∈ tracing.keys then
        (some (.sessionEnd c.sock (mntnsFilter.map fun _ => c.mntnsId)), tracing.erase c.sock)
      else (none, tracing) := by
  unfold kprobeInetRelease
  by_cases hprotocol : c.protocol = IPPROTO_UDP
  · cases hget : tracing.get? c.sock with
    | none =>
        have hnot : c.sock ∉ tracing.keys := Dict.get?_eq_none_iff.1 hget
        simp [hprotocol, hnot]
    | some flag =>
        have hmem : c.sock ∈ tracing.keys := Dict.mem_keys_iff.2 ⟨flag, hget⟩
        simp [hprotocol, hmem]
  · simp [hprotocol]

/-! ## Phases of a socket -/

/-- What an event does to the phase of socket `s`: a START opens it, a CONTINUE keeps it open, an END
closes it, and no event comes in another phase. -/
def nextPhase (s : SockPointer) (opened : Bool) (event : SessionEvent) : Option Bool :=
  if event.sockPointer = s then
    match event, opened with
    | .sessionStart _ _ _, false => some true
    | .sessionContinue _ _, true => some true
    | .sessionEnd _ _, true => some false
    | _, _ => none
  else some opened

/-- The phase of `s` after a list of events. -/
def phaseAfter (s : SockPointer) (opened : Bool) (events : List SessionEvent) : Option Bool :=
  events.foldlM (nextPhase s) opened

theorem phaseAfter_cons (s : SockPointer) (opened : Bool) (event : SessionEvent)
    (events : List SessionEvent) :
    phaseAfter s opened (event :: events) =
      (nextPhase s opened event).bind (fun b => phaseAfter s b events) := rfl

theorem phaseAfter_concat {s : SockPointer} {opened b : Bool} {events : List SessionEvent}
    (h : phaseAfter s opened events = some b) (event : SessionEvent) :
    phaseAfter s opened (events ++ [event]) = nextPhase s b event := by
  unfold phaseAfter at h ⊢
  rw [List.foldlM_append, h]
  simp

/-- A send that finds room and a release move every socket from the phase of the hash before to the phase
after. -/
theorem phaseAfter_sendmsg {e : Endian} {maps : FilterMaps} {mntnsFilter : Option (List Nat)}
    {c : UdpSendmsg} {tracing : Tracing} {s : SockPointer} {opened : Bool}
    {events : List SessionEvent} (h : phaseAfter s opened events = some (decide (s ∈ tracing.keys)))
    (hroom : c.unfiltered e maps mntnsFilter = true → Tracing.HasRoom tracing c.sock) :
    let r := kprobeUdpSendmsg e maps mntnsFilter c tracing
    phaseAfter s opened (events ++ r.1.toList) = some (decide (s ∈ r.2.keys)) := by
  cases hf : c.unfiltered e maps mntnsFilter with
  | false => simpa [kprobeUdpSendmsg_of_filtered hf] using h
  | true =>
      simp only [kprobeUdpSendmsg_of_unfiltered hf]
      by_cases hmem : c.sock ∈ tracing.keys
      · simp only [if_pos hmem, Option.toList_some]
        rw [phaseAfter_concat h]
        by_cases hs : c.sock = s
        · subst hs
          simp [nextPhase, SessionEvent.sockPointer, hmem]
        · simp [nextPhase, SessionEvent.sockPointer, hs]
      · simp only [if_neg hmem, Option.toList_some, Tracing.update_of_hasRoom (hroom hf)]
        rw [phaseAfter_concat h]
        by_cases hs : c.sock = s
        · subst hs
          simp [nextPhase, SessionEvent.sockPointer, hmem, Dict.mem_keys_set]
        · simp [nextPhase, SessionEvent.sockPointer, hs, Ne.symm hs, Dict.mem_keys_set]

theorem phaseAfter_release {mntnsFilter : Option (List Nat)} {c : InetRelease} {tracing : Tracing}
    {s : SockPointer} {opened : Bool} {events : List SessionEvent}
    (h : phaseAfter s opened events = some (decide (s ∈ tracing.keys))) :
    let r := kprobeInetRelease mntnsFilter c tracing
    phaseAfter s opened (events ++ r.1.toList) = some (decide (s ∈ r.2.keys)) := by
  simp only [kprobeInetRelease_eq]
  by_cases hend : c.protocol = IPPROTO_UDP ∧ c.sock ∈ tracing.keys
  · simp only [if_pos hend, Option.toList_some]
    rw [phaseAfter_concat h]
    by_cases hs : c.sock = s
    · subst hs
      simp [nextPhase, SessionEvent.sockPointer, hend.2, Dict.mem_keys_erase]
    · simp [nextPhase, SessionEvent.sockPointer, hs, Ne.symm hs, Dict.mem_keys_erase]
  · simpa [if_neg hend] using h

end Udp

end PidtreeBcc
