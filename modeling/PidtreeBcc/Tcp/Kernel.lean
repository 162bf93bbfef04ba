import PidtreeBcc.Support.TrackedCalls
import PidtreeBcc.Udp.Kernel

/-!
# Kernel — the BPF side of the connect probe

`tcp_v4_connect` is probed at its entry and at its return.  The entry leaves the socket in the hash
`currsock`, under the thread; the return finds it there, reports the connection if it succeeded and no
filter drops its destination, and takes the socket out.
-/

namespace PidtreeBcc

open Support

namespace Tcp

open Udp (SockPointer FilterMaps)

/-! ## Data -/

/-- The low half of `bpf_get_current_pid_tgid`, which is the id of the thread. -/
abbrev ThreadId := BitVec 32

/-- What the return handler reads of a socket: the addresses as they lie in memory, and the port in network
order. -/
structure SockData where
  skcDaddr : BitVec 32
  skcDport : BitVec 16
  skcRcvSaddr : BitVec 32
  deriving DecidableEq, Repr

/-- The entry of a call: its socket, the mount namespace of the thread, and the ones included then. -/
structure Entry where
  sk : SockPointer
  mntnsId : Nat
  included : List Nat
  deriving DecidableEq, Repr

/-- What is read at a return: the value returned, the memory and the filter maps as they are then, and the
mount namespace of the thread. -/
structure Return where
  ret : BitVec 32
  memory : SockPointer → SockData
  maps : FilterMaps
  mntnsId : Nat

/-- `struct connection_t`; the mount namespace is a field when there are container labels. -/
structure Connection where
  pid : BitVec 32
  daddr : BitVec 32
  saddr : BitVec 32
  dport : BitVec 16
  mntnsId : Option Nat
  deriving DecidableEq, Repr

abbrev KernelState := TrackedCalls ThreadId SockPointer Connection

/-! ## Handlers -/

/-- `kprobe__tcp_v4_connect`; the test of the container is there with container labels. -/
def kprobeTcpV4Connect (containerLabels : Bool) (pid : ThreadId) (c : Entry) (st : KernelState) :
    KernelState :=
  if containerLabels ∧ c.mntnsId ∉ c.included then st
  else st.update BPF_HASH_SIZE pid c.sk

/-- `kretprobe__tcp_v4_connect`. -/
def kretprobeTcpV4Connect (e : Endian) (containerLabels : Bool) (pid : ThreadId) (r : Return)
    (st : KernelState) : KernelState :=
  match st.hash.get? pid with
  -- Nothing was stored at the entry, or the hash was full.
  | none => st
  | some skp =>
      -- The connect has failed.
      if r.ret ≠ 0 then st.delete pid
      else
        let daddr := (r.memory skp).skcDaddr
        let dport := ntohs e (r.memory skp).skcDport
        if isAddrPortFiltered e r.maps.netFilter daddr dport ||
            isPortGloballyFiltered r.maps.portFilter dport then st.delete pid
        else
          (st.submit
            { pid := pid
              daddr := daddr
              saddr := (r.memory skp).skcRcvSaddr
              dport := dport
              mntnsId := if containerLabels then some r.mntnsId else none }).delete pid

abbrev Step := Calls.Step ThreadId Entry Return

abbrev Call := Calls.Call ThreadId Entry Return

/-- The state after a trace, from an empty hash on. -/
def run (e : Endian) (containerLabels : Bool) (steps : List Step) : KernelState :=
  Calls.run (kprobeTcpV4Connect containerLabels) (kretprobeTcpV4Connect e containerLabels)
    TrackedCalls.init steps

/-! ## The calls to report -/

/-- The entry is one that the probe is to follow. -/
def Entry.Followed (containerLabels : Bool) (c : Entry) : Prop :=
  containerLabels = true → c.mntnsId ∈ c.included

instance (containerLabels : Bool) (c : Entry) : Decidable (c.Followed containerLabels) :=
  inferInstanceAs (Decidable (containerLabels = true → c.mntnsId ∈ c.included))

/-- The return is of a successful call, and no filter of the moment drops the destination of the socket. -/
structure Return.Reports (e : Endian) (r : Return) (skp : SockPointer) : Prop where
  succeeded : r.ret = 0
  addr : isAddrPortFiltered e r.maps.netFilter (r.memory skp).skcDaddr
    (ntohs e (r.memory skp).skcDport) = false
  port : isPortGloballyFiltered r.maps.portFilter (ntohs e (r.memory skp).skcDport) = false

/-- The event of a return in a thread whose entry left the socket. -/
def Return.connection (e : Endian) (containerLabels : Bool) (r : Return) (pid : ThreadId)
    (skp : SockPointer) : Connection where
  pid := pid
  daddr := (r.memory skp).skcDaddr
  saddr := (r.memory skp).skcRcvSaddr
  dport := ntohs e (r.memory skp).skcDport
  mntnsId := if containerLabels then some r.mntnsId else none

theorem Return.reports_iff {e : Endian} {r : Return} {skp : SockPointer} :
    r.Reports e skp ↔ r.ret = 0 ∧
      (isAddrPortFiltered e r.maps.netFilter (r.memory skp).skcDaddr (ntohs e (r.memory skp).skcDport) ||
        isPortGloballyFiltered r.maps.portFilter (ntohs e (r.memory skp).skcDport)) = false := by
  rw [Bool.or_eq_false_iff]
  exact ⟨fun h => ⟨h.succeeded, h.addr, h.port⟩, fun h => ⟨h.1, h.2.1, h.2.2⟩⟩

instance (e : Endian) (r : Return) (skp : SockPointer) : Decidable (r.Reports e skp) :=
  decidable_of_iff _ Return.reports_iff.symm

/-- The call is to be reported. -/
def Reported (e : Endian) (containerLabels : Bool) (call : Call) : Prop :=
  call.entry.Followed containerLabels ∧ call.result.Reports e call.entry.sk

instance (e : Endian) (containerLabels : Bool) (call : Call) :
    Decidable (Reported e containerLabels call) :=
  inferInstanceAs (Decidable (_ ∧ _))

/-- The event of a call: the thread that entered it, and its own socket. -/
def eventOf (e : Endian) (containerLabels : Bool) (call : Call) : Connection :=
  call.result.connection e containerLabels call.thread call.entry.sk

/-- The events of calls that returned, in the order of their returns. -/
def reports (e : Endian) (containerLabels : Bool) (calls : List Call) : List Connection :=
  (calls.filter fun call => Reported e containerLabels call).map (eventOf e containerLabels)

/-! ## The handlers as a probe of calls -/

/-- What the two handlers do with the hash. -/
def probe (e : Endian) (containerLabels : Bool) :
    TrackedCalls.Probe ThreadId Entry Return SockPointer Connection where
  capacity := BPF_HASH_SIZE
  keep c := if c.Followed containerLabels then some c.sk else none
  emit pid skp r := if r.Reports e skp then some (r.connection e containerLabels pid skp) else none

section Handlers

variable {e : Endian} {containerLabels : Bool} {pid : ThreadId} {st : KernelState}

theorem followed_iff {c : Entry} :
    c.Followed containerLabels ↔ ¬ (containerLabels = true ∧ c.mntnsId ∉ c.included) := by
  unfold Entry.Followed
  tauto

theorem kprobe_eq (c : Entry) :
    kprobeTcpV4Connect containerLabels pid c st = (probe e containerLabels).onEnter pid c st := by
  unfold kprobeTcpV4Connect TrackedCalls.Probe.onEnter
  by_cases hexcluded : containerLabels = true ∧ c.mntnsId ∉ c.included
  · have hkeep : (probe e containerLabels).keep c = none :=
      if_neg fun h => followed_iff.1 h hexcluded
    rw [if_pos hexcluded, hkeep]
  · have hkeep : (probe e containerLabels).keep c = some c.sk := if_pos (followed_iff.2 hexcluded)
    rw [if_neg hexcluded, hkeep]
    rfl

theorem kretprobe_eq (r : Return) :
    kretprobeTcpV4Connect e containerLabels pid r st = (probe e containerLabels).onReturn pid r st := by
  unfold kretprobeTcpV4Connect TrackedCalls.Probe.onReturn
  cases st.hash.get? pid with
  | none => rfl
  | some skp =>
      simp only
      by_cases hreports : r.Reports e skp
      · have hemit : (probe e containerLabels).emit pid skp r =
            some (r.connection e containerLabels pid skp) := if_pos hreports
        rcases Return.reports_iff.1 hreports with ⟨hret, hunfiltered⟩
        rw [hemit, if_neg (not_not.2 hret), if_neg (by simp [hunfiltered])]
        rfl
      · have hemit : (probe e containerLabels).emit pid skp r = none := if_neg hreports
        rw [hemit]
        rw [Return.reports_iff, not_and, Bool.not_eq_false] at hreports
        by_cases hret : r.ret = 0
        · rw [if_neg (not_not.2 hret), if_pos (hreports hret)]
        · rw [if_pos hret]

theorem run_eq (steps : List Step) :
    run e containerLabels steps = (probe e containerLabels).run steps := by
  unfold run TrackedCalls.Probe.run
  congr 1
  · funext pid c st
    exact kprobe_eq c
  · funext pid r st
    exact kretprobe_eq r

theorem eventOf_eq (call : Call) :
    (probe e containerLabels).eventOf call =
      if Reported e containerLabels call then some (eventOf e containerLabels call) else none := by
  unfold TrackedCalls.Probe.eventOf Reported
  by_cases hfollowed : call.entry.Followed containerLabels
  · have hkeep : (probe e containerLabels).keep call.entry = some call.entry.sk := if_pos hfollowed
    rw [hkeep, Option.bind_some]
    simp only [hfollowed, true_and]
    rfl
  · have hkeep : (probe e containerLabels).keep call.entry = none := if_neg hfollowed
    simp [hkeep, hfollowed]

/-- The events of the probe are the reports. -/
theorem filterMap_eventOf (calls : List Call) :
    calls.filterMap (probe e containerLabels).eventOf = reports e containerLabels calls := by
  unfold reports
  induction calls with
  | nil => rfl
  | cons call rest ih =>
      have hone : (probe e containerLabels).eventOf call = _ := eventOf_eq call
      by_cases hreported : Reported e containerLabels call
      · rw [if_pos hreported] at hone
        simp [List.filterMap_cons_some hone, hreported, ih]
      · rw [if_neg hreported] at hone
        simp [List.filterMap_cons_none hone, hreported, ih]

end Handlers

/-! ## Runs -/

/-- The threads that are in a call that the probe follows. -/
def connecting (containerLabels : Bool) (o : Calls.Open ThreadId Entry) : Set ThreadId :=
  {pid | ∃ c, o pid = some c ∧ c.Followed containerLabels}

/-- At no time more calls are followed than the hash has room for. -/
def FitsCurrsock (containerLabels : Bool) (steps : List Step) : Prop :=
  ∀ before after, steps = before ++ after →
    (connecting containerLabels (Calls.openAfter Calls.idle before)).ncard ≤ BPF_HASH_SIZE

/-- A return fits any entry. -/
def Fits (_ : Entry) (_ : Return) : Prop := True

theorem following_eq (e : Endian) (containerLabels : Bool) (o : Calls.Open ThreadId Entry) :
    (probe e containerLabels).following o = connecting containerLabels o := by
  ext pid
  simp only [TrackedCalls.Probe.following, connecting, Set.mem_ofPred_eq, probe]
  cases o pid with
  | none => simp
  | some c => by_cases h : c.Followed containerLabels <;> simp [h]

theorem FitsCurrsock.of_length {containerLabels : Bool} {steps : List Step}
    (h : steps.length ≤ BPF_HASH_SIZE) : FitsCurrsock containerLabels steps := by
  intro before after hsplit
  rw [← following_eq .little containerLabels]
  exact TrackedCalls.Probe.fitting_of_length (p := probe .little containerLabels) h before after hsplit

/-- For every interleaving of the entries and returns: each event is that of a call that is to be reported,
in the order of the returns, with the thread that entered it and the data of its own socket; no call is
missing as long as the followed ones fit the hash; and a return leaves nothing of its thread behind. -/
theorem connect_events_exact (e : Endian) (containerLabels : Bool) {steps : List Step}
    (hwell : Calls.WellFormed Fits Calls.idle steps) :
    (run e containerLabels steps).events.Sublist
        (reports e containerLabels (Calls.completed Calls.idle steps)) ∧
      (FitsCurrsock containerLabels steps →
        (run e containerLabels steps).events =
          reports e containerLabels (Calls.completed Calls.idle steps)) ∧
      ∀ before pid r after, steps = before ++ .ret pid r :: after →
        (run e containerLabels (before ++ [.ret pid r])).hash.get? pid = none := by
  refine ⟨?_, ?_, ?_⟩
  · rw [run_eq, ← filterMap_eventOf]
    exact TrackedCalls.events_sublist hwell
  · intro hroom
    rw [run_eq, ← filterMap_eventOf]
    refine TrackedCalls.events_eq hwell ?_
    intro before after hsplit
    rw [following_eq]
    exact hroom before after hsplit
  · rintro before pid r after rfl
    rw [run_eq]
    exact TrackedCalls.hash_after_return hwell

/-! ### Two connects that overlap -/

namespace Example

/-- Socket 1 goes to 10.0.0.1 port 80, any other to 10.0.0.2 port 22; both from 10.0.0.9. -/
def memory : SockPointer → SockData := fun sk =>
  if sk = 1 then ⟨unpackL .little ⟨10, 0, 0, 1⟩, 0x5000, unpackL .little ⟨10, 0, 0, 9⟩⟩
  else ⟨unpackL .little ⟨10, 0, 0, 2⟩, 0x1600, unpackL .little ⟨10, 0, 0, 9⟩⟩

/-- Thread 8 connects while thread 7 does, and returns first. -/
def overlap : List Step :=
  [.enter 7 ⟨1, 0, []⟩, .enter 8 ⟨2, 0, []⟩, .ret 8 ⟨0, memory, .empty, 0⟩, .ret 7 ⟨0, memory, .empty, 0⟩]

theorem overlap_wellFormed : Calls.WellFormed Fits Calls.idle overlap :=
  ⟨rfl, rfl, ⟨_, rfl, trivial⟩, ⟨_, rfl, trivial⟩, trivial⟩

theorem overlap_fits : FitsCurrsock false overlap := .of_length (by decide)

end Example

theorem overlapping_connects_reported :
    (run .little false Example.overlap).events =
      reports .little false (Calls.completed Calls.idle Example.overlap) :=
  (connect_events_exact .little false Example.overlap_wellFormed).2.1 Example.overlap_fits

example : (run .little false Example.overlap).events.map (fun c => (c.pid, c.dport)) = [(8, 22), (7, 80)] := by
  decide +kernel

end Tcp

end PidtreeBcc
