import PidtreeBcc.Support.Calls
import PidtreeBcc.Udp.Kernel

/-!
# Kernel — the BPF side of the listen probe

`inet_bind` and `inet_listen` are probed at their entry and at their return.  The entry leaves the socket in
the hash `currsock`, under the thread; the return finds it there, reports it if the call succeeded and no
filter drops it, and takes it out.  Both functions share the hash and the handler of the return.
-/

namespace PidtreeBcc

open Support

namespace NetListen

open Udp (SockPointer AF_INET IPPROTO_UDP FilterMaps)

/-! ## Data -/

/-- The low half of `bpf_get_current_pid_tgid`, which is the id of the thread. -/
abbrev ThreadId := BitVec 32

/-- The variables that the template is rendered with. -/
structure Template where
  tcp : Bool
  udp : Bool
  containerLabels : Bool
  excludeRandomBind : Bool
  netNamespace : Option Nat
  deriving DecidableEq, Repr

/-- What the handlers read of a socket. -/
structure SockData where
  family : BitVec 16
  protocol : BitVec 8
  rcvSaddr : BitVec 32
  num : BitVec 16
  netns : Nat
  deriving DecidableEq, Repr

/-- What is read at the entry of a call: the socket and what it holds then, the mount namespace of the
thread, and the namespaces that are included then. -/
structure EntryData where
  sock : SockPointer
  data : SockData
  mntnsId : Nat
  included : List Nat
  deriving DecidableEq, Repr

/-- The entry of a call; a bind comes with the port that it asks for. -/
inductive Entry
  | inetBind (c : EntryData) (sinPort : BitVec 16)
  | inetListen (c : EntryData)
  deriving DecidableEq, Repr

inductive Func
  | inetBind
  | inetListen
  deriving DecidableEq, Repr

/-- What is read at a return: the value returned, the memory and the filter maps as they are then, and the
mount namespace of the thread. -/
structure Return where
  func : Func
  ret : BitVec 32
  memory : SockPointer → SockData
  maps : FilterMaps
  mntnsId : Nat

def Entry.func : Entry → Func
  | inetBind _ _ => .inetBind
  | inetListen _ => .inetListen

def Entry.data : Entry → EntryData
  | inetBind c _ => c
  | inetListen c => c

/-- `struct listen_bind_t`; the mount namespace is a field when there are container labels. -/
structure ListenBind where
  pid : BitVec 32
  laddr : BitVec 32
  port : BitVec 16
  protocol : BitVec 8
  mntnsId : Option Nat
  deriving DecidableEq, Repr

structure KernelState where
  currsock : Dict ThreadId SockPointer
  events : List ListenBind
  deriving DecidableEq

namespace KernelState

def init : KernelState := ⟨Dict.empty, []⟩

/-- `currsock.update(&pid, &sk)`. -/
def update (st : KernelState) (pid : ThreadId) (sk : SockPointer) : KernelState :=
  { st with currsock := st.currsock.set pid sk }

/-- `currsock.delete(&pid)`. -/
def delete (st : KernelState) (pid : ThreadId) : KernelState :=
  { st with currsock := st.currsock.erase pid }

def submit (st : KernelState) (event : ListenBind) : KernelState :=
  { st with events := st.events ++ [event] }

end KernelState

/-! ## Handlers -/

/-- The test of the namespace, which is rendered when there is a namespace to test for. -/
def Template.netFiltered (t : Template) (inum : Nat) : Bool :=
  match t.netNamespace with
  | none => false
  -- The template renders no test for a namespace that is false.
  | some 0 => false
  | some ns => inum ≠ ns

def netListenEvent (e : Endian) (t : Template) (pid : ThreadId) (r : Return) (st : KernelState) :
    KernelState :=
  match st.currsock.get? pid with
  | none => st
  | some sk =>
      -- The call has failed.
      if r.ret ≠ 0 then st.delete pid
      else
        let laddr := (r.memory sk).rcvSaddr
        let port := (r.memory sk).num
        if isAddrPortFiltered e r.maps.netFilter laddr port ||
            isPortGloballyFiltered r.maps.portFilter port then st.delete pid
        -- The socket belongs to another network namespace.
        else if t.netFiltered (r.memory sk).netns then st.delete pid
        else
          (st.submit
            { pid := pid
              laddr := laddr
              port := port
              protocol := (r.memory sk).protocol
              mntnsId := if t.containerLabels then some r.mntnsId else none }).delete pid

def kprobeInetBind (t : Template) (pid : ThreadId) (c : EntryData) (sinPort : BitVec 16)
    (st : KernelState) : KernelState :=
  if t.containerLabels ∧ c.mntnsId ∉ c.included then st
  -- With port 0 the kernel chooses one.
  else if t.excludeRandomBind ∧ sinPort = 0 then st
  else if c.data.family = AF_INET ∧ c.data.protocol = IPPROTO_UDP then st.update pid c.sock
  else st

def kprobeInetListen (t : Template) (pid : ThreadId) (c : EntryData) (st : KernelState) :
    KernelState :=
  if t.containerLabels ∧ c.mntnsId ∉ c.included then st
  else if c.data.family = AF_INET then st.update pid c.sock
  else st

/-- The probes of `inet_bind` are there with `udp`, those of `inet_listen` with `tcp`. -/
def onEntry (t : Template) (pid : ThreadId) (entry : Entry) (st : KernelState) : KernelState :=
  match entry with
  | .inetBind c sinPort => if t.udp then kprobeInetBind t pid c sinPort st else st
  | .inetListen c => if t.tcp then kprobeInetListen t pid c st else st

def onReturn (e : Endian) (t : Template) (pid : ThreadId) (r : Return) (st : KernelState) :
    KernelState :=
  match r.func with
  | .inetBind => if t.udp then netListenEvent e t pid r st else st
  | .inetListen => if t.tcp then netListenEvent e t pid r st else st

abbrev Step := Calls.Step ThreadId Entry Return

abbrev Call := Calls.Call ThreadId Entry Return

/-- The state after a trace, from an empty hash on. -/
def run (e : Endian) (t : Template) (steps : List Step) : KernelState :=
  Calls.run (onEntry t) (onReturn e t) KernelState.init steps

/-- The entry is of the function that returns. -/
def Fits (entry : Entry) (r : Return) : Prop := entry.func = r.func

/-! ## The calls to report -/

/-- The protocol of the call is logged: a listen with `tcp`, a bind of a UDP socket with `udp`, and with a
port if random ones are excluded. -/
def Entry.Logged (t : Template) : Entry → Prop
  | inetBind c sinPort => t.udp = true ∧ c.data.protocol = IPPROTO_UDP ∧
      (t.excludeRandomBind = true → sinPort ≠ 0)
  | inetListen _ => t.tcp = true

/-- The entry is one that the probe is to follow. -/
structure Entry.Followed (t : Template) (entry : Entry) : Prop where
  inet : entry.data.data.family = AF_INET
  logged : entry.Logged t
  included : t.containerLabels = true → entry.data.mntnsId ∈ entry.data.included

/-- What the socket of the call holds at its return. -/
def sockAtReturn (call : Call) : SockData := call.result.memory call.entry.data.sock

/-- The call is to be reported. -/
structure Reported (e : Endian) (t : Template) (call : Call) : Prop where
  followed : call.entry.Followed t
  succeeded : call.result.ret = 0
  addr : isAddrPortFiltered e call.result.maps.netFilter (sockAtReturn call).rcvSaddr
    (sockAtReturn call).num = false
  port : isPortGloballyFiltered call.result.maps.portFilter (sockAtReturn call).num = false
  namespaces : t.netFiltered (sockAtReturn call).netns = false

/-- The event of a call: the thread that entered it, and its own socket. -/
def eventOf (t : Template) (call : Call) : ListenBind where
  pid := call.thread
  laddr := (sockAtReturn call).rcvSaddr
  port := (sockAtReturn call).num
  protocol := (sockAtReturn call).protocol
  mntnsId := if t.containerLabels then some call.result.mntnsId else none

instance (t : Template) (entry : Entry) : Decidable (entry.Logged t) :=
  match entry with
  | .inetBind c sinPort => inferInstanceAs (Decidable (t.udp = true ∧ c.data.protocol = IPPROTO_UDP ∧
      (t.excludeRandomBind = true → sinPort ≠ 0)))
  | .inetListen _ => inferInstanceAs (Decidable (t.tcp = true))

instance (t : Template) (entry : Entry) : Decidable (entry.Followed t) :=
  decidable_of_iff (entry.data.data.family = AF_INET ∧ entry.Logged t ∧
      (t.containerLabels = true → entry.data.mntnsId ∈ entry.data.included))
    ⟨fun h => ⟨h.1, h.2.1, h.2.2⟩, fun h => ⟨h.inet, h.logged, h.included⟩⟩

instance (e : Endian) (t : Template) (call : Call) : Decidable (Reported e t call) :=
  decidable_of_iff (call.entry.Followed t ∧ call.result.ret = 0 ∧
      isAddrPortFiltered e call.result.maps.netFilter (sockAtReturn call).rcvSaddr
        (sockAtReturn call).num = false ∧
      isPortGloballyFiltered call.result.maps.portFilter (sockAtReturn call).num = false ∧
      t.netFiltered (sockAtReturn call).netns = false)
    ⟨fun h => ⟨h.1, h.2.1, h.2.2.1, h.2.2.2.1, h.2.2.2.2⟩,
      fun h => ⟨h.followed, h.succeeded, h.addr, h.port, h.namespaces⟩⟩

/-- The events of calls that returned, in the order of their returns. -/
def reports (e : Endian) (t : Template) (calls : List Call) : List ListenBind :=
  (calls.filter fun call => Reported e t call).map (eventOf t)

/-! ## What the handlers do -/

section Handlers

variable {e : Endian} {t : Template} {pid : ThreadId} {entry : Entry} {r : Return} {st : KernelState}

theorem followed_inetBind {c : EntryData} {sinPort : BitVec 16} :
    (Entry.inetBind c sinPort).Followed t ↔ t.udp = true ∧
      ¬ (t.containerLabels = true ∧ c.mntnsId ∉ c.included) ∧
      ¬ (t.excludeRandomBind = true ∧ sinPort = 0) ∧
      c.data.family = AF_INET ∧ c.data.protocol = IPPROTO_UDP := by
  constructor
  · rintro ⟨hinet, ⟨hudp, hprotocol, hport⟩, hincluded⟩
    exact ⟨hudp, fun h => h.2 (hincluded h.1), fun h => hport h.1 h.2, hinet, hprotocol⟩
  · rintro ⟨hudp, hincluded, hport, hinet, hprotocol⟩
    refine ⟨hinet, ⟨hudp, hprotocol, fun h hzero => hport ⟨h, hzero⟩⟩, ?_⟩
    exact fun h => by_contra fun hmem => hincluded ⟨h, hmem⟩

theorem followed_inetListen {c : EntryData} :
    (Entry.inetListen c).Followed t ↔ t.tcp = true ∧
      ¬ (t.containerLabels = true ∧ c.mntnsId ∉ c.included) ∧ c.data.family = AF_INET := by
  constructor
  · rintro ⟨hinet, htcp, hincluded⟩
    exact ⟨htcp, fun h => h.2 (hincluded h.1), hinet⟩
  · rintro ⟨htcp, hincluded, hinet⟩
    exact ⟨hinet, htcp, fun h => by_contra fun hmem => hincluded ⟨h, hmem⟩⟩

/-- A followed entry leaves its socket under the thread, any other one leaves nothing. -/
theorem onEntry_eq :
    onEntry t pid entry st = if entry.Followed t then st.update pid entry.data.sock else st := by
  cases entry with
  | inetBind c sinPort =>
      simp only [onEntry, kprobeInetBind, followed_inetBind]
      by_cases hudp : t.udp = true
      · by_cases hincluded : t.containerLabels = true ∧ c.mntnsId ∉ c.included
        · rw [if_pos hudp, if_pos hincluded, if_neg (fun h => h.2.1 hincluded)]
        · by_cases hport : t.excludeRandomBind = true ∧ sinPort = 0
          · rw [if_pos hudp, if_neg hincluded, if_pos hport, if_neg (fun h => h.2.2.1 hport)]
          · rw [if_pos hudp, if_neg hincluded, if_neg hport]
            by_cases hsock : c.data.family = AF_INET ∧ c.data.protocol = IPPROTO_UDP
            · rw [if_pos hsock, if_pos ⟨hudp, hincluded, hport, hsock⟩]
              rfl
            · rw [if_neg hsock, if_neg (fun h => hsock h.2.2.2)]
      · rw [if_neg hudp, if_neg (fun h => hudp h.1)]
  | inetListen c =>
      simp only [onEntry, kprobeInetListen, followed_inetListen]
      by_cases htcp : t.tcp = true
      · by_cases hincluded : t.containerLabels = true ∧ c.mntnsId ∉ c.included
        · rw [if_pos htcp, if_pos hincluded, if_neg (fun h => h.2.1 hincluded)]
        · rw [if_pos htcp, if_neg hincluded]
          by_cases hinet : c.data.family = AF_INET
          · rw [if_pos hinet, if_pos ⟨htcp, hincluded, hinet⟩]
            rfl
          · rw [if_neg hinet, if_neg (fun h => hinet h.2.2)]
      · rw [if_neg htcp, if_neg (fun h => htcp h.1)]

/-- The return of a followed entry is probed. -/
theorem onReturn_of_followed (h : entry.Followed t) (hfits : Fits entry r) :
    onReturn e t pid r st = netListenEvent e t pid r st := by
  unfold onReturn
  rw [← hfits]
  cases entry with
  | inetBind c sinPort => exact if_pos h.logged.1
  | inetListen c => exact if_pos h.logged

/-- A thread that left nothing at its entry does nothing at its return. -/
theorem onReturn_of_untracked (hget : st.currsock.get? pid = none) :
    onReturn e t pid r st = st := by
  have hevent : netListenEvent e t pid r st = st := by
    simp [netListenEvent, hget]
  unfold onReturn
  rw [hevent]
  cases r.func with
  | inetBind => exact ite_self st
  | inetListen => exact ite_self st

/-- Every exit of the return handler takes the thread's socket out. -/
theorem get?_netListenEvent (pid' : ThreadId) :
    (netListenEvent e t pid r st).currsock.get? pid' =
      if pid = pid' then none else st.currsock.get? pid' := by
  unfold netListenEvent
  cases hget : st.currsock.get? pid with
  | none =>
      by_cases hpid : pid = pid'
      · subst hpid
        simp [hget]
      · simp [hpid]
  | some sk =>
      have herase : (st.currsock.erase pid).get? pid' =
          if pid = pid' then none else st.currsock.get? pid' := Dict.get?_erase _ _ _
      simp only
      split
      · exact herase
      · split
        · exact herase
        · split
          · exact herase
          · exact herase

/-- The return of a followed call submits its event if it is to be reported, and nothing otherwise. -/
theorem events_netListenEvent (hfollowed : entry.Followed t)
    (hget : st.currsock.get? pid = some entry.data.sock) :
    (netListenEvent e t pid r st).events = st.events ++ reports e t [⟨pid, entry, r⟩] := by
  have hreports : ∀ {P : Prop} [Decidable P], (Reported e t ⟨pid, entry, r⟩ ↔ P) →
      reports e t [⟨pid, entry, r⟩] = if P then [eventOf t ⟨pid, entry, r⟩] else [] := by
    intro P _ hP
    by_cases h : P <;> simp [reports, hP, h]
  unfold netListenEvent
  simp only [hget]
  by_cases hret : r.ret = 0
  · rw [if_neg (not_not.2 hret)]
    by_cases hfiltered : isAddrPortFiltered e r.maps.netFilter (r.memory entry.data.sock).rcvSaddr
        (r.memory entry.data.sock).num ||
          isPortGloballyFiltered r.maps.portFilter (r.memory entry.data.sock).num
    · rw [if_pos hfiltered, hreports (P := False)]
      · simp [KernelState.delete]
      · refine iff_of_false (fun h => ?_) id
        rw [Bool.or_eq_true] at hfiltered
        rcases hfiltered with haddr | hport
        · exact absurd (h.addr.symm.trans haddr) (by decide)
        · exact absurd (h.port.symm.trans hport) (by decide)
    · rw [if_neg hfiltered]
      rw [Bool.or_eq_true, not_or, Bool.not_eq_true, Bool.not_eq_true] at hfiltered
      by_cases hnet : t.netFiltered (r.memory entry.data.sock).netns = true
      · rw [if_pos hnet, hreports (P := False)]
        · simp [KernelState.delete]
        · exact iff_of_false (fun h => absurd (h.namespaces.symm.trans hnet) (by decide)) id
      · rw [if_neg hnet, hreports (P := True)]
        · rw [if_pos trivial]
          rfl
        · refine iff_of_true ⟨hfollowed, hret, hfiltered.1, hfiltered.2, ?_⟩ trivial
          exact Bool.not_eq_true _ ▸ hnet
  · rw [if_pos hret, hreports (P := False)]
    · simp [KernelState.delete]
    · exact iff_of_false (fun h => hret h.succeeded) id

end Handlers

/-! ## Runs -/

section Run

variable {e : Endian} {t : Template}

/-- Between the handlers: the hash holds the sockets of the followed calls that are open, and the events
are those of the calls that returned. -/
structure Inv (e : Endian) (t : Template) (o : Calls.Open ThreadId Entry) (done : List Call)
    (st : KernelState) : Prop where
  tracks : ∀ pid, st.currsock.get? pid =
    (o pid).bind fun entry => if entry.Followed t then some entry.data.sock else none
  events : st.events = reports e t done

theorem inv_init : Inv e t Calls.idle [] KernelState.init := ⟨fun _ => rfl, rfl⟩

theorem Inv.enter {o : Calls.Open ThreadId Entry} {done : List Call} {st : KernelState}
    {pid : ThreadId} {entry : Entry} (h : Inv e t o done st) (hopen : o pid = none) :
    Inv e t (Function.update o pid (some entry)) done (onEntry t pid entry st) := by
  rw [onEntry_eq]
  have hothers : ∀ pid', pid ≠ pid' → Function.update o pid (some entry) pid' = o pid' :=
    fun pid' hne => Function.update_of_ne (Ne.symm hne) _ _
  by_cases hfollowed : entry.Followed t
  · rw [if_pos hfollowed]
    refine ⟨?_, h.events⟩
    intro pid'
    by_cases hpid : pid = pid'
    · subst hpid
      simp [KernelState.update, hfollowed]
    · rw [hothers pid' hpid, ← h.tracks pid']
      exact Dict.get?_set_of_ne _ hpid _
  · rw [if_neg hfollowed]
    refine ⟨?_, h.events⟩
    intro pid'
    by_cases hpid : pid = pid'
    · subst hpid
      rw [h.tracks pid, hopen, Function.update_self]
      simp [hfollowed]
    · rw [hothers pid' hpid, h.tracks pid']

theorem reports_append (done calls : List Call) :
    reports e t (done ++ calls) = reports e t done ++ reports e t calls := by
  simp [reports]

theorem Inv.ret {o : Calls.Open ThreadId Entry} {done : List Call} {st : KernelState}
    {pid : ThreadId} {entry : Entry} {r : Return} (h : Inv e t o done st) (hopen : o pid = some entry)
    (hfits : Fits entry r) :
    Inv e t (Function.update o pid none) (done ++ [⟨pid, entry, r⟩]) (onReturn e t pid r st) := by
  have hown := h.tracks pid
  rw [hopen, Option.bind_some] at hown
  by_cases hfollowed : entry.Followed t
  · rw [if_pos hfollowed] at hown
    rw [onReturn_of_followed hfollowed hfits]
    refine ⟨?_, ?_⟩
    · intro pid'
      rw [get?_netListenEvent]
      by_cases hpid : pid = pid'
      · subst hpid
        simp
      · rw [if_neg hpid, h.tracks pid', Function.update_of_ne (Ne.symm hpid)]
    · rw [events_netListenEvent hfollowed hown, reports_append, h.events]
  · rw [if_neg hfollowed] at hown
    rw [onReturn_of_untracked hown]
    refine ⟨?_, ?_⟩
    · intro pid'
      by_cases hpid : pid = pid'
      · subst hpid
        simp [hown]
      · rw [h.tracks pid', Function.update_of_ne (Ne.symm hpid)]
    · have hnone : reports e t [⟨pid, entry, r⟩] = [] := by
        have hnot : ¬ Reported e t ⟨pid, entry, r⟩ := fun hreported => hfollowed hreported.followed
        simp [reports, hnot]
      rw [reports_append, hnone, List.append_nil, h.events]

theorem inv_run {steps : List Step} (hwell : Calls.WellFormed Fits Calls.idle steps) :
    Inv e t (Calls.openAfter Calls.idle steps) (Calls.completed Calls.idle steps) (run e t steps) := by
  have hinv := Calls.run_inv (I := Inv e t) (fun _ _ _ _ _ h hopen => h.enter hopen)
    (fun _ _ _ _ _ _ h hopen hfits => h.ret hopen hfits) inv_init hwell
  rw [List.nil_append] at hinv
  exact hinv

end Run

/-- For every configuration and every interleaving of the entries and returns: one event for each call that
is to be reported, with the thread that entered it and the data of its own socket, and no other; and after
every return the hash has no entry for the thread. -/
theorem listen_events_exact (e : Endian) (t : Template) {steps : List Step}
    (hwell : Calls.WellFormed Fits Calls.idle steps) :
    (run e t steps).events =
        ((Calls.completed Calls.idle steps).filter fun call => Reported e t call).map (eventOf t) ∧
      ∀ before pid r after, steps = before ++ .ret pid r :: after →
        (run e t (before ++ [.ret pid r])).currsock.get? pid = none := by
  refine ⟨(inv_run hwell).events, ?_⟩
  rintro before pid r after rfl
  have hcons : before ++ Calls.Step.ret pid r :: after = (before ++ [.ret pid r]) ++ after := by simp
  rw [hcons] at hwell
  have hinv := inv_run (e := e) (t := t) hwell.of_append
  rw [hinv.tracks pid, Calls.openAfter_ret]
  rfl

/-! ### A bind and a listen that overlap -/

namespace Example

def template : Template := ⟨true, true, false, true, none⟩

def dnsSocket : SockData := ⟨AF_INET, IPPROTO_UDP, 0, 53, 1⟩

def webSocket : SockData := ⟨AF_INET, 6, 0, 80, 1⟩

def memory : SockPointer → SockData := fun sock => if sock = 1 then dnsSocket else webSocket

/-- Thread 7 binds and thread 8 listens; the listen returns first. -/
def overlap : List Step :=
  [.enter 7 (.inetBind ⟨1, dnsSocket, 0, []⟩ 13568), .enter 8 (.inetListen ⟨2, webSocket, 0, []⟩),
    .ret 8 ⟨.inetListen, 0, memory, .empty, 0⟩, .ret 7 ⟨.inetBind, 0, memory, .empty, 0⟩]

end Example

theorem overlapping_calls_reported :
    (run .little Example.template Example.overlap).events =
        ((Calls.completed Calls.idle Example.overlap).filter fun call =>
          Reported .little Example.template call).map (eventOf Example.template) ∧
      ∀ before pid r after, Example.overlap = before ++ .ret pid r :: after →
        (run .little Example.template (before ++ [.ret pid r])).currsock.get? pid = none := by
  refine listen_events_exact .little Example.template ?_
  exact ⟨rfl, rfl, ⟨_, rfl, rfl⟩, ⟨_, rfl, rfl⟩, trivial⟩

example : (run .little Example.template Example.overlap).events =
    [⟨8, 0, 80, 6, none⟩, ⟨7, 0, 53, 17, none⟩] := by decide +kernel

end NetListen

end PidtreeBcc
