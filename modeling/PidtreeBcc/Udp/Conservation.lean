import PidtreeBcc.Support.Run
import PidtreeBcc.Udp.Expiration
import PidtreeBcc.Udp.Kernel

/-!
# Conservation — counting the datagrams of the two trackers

The kernel announces events into a queue, userland handles them in order, and expiration passes end
sessions on the userland side only.  For every socket and destination the datagrams that were sent are
compared with those counted in returned records, in open sessions and in the queue.

The kernel never learns that a session expired: a CONTINUE that reaches userland after that finds no
session and is dropped.  These deliveries are exactly the ones that break the balance.
-/

namespace PidtreeBcc

open Support

namespace Udp

/-! ## Counting -/

/-- Messages to `dest` that a session has counted. -/
def SessionData.msgCount (dest : Dest) (data : SessionData) : Nat :=
  ((data.destinations.get? dest).map Prod.snd).getD 0

/-- Messages to `dest` that a record reports. -/
def SessionRecord.msgCount (dest : Dest) (record : SessionRecord) : Nat :=
  ((record.destinations.filter fun info =>
    info.daddr = intToIp dest.daddr ∧ info.port = dest.dport).map DestinationInfo.msgCount).sum

/-- Messages of socket `s` to `dest` in the records. -/
def recorded (s : SockPointer) (dest : Dest) (records : List (SockPointer × SessionRecord)) : Nat :=
  (records.map fun p => if p.1 = s then p.2.msgCount dest else 0).sum

/-- Messages of socket `s` to `dest` in the table. -/
def tracked (s : SockPointer) (dest : Dest) (tracking : SessionTracking) : Nat :=
  ((tracking.get? s).map (SessionData.msgCount dest)).getD 0

/-- Messages of socket `s` to `dest` among events. -/
def announced (s : SockPointer) (dest : Dest) (events : List SessionEvent) : Nat :=
  events.countP fun event => event.destOf s = some dest

@[simp] theorem recorded_nil (s : SockPointer) (dest : Dest) : recorded s dest [] = 0 := rfl

theorem recorded_append (s : SockPointer) (dest : Dest)
    (records records' : List (SockPointer × SessionRecord)) :
    recorded s dest (records ++ records') = recorded s dest records + recorded s dest records' := by
  simp [recorded]

theorem announced_append (s : SockPointer) (dest : Dest) (events events' : List SessionEvent) :
    announced s dest (events ++ events') = announced s dest events + announced s dest events' :=
  List.countP_append

theorem announced_cons (s : SockPointer) (dest : Dest) (event : SessionEvent)
    (events : List SessionEvent) :
    announced s dest (event :: events) = announced s dest [event] + announced s dest events :=
  announced_append s dest [event] events

theorem announced_singleton (s : SockPointer) (dest : Dest) (event : SessionEvent) :
    announced s dest [event] = if event.destOf s = some dest then 1 else 0 := by
  simp [announced, List.countP_cons]

/-- A record reports what its session had counted. -/
theorem msgCount_toRecord (data : SessionData) (now : Int) (dest : Dest) :
    (data.toRecord now).msgCount dest = data.msgCount dest := by
  have hkey : ∀ d : Dest, (intToIp d.daddr = intToIp dest.daddr ∧ d.dport = dest.dport) ↔
      d = dest := by
    intro d
    rw [intToIp_injective.eq_iff]
    cases d
    cases dest
    simp
  have hfilter := data.destinations.filter_entries_eq dest
  simp only [SessionRecord.msgCount, SessionData.toRecord, List.filter_map, Function.comp_def, hkey,
    hfilter, SessionData.msgCount]
  cases data.destinations.get? dest <;> simp

theorem msgCount_opened (r : Reading) (pid : BitVec 32) (dest dest' : Dest) :
    (SessionData.opened r pid dest).msgCount dest' = if dest = dest' then 1 else 0 := by
  by_cases h : dest = dest' <;>
    simp [SessionData.msgCount, SessionData.opened, Dict.get?_set, h]

theorem msgCount_continued (data : SessionData) (now : Int) (dest dest' : Dest) :
    (data.continued now dest).msgCount dest' =
      data.msgCount dest' + if dest = dest' then 1 else 0 := by
  by_cases h : dest = dest'
  · subst h
    simp [SessionData.msgCount, SessionData.continued, Tally.get?_add_self]
  · simp [SessionData.msgCount, SessionData.continued, Tally.get?_add_of_ne _ h, h]

/-! ## The balance of one event -/

/-- An event whose handler loses nothing: a START of a socket without session, a CONTINUE of a socket
with one, or an END. -/
def Fits (tracking : SessionTracking) : SessionEvent → Prop
  | .sessionStart sock _ _ => sock ∉ tracking.keys
  | .sessionContinue sock _ => sock ∈ tracking.keys
  | .sessionEnd _ _ => True

/-- An event that fits moves its message into the table, and an END moves the messages of its session
into a record. -/
theorem balance_of_fits {r : Reading} (event : SessionEvent) (tracking : SessionTracking)
    (h : Fits tracking event) (s : SockPointer) (dest : Dest) :
    recorded s dest
        (recordsOf event.sockPointer (enrichEventImpl none r event tracking).1) +
      tracked s dest (enrichEventImpl none r event tracking).2 =
        tracked s dest tracking + announced s dest [event] := by
  unfold tracked
  rw [get?_enrichEventImpl]
  by_cases hs : event.sockPointer = s
  · subst hs
    rw [if_pos rfl]
    cases event with
    | sessionStart sock pid dest' =>
        have hget : tracking.get? sock = none := Dict.get?_eq_none_iff.2 h
        simp [enrichEventImpl, recordsOf, SessionEvent.sockPointer, SessionEvent.next, hget,
          msgCount_opened, announced, SessionEvent.destOf, List.countP_cons]
    | sessionContinue sock dest' =>
        rcases Dict.mem_keys_iff.1 h with ⟨data, hget⟩
        simp [enrichEventImpl, recordsOf, SessionEvent.sockPointer, SessionEvent.next, hget,
          msgCount_continued, announced, SessionEvent.destOf, List.countP_cons]
    | sessionEnd sock mntnsId =>
        rw [enrichEventImpl_end]
        cases hget : tracking.get? sock with
        | none =>
            simp [recordsOf, SessionEvent.sockPointer, SessionEvent.next, hget, announced,
              SessionEvent.destOf]
        | some data =>
            simp [recordsOf, SessionEvent.sockPointer, SessionEvent.next, hget, announced,
              SessionEvent.destOf, recorded, msgCount_toRecord]
  · -- Nothing of socket `s` is involved.
    rw [if_neg hs]
    have hdest : event.destOf s = none := by
      cases event with
      | sessionStart sock pid dest' => exact if_neg hs
      | sessionContinue sock dest' => exact if_neg hs
      | sessionEnd sock mntnsId => rfl
    have hrecords : recorded s dest
        (recordsOf event.sockPointer (enrichEventImpl none r event tracking).1) = 0 := by
      unfold recordsOf
      split <;> simp [recorded, hs]
    simp [hrecords, announced, hdest]

/-- A pass moves the messages of the sessions it ends into its records. -/
theorem balance_endExpired (readings : SockPointer → Reading) (s : SockPointer) (dest : Dest) :
    ∀ (expired : List SockPointer) (tracking : SessionTracking),
      recorded s dest (endExpired none readings expired tracking).records +
        tracked s dest (endExpired none readings expired tracking).tracking =
          tracked s dest tracking
  | [], tracking => by simp [endExpired]
  | sock :: rest, tracking => by
      have ih := balance_endExpired readings s dest rest
        (enrichEventImpl none (readings sock) (.sessionEnd sock none) tracking).2
      have hend := balance_of_fits (r := readings sock) (.sessionEnd sock none) tracking
        trivial s dest
      have hnone : announced s dest [SessionEvent.sessionEnd sock none] = 0 := rfl
      rw [endExpired_cons]
      simp only [recorded_append, SessionEvent.sockPointer] at hend ⊢
      omega

theorem tracked_markExpired (now maxDuration : Int) (s : SockPointer) (dest : Dest)
    (tracking : SessionTracking) :
    tracked s dest (markExpired now maxDuration tracking).1 = tracked s dest tracking := by
  unfold tracked
  rw [get?_markExpired]
  cases tracking.get? s with
  | none => rfl
  | some data =>
      by_cases h : data.expired now maxDuration = true
      · simp [h, SessionData.msgCount]
      · simp [h]

theorem balance_expirationPass (maxDuration now : Int) (readings : SockPointer → Reading)
    (tracking : SessionTracking) (s : SockPointer) (dest : Dest) :
    recorded s dest (expirationPass none maxDuration now readings tracking).records +
      tracked s dest (expirationPass none maxDuration now readings tracking).tracking =
        tracked s dest tracking := by
  unfold expirationPass
  rw [balance_endExpired]
  exact tracked_markExpired now maxDuration s dest tracking

/-- A pass opens no session. -/
theorem mem_keys_of_mem_expirationPass {maxDuration now : Int} {readings : SockPointer → Reading}
    {tracking : SessionTracking} {s : SockPointer}
    (h : s ∈ (expirationPass none maxDuration now readings tracking).tracking.keys) :
    s ∈ tracking.keys := by
  have hend : ∀ (expired : List SockPointer) (tracking : SessionTracking),
      s ∈ (endExpired none readings expired tracking).tracking.keys → s ∈ tracking.keys := by
    intro expired
    induction expired with
    | nil => exact fun _ hmem => hmem
    | cons sock rest ih =>
        intro tracking hmem
        rw [endExpired_cons] at hmem
        rcases Dict.mem_keys_iff.1 (ih _ hmem) with ⟨data, hget⟩
        rw [get?_enrichEventImpl_end, Option.ite_none_left_eq_some] at hget
        exact Dict.mem_keys_iff.2 ⟨data, hget.2⟩
  have hmark := hend _ _ h
  simpa [markExpired] using hmark

/-! ## The two trackers together -/

structure TrackerState where
  tracing : Tracing
  /-- Events that the kernel submitted and userland has not handled, oldest first. -/
  inFlight : List SessionEvent
  sessions : SessionTracking
  /-- What `enrich_event` has returned, with the sockets. -/
  records : List (SockPointer × SessionRecord)
  /-- The unfiltered datagrams sent so far. -/
  sent : List (SockPointer × Dest)

inductive TrackerAction
  | send (maps : FilterMaps) (c : UdpSendmsg)
  | release (c : InetRelease)
  | deliver (r : Reading)
  | expire (maxDuration now : Int) (readings : SockPointer → Reading)

namespace TrackerState

def init : TrackerState := ⟨Dict.empty, [], Dict.empty, [], []⟩

/-- One step, without container labels.  A delivery needs an event in flight, and a datagram that is
announced needs room in the hash: the runs are those in which `tracing` is never full. -/
def step (e : Endian) (st : TrackerState) : TrackerAction → Option TrackerState
  | .send maps c =>
      let r := kprobeUdpSendmsg e maps none c st.tracing
      if c.unfiltered e maps none = true → Tracing.HasRoom st.tracing c.sock then
        some { st with
          tracing := r.2
          inFlight := st.inFlight ++ r.1.toList
          sent := if c.unfiltered e maps none then st.sent ++ [(c.sock, c.dest e)] else st.sent }
      else none
  | .release c =>
      let r := kprobeInetRelease none c st.tracing
      some { st with
        tracing := r.2
        inFlight := st.inFlight ++ r.1.toList }
  | .deliver r =>
      match st.inFlight with
      | [] => none
      | event :: rest =>
          let handled := enrichEventImpl none r event st.sessions
          some { st with
            inFlight := rest
            sessions := handled.2
            records := st.records ++ recordsOf event.sockPointer handled.1 }
  | .expire maxDuration now readings =>
      let pass := expirationPass none maxDuration now readings st.sessions
      some { st with
        sessions := pass.tracking
        records := st.records ++ pass.records }

theorem step_send {e : Endian} {st st' : TrackerState} {maps : FilterMaps} {c : UdpSendmsg}
    (h : st.step e (.send maps c) = some st') :
    (c.unfiltered e maps none = true → Tracing.HasRoom st.tracing c.sock) ∧
      st' = { st with
        tracing := (kprobeUdpSendmsg e maps none c st.tracing).2
        inFlight := st.inFlight ++ (kprobeUdpSendmsg e maps none c st.tracing).1.toList
        sent := if c.unfiltered e maps none then st.sent ++ [(c.sock, c.dest e)] else st.sent } := by
  rcases Option.ite_none_right_eq_some.1 h with ⟨hroom, hEq⟩
  exact ⟨hroom, (Option.some.inj hEq).symm⟩

/-- A delivery takes the oldest event off the queue and hands it to userland. -/
theorem step_deliver {e : Endian} {st st' : TrackerState} {r : Reading}
    (h : st.step e (.deliver r) = some st') :
    ∃ event rest, st.inFlight = event :: rest ∧
      st' = { st with
        inFlight := rest
        sessions := (enrichEventImpl none r event st.sessions).2
        records := st.records ++
          recordsOf event.sockPointer (enrichEventImpl none r event st.sessions).1 } := by
  cases hqueue : st.inFlight with
  | nil => simp [step, hqueue] at h
  | cons event rest =>
      simp only [step, hqueue, Option.some.injEq] at h
      exact ⟨event, rest, rfl, h.symm⟩

/-- Every unfiltered datagram is counted once: in a returned record, in an open session, or by an
event in flight. -/
def Conserved (st : TrackerState) : Prop :=
  ∀ s dest, st.sent.count (s, dest) =
    recorded s dest st.records + tracked s dest st.sessions + announced s dest st.inFlight

/-- A CONTINUE that is about to be handled finds its session. -/
def ContinueTracked (st : TrackerState) (action : TrackerAction) : Prop :=
  match action, st.inFlight with
  | .deliver _, .sessionContinue sock _ :: _ => sock ∈ st.sessions.keys
  | _, _ => True

/-- The queue takes every socket from a phase to the one the kernel has it in, and only a socket that
is open at the front of the queue has a session. -/
def Phased (st : TrackerState) : Prop :=
  ∀ s, ∃ opened, phaseAfter s opened st.inFlight = some (decide (s ∈ st.tracing.keys)) ∧
    (s ∈ st.sessions.keys → opened = true)

theorem Phased.head {st : TrackerState} {event : SessionEvent} {rest : List SessionEvent}
    (h : st.Phased) (hqueue : st.inFlight = event :: rest) :
    (∀ sock pid dest, event = .sessionStart sock pid dest → sock ∉ st.sessions.keys) ∧
      ∀ r, Phased { st with
        inFlight := rest
        sessions := (enrichEventImpl none r event st.sessions).2 } := by
  constructor
  · rintro sock pid dest rfl hmem
    rcases h sock with ⟨opened, hphase, hopened⟩
    rw [hqueue, phaseAfter_cons, hopened hmem] at hphase
    simp [nextPhase, SessionEvent.sockPointer] at hphase
  · intro r s
    rcases h s with ⟨opened, hphase, hopened⟩
    rw [hqueue, phaseAfter_cons] at hphase
    rcases Option.bind_eq_some_iff.1 hphase with ⟨opened', hnext, hphase'⟩
    refine ⟨opened', hphase', ?_⟩
    intro hmem
    rcases Dict.mem_keys_iff.1 hmem with ⟨data, hget⟩
    rw [get?_enrichEventImpl] at hget
    unfold nextPhase at hnext
    by_cases hs : event.sockPointer = s
    · rw [if_pos hs] at hget hnext
      cases event with
      | sessionStart sock pid dest => cases opened <;> simp_all
      | sessionContinue sock dest => cases opened <;> simp_all
      | sessionEnd sock mntnsId => simp [SessionEvent.next] at hget
    · rw [if_neg hs] at hget hnext
      have hEq : opened = opened' := by simpa using hnext
      exact hEq ▸ hopened (Dict.mem_keys_iff.2 ⟨data, hget⟩)

/-- What every step preserves. -/
theorem Phased.step {e : Endian} {st st' : TrackerState} {action : TrackerAction} (h : st.Phased)
    (hstep : st.step e action = some st') : st'.Phased := by
  cases action with
  | send maps c =>
      rcases step_send hstep with ⟨hroom, rfl⟩
      intro s
      rcases h s with ⟨opened, hphase, hopened⟩
      exact ⟨opened, phaseAfter_sendmsg hphase hroom, hopened⟩
  | release c =>
      cases hstep
      intro s
      rcases h s with ⟨opened, hphase, hopened⟩
      exact ⟨opened, phaseAfter_release hphase, hopened⟩
  | deliver r =>
      rcases step_deliver hstep with ⟨event, rest, hqueue, rfl⟩
      exact (h.head hqueue).2 r
  | expire maxDuration now readings =>
      cases hstep
      intro s
      rcases h s with ⟨opened, hphase, hopened⟩
      exact ⟨opened, hphase, fun hmem => hopened (mem_keys_of_mem_expirationPass hmem)⟩

/-! ### What keeps the balance -/

/-- The message of an unfiltered datagram goes into the queue. -/
theorem announced_sendmsg {e : Endian} {maps : FilterMaps} {c : UdpSendmsg}
    (h : c.unfiltered e maps none = true) (tracing : Tracing) (s : SockPointer) (dest : Dest) :
    announced s dest (kprobeUdpSendmsg e maps none c tracing).1.toList =
      [(c.sock, c.dest e)].count (s, dest) := by
  rw [kprobeUdpSendmsg_of_unfiltered h, List.count_singleton]
  -- A START and a CONTINUE announce the same message.
  split <;> by_cases hs : c.sock = s <;> simp [hs, announced_singleton, SessionEvent.destOf]

theorem Conserved.send {e : Endian} {st st' : TrackerState} {maps : FilterMaps} {c : UdpSendmsg}
    (h : st.Conserved) (hstep : st.step e (.send maps c) = some st') : st'.Conserved := by
  rcases step_send hstep with ⟨_, rfl⟩
  intro s dest
  have hold := h s dest
  simp only [announced_append]
  cases hf : c.unfiltered e maps none with
  | false => simp [kprobeUdpSendmsg_of_filtered hf, hold, announced]
  | true =>
      simp only [if_true, List.count_append, announced_sendmsg hf, hold]
      omega

/-- A release announces no message. -/
theorem Conserved.release {e : Endian} {st st' : TrackerState} {c : InetRelease}
    (h : st.Conserved) (hstep : st.step e (.release c) = some st') : st'.Conserved := by
  cases hstep
  intro s dest
  have hannounced : announced s dest (kprobeInetRelease none c st.tracing).1.toList = 0 := by
    rw [kprobeInetRelease_eq]
    split <;> simp [announced, SessionEvent.destOf]
  simp only [announced_append, hannounced]
  exact h s dest

theorem Conserved.deliver {e : Endian} {st st' : TrackerState} {r : Reading} (h : st.Conserved)
    (hphased : st.Phased) (hcont : st.ContinueTracked (.deliver r))
    (hstep : st.step e (.deliver r) = some st') : st'.Conserved := by
  rcases step_deliver hstep with ⟨event, rest, hqueue, rfl⟩
  have hfits : Fits st.sessions event := by
    cases event with
    | sessionStart sock pid dest => exact (hphased.head hqueue).1 sock pid dest rfl
    | sessionContinue sock dest =>
        unfold ContinueTracked at hcont
        rw [hqueue] at hcont
        exact hcont
    | sessionEnd sock mntnsId => trivial
  intro s dest
  have hold := h s dest
  have hbalance := balance_of_fits (r := r) _ _ hfits s dest
  rw [hqueue, announced_cons] at hold
  simp only [recorded_append]
  omega

theorem Conserved.expire {e : Endian} {st st' : TrackerState} {maxDuration now : Int}
    {readings : SockPointer → Reading} (h : st.Conserved)
    (hstep : st.step e (.expire maxDuration now readings) = some st') : st'.Conserved := by
  cases hstep
  intro s dest
  have hold := h s dest
  have hbalance := balance_expirationPass maxDuration now readings st.sessions s dest
  simp only [recorded_append]
  omega

/-- A step keeps the balance unless it delivers a CONTINUE that finds no session. -/
theorem Conserved.step {e : Endian} {st st' : TrackerState} {action : TrackerAction}
    (h : st.Conserved) (hphased : st.Phased) (hcont : st.ContinueTracked action)
    (hstep : st.step e action = some st') : st'.Conserved := by
  cases action with
  | send maps c => exact h.send hstep
  | release c => exact h.release hstep
  | deliver r => exact h.deliver hphased hcont hstep
  | expire maxDuration now readings => exact h.expire hstep

/-- A CONTINUE that finds no session is lost. -/
theorem not_conserved_of_untracked {e : Endian} {st st' : TrackerState} {action : TrackerAction}
    (h : st.Conserved) (hcont : ¬ st.ContinueTracked action)
    (hstep : st.step e action = some st') : ¬ st'.Conserved := by
  unfold ContinueTracked at hcont
  split at hcont
  · rename_i r sock dest rest hqueue
    have hget : st.sessions.get? sock = none := Dict.get?_eq_none_iff.2 hcont
    simp only [TrackerState.step, hqueue, enrichEventImpl, hget, recordsOf, List.append_nil,
      Option.some.injEq] at hstep
    subst hstep
    intro hbalance
    have hold := h sock dest
    have hnew := hbalance sock dest
    rw [hqueue, announced_cons] at hold
    have hone : announced sock dest [SessionEvent.sessionContinue sock dest] = 1 := by
      simp [announced, SessionEvent.destOf]
    simp only at hnew
    omega
  · exact absurd trivial hcont

theorem conserved_init : init.Conserved := by
  intro s dest
  rfl

theorem phased_init : init.Phased := by
  intro s
  exact ⟨false, rfl, by simp [init]⟩

/-- In a run in which `tracing` is never full, every unfiltered datagram stays counted exactly once if and
only if every CONTINUE that is delivered finds its session. -/
theorem conserved_iff_continues_tracked (e : Endian) (actions : List TrackerAction) :
    (∀ st ∈ Run.visited (TrackerState.step e) init actions, st.Conserved) ↔
      Run.StepsMeet (TrackerState.step e) ContinueTracked init actions := by
  refine Run.visited_iff_stepsMeet (I := fun st => st.Conserved ∧ st.Phased) ?_ ?_ ?_
    ⟨conserved_init, phased_init⟩
  · exact fun st h => h.1
  · intro st action st' h hcont hstep
    exact ⟨h.1.step h.2 hcont hstep, h.2.step hstep⟩
  · intro st action st' h hcont hstep
    exact not_conserved_of_untracked h.1 hcont hstep

/-! ### A socket that sends again after its session expired -/

namespace Example

def datagram : UdpSendmsg := ⟨1, AF_INET, 168430090, 14597, 0, 0, 123, 0⟩

/-- A datagram at time 0, a pass at time 121 with the default duration, and a second datagram. -/
def expiredSocket : List TrackerAction :=
  [.send .empty datagram, .deliver (Udp.Example.clock 0),
    .expire 120 121 fun _ => Udp.Example.clock 121,
    .send .empty datagram, .deliver (Udp.Example.clock 130)]

end Example

/-- The second datagram is counted nowhere, though nothing is in flight. -/
theorem second_datagram_lost :
    ∃ st ∈ Run.visited (TrackerState.step .little) init Example.expiredSocket,
      st.inFlight = [] ∧ ¬ st.Conserved := by
  refine ⟨(Run.visited (TrackerState.step .little) init Example.expiredSocket).get
    ⟨4, by decide +kernel⟩, List.get_mem _ _, by decide +kernel, ?_⟩
  intro h
  have hbalance := h 1 (Example.datagram.dest .little)
  revert hbalance
  decide +kernel

end TrackerState

end Udp

end PidtreeBcc
