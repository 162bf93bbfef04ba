import Mathlib.Data.Fintype.Card
import PidtreeBcc.Support.Run
import PidtreeBcc.Udp.Kernel

/-!
# ConcurrentSends — threads that send on one socket at the same time

`kprobe__udp_sendmsg` looks the socket up in `tracing`, submits the event and updates `tracing` in
separate steps.  The executions of several threads interleave these steps; userland handles the events
in the order of their submission.

A second execution that finds the socket untraced submits a second START, and userland starts the
session anew.  An update that finds the hash full leaves the socket untraced, so that its release goes
unnoticed.  The counts are complete just when neither happens.
-/

namespace PidtreeBcc

open Support

namespace Udp

/-! ## Steps -/

/-- Where an execution of `kprobe__udp_sendmsg` stands; `found` is what its lookup said. -/
inductive SendPhase
  | entered
  | dropped
  | lookedUp (found : Bool)
  | submitted (found : Bool)
  | returned (found : Bool)
  deriving DecidableEq, Repr

namespace SendPhase

/-- The execution found the socket untraced. -/
def missed : SendPhase → Bool
  | lookedUp found => !found
  | submitted found => !found
  | returned found => !found
  | _ => false

/-- The execution found the socket untraced and has not traced it yet. -/
def missing : SendPhase → Bool
  | lookedUp found => !found
  | submitted found => !found
  | _ => false

/-- What the lookup said, once the event is submitted. -/
def announced : SendPhase → Option Bool
  | submitted found => some found
  | returned found => some found
  | _ => none

def finished : SendPhase → Bool
  | returned _ => true
  | dropped => true
  | _ => false

theorem missed_of_missing {phase : SendPhase} (h : phase.missing = true) : phase.missed = true := by
  cases phase <;> simp_all [missing, missed]

theorem missed_of_announced {phase : SendPhase} {found : Bool} (h : phase.announced = some found) :
    phase.missed = !found := by
  cases phase <;> simp_all [announced, missed]

theorem eq_returned_of_missed {phase : SendPhase} (hdone : phase.finished = true)
    (h : phase.missed = true) : phase = .returned false := by
  cases phase <;> simp_all [finished, missed]

theorem eq_returned_of_announced {phase : SendPhase} {found : Bool} (hdone : phase.finished = true)
    (h : phase.announced = some found) : phase = .returned found := by
  cases phase <;> simp_all [finished, announced]

theorem eq_dropped_of_announced {phase : SendPhase} (hdone : phase.finished = true)
    (h : phase.announced = none) : phase = .dropped := by
  cases phase <;> simp_all [finished, announced]

end SendPhase

/-- The event of a send whose lookup said `found`. -/
def UdpSendmsg.event (e : Endian) (c : UdpSendmsg) (found : Bool) : SessionEvent :=
  if found then .sessionContinue c.sock (c.dest e) else .sessionStart c.sock c.pid (c.dest e)

structure SendState (ι : Type*) where
  phase : ι → SendPhase
  tracing : Tracing
  /-- The events in the order of their submission, each with the execution that submitted it. -/
  submitted : List (ι × SessionEvent)

namespace SendState

variable {ι : Type*} [DecidableEq ι]

/-- All executions are about to begin. -/
def init (tracing : Tracing) : SendState ι := ⟨fun _ => .entered, tracing, []⟩

/-- Execution `i` goes on to `phase`. -/
def goto (st : SendState ι) (i : ι) (phase : SendPhase) : SendState ι :=
  { st with phase := Function.update st.phase i phase }

@[simp] theorem goto_phase_self (st : SendState ι) (i : ι) (phase : SendPhase) :
    (st.goto i phase).phase i = phase := by
  simp [goto]

theorem goto_phase_of_ne (st : SendState ι) {i j : ι} (h : j ≠ i) (phase : SendPhase) :
    (st.goto i phase).phase j = st.phase j := by
  simp [goto, h]

/-- What a step leaves as it is about its own execution, it leaves as it is about all. -/
theorem goto_congr {β : Sort*} (f : SendPhase → β) {st : SendState ι} {i : ι} {phase : SendPhase}
    (h : f phase = f (st.phase i)) (j : ι) : f ((st.goto i phase).phase j) = f (st.phase j) := by
  by_cases hj : j = i
  · subst hj
    rw [goto_phase_self, h]
  · rw [goto_phase_of_ne st hj]

theorem forall_goto {Q : ι → SendPhase → Prop} {st : SendState ι} {i : ι} {phase : SendPhase}
    (hself : Q i phase) (hold : ∀ j, Q j (st.phase j)) (j : ι) : Q j ((st.goto i phase).phase j) := by
  by_cases hj : j = i
  · subst hj
    rwa [goto_phase_self]
  · rw [goto_phase_of_ne st hj]
    exact hold j

@[simp] theorem goto_tracing (st : SendState ι) (i : ι) (phase : SendPhase) :
    (st.goto i phase).tracing = st.tracing := rfl

@[simp] theorem goto_submitted (st : SendState ι) (i : ι) (phase : SendPhase) :
    (st.goto i phase).submitted = st.submitted := rfl

section Steps

variable (e : Endian) (maps : FilterMaps) (mntnsFilter : Option (List Nat)) (calls : ι → UdpSendmsg)

/-- Execution `i` takes its next step. -/
def step (st : SendState ι) (i : ι) : Option (SendState ι) :=
  match st.phase i with
  | .entered =>
      -- The checks before the lookup touch nothing that the executions share.
      if (calls i).unfiltered e maps mntnsFilter then
        some (st.goto i (.lookedUp (st.tracing.get? (calls i).sock).isSome))
      else some (st.goto i .dropped)
  | .lookedUp found =>
      some { st.goto i (.submitted found) with
        submitted := st.submitted ++ [(i, (calls i).event e found)] }
  | .submitted found =>
      some { st.goto i (.returned found) with
        tracing := if found then st.tracing
          else Tracing.update st.tracing (calls i).sock SESSION_START }
  | .returned _ => none
  | .dropped => none

/-- No execution looks the socket up while another one has found it untraced and not traced it yet. -/
def Unraced (st : SendState ι) (i : ι) : Prop :=
  st.phase i = .entered → (calls i).unfiltered e maps mntnsFilter = true →
    ∀ j, (st.phase j).missing = false

instance [Fintype ι] (st : SendState ι) (i : ι) :
    Decidable (st.Unraced e maps mntnsFilter calls i) :=
  inferInstanceAs (Decidable (st.phase i = .entered → (calls i).unfiltered e maps mntnsFilter = true →
    ∀ j, (st.phase j).missing = false))

/-- The update of an execution that missed the socket has room. -/
def UpdateFits (st : SendState ι) (i : ι) : Prop :=
  st.phase i = .submitted false → Tracing.HasRoom st.tracing (calls i).sock

instance (st : SendState ι) (i : ι) : Decidable (st.UpdateFits calls i) :=
  inferInstanceAs (Decidable (_ → _))

/-- The step loses no send. -/
def Safe (st : SendState ι) (i : ι) : Prop :=
  st.Unraced e maps mntnsFilter calls i ∧ st.UpdateFits calls i

instance [Fintype ι] (st : SendState ι) (i : ι) : Decidable (st.Safe e maps mntnsFilter calls i) :=
  inferInstanceAs (Decidable (_ ∧ _))

/-- An execution that runs alone does what `kprobe__udp_sendmsg` does. -/
theorem run_alone (st : SendState ι) (i : ι) (h : st.phase i = .entered) :
    ∃ n st', (List.replicate n i).foldlM (step e maps mntnsFilter calls) st = some st' ∧
      (st'.phase i).finished = true ∧
      st'.submitted = st.submitted ++
        ((kprobeUdpSendmsg e maps mntnsFilter (calls i) st.tracing).1.map fun ev => (i, ev)).toList ∧
      st'.tracing = (kprobeUdpSendmsg e maps mntnsFilter (calls i) st.tracing).2 := by
  cases hf : (calls i).unfiltered e maps mntnsFilter with
  | false =>
      refine ⟨1, st.goto i .dropped, by simp [step, h, hf], ?_⟩
      simp [kprobeUdpSendmsg_of_filtered hf, SendPhase.finished]
  | true =>
      simp only [kprobeUdpSendmsg_of_unfiltered hf]
      refine ⟨3, _, by simp [List.replicate, step, h, hf]; rfl, ?_⟩
      cases hget : st.tracing.get? (calls i).sock with
      | none =>
          have hnot : (calls i).sock ∉ st.tracing.keys := Dict.get?_eq_none_iff.1 hget
          simp [hnot, SendPhase.finished, UdpSendmsg.event]
      | some flag =>
          have hmem : (calls i).sock ∈ st.tracing.keys := Dict.mem_keys_iff.2 ⟨flag, hget⟩
          simp [hmem, SendPhase.finished, UdpSendmsg.event]

end Steps

/-! ## The invariant -/

section Invariant

variable {e : Endian} {maps : FilterMaps} {mntnsFilter : Option (List Nat)} {calls : ι → UdpSendmsg}

/-- What one step can do. -/
theorem step_cases {st st' : SendState ι} {i : ι}
    (h : step e maps mntnsFilter calls st i = some st') :
    (st.phase i = .entered ∧ (calls i).unfiltered e maps mntnsFilter = false ∧
        st' = st.goto i .dropped) ∨
      (st.phase i = .entered ∧ (calls i).unfiltered e maps mntnsFilter = true ∧
        st' = st.goto i (.lookedUp (st.tracing.get? (calls i).sock).isSome)) ∨
      (∃ found, st.phase i = .lookedUp found ∧
        st' = { st.goto i (.submitted found) with
          submitted := st.submitted ++ [(i, (calls i).event e found)] }) ∨
      ∃ found, st.phase i = .submitted found ∧
        st' = { st.goto i (.returned found) with
          tracing := if found then st.tracing
            else Tracing.update st.tracing (calls i).sock SESSION_START } := by
  unfold step at h
  cases hphase : st.phase i with
  | entered =>
      rw [hphase] at h
      cases hf : (calls i).unfiltered e maps mntnsFilter with
      | false =>
          left
          exact ⟨rfl, rfl, by simpa [hf] using h.symm⟩
      | true =>
          right; left
          exact ⟨rfl, rfl, by simpa [hf] using h.symm⟩
  | dropped => simp [hphase] at h
  | lookedUp found =>
      right; right; left
      exact ⟨found, rfl, by simpa [hphase] using h.symm⟩
  | submitted found =>
      right; right; right
      exact ⟨found, rfl, by simpa [hphase] using h.symm⟩
  | returned found => simp [hphase] at h

variable (e maps mntnsFilter calls) in
/-- The socket is traced only when an execution that missed it has returned.  The events are those of the
executions past their submission, one each, and the first of them is a START. -/
structure Inv (s : SockPointer) (st : SendState ι) : Prop where
  traced : s ∈ st.tracing.keys → ∃ i, st.phase i = .returned false
  nodup : (st.submitted.map Prod.fst).Nodup
  events : ∀ i event, (i, event) ∈ st.submitted ↔
    ∃ found, (st.phase i).announced = some found ∧ event = (calls i).event e found
  opened : ∀ p ∈ st.submitted.head?, (st.phase p.1).announced = some false
  found : ∀ i, st.phase i = .lookedUp true → st.submitted ≠ []
  dropped : ∀ i, st.phase i = .dropped → (calls i).unfiltered e maps mntnsFilter = false
  passed : ∀ i, st.phase i ≠ .entered → st.phase i ≠ .dropped →
    (calls i).unfiltered e maps mntnsFilter = true

omit [DecidableEq ι] in
theorem inv_init {s : SockPointer} {tracing : Tracing} (hs : s ∉ tracing.keys) :
    (init tracing : SendState ι).Inv e maps mntnsFilter calls s where
  traced := by simp [init, hs]
  nodup := by simp [init]
  events := by simp [init, SendPhase.announced]
  opened := by simp [init]
  found := by simp [init]
  dropped := by simp [init]
  passed := by simp [init]

omit [DecidableEq ι] in
theorem Inv.mem_fst {s : SockPointer} {st : SendState ι} (hinv : st.Inv e maps mntnsFilter calls s)
    {i : ι} : i ∈ st.submitted.map Prod.fst ↔ ((st.phase i).announced).isSome := by
  rw [List.mem_map, Option.isSome_iff_exists]
  constructor
  · rintro ⟨⟨j, event⟩, hmem, rfl⟩
    rcases (hinv.events j event).1 hmem with ⟨found, hfound, _⟩
    exact ⟨found, hfound⟩
  · rintro ⟨found, hfound⟩
    exact ⟨(i, (calls i).event e found), (hinv.events i _).2 ⟨found, hfound, rfl⟩, rfl⟩

/-- The checks and the lookup keep the invariant: what is shared stays as it is. -/
theorem Inv.leave_entered {s : SockPointer} {st : SendState ι}
    (hinv : st.Inv e maps mntnsFilter calls s) {i : ι} {phase : SendPhase}
    (hphase : st.phase i = .entered) (hnone : phase.announced = none)
    (hdropped : phase = .dropped ↔ (calls i).unfiltered e maps mntnsFilter = false)
    (hfound : phase = .lookedUp true → st.submitted ≠ []) :
    (st.goto i phase).Inv e maps mntnsFilter calls s := by
  have hannounced : ∀ j, ((st.goto i phase).phase j).announced = (st.phase j).announced :=
    goto_congr SendPhase.announced (by rw [hnone, hphase]; rfl)
  have hreturned : ∀ j, ((st.goto i phase).phase j = .returned false) =
      (st.phase j = .returned false) := by
    -- The execution has not returned, neither before nor after.
    refine goto_congr (fun phase => phase = .returned false) (propext (iff_of_false ?_ ?_))
    · rintro rfl
      simp [SendPhase.announced] at hnone
    · simp [hphase]
  refine ⟨?_, hinv.nodup, ?_, ?_, ?_, ?_, ?_⟩
  · intro htraced
    rcases hinv.traced htraced with ⟨j, hj⟩
    exact ⟨j, (hreturned j).mpr hj⟩
  · intro j event
    rw [goto_submitted, hannounced]
    exact hinv.events j event
  · intro p hp
    rw [hannounced]
    exact hinv.opened p hp
  · exact forall_goto (Q := fun _ phase => phase = .lookedUp true → st.submitted ≠ []) hfound hinv.found
  · exact forall_goto (Q := fun j phase => phase = .dropped →
      (calls j).unfiltered e maps mntnsFilter = false) hdropped.1 hinv.dropped
  · refine forall_goto (Q := fun j phase => phase ≠ .entered → phase ≠ .dropped →
      (calls j).unfiltered e maps mntnsFilter = true) ?_ hinv.passed
    intro _ hne
    simpa using mt hdropped.2 hne

/-- An execution that has passed the filters goes on: the verdicts on the calls stay as they are. -/
theorem Inv.verdicts_goto {s : SockPointer} {st : SendState ι}
    (hinv : st.Inv e maps mntnsFilter calls s) (i : ι) (phase : SendPhase) (hne : phase ≠ .dropped)
    (hentered : st.phase i ≠ .entered) (hdropped : st.phase i ≠ .dropped) :
    (∀ j, (st.goto i phase).phase j = .dropped → (calls j).unfiltered e maps mntnsFilter = false) ∧
      ∀ j, (st.goto i phase).phase j ≠ .entered → (st.goto i phase).phase j ≠ .dropped →
        (calls j).unfiltered e maps mntnsFilter = true := by
  constructor
  · exact forall_goto (Q := fun j phase => phase = .dropped →
      (calls j).unfiltered e maps mntnsFilter = false) (fun hEq => absurd hEq hne) hinv.dropped
  · exact forall_goto (Q := fun j phase => phase ≠ .entered → phase ≠ .dropped →
      (calls j).unfiltered e maps mntnsFilter = true)
      (fun _ _ => hinv.passed i hentered hdropped) hinv.passed

/-- Submitting the event keeps the invariant. -/
theorem Inv.submit {s : SockPointer} {st : SendState ι}
    (hinv : st.Inv e maps mntnsFilter calls s) {i : ι} {found : Bool}
    (hphase : st.phase i = .lookedUp found) :
    Inv e maps mntnsFilter calls s { st.goto i (.submitted found) with
      submitted := st.submitted ++ [(i, (calls i).event e found)] } := by
  have hnot : i ∉ st.submitted.map Prod.fst := by
    rw [hinv.mem_fst, hphase]
    simp [SendPhase.announced]
  have hverdicts := hinv.verdicts_goto i (.submitted found) (by simp) (by simp [hphase])
    (by simp [hphase])
  refine ⟨?_, ?_, ?_, ?_, ?_, ?_, ?_⟩
  · have hreturned := goto_congr (fun phase => phase = .returned false)
      (show ((SendPhase.submitted found) = .returned false) = (st.phase i = .returned false) by
        simp [hphase])
    intro htraced
    rcases hinv.traced htraced with ⟨j, hj⟩
    exact ⟨j, (hreturned j).mpr hj⟩
  · rw [List.map_append, List.map_singleton]
    exact hinv.nodup.append (by simp) (by simpa using hnot)
  · intro j event
    by_cases hj : j = i
    · -- Its own event is the one that has just been submitted.
      subst hj
      have hold : ∀ event, (j, event) ∉ st.submitted := by
        intro event hmem
        exact hnot (List.mem_map_of_mem hmem)
      simp [hold, SendPhase.announced]
    · simp [goto_phase_of_ne _ hj, hj, hinv.events]
  · intro p hp
    cases hsub : st.submitted with
    | nil =>
        -- The first event is a START: with an empty buffer the lookup cannot have found the socket.
        have hp' : p = (i, (calls i).event e found) := by simpa [hsub, eq_comm] using hp
        cases found with
        | true => exact absurd hsub (hinv.found i hphase)
        | false => simp [hp', SendPhase.announced]
    | cons q rest =>
        have hp' : p = q := by simpa [hsub, eq_comm] using hp
        have hq : (st.phase q.1).announced = some false := hinv.opened q (by simp [hsub])
        have hne : q.1 ≠ i := by
          intro hEq
          simp [hEq, hphase, SendPhase.announced] at hq
        simp [hp', goto_phase_of_ne _ hne, hq]
  · intro j _
    simp
  · exact hverdicts.1
  · exact hverdicts.2

/-- Tracing the socket keeps the invariant. -/
theorem Inv.trace {s : SockPointer} {st : SendState ι}
    (hinv : st.Inv e maps mntnsFilter calls s) {i : ι} {found : Bool}
    (hphase : st.phase i = .submitted found) :
    Inv e maps mntnsFilter calls s { st.goto i (.returned found) with
      tracing := if found then st.tracing
        else Tracing.update st.tracing (calls i).sock SESSION_START } := by
  have hannounced : ∀ j, ((st.goto i (.returned found)).phase j).announced =
      (st.phase j).announced :=
    goto_congr SendPhase.announced (by rw [hphase]; rfl)
  have hverdicts := hinv.verdicts_goto i (.returned found) (by simp) (by simp [hphase])
    (by simp [hphase])
  refine ⟨?_, hinv.nodup, ?_, ?_, ?_, ?_, ?_⟩
  · cases found with
    | true =>
        have hreturned := goto_congr (fun phase => phase = .returned false)
          (show ((SendPhase.returned true) = .returned false) = (st.phase i = .returned false) by
            simp [hphase])
        intro htraced
        rcases hinv.traced htraced with ⟨j, hj⟩
        exact ⟨j, (hreturned j).mpr hj⟩
    | false => exact fun _ => ⟨i, goto_phase_self st i _⟩
  · intro j event
    rw [hannounced]
    exact hinv.events j event
  · intro p hp
    rw [hannounced]
    exact hinv.opened p hp
  · exact forall_goto (Q := fun _ phase => phase = .lookedUp true → st.submitted ≠ []) (by simp)
      hinv.found
  · exact hverdicts.1
  · exact hverdicts.2

/-- A step keeps the invariant. -/
theorem Inv.step {s : SockPointer} (hsock : ∀ i, (calls i).sock = s) {st st' : SendState ι} {i : ι}
    (hinv : st.Inv e maps mntnsFilter calls s)
    (h : SendState.step e maps mntnsFilter calls st i = some st') :
    st'.Inv e maps mntnsFilter calls s := by
  rcases step_cases h with ⟨hphase, hf, rfl⟩ | ⟨hphase, hf, rfl⟩ | ⟨found, hphase, rfl⟩ |
    ⟨found, hphase, rfl⟩
  · exact hinv.leave_entered hphase rfl (by simp [hf]) (by simp)
  · refine hinv.leave_entered hphase rfl (by simp [hf]) ?_
    intro hfound hnil
    -- The socket was found, so an execution has returned, and it had submitted its event.
    have htraced : s ∈ st.tracing.keys := by
      rw [← hsock i, Dict.mem_keys_iff]
      exact Option.isSome_iff_exists.1 (by simpa using hfound)
    rcases hinv.traced htraced with ⟨j, hj⟩
    have hmem : j ∈ st.submitted.map Prod.fst := by
      rw [hinv.mem_fst, hj]
      rfl
    simp [hnil] at hmem
  · exact hinv.submit hphase
  · exact hinv.trace hphase

/-! ## One START -/

/-- At most one execution found the socket untraced. -/
def MissedOnce (st : SendState ι) : Prop :=
  ∀ i j, (st.phase i).missed = true → (st.phase j).missed = true → i = j

/-- An execution that missed the socket has missed it for good. -/
theorem missed_of_step {st st' : SendState ι} {i j : ι}
    (h : SendState.step e maps mntnsFilter calls st i = some st')
    (hmissed : (st.phase j).missed = true) : (st'.phase j).missed = true := by
  by_cases hj : j = i
  · subst hj
    rcases step_cases h with ⟨hphase, _, rfl⟩ | ⟨hphase, _, rfl⟩ | ⟨found, hphase, rfl⟩ |
      ⟨found, hphase, rfl⟩
    · simp [hphase, SendPhase.missed] at hmissed
    · simp [hphase, SendPhase.missed] at hmissed
    · simpa [hphase, SendPhase.missed] using hmissed
    · simpa [hphase, SendPhase.missed] using hmissed
  · rcases step_cases h with ⟨_, _, rfl⟩ | ⟨_, _, rfl⟩ | ⟨found, _, rfl⟩ | ⟨found, _, rfl⟩ <;>
      simpa [goto_phase_of_ne _ hj] using hmissed

/-- Only a lookup makes an execution miss the socket. -/
theorem missed_of_step_missed {st st' : SendState ι} {i j : ι}
    (h : SendState.step e maps mntnsFilter calls st i = some st')
    (hmissed : (st'.phase j).missed = true) :
    (st.phase j).missed = true ∨
      (j = i ∧ st.phase i = .entered ∧ (calls i).unfiltered e maps mntnsFilter = true ∧
        st.tracing.get? (calls i).sock = none) := by
  by_cases hj : j = i
  · subst hj
    rcases step_cases h with ⟨hphase, hf, rfl⟩ | ⟨hphase, hf, rfl⟩ | ⟨found, hphase, rfl⟩ |
      ⟨found, hphase, rfl⟩
    · simp [SendPhase.missed] at hmissed
    · right
      exact ⟨rfl, hphase, hf, by simpa [SendPhase.missed] using hmissed⟩
    · left
      simpa [hphase, SendPhase.missed] using hmissed
    · left
      simpa [hphase, SendPhase.missed] using hmissed
  · left
    rcases step_cases h with ⟨_, _, rfl⟩ | ⟨_, _, rfl⟩ | ⟨found, _, rfl⟩ | ⟨found, _, rfl⟩ <;>
      simpa [goto_phase_of_ne _ hj] using hmissed

omit [DecidableEq ι] in
/-- An execution that missed the socket is about to trace it, or has done so. -/
theorem missing_or_returned {st : SendState ι} {i : ι} (h : (st.phase i).missed = true) :
    (st.phase i).missing = true ∨ st.phase i = .returned false := by
  cases hphase : st.phase i <;> simp_all [SendPhase.missed, SendPhase.missing]

/-- At most one execution found the socket untraced, and one that did and returned has traced it. -/
structure Settled (s : SockPointer) (st : SendState ι) : Prop where
  once : st.MissedOnce
  traced : ∀ i, st.phase i = .returned false → s ∈ st.tracing.keys

/-- A step takes no socket out of the hash. -/
theorem mem_tracing_of_step {s : SockPointer} {st st' : SendState ι} {i : ι}
    (h : SendState.step e maps mntnsFilter calls st i = some st') (hs : s ∈ st.tracing.keys) :
    s ∈ st'.tracing.keys := by
  rcases step_cases h with ⟨_, _, rfl⟩ | ⟨_, _, rfl⟩ | ⟨found, _, rfl⟩ | ⟨found, _, rfl⟩
  · exact hs
  · exact hs
  · exact hs
  · cases found with
    | true => exact hs
    | false => exact Tracing.mem_keys_update_of_mem hs _

/-- Only the update makes an execution one that missed the socket and returned. -/
theorem returned_of_step {st st' : SendState ι} {i j : ι}
    (h : SendState.step e maps mntnsFilter calls st i = some st') (hj : st'.phase j = .returned false) :
    st.phase j = .returned false ∨ (j = i ∧ st.phase i = .submitted false ∧
      st'.tracing = Tracing.update st.tracing (calls i).sock SESSION_START) := by
  by_cases hji : j = i
  · subst hji
    rcases step_cases h with ⟨_, _, rfl⟩ | ⟨_, _, rfl⟩ | ⟨found, _, rfl⟩ | ⟨found, hphase, rfl⟩
    · simp at hj
    · simp at hj
    · simp at hj
    · have hfound : found = false := by simpa using hj
      subst hfound
      exact Or.inr ⟨rfl, hphase, rfl⟩
  · left
    rcases step_cases h with ⟨_, _, rfl⟩ | ⟨_, _, rfl⟩ | ⟨found, _, rfl⟩ | ⟨found, _, rfl⟩ <;>
      simpa [goto_phase_of_ne _ hji] using hj

/-- A safe step keeps the execution that missed the socket unique. -/
theorem missedOnce_step {s : SockPointer} (hsock : ∀ i, (calls i).sock = s) {st st' : SendState ι}
    {i : ι} (hsettled : st.Settled s) (hunraced : st.Unraced e maps mntnsFilter calls i)
    (h : SendState.step e maps mntnsFilter calls st i = some st') : st'.MissedOnce := by
  -- When the stepping execution misses the socket, no other one had missed it.
  have hfirst : st.phase i = .entered → (calls i).unfiltered e maps mntnsFilter = true →
      st.tracing.get? (calls i).sock = none → ∀ j, ¬ (st.phase j).missed = true := by
    intro hphase hf hget j hj
    rcases missing_or_returned hj with hmissing | hreturned
    · rw [hunraced hphase hf j] at hmissing
      cases hmissing
    · rw [hsock i] at hget
      exact Dict.get?_eq_none_iff.1 hget (hsettled.traced j hreturned)
  intro j k hj hk
  rcases missed_of_step_missed h hj with hj | ⟨rfl, hphase, hf, hget⟩
  · rcases missed_of_step_missed h hk with hk | ⟨rfl, hphase, hf, hget⟩
    · exact hsettled.once j k hj hk
    · exact absurd hj (hfirst hphase hf hget j)
  · rcases missed_of_step_missed h hk with hk | ⟨rfl, _⟩
    · exact absurd hk (hfirst hphase hf hget k)
    · rfl

theorem Settled.step {s : SockPointer} (hsock : ∀ i, (calls i).sock = s) {st st' : SendState ι} {i : ι}
    (hsettled : st.Settled s) (hsafe : st.Safe e maps mntnsFilter calls i)
    (h : SendState.step e maps mntnsFilter calls st i = some st') : st'.Settled s := by
  refine ⟨missedOnce_step hsock hsettled hsafe.1 h, ?_⟩
  intro j hj
  rcases returned_of_step h hj with hreturned | ⟨rfl, hphase, htracing⟩
  · exact mem_tracing_of_step h (hsettled.traced j hreturned)
  · rw [htracing, Tracing.update_of_hasRoom (hsafe.2 hphase), hsock]
    exact Dict.mem_keys_set.2 (Or.inl rfl)

/-- A raced lookup misses the socket a second time. -/
theorem not_missedOnce_step {s : SockPointer} (hsock : ∀ i, (calls i).sock = s)
    {st st' : SendState ι} {i : ι} (hinv : st.Inv e maps mntnsFilter calls s)
    (honce : st.MissedOnce) (hraced : ¬ st.Unraced e maps mntnsFilter calls i)
    (h : SendState.step e maps mntnsFilter calls st i = some st') : ¬ st'.MissedOnce := by
  simp only [Unraced, not_forall, Bool.not_eq_false] at hraced
  rcases hraced with ⟨hphase, hf, j, hj⟩
  have hne : j ≠ i := by
    rintro rfl
    simp [hphase, SendPhase.missing] at hj
  have hmissed : (st.phase j).missed = true := SendPhase.missed_of_missing hj
  have hget : st.tracing.get? (calls i).sock = none := by
    rw [hsock i, Dict.get?_eq_none_iff]
    intro htraced
    -- The one that traced the socket would have missed it too.
    rcases hinv.traced htraced with ⟨k, hk⟩
    have hEq : k = j := honce k j (by simp [hk, SendPhase.missed]) hmissed
    simp [← hEq, hk, SendPhase.missing] at hj
  have hst' : st' = st.goto i (.lookedUp false) := by
    simpa [SendState.step, hphase, hf, hget] using h.symm
  intro honce'
  refine hne (honce' j i ?_ ?_)
  · simpa [hst', goto_phase_of_ne _ hne] using hmissed
  · simp [hst', SendPhase.missed]

/-- An update without room leaves the socket untraced. -/
theorem not_settled_step {s : SockPointer} (hsock : ∀ i, (calls i).sock = s) {st st' : SendState ι}
    {i : ι} (hfull : ¬ st.UpdateFits calls i)
    (h : SendState.step e maps mntnsFilter calls st i = some st') : ¬ st'.Settled s := by
  simp only [UpdateFits, not_forall] at hfull
  rcases hfull with ⟨hphase, hroom⟩
  have hst' : st' = { st.goto i (.returned false) with tracing := st.tracing } := by
    simpa [SendState.step, hphase, Tracing.update_of_not_hasRoom hroom] using h.symm
  intro hsettled
  have htraced : s ∈ st'.tracing.keys := hsettled.traced i (by simp [hst'])
  rw [hst'] at htraced
  exact hroom (Or.inl (hsock i ▸ htraced))

/-- When all executions are done, the run is settled just when all its steps were safe. -/
theorem settled_iff_stepsMeet {s : SockPointer} (hsock : ∀ i, (calls i).sock = s)
    {tracing : Tracing} (hs : s ∉ tracing.keys) {sched : List ι} {st : SendState ι}
    (hrun : sched.foldlM (SendState.step e maps mntnsFilter calls) (init tracing) = some st) :
    st.Settled s ↔ Run.StepsMeet (SendState.step e maps mntnsFilter calls)
      (Safe e maps mntnsFilter calls) (init tracing) sched := by
  have hinit : (init tracing : SendState ι).Settled s := by
    constructor
    · intro i j hi
      simp [init, SendPhase.missed] at hi
    · intro i hi
      simp [init] at hi
  have hback : ∀ st i st', SendState.step e maps mntnsFilter calls st i = some st' →
      st'.Settled s → st.Settled s := by
    intro st i st' h hsettled
    have honce : st.MissedOnce := by
      intro j k hj hk
      exact hsettled.once j k (missed_of_step h hj) (missed_of_step h hk)
    refine ⟨honce, ?_⟩
    intro j hj
    -- Another execution that traces the socket now would have missed it as well.
    have hmissed : ∀ k, st.phase k = .submitted false → k = j := by
      intro k hk
      exact honce k j (by simp [hk, SendPhase.missed]) (by simp [hj, SendPhase.missed])
    have hj' : st'.phase j = .returned false := by
      have hne : j ≠ i := by
        rintro rfl
        simp [SendState.step, hj] at h
      rcases step_cases h with ⟨_, _, rfl⟩ | ⟨_, _, rfl⟩ | ⟨found, _, rfl⟩ | ⟨found, _, rfl⟩ <;>
        simpa [goto_phase_of_ne _ hne] using hj
    have htraced := hsettled.traced j hj'
    rcases step_cases h with ⟨_, _, rfl⟩ | ⟨_, _, rfl⟩ | ⟨found, _, rfl⟩ | ⟨found, hphase, rfl⟩
    · exact htraced
    · exact htraced
    · exact htraced
    · cases found with
      | true => exact htraced
      | false =>
          rw [hmissed i hphase, hj] at hphase
          cases hphase
  rw [← Run.forall_visited_iff_of_foldlM hback hinit hrun]
  refine Run.visited_iff_stepsMeet
    (I := fun st : SendState ι => st.Inv e maps mntnsFilter calls s ∧ st.Settled s)
    (fun st h => h.2) ?_ ?_ ⟨inv_init hs, hinit⟩
  · intro st i st' hst hsafe h
    exact ⟨hst.1.step hsock h, hst.2.step hsock hsafe h⟩
  · intro st i st' hst hunsafe h
    rcases not_and_or.1 hunsafe with hraced | hfull
    · exact fun hsettled => not_missedOnce_step hsock hst.1 hst.2.once hraced h hsettled.once
    · exact not_settled_step hsock hfull h

end Invariant

end SendState

/-! ## The record at the END -/

/-- All messages that a record reports. -/
def SessionRecord.total (record : SessionRecord) : Nat :=
  (record.destinations.map DestinationInfo.msgCount).sum

theorem sum_msgCount_destinationInfos (now : Int) (msgs : List (Dest × Int)) :
    ((destinationInfos now msgs).map DestinationInfo.msgCount).sum = msgs.length := by
  have hcounts : (destinationInfos now msgs).map DestinationInfo.msgCount =
      (msgs.map Prod.fst).eraseDups.map fun dest => (msgs.map Prod.fst).count dest := by
    simp [destinationInfos, Function.comp_def]
  rw [hcounts, Tally.sum_count_eraseDups, List.length_map]

/-- While a socket is open, every event of it carries a message. -/
theorem length_messages {s : SockPointer} {since : List Handled}
    (hcont : ∀ h ∈ since, h.event.sockPointer = s → ∃ dest, h.event = .sessionContinue s dest) :
    (messages s since).length =
      ((since.map Handled.event).filter fun event => event.sockPointer = s).length := by
  induction since with
  | nil => rfl
  | cons h since ih =>
      have hrest := ih fun x hx => hcont x (List.mem_cons_of_mem h hx)
      by_cases hs : h.event.sockPointer = s
      · rcases hcont h (by simp) hs with ⟨dest, hevent⟩
        simpa [messages, hevent, SessionEvent.destOf, SessionEvent.sockPointer] using hrest
      · have hdest : h.event.destOf s = none := by
          cases hevent : h.event <;> simp_all [SessionEvent.destOf, SessionEvent.sockPointer]
        simpa [messages, hdest, hs] using hrest

/-- When the events of `s` end in a START and CONTINUEs, the END of `s` returns a record of the messages
from that START on. -/
theorem total_at_end {names : Option (Dict Nat String)} {s : SockPointer} {mntnsId : Option Nat}
    (hnames : names = none ∨ mntnsId ≠ none) (r : Reading) (before : List Handled)
    {hist : List Handled}
    {events conts : List SessionEvent} {pid : BitVec 32} {dest : Dest}
    (hevents : (hist.map Handled.event).filter (fun event => event.sockPointer = s) =
      events ++ .sessionStart s pid dest :: conts)
    (hconts : ∀ event ∈ conts, ∃ dest', event = .sessionContinue s dest') :
    ∃ record, (enrichEventImpl names r (.sessionEnd s mntnsId)
        (trackingAfter names (before ++ hist))).1 = .ok (some record) ∧
      record.total = conts.length + 1 := by
  rcases List.filter_eq_append_iff.1 hevents with ⟨front, back, hsplit, _, hback⟩
  rcases List.filter_eq_cons_iff.1 hback with ⟨skipped, rest, hskip, _, _, hrest⟩
  rcases List.map_eq_append_iff.1 hsplit with ⟨front', back', rfl, _, hback'⟩
  rw [hskip] at hback'
  rcases List.map_eq_append_iff.1 hback' with ⟨skipped', tail, rfl, _, htail⟩
  rcases List.map_eq_cons_iff.1 htail with ⟨start, since, rfl, hstart, hsince⟩
  have hcont : ∀ h ∈ since, h.event.sockPointer = s → ∃ dest', h.event = .sessionContinue s dest' := by
    intro h hmem hs
    apply hconts
    rw [← hrest, ← hsince]
    exact List.mem_filter.2 ⟨List.mem_map_of_mem hmem, by simpa using hs⟩
  have hopen : Opened s (before ++ (front' ++ (skipped' ++ start :: since))) start.reading pid dest
      since := by
    refine ⟨⟨before ++ front' ++ skipped', ?_⟩, hcont⟩
    rw [← hstart]
    simp
  have hget := (trackingAfter_spec names _ s).1 _ _ _ _ hopen
  rcases enrichEventImpl_end_of_tracked (r := r) hget hnames with ⟨record, hrecord⟩
  refine ⟨record, hrecord, ?_⟩
  rcases enrichEventImpl_eq_record hrecord with ⟨s', mntnsId', data, hevent, hget', hnamed⟩
  cases hevent
  rw [hget] at hget'
  cases hget'
  rw [toRecord_entryOf] at hnamed
  have hdestinations := (enrichContainerName_eq_ok hnamed).2.2.2
  calc
    record.total =
        ((destinationInfos r.now ((dest, start.reading.now) :: messages s since)).map
          DestinationInfo.msgCount).sum := by rw [SessionRecord.total, hdestinations]
    _ = (messages s since).length + 1 := by rw [sum_msgCount_destinationInfos, List.length_cons]
    _ = conts.length + 1 := by rw [length_messages hcont, hsince, hrest]

/-! ## All sends are counted -/

/-- The last element of a list with a property. -/
theorem exists_last {α : Type*} {q : α → Prop} :
    ∀ {l : List α}, (∃ x ∈ l, q x) → ∃ front x back, l = front ++ x :: back ∧ q x ∧ ∀ y ∈ back, ¬ q y
  | [], h => by simp at h
  | a :: rest, h => by
      by_cases hrest : ∃ x ∈ rest, q x
      · rcases exists_last hrest with ⟨front, x, back, rfl, hx, hback⟩
        exact ⟨a :: front, x, back, rfl, hx, hback⟩
      · have ha : q a := by
          rcases h with ⟨x, hx, hqx⟩
          rcases List.mem_cons.1 hx with rfl | hx
          · exact hqx
          · exact absurd ⟨x, hx, hqx⟩ hrest
        exact ⟨[], a, rest, rfl, ha, fun y hy hqy => hrest ⟨y, hy, hqy⟩⟩

namespace SendState

variable {ι : Type*} {e : Endian} {maps : FilterMaps} {mntnsFilter : Option (List Nat)}
  {calls : ι → UdpSendmsg} {s : SockPointer} {st : SendState ι}

/-- The last START comes first just when no other execution missed the socket. -/
theorem Inv.last_start_first_iff (hinv : st.Inv e maps mntnsFilter calls s)
    (hdone : ∀ i, (st.phase i).finished = true)
    {front back : List (ι × SessionEvent)} {p : ι × SessionEvent}
    (hsplit : st.submitted = front ++ p :: back) (hp : (st.phase p.1).announced = some false)
    (hback : ∀ q ∈ back, (st.phase q.1).announced ≠ some false) : front = [] ↔ st.MissedOnce := by
  constructor
  · rintro rfl i j hi hj
    -- A START is not among the CONTINUEs, so both executions submitted the only one.
    have hstart : ∀ k, (st.phase k).missed = true → k = p.1 := by
      intro k hk
      have hreturned : st.phase k = .returned false := SendPhase.eq_returned_of_missed (hdone k) hk
      have hmem : (k, (calls k).event e false) ∈ st.submitted :=
        (hinv.events k _).2 ⟨false, by rw [hreturned]; rfl, rfl⟩
      rw [hsplit] at hmem
      rcases List.mem_cons.1 hmem with hEq | hmem
      · exact congrArg Prod.fst hEq
      · exact absurd (by rw [hreturned]; rfl) (hback _ hmem)
    rw [hstart i hi, hstart j hj]
  · intro honce
    by_contra hfront
    -- The first event is a START as well, of an execution of its own.
    rcases List.exists_cons_of_ne_nil hfront with ⟨q, front', rfl⟩
    have hopened : (st.phase q.1).announced = some false := hinv.opened q (by simp [hsplit])
    have hEq : q.1 = p.1 := by
      apply honce
      · rw [SendPhase.missed_of_announced hopened]
        rfl
      · rw [SendPhase.missed_of_announced hp]
        rfl
    have hnodup := hinv.nodup
    rw [hsplit] at hnodup
    simp [hEq] at hnodup

/-- The events of finished executions split at their last START. -/
theorem Inv.split_submitted (hsock : ∀ i, (calls i).sock = s)
    (hinv : st.Inv e maps mntnsFilter calls s) (hdone : ∀ i, (st.phase i).finished = true)
    (hne : st.submitted ≠ []) :
    ∃ front pid dest conts, st.submitted.map Prod.snd = front ++ .sessionStart s pid dest :: conts ∧
      (∀ event ∈ conts, ∃ dest', event = .sessionContinue s dest') ∧
      (front = [] ↔ st.MissedOnce) := by
  rcases List.exists_cons_of_ne_nil hne with ⟨first, others, hfirst⟩
  have hopened : (st.phase first.1).announced = some false := hinv.opened first (by simp [hfirst])
  rcases exists_last (l := st.submitted)
    (q := fun p => (st.phase p.1).announced = some false)
    ⟨first, by simp [hfirst], hopened⟩ with ⟨front, p, back, hsplit, hp, hback⟩
  have hevent : ∀ q ∈ st.submitted, ∃ found, (st.phase q.1).announced = some found ∧
      q.2 = (calls q.1).event e found := fun q hq => (hinv.events q.1 q.2).1 hq
  rcases hevent p (by simp [hsplit]) with ⟨found, hfound, hpevent⟩
  have hfalse : found = false := by simpa [hfound] using hp
  subst hfalse
  refine ⟨front.map Prod.snd, (calls p.1).pid, (calls p.1).dest e, back.map Prod.snd, ?_, ?_, ?_⟩
  · rw [hsplit, List.map_append, List.map_cons, hpevent]
    simp [UdpSendmsg.event, hsock]
  · intro event hmem
    rcases List.mem_map.1 hmem with ⟨q, hq, rfl⟩
    rcases hevent q (by simp [hsplit, hq]) with ⟨found, hfound, hqevent⟩
    cases found with
    | false => exact absurd hfound (hback q hq)
    | true => exact ⟨(calls q.1).dest e, by simp [hqevent, UdpSendmsg.event, hsock]⟩
  · rw [List.map_eq_nil_iff]
    exact hinv.last_start_first_iff hdone hsplit hp hback

/-- Without events, all finished executions were dropped. -/
theorem Inv.dropped_of_submitted_eq_nil (hinv : st.Inv e maps mntnsFilter calls s)
    (hdone : ∀ i, (st.phase i).finished = true)
    (h : st.submitted = []) (i : ι) : st.phase i = .dropped := by
  have hnot : ¬ ((st.phase i).announced).isSome := by
    rw [← hinv.mem_fst, h]
    simp
  exact SendPhase.eq_dropped_of_announced (hdone i) (by simpa using hnot)

/-- Without events nobody has traced the socket. -/
theorem Inv.not_traced_of_submitted_eq_nil (hinv : st.Inv e maps mntnsFilter calls s)
    (hdone : ∀ i, (st.phase i).finished = true) (h : st.submitted = []) : s ∉ st.tracing.keys := by
  intro htraced
  rcases hinv.traced htraced with ⟨i, hi⟩
  simp [hinv.dropped_of_submitted_eq_nil hdone h i] at hi

/-- The execution of the first event has missed the socket. -/
theorem Inv.exists_returned (hinv : st.Inv e maps mntnsFilter calls s)
    (hdone : ∀ i, (st.phase i).finished = true) (h : st.submitted ≠ []) :
    ∃ i, st.phase i = .returned false := by
  rcases List.exists_cons_of_ne_nil h with ⟨first, others, hfirst⟩
  have hopened := hinv.opened first (by simp [hfirst])
  exact ⟨first.1, SendPhase.eq_returned_of_announced (hdone first.1) hopened⟩

end SendState

section Release

variable {ι : Type*} [Fintype ι]

/-- The number of sends that no filter drops. -/
def unfilteredSends (e : Endian) (maps : FilterMaps) (mntnsFilter : Option (List Nat))
    (calls : ι → UdpSendmsg) : Nat :=
  (Finset.univ.filter fun i => (calls i).unfiltered e maps mntnsFilter = true).card

namespace SendState

variable [DecidableEq ι] {e : Endian} {maps : FilterMaps} {mntnsFilter : Option (List Nat)}
  {calls : ι → UdpSendmsg} {s : SockPointer} {st : SendState ι}

/-- When all executions are done, there is one event for each unfiltered send. -/
theorem Inv.length_submitted (hinv : st.Inv e maps mntnsFilter calls s)
    (hdone : ∀ i, (st.phase i).finished = true) :
    st.submitted.length = unfilteredSends e maps mntnsFilter calls := by
  have hmem : (st.submitted.map Prod.fst).toFinset =
      Finset.univ.filter fun i => (calls i).unfiltered e maps mntnsFilter = true := by
    ext i
    rw [List.mem_toFinset, hinv.mem_fst, Finset.mem_filter]
    have hi := hdone i
    cases hphase : st.phase i with
    | dropped => simp [hinv.dropped i hphase, SendPhase.announced]
    | returned found =>
        simp [hinv.passed i (by simp [hphase]) (by simp [hphase]), SendPhase.announced]
    | _ => simp [hphase, SendPhase.finished] at hi
  calc
    st.submitted.length = (st.submitted.map Prod.fst).length := by rw [List.length_map]
    _ = (st.submitted.map Prod.fst).toFinset.card := (List.toFinset_card_of_nodup hinv.nodup).symm
    _ = unfilteredSends e maps mntnsFilter calls := by rw [hmem, unfilteredSends]

variable (e mntnsFilter) in
/-- What is to come of the release, when the events `hist` were handled behind `before`: an END if there
were unfiltered sends, and a record of all of them for it. -/
def SendsCounted (names : Option (Dict Nat String)) (release : InetRelease) (sends : Nat) (r : Reading)
    (handled : List Handled) (st : SendState ι) : Prop :=
  ((kprobeInetRelease mntnsFilter release st.tracing).1.isSome = true ↔ 0 < sends) ∧
    ∀ event ∈ (kprobeInetRelease mntnsFilter release st.tracing).1,
      ∃ record, (enrichEventImpl names r event (trackingAfter names handled)).1 = .ok (some record) ∧
        record.total = sends

/-- For executions on one socket that was not traced, in any interleaving and with any content of the hash,
and a release after them: all unfiltered sends are counted just when no lookup was made while another
execution had found the socket untraced and not traced it yet, and no update found the hash full. -/
theorem sends_counted_iff (names : Option (Dict Nat String))
    (hlabels : names.isSome = mntnsFilter.isSome) (hsock : ∀ i, (calls i).sock = s)
    {release : InetRelease} (hrelease : release.sock = s) (hudp : release.protocol = IPPROTO_UDP)
    {tracing : Tracing} (hs : s ∉ tracing.keys) {sched : List ι}
    (hrun : sched.foldlM (SendState.step e maps mntnsFilter calls) (init tracing) = some st)
    (hdone : ∀ i, (st.phase i).finished = true) (r : Reading) (before : List Handled)
    {hist : List Handled}
    (hdelivered : (hist.map Handled.event).filter (fun event => event.sockPointer = s) =
      st.submitted.map Prod.snd) :
    st.SendsCounted mntnsFilter names release (unfilteredSends e maps mntnsFilter calls) r
        (before ++ hist) ↔
      Run.StepsMeet (SendState.step e maps mntnsFilter calls) (Safe e maps mntnsFilter calls)
        (init tracing) sched := by
  have hinv : st.Inv e maps mntnsFilter calls s :=
    Run.foldlM_inv (fun st i st' hst h => Inv.step hsock hst h) (inv_init hs) hrun
  have hlength := hinv.length_submitted hdone
  rw [← settled_iff_stepsMeet hsock hs hrun, ← hlength]
  unfold SendsCounted
  rw [kprobeInetRelease_eq]
  by_cases hne : st.submitted = []
  · -- Nothing was sent, so nobody traced the socket.
    have hdropped := hinv.dropped_of_submitted_eq_nil hdone hne
    have hsettled : st.Settled s := by
      constructor
      · intro i j hi
        simp [hdropped i, SendPhase.missed] at hi
      · intro i hi
        simp [hdropped i] at hi
    simp [hrelease, hinv.not_traced_of_submitted_eq_nil hdone hne, hne, hsettled]
  · rcases hinv.split_submitted hsock hdone hne with ⟨front, pid, dest, conts, hsplit, hconts, honce⟩
    rcases hinv.exists_returned hdone hne with ⟨i, hi⟩
    have hpos : 0 < st.submitted.length := List.length_pos_iff.2 hne
    by_cases htraced : s ∈ st.tracing.keys
    · have hnames : names = none ∨ (mntnsFilter.map fun _ => release.mntnsId) ≠ none := by
        cases names with
        | none => exact Or.inl rfl
        | some names => exact Or.inr (by cases mntnsFilter <;> simp at hlabels ⊢)
      rcases total_at_end hnames r before (hdelivered.trans hsplit) hconts with
        ⟨record, hrecord, htotal⟩
      have hcount : st.submitted.length = front.length + (conts.length + 1) := by
        rw [← List.length_map (f := Prod.snd), hsplit, List.length_append, List.length_cons]
      have hsettled : st.Settled s ↔ front = [] :=
        ⟨fun h => honce.2 h.once, fun h => ⟨honce.1 h, fun _ _ => htraced⟩⟩
      rw [if_pos ⟨hudp, hrelease ▸ htraced⟩, hsettled, ← List.length_eq_zero_iff]
      refine (and_iff_right (iff_of_true rfl hpos)).trans ?_
      simp only [Option.mem_def, Option.some.injEq, forall_eq', hrelease, hrecord, Except.ok.injEq,
        exists_eq_left', htotal, hcount]
      omega
    · -- No END is announced, though there were sends.
      have hsettled : ¬ st.Settled s := fun h => htraced (h.traced i hi)
      simp [hrelease, htraced, hpos, hsettled]

/-! ### Two sends, one after the other and at the same time -/

namespace Example

/-- Two threads send to one destination. -/
def twoSends : Bool → UdpSendmsg := fun thread =>
  ⟨1, AF_INET, 168430090, 14597, 0, 0, if thread then 124 else 123, 0⟩

def release : InetRelease := ⟨1, IPPROTO_UDP, 0⟩

/-- The first send returns before the second one begins. -/
def inTurn : List Bool := [false, false, false, true, true, true]

/-- Both sends look the socket up before either of them traces it. -/
def raced : List Bool := [false, true, false, false, true, true]

def delivered (st : SendState Bool) : List Handled :=
  st.submitted.map fun p => ⟨Udp.Example.clock 0, p.2⟩

end Example

/-- In turn, the record of the END reports both sends. -/
theorem sends_in_turn_counted :
    ∃ st, Example.inTurn.foldlM (SendState.step .little .empty none Example.twoSends)
        (init Dict.empty) = some st ∧
      st.SendsCounted none none Example.release (unfilteredSends .little .empty none Example.twoSends)
        (Udp.Example.clock 9) ([] ++ Example.delivered st) := by
  refine ⟨_, rfl, ?_⟩
  have hrun : Example.inTurn.foldlM (SendState.step .little .empty none Example.twoSends)
      (init Dict.empty) = some _ := rfl
  refine (sends_counted_iff none rfl (s := 1) (fun _ => rfl) rfl rfl (by simp) hrun (by decide)
    (Udp.Example.clock 9) [] rfl).2 ?_
  decide

/-- When both sends miss the socket, the second START discards the first one. -/
theorem raced_send_lost :
    ∃ st record, Example.raced.foldlM
        (SendState.step .little .empty none Example.twoSends) (init Dict.empty) = some st ∧
      (∀ i, (st.phase i).finished = true) ∧
      (kprobeInetRelease none Example.release st.tracing).1 = some (.sessionEnd 1 none) ∧
      (enrichEventImpl none (Udp.Example.clock 9) (.sessionEnd 1 none)
        (trackingAfter none (Example.delivered st))).1 = .ok (some record) ∧
      record.total = 1 ∧
      unfilteredSends .little .empty none Example.twoSends = 2 := by
  refine ⟨_, _, rfl, by decide, rfl, rfl, rfl, ?_⟩
  decide

end SendState

end Release

end Udp

end PidtreeBcc
