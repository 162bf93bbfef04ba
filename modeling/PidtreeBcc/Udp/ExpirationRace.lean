import PidtreeBcc.Support.Run
import PidtreeBcc.Udp.Expiration

/-!
# ExpirationRace — the worker beside the polling thread

The lock covers the marking loop and each handled event, but not the time between them.  The steps
below interleave accordingly: the polling thread handles events one at a time, the worker reads the
clock, marks, and then ends the marked sockets one at a time.

An event of a marked socket that slips in before its synthetic END makes the END hit a session that is
not idle, or a real END return a marked session.  Without such events every pass ends idle sessions.
-/

namespace PidtreeBcc

open Support

namespace Udp

/-- Where the worker stands in its loop. -/
inductive WorkerPhase
  | asleep
  | marking (now : Int)
  | ending (now : Int) (expired : List SockPointer)
  deriving DecidableEq, Repr

/-- The end of a session: its socket, the clock reading of the pass if the worker ended it, the times of
the START and CONTINUE events of the socket up to then, and what the handler returned. -/
structure Ending where
  sock : SockPointer
  pass : Option Int
  activity : List Int
  result : Except PyErr (Option SessionRecord)
  deriving DecidableEq

structure RaceState where
  sessions : SessionTracking
  worker : WorkerPhase
  /-- The latest clock reading of either thread. -/
  clock : Int
  /-- Sockets and times of the START and CONTINUE events handled so far. -/
  activity : List (SockPointer × Int)
  endings : List Ending
  deriving DecidableEq

inductive RaceAction
  | handle (r : Reading) (event : SessionEvent)
  | readClock (now : Int)
  | mark
  | endNext (r : Reading)
  | sleep

/-- START and CONTINUE events are activity of their socket. -/
def SessionEvent.activity (now : Int) : SessionEvent → List (SockPointer × Int)
  | sessionStart sock _ _ => [(sock, now)]
  | sessionContinue sock _ => [(sock, now)]
  | sessionEnd _ _ => []

def SessionEvent.isEnd : SessionEvent → Bool
  | sessionEnd _ _ => true
  | _ => false

namespace RaceState

/-- Before the first event, at the given clock reading. -/
def init (clock : Int) : RaceState := ⟨Dict.empty, .asleep, clock, [], []⟩

/-- Times of the activity of a socket. -/
def activityOf (st : RaceState) (sock : SockPointer) : List Int :=
  (st.activity.filter fun p => p.1 = sock).map Prod.snd

/-- The ending that an END of `sock` makes, if the socket has a session. -/
def endingOf (st : RaceState) (sock : SockPointer) (pass : Option Int)
    (result : Except PyErr (Option SessionRecord)) : List Ending :=
  match st.sessions.get? sock with
  | none => []
  | some _ => [⟨sock, pass, st.activityOf sock, result⟩]

/-- One step.  Clock readings never go back, and `time.sleep` rejects a negative duration. -/
def step (names : Option (Dict Nat String)) (maxDuration : Int) (st : RaceState) :
    RaceAction → Option RaceState
  | .handle r event =>
      if st.clock ≤ r.now then
        let handled := enrichEventImpl names r event st.sessions
        some { st with
          sessions := handled.2
          clock := r.now
          activity := st.activity ++ event.activity r.now
          endings := st.endings ++
            if event.isEnd then st.endingOf event.sockPointer none handled.1 else [] }
      else none
  | .readClock now =>
      match st.worker with
      | .asleep =>
          if 0 ≤ maxDuration ∧ st.clock ≤ now then
            some { st with
              worker := .marking now
              clock := now }
          else none
      | _ => none
  | .mark =>
      match st.worker with
      | .marking now =>
          let marked := markExpired now maxDuration st.sessions
          some { st with
            sessions := marked.1
            worker := .ending now marked.2 }
      | _ => none
  | .endNext r =>
      match st.worker with
      | .ending now (sock :: rest) =>
          if st.clock ≤ r.now then
            let handled := enrichEventImpl names r (.sessionEnd sock none) st.sessions
            some { st with
              sessions := handled.2
              worker :=
                match handled.1 with
                | .ok _ => .ending now rest
                -- `never_crash` starts the worker anew, the other marked sockets stay.
                | .error _ => .asleep
              clock := r.now
              endings := st.endings ++ st.endingOf sock (some now) handled.1 }
          else none
      | _ => none
  | .sleep =>
      match st.worker with
      | .ending _ [] => some { st with worker := .asleep }
      | _ => none

/-- Sockets that are marked and wait for their synthetic END. -/
def pending (st : RaceState) : List SockPointer :=
  match st.worker with
  | .ending _ expired => expired
  | _ => []

end RaceState

/-- A session ended by the worker had no START or CONTINUE later than `maxDuration` before the clock
reading of the pass, and its record carries the error; a session ended by a real END does not carry
it. -/
def Ending.Sound (maxDuration : Int) (ending : Ending) : Prop :=
  match ending.pass with
  | some now =>
      (∀ t ∈ ending.activity, t < now - maxDuration) ∧
        ∃ record, ending.result = .ok (some record) ∧ record.error = expirationError
  | none => ∀ record, ending.result = .ok (some record) → record.error ≠ expirationError

namespace RaceState

/-- Every session that ended so far ended soundly. -/
def ExpiresIdle (maxDuration : Int) (st : RaceState) : Prop :=
  ∀ ending ∈ st.endings, ending.Sound maxDuration

/-- No event is handled for a socket that waits for its synthetic END, and the probe does not filter on
container labels when such an END is handled. -/
def Undisturbed (names : Option (Dict Nat String)) (st : RaceState) : RaceAction → Prop
  | .handle _ event => event.sockPointer ∉ st.pending
  | .endNext _ => names = none
  | _ => True

instance (names : Option (Dict Nat String)) (st : RaceState) :
    ∀ action, Decidable (st.Undisturbed names action)
  | .handle _ event => inferInstanceAs (Decidable (event.sockPointer ∉ st.pending))
  | .endNext _ => inferInstanceAs (Decidable (names = none))
  | .readClock _ => isTrue trivial
  | .mark => isTrue trivial
  | .sleep => isTrue trivial

/-! ## The invariant -/

/-- The activity of a session is over at its last update, no activity lies in the future, the marked
sessions are those that wait for their synthetic END, and those are idle. -/
structure Inv (maxDuration : Int) (st : RaceState) : Prop where
  past : ∀ s t, (s, t) ∈ st.activity → t ≤ st.clock
  updated : ∀ s data, st.sessions.get? s = some data →
    ∀ t, (s, t) ∈ st.activity → t ≤ data.lastUpdate
  marked : ∀ s data, st.sessions.get? s = some data →
    (data.error = expirationError ↔ s ∈ st.pending)
  idle : ∀ now expired, st.worker = .ending now expired → expired.Nodup ∧
    ∀ s ∈ expired, ∃ data, st.sessions.get? s = some data ∧ maxDuration < now - data.lastUpdate
  sound : st.ExpiresIdle maxDuration

theorem inv_init (maxDuration clock : Int) : (init clock).Inv maxDuration where
  past := by simp [init]
  updated := by simp [init]
  marked := by simp [init]
  idle := by simp [init]
  sound := by simp [init, ExpiresIdle]

theorem mem_activityOf {st : RaceState} {sock : SockPointer} {t : Int} :
    t ∈ st.activityOf sock ↔ (sock, t) ∈ st.activity := by
  simp [activityOf]

theorem toList_text (trace : Traceback) :
    trace.text.toList = "Traceback (most recent call last):\n".toList ++ trace.frames.toList :=
  String.toList_append

/-- A traceback is not the expiration error: they differ in the first letter. -/
theorem text_ne (trace : Traceback) : trace.text ≠ expirationError := by
  intro hEq
  have hcons : ∀ a b : List Char, a.head? = some 'T' → (a ++ b).head? = some 'T' := by
    intro a b ha
    rw [List.head?_append, ha]
    rfl
  have hhead := hcons _ trace.frames.toList
    (by decide +kernel : "Traceback (most recent call last):\n".toList.head? = some 'T')
  have hother : expirationError.toList.head? = some 's' := by decide +kernel
  rw [← toList_text, hEq, hother] at hhead
  exact absurd hhead (by decide)

/-- A fresh session is not marked. -/
theorem error_opened_ne (r : Reading) (pid : BitVec 32) (dest : Dest) :
    (SessionData.opened r pid dest).error ≠ expirationError := by
  cases h : r.crawl pid with
  | ok proctree =>
      have herror : (SessionData.opened r pid dest).error = "" := by
        simp [SessionData.opened, h]
      rw [herror]
      decide
  | error trace =>
      have herror : (SessionData.opened r pid dest).error = trace.text := by
        simp [SessionData.opened, h]
      rw [herror]
      exact text_ne trace

/-- What an event leaves of the mark of its socket. -/
theorem error_next_ne {r : Reading} {event : SessionEvent} {data? : Option SessionData}
    {data' : SessionData} (h : event.next r data? = some data')
    (hold : ∀ data, data? = some data → data.error ≠ expirationError) :
    data'.error ≠ expirationError := by
  cases event with
  | sessionStart sock pid dest =>
      cases h
      exact error_opened_ne r pid dest
  | sessionContinue sock dest =>
      rcases Option.map_eq_some_iff.1 h with ⟨data, hdata, rfl⟩
      exact hold data hdata
  | sessionEnd sock mntnsId => cases h

/-- The update time of a session is that of its socket's latest event. -/
theorem lastUpdate_next {r : Reading} {event : SessionEvent} {data? : Option SessionData}
    {data' : SessionData} (h : event.next r data? = some data') : data'.lastUpdate = r.now := by
  cases event with
  | sessionStart sock pid dest =>
      cases h
      rfl
  | sessionContinue sock dest =>
      rcases Option.map_eq_some_iff.1 h with ⟨data, _, rfl⟩
      rfl
  | sessionEnd sock mntnsId => cases h

theorem mem_event_activity {event : SessionEvent} {now t : Int} {s : SockPointer}
    (h : (s, t) ∈ event.activity now) : event.sockPointer = s ∧ t = now := by
  cases event <;> simp_all [SessionEvent.activity, SessionEvent.sockPointer]

/-- The record of an END carries the error of the session it ends. -/
theorem error_of_end {names : Option (Dict Nat String)} {r : Reading} {sock : SockPointer}
    {mntnsId : Option Nat} {tracking : SessionTracking} {record : SessionRecord}
    (h : (enrichEventImpl names r (.sessionEnd sock mntnsId) tracking).1 = .ok (some record)) :
    ∃ data, tracking.get? sock = some data ∧ record.error = data.error := by
  rcases enrichEventImpl_eq_record h with ⟨sock', mntnsId', data, hevent, hget, hnamed⟩
  cases hevent
  exact ⟨data, hget, (enrichContainerName_eq_ok hnamed).2.2.1⟩

/-- An END of a socket with a session is recorded as one ending. -/
theorem mem_endingOf {st : RaceState} {sock : SockPointer} {pass : Option Int}
    {result : Except PyErr (Option SessionRecord)} {ending : Ending}
    (h : ending ∈ st.endingOf sock pass result) :
    ending = ⟨sock, pass, st.activityOf sock, result⟩ := by
  unfold endingOf at h
  split at h
  · cases h
  · exact List.mem_singleton.1 h

theorem pending_of_ending {st : RaceState} {now : Int} {expired : List SockPointer}
    (h : st.worker = .ending now expired) : st.pending = expired := by
  simp [pending, h]

/-! ## What each step does -/

section Steps

variable {names : Option (Dict Nat String)} {maxDuration : Int} {st st' : RaceState}

theorem step_handle {r : Reading} {event : SessionEvent}
    (h : st.step names maxDuration (.handle r event) = some st') :
    st.clock ≤ r.now ∧ st' =
      { st with
        sessions := (enrichEventImpl names r event st.sessions).2
        clock := r.now
        activity := st.activity ++ event.activity r.now
        endings := st.endings ++
          if event.isEnd then
            st.endingOf event.sockPointer none (enrichEventImpl names r event st.sessions).1
          else [] } := by
  simp only [step, Option.ite_none_right_eq_some, Option.some.injEq] at h
  exact ⟨h.1, h.2.symm⟩

theorem step_readClock {now : Int} (h : st.step names maxDuration (.readClock now) = some st') :
    st.worker = .asleep ∧ st.clock ≤ now ∧
      st' = { st with
        worker := .marking now
        clock := now } := by
  simp only [step] at h
  cases hworker : st.worker with
  | asleep =>
      simp only [hworker, Option.ite_none_right_eq_some, Option.some.injEq] at h
      exact ⟨rfl, h.1.2, h.2.symm⟩
  | marking _ => simp [hworker] at h
  | ending _ _ => simp [hworker] at h

theorem step_mark (h : st.step names maxDuration .mark = some st') :
    ∃ now, st.worker = .marking now ∧
      st' = { st with
        sessions := (markExpired now maxDuration st.sessions).1
        worker := .ending now (markExpired now maxDuration st.sessions).2 } := by
  simp only [step] at h
  cases hworker : st.worker with
  | asleep => simp [hworker] at h
  | marking now =>
      simp only [hworker, Option.some.injEq] at h
      exact ⟨now, rfl, h.symm⟩
  | ending _ _ => simp [hworker] at h

theorem step_endNext {r : Reading} (h : st.step none maxDuration (.endNext r) = some st') :
    ∃ now sock rest, st.worker = .ending now (sock :: rest) ∧ st.clock ≤ r.now ∧
      st' = { st with
        sessions := (enrichEventImpl none r (.sessionEnd sock none) st.sessions).2
        worker := .ending now rest
        clock := r.now
        endings := st.endings ++ st.endingOf sock (some now)
          (enrichEventImpl none r (.sessionEnd sock none) st.sessions).1 } := by
  simp only [step] at h
  cases hworker : st.worker with
  | asleep => simp [hworker] at h
  | marking _ => simp [hworker] at h
  | ending now expired =>
      cases expired with
      | nil => simp [hworker] at h
      | cons sock rest =>
          -- Without container labels the handler does not raise, so the worker goes on.
          simp only [hworker, enrichEventImpl_end, Option.ite_none_right_eq_some,
            Option.some.injEq] at h
          refine ⟨now, sock, rest, rfl, h.1, ?_⟩
          rw [enrichEventImpl_end]
          exact h.2.symm

theorem step_sleep (h : st.step names maxDuration .sleep = some st') :
    ∃ now, st.worker = .ending now [] ∧ st' = { st with worker := .asleep } := by
  simp only [step] at h
  cases hworker : st.worker with
  | asleep => simp [hworker] at h
  | marking _ => simp [hworker] at h
  | ending now expired =>
      cases expired with
      | cons _ _ => simp [hworker] at h
      | nil =>
          simp only [hworker, Option.some.injEq] at h
          exact ⟨now, rfl, h.symm⟩

end Steps

/-! ## One lemma for each step -/

variable {names : Option (Dict Nat String)} {maxDuration : Int} {st st' : RaceState}

/-- A real END of a session that is not marked returns a record without the expiration error. -/
theorem sound_of_unmarked {r : Reading} {sock : SockPointer} {mntnsId : Option Nat}
    (hunmarked : ∀ data, st.sessions.get? sock = some data → data.error ≠ expirationError)
    {ending : Ending} (hmem : ending ∈ st.endingOf sock none
      (enrichEventImpl names r (.sessionEnd sock mntnsId) st.sessions).1) :
    ending.Sound maxDuration := by
  rw [mem_endingOf hmem]
  intro record hrecord
  rcases error_of_end hrecord with ⟨data, hget, herror⟩
  rw [herror]
  exact hunmarked data hget

/-- A synthetic END of a session that is marked and idle is sound. -/
theorem sound_of_idle {r : Reading} {sock : SockPointer} {data : SessionData} {now : Int}
    (hget : st.sessions.get? sock = some data) (herror : data.error = expirationError)
    (hupdated : ∀ t, (sock, t) ∈ st.activity → t ≤ data.lastUpdate)
    (hlong : maxDuration < now - data.lastUpdate) {ending : Ending}
    (hmem : ending ∈ st.endingOf sock (some now)
      (enrichEventImpl none r (.sessionEnd sock none) st.sessions).1) :
    ending.Sound maxDuration := by
  have hresult := enrichEventImpl_end r sock none st.sessions
  rw [hget, Option.map_some] at hresult
  rw [mem_endingOf hmem]
  refine ⟨?_, data.toRecord r.now, hresult, herror⟩
  intro t ht
  have hle := hupdated t (mem_activityOf.1 ht)
  omega

theorem Inv.handle (h : st.Inv maxDuration) {r : Reading} {event : SessionEvent}
    (hevent : event.sockPointer ∉ st.pending)
    (hstep : st.step names maxDuration (.handle r event) = some st') : st'.Inv maxDuration := by
  rcases step_handle hstep with ⟨hclock, rfl⟩
  have hunmarked : ∀ data, st.sessions.get? event.sockPointer = some data →
      data.error ≠ expirationError := by
    intro data hget herror
    exact hevent ((h.marked _ data hget).1 herror)
  have hpast : ∀ s t, (s, t) ∈ st.activity ++ event.activity r.now → t ≤ r.now := by
    intro s t hmem
    rcases List.mem_append.1 hmem with hmem | hmem
    · exact (h.past s t hmem).trans hclock
    · exact le_of_eq (mem_event_activity hmem).2
  refine ⟨hpast, ?_, ?_, ?_, ?_⟩
  · intro s data hget t hmem
    rw [get?_enrichEventImpl] at hget
    by_cases hs : event.sockPointer = s
    · rw [if_pos hs] at hget
      rw [lastUpdate_next hget]
      exact hpast s t hmem
    · rw [if_neg hs] at hget
      rcases List.mem_append.1 hmem with hmem | hmem
      · exact h.updated s data hget t hmem
      · exact absurd (mem_event_activity hmem).1 hs
  · intro s data hget
    rw [get?_enrichEventImpl] at hget
    by_cases hs : event.sockPointer = s
    · subst hs
      rw [if_pos rfl] at hget
      exact iff_of_false (error_next_ne hget hunmarked) hevent
    · rw [if_neg hs] at hget
      exact h.marked s data hget
  · intro now expired hworker
    rcases h.idle now expired hworker with ⟨hnodup, hidle⟩
    refine ⟨hnodup, ?_⟩
    intro s hs
    have hne : event.sockPointer ≠ s := by
      rintro rfl
      exact hevent ((pending_of_ending hworker).symm ▸ hs)
    rw [get?_enrichEventImpl, if_neg hne]
    exact hidle s hs
  · intro ending hmem
    rcases List.mem_append.1 hmem with hmem | hmem
    · exact h.sound ending hmem
    · cases event with
      | sessionStart sock pid dest => simp [SessionEvent.isEnd] at hmem
      | sessionContinue sock dest => simp [SessionEvent.isEnd] at hmem
      | sessionEnd sock mntnsId =>
          simp only [SessionEvent.isEnd, if_true] at hmem
          exact sound_of_unmarked hunmarked hmem

/-- While no socket is pending, no session is marked. -/
theorem Inv.unmarked (h : st.Inv maxDuration) (hpending : st.pending = []) :
    ∀ s data, st.sessions.get? s = some data → data.error ≠ expirationError := by
  intro s data hget herror
  simpa [hpending] using (h.marked s data hget).1 herror

theorem Inv.readClock (h : st.Inv maxDuration) {now : Int}
    (hstep : st.step names maxDuration (.readClock now) = some st') : st'.Inv maxDuration := by
  rcases step_readClock hstep with ⟨hworker, hclock, rfl⟩
  have hunmarked := h.unmarked (by simp [pending, hworker])
  refine ⟨?_, h.updated, ?_, by simp, h.sound⟩
  · intro s t hmem
    exact (h.past s t hmem).trans hclock
  · intro s data hget
    exact iff_of_false (hunmarked s data hget) (by simp [pending])

/-- The marking changes the error of the expired sessions and leaves their update time. -/
theorem marked_of_get? (hunmarked : ∀ s data, st.sessions.get? s = some data →
      data.error ≠ expirationError) {now : Int} {s : SockPointer} {data' : SessionData}
    (hget : (markExpired now maxDuration st.sessions).1.get? s = some data') :
    ∃ data, st.sessions.get? s = some data ∧ data'.lastUpdate = data.lastUpdate ∧
      (data'.error = expirationError ↔ data.expired now maxDuration = true) := by
  rw [get?_markExpired] at hget
  rcases Option.map_eq_some_iff.1 hget with ⟨data, hdata, rfl⟩
  refine ⟨data, hdata, ?_⟩
  by_cases hexpired : data.expired now maxDuration = true
  · simp [hexpired]
  · simp [hexpired, hunmarked s data hdata]

/-- The sockets of a marking are distinct, and their sessions are idle. -/
theorem idle_markExpired (now maxDuration : Int) (tracking : SessionTracking) :
    (markExpired now maxDuration tracking).2.Nodup ∧
      ∀ s ∈ (markExpired now maxDuration tracking).2, ∃ data,
        (markExpired now maxDuration tracking).1.get? s = some data ∧
          maxDuration < now - data.lastUpdate := by
  refine ⟨tracking.keys_nodup.sublist (List.filter_sublist.map _), ?_⟩
  intro s hs
  rcases mem_markExpired.1 hs with ⟨data, hdata, hexpired⟩
  have hlt : maxDuration < now - data.lastUpdate := by
    simpa [SessionData.expired] using hexpired
  refine ⟨{ data with error := expirationError }, ?_, hlt⟩
  rw [get?_markExpired, hdata, Option.map_some, if_pos hexpired]

theorem Inv.mark (h : st.Inv maxDuration)
    (hstep : st.step names maxDuration .mark = some st') : st'.Inv maxDuration := by
  rcases step_mark hstep with ⟨now, hworker, rfl⟩
  have hunmarked := h.unmarked (by simp [pending, hworker])
  refine ⟨h.past, ?_, ?_, ?_, h.sound⟩
  · intro s data' hget t hmem
    rcases marked_of_get? hunmarked hget with ⟨data, hdata, hlast, _⟩
    rw [hlast]
    exact h.updated s data hdata t hmem
  · intro s data' hget
    rcases marked_of_get? hunmarked hget with ⟨data, hdata, _, herror⟩
    have hpending : s ∈ (markExpired now maxDuration st.sessions).2 ↔
        data.expired now maxDuration = true := by
      rw [mem_markExpired, hdata]
      simp
    exact herror.trans hpending.symm
  · intro now' expired hworker'
    cases hworker'
    exact idle_markExpired now maxDuration st.sessions

theorem Inv.endNext (h : st.Inv maxDuration) (hnames : names = none) {r : Reading}
    (hstep : st.step names maxDuration (.endNext r) = some st') : st'.Inv maxDuration := by
  subst hnames
  rcases step_endNext hstep with ⟨now, sock, rest, hworker, hclock, rfl⟩
  have hpending := pending_of_ending hworker
  rcases h.idle now (sock :: rest) hworker with ⟨hnodup, hidle⟩
  have hcons := List.nodup_cons.1 hnodup
  -- The socket is gone, the others are as they were.
  have hrest : ∀ s data,
      (enrichEventImpl none r (.sessionEnd sock none) st.sessions).2.get? s = some data →
        s ≠ sock ∧ st.sessions.get? s = some data := by
    intro s data hget
    rw [get?_enrichEventImpl_end, Option.ite_none_left_eq_some] at hget
    exact ⟨Ne.symm hget.1, hget.2⟩
  refine ⟨?_, ?_, ?_, ?_, ?_⟩
  · intro s t hmem
    exact (h.past s t hmem).trans hclock
  · intro s data hget t hmem
    exact h.updated s data (hrest s data hget).2 t hmem
  · intro s data hget
    rcases hrest s data hget with ⟨hne, hold⟩
    have hmarked := h.marked s data hold
    rw [hpending, List.mem_cons, or_iff_right hne] at hmarked
    exact hmarked
  · intro now' expired hworker'
    cases hworker'
    refine ⟨hcons.2, ?_⟩
    intro s hs
    have hne : sock ≠ s := by
      rintro rfl
      exact hcons.1 hs
    rw [get?_enrichEventImpl_end, if_neg hne]
    exact hidle s (by simp [hs])
  · intro ending hmem
    rcases List.mem_append.1 hmem with hmem | hmem
    · exact h.sound ending hmem
    · -- The session that ends was marked, and has been idle since before the clock reading.
      rcases hidle sock (by simp) with ⟨data, hget, hlong⟩
      have herror : data.error = expirationError :=
        (h.marked sock data hget).2 (by simp [hpending])
      exact sound_of_idle hget herror (h.updated sock data hget) hlong hmem

theorem Inv.sleep (h : st.Inv maxDuration)
    (hstep : st.step names maxDuration .sleep = some st') : st'.Inv maxDuration := by
  rcases step_sleep hstep with ⟨now, hworker, rfl⟩
  have hunmarked := h.unmarked (pending_of_ending hworker)
  refine ⟨h.past, h.updated, ?_, by simp, h.sound⟩
  intro s data hget
  exact iff_of_false (hunmarked s data hget) (by simp [pending])

theorem Inv.step (h : st.Inv maxDuration) {action : RaceAction} (hquiet : st.Undisturbed names action)
    (hstep : st.step names maxDuration action = some st') : st'.Inv maxDuration := by
  cases action with
  | handle r event => exact h.handle hquiet hstep
  | readClock now => exact h.readClock hstep
  | mark => exact h.mark hstep
  | endNext r => exact h.endNext hquiet hstep
  | sleep => exact h.sleep hstep

/-- In every run in which no event of a marked socket is handled before its synthetic END, and without
container labels, expiration ends idle sessions only. -/
theorem expires_idle_of_undisturbed (names : Option (Dict Nat String)) (maxDuration clock : Int)
    (actions : List RaceAction)
    (h : Run.StepsMeet (RaceState.step names maxDuration) (Undisturbed names) (init clock) actions) :
    ∀ st ∈ Run.visited (RaceState.step names maxDuration) (init clock) actions,
      st.ExpiresIdle maxDuration := by
  intro st hst
  exact (Run.visited_of_stepsMeet (fun _ _ _ hinv hquiet hstep => hinv.step hquiet hstep)
    (inv_init maxDuration clock) h st hst).sound

/-! ### A pass over one idle and one busy socket -/

namespace Example

def dest : Dest := ⟨168430090, 1337⟩

/-- Socket 1 is idle since time 0, socket 2 sends at time 100; the pass reads the clock at 121. -/
def quietPass : List RaceAction :=
  [.handle (Udp.Example.clock 0) (.sessionStart 1 123 dest),
    .handle (Udp.Example.clock 0) (.sessionStart 2 456 dest),
    .handle (Udp.Example.clock 100) (.sessionContinue 2 dest),
    .readClock 121, .mark,
    .handle (Udp.Example.clock 122) (.sessionContinue 2 dest),
    .endNext (Udp.Example.clock 123), .sleep]

/-- The same socket sends once more between the marking and its synthetic END. -/
def disturbedPass : List RaceAction :=
  [.handle (Udp.Example.clock 0) (.sessionStart 1 123 dest), .readClock 121, .mark,
    .handle (Udp.Example.clock 122) (.sessionContinue 1 dest), .endNext (Udp.Example.clock 123)]

end Example

/-- The pass takes all its steps, ends socket 1 after an idle time and leaves socket 2 alone. -/
theorem quiet_pass_expires_idle :
    (Run.visited (RaceState.step none 120) (init 0) Example.quietPass).length = 8 ∧
      ∀ st ∈ Run.visited (RaceState.step none 120) (init 0) Example.quietPass, st.ExpiresIdle 120 :=
  ⟨by decide +kernel, expires_idle_of_undisturbed none 120 0 Example.quietPass (by decide +kernel)⟩

/-- The session that the pass ends has sent at time 122, after the clock reading 121. -/
theorem disturbed_pass_ends_busy_session :
    ∃ st ∈ Run.visited (RaceState.step none 120) (init 0) Example.disturbedPass,
      ¬ st.ExpiresIdle 120 := by
  refine ⟨(Run.visited (RaceState.step none 120) (init 0) Example.disturbedPass).get
    ⟨4, by decide +kernel⟩, List.get_mem _ _, ?_⟩
  intro h
  have hending : ∃ ending ∈ ((Run.visited (RaceState.step none 120) (init 0)
      Example.disturbedPass).get ⟨4, by decide +kernel⟩).endings,
        ending.pass = some 121 ∧ 122 ∈ ending.activity := by
    decide +kernel
  rcases hending with ⟨ending, hmem, hpass, hactive⟩
  have hsound := h ending hmem
  unfold Ending.Sound at hsound
  rw [hpass] at hsound
  exact absurd (hsound.1 122 hactive) (by decide)

end RaceState

end Udp

end PidtreeBcc
