import PidtreeBcc.Plugins.Pipeline
import PidtreeBcc.Support.Transducer

/-!
# Polling — the polling loop and its telemetry of lost events

`start_polling` opens the perf buffer with its callbacks and polls it for ever.  With telemetry the loop counts
the events that the kernel reports as lost, and every so many polls it puts their number on the output, past
the plugins.  The loop is taken as a function of what happens to it: calls of the callbacks, in any order, and
returns from the poll.
-/

namespace PidtreeBcc

open Support

namespace Probes

open Plugins

/-! ## The loop -/

/-- What happens to a polling probe: `_process_events` is called, by the buffer or by a thread of the probe; the
buffer reports lost events; or `perf_buffer_poll` returns. -/
inductive Occurrence (α : Type*)
  | event (raw : α) (r : Reading)
  | lost (lostCount : Nat)
  | polled (r : Reading)

/-- A line of the output, before it is turned into text. -/
inductive Line
  | record (event : EventDict)
  | telemetry (event : EventDict)

/-- The fields that the loop reads. -/
structure PollingProbe (α : Type*) where
  probeName : String
  enrichEvent : Reading → α → Except PyErr (Option EventDict)
  lostEventTelemetry : Int

/-- The fields that it writes. -/
structure PollingState where
  plugins : List Plugin
  lostEventTimer : Int
  lostEventCount : Nat

section Loop

variable {α : Type*}

/-- The fields as `__init__` sets them. -/
def PollingProbe.init (p : PollingProbe α) (plugins : List Plugin) : PollingState :=
  ⟨plugins, p.lostEventTelemetry, 0⟩

def lostEventCallback (s : PollingState) (lostCount : Nat) : PollingState :=
  { s with lostEventCount := s.lostEventCount + lostCount }

/-- The event of `_poll_and_check_lost`, with its metadata. -/
def lostEventTelemetryEvent (r : Reading) (probeName : String) (count : Nat) : EventDict :=
  addEventMetadata r probeName
    (Dict.empty.update [("type", .text "lost_event_telemetry"), ("count", .num count)])

/-- `_poll_and_check_lost`, from the return of the poll. -/
def PollingProbe.checkLost (p : PollingProbe α) (s : PollingState) (r : Reading) :
    PollingState × Option Line :=
  let s := { s with lostEventTimer := s.lostEventTimer - 1 }
  if s.lostEventTimer = 0 then
    ({ s with lostEventTimer := p.lostEventTelemetry },
      some (.telemetry (lostEventTelemetryEvent r p.probeName s.lostEventCount)))
  else (s, none)

/-- `_process_events`. -/
def PollingProbe.processEvents (p : PollingProbe α) (s : PollingState) (raw : α) (r : Reading) :
    PollingState × Option Line :=
  let processed := Plugins.processEvents r p.probeName s.plugins (p.enrichEvent r raw)
  ({ s with plugins := processed.1 },
    match processed.2 with
    | .ok (some event) => some (.record event)
    | _ => none)

/-- The loop of `start_polling`; without telemetry, nobody is told of lost events. -/
def PollingProbe.step (p : PollingProbe α) (s : PollingState) :
    Occurrence α → PollingState × Option Line
  | .event raw r => p.processEvents s raw r
  | .lost lostCount => (if p.lostEventTelemetry > 0 then lostEventCallback s lostCount else s, none)
  | .polled r => if p.lostEventTelemetry > 0 then p.checkLost s r else (s, none)

/-- What the probe has put on its output after the occurrences. -/
def PollingProbe.output (p : PollingProbe α) (plugins : List Plugin) (occs : List (Occurrence α)) :
    List Line :=
  Transducer.output p.step (p.init plugins) occs

/-! ## What the occurrences say -/

def Occurrence.event? : Occurrence α → Option (α × Reading)
  | .event raw r => some (raw, r)
  | _ => none

def Occurrence.lostCount : Occurrence α → Nat
  | .lost count => count
  | _ => 0

def Occurrence.isPolled : Occurrence α → Bool
  | .polled _ => true
  | _ => false

def Line.record? : Line → Option EventDict
  | .record event => some event
  | .telemetry _ => none

/-- The events that were lost. -/
def lostIn (occs : List (Occurrence α)) : Nat := (occs.map Occurrence.lostCount).sum

/-- How many times the poll returned. -/
def pollsIn (occs : List (Occurrence α)) : Nat := occs.countP Occurrence.isPolled

end Loop

/-! ## The timer and the count -/

section Counting

variable {α : Type*} {p : PollingProbe α}

@[simp] theorem lostIn_concat (occs : List (Occurrence α)) (o : Occurrence α) :
    lostIn (occs ++ [o]) = lostIn occs + o.lostCount := by
  simp [lostIn]

@[simp] theorem pollsIn_concat (occs : List (Occurrence α)) (o : Occurrence α) :
    pollsIn (occs ++ [o]) = pollsIn occs + if o.isPolled then 1 else 0 := by
  simp [pollsIn, List.countP_cons]

/-- With telemetry, the timer says how many polls are missing to the next multiple of the period, and the count
is that of all events lost so far. -/
structure Counted (p : PollingProbe α) (occs : List (Occurrence α)) (s : PollingState) : Prop where
  timer_pos : 0 < s.lostEventTimer
  timer_le : s.lostEventTimer ≤ p.lostEventTelemetry
  timer_dvd : p.lostEventTelemetry ∣ pollsIn occs + s.lostEventTimer
  count : s.lostEventCount = lostIn occs

/-- The timer runs out with the polls whose number is a multiple of the period. -/
theorem Counted.runs_out_iff {occs : List (Occurrence α)} {s : PollingState} (h : Counted p occs s) :
    s.lostEventTimer - 1 = 0 ↔ p.lostEventTelemetry ∣ pollsIn occs + 1 := by
  have hpos := h.timer_pos
  have hle := h.timer_le
  have hsum : (pollsIn occs + 1 : Int) + (s.lostEventTimer - 1) = pollsIn occs + s.lostEventTimer := by
    omega
  have hdvd := h.timer_dvd
  rw [← hsum] at hdvd
  constructor
  · intro hzero
    simpa [hzero] using hdvd
  · intro hpolls
    have hrest : p.lostEventTelemetry ∣ s.lostEventTimer - 1 := (Int.dvd_add_right hpolls).1 hdvd
    -- What is left is smaller than the period.
    exact Int.eq_zero_of_dvd_of_nonneg_of_lt (by omega) (by omega) hrest

theorem Counted.init (ht : p.lostEventTelemetry > 0) (plugins : List Plugin) :
    Counted p [] (p.init plugins) where
  timer_pos := ht
  timer_le := le_refl _
  timer_dvd := by simp [PollingProbe.init, pollsIn]
  count := rfl

theorem Counted.step (ht : p.lostEventTelemetry > 0) {occs : List (Occurrence α)} {s : PollingState}
    (h : Counted p occs s) (o : Occurrence α) : Counted p (occs ++ [o]) (p.step s o).1 := by
  have hpos := h.timer_pos
  have hle := h.timer_le
  have hdvd := h.timer_dvd
  cases o with
  | event raw r =>
      refine ⟨hpos, hle, ?_, ?_⟩
      · simpa [PollingProbe.step, PollingProbe.processEvents, Occurrence.isPolled] using hdvd
      · simpa [PollingProbe.step, PollingProbe.processEvents, Occurrence.lostCount] using h.count
  | lost count =>
      have hstep : (p.step s (.lost count)).1 = lostEventCallback s count := by
        simp [PollingProbe.step, ht]
      rw [hstep]
      refine ⟨hpos, hle, ?_, ?_⟩
      · simpa [lostEventCallback, Occurrence.isPolled] using hdvd
      · simp [lostEventCallback, Occurrence.lostCount, h.count]
  | polled r =>
      have hstep : (p.step s (.polled r)).1 = (p.checkLost s r).1 := by
        simp [PollingProbe.step, ht]
      have hpolls : pollsIn (occs ++ [.polled r]) = pollsIn occs + 1 := by simp [Occurrence.isPolled]
      have hlost : lostIn (occs ++ [.polled r]) = lostIn occs := by simp [Occurrence.lostCount]
      rw [hstep]
      unfold PollingProbe.checkLost
      dsimp only
      split
      · rename_i hzero
        refine ⟨ht, le_refl _, ?_, hlost ▸ h.count⟩
        -- The timer is set back, and a multiple of the period has been reached.
        rw [hpolls]
        push_cast
        exact Int.dvd_add (h.runs_out_iff.1 hzero) (Int.dvd_refl _)
      · rename_i hne
        refine ⟨?_, ?_, ?_, hlost ▸ h.count⟩
        · dsimp only
          omega
        · dsimp only
          omega
        · rw [hpolls]
          push_cast
          have hsum : (pollsIn occs + 1 : Int) + (s.lostEventTimer - 1) = pollsIn occs + s.lostEventTimer := by
            omega
          rwa [hsum]

theorem Counted.stateAfter (ht : p.lostEventTelemetry > 0) (plugins : List Plugin)
    (occs : List (Occurrence α)) : Counted p occs (Transducer.stateAfter p.step (p.init plugins) occs) :=
  Transducer.stateAfter_inv (Counted.init ht plugins) (fun _ _ o h => h.step ht o) occs

end Counting

/-! ## The output of the loop -/

section Lines

variable {α : Type*} {p : PollingProbe α}

/-- A telemetry line is put out by a return from the poll, when the timer runs out. -/
theorem step_telemetry_iff {occs : List (Occurrence α)} {s : PollingState}
    (h : p.lostEventTelemetry > 0 → Counted p occs s) {o : Occurrence α} {event : EventDict} :
    (p.step s o).2 = some (.telemetry event) ↔
      p.lostEventTelemetry > 0 ∧ ∃ r, o = .polled r ∧ p.lostEventTelemetry ∣ pollsIn occs + 1 ∧
        event = lostEventTelemetryEvent r p.probeName (lostIn occs) := by
  cases o with
  | event raw r =>
      simp only [PollingProbe.step, PollingProbe.processEvents]
      split <;> simp
  | lost count => simp [PollingProbe.step]
  | polled r =>
      by_cases ht : p.lostEventTelemetry > 0
      · have hcounted := h ht
        simp only [PollingProbe.step, ht, if_true, PollingProbe.checkLost, hcounted.runs_out_iff]
        by_cases hdvd : p.lostEventTelemetry ∣ (pollsIn occs + 1 : Int)
        · simp [hdvd, hcounted.count, eq_comm]
        · simp [hdvd]
      · simp [PollingProbe.step, ht]

/-- Losses and polls leave the plugins alone and put out no record. -/
theorem step_of_no_event {o : Occurrence α} (h : o.event? = none) (s : PollingState) :
    (p.step s o).1.plugins = s.plugins ∧ (p.step s o).2.toList.filterMap Line.record? = [] := by
  cases o with
  | event raw r => cases h
  | lost count =>
      simp only [PollingProbe.step]
      split <;> exact ⟨rfl, rfl⟩
  | polled r =>
      simp only [PollingProbe.step, PollingProbe.checkLost]
      split
      · split <;> exact ⟨rfl, rfl⟩
      · exact ⟨rfl, rfl⟩

/-- The records of a run are those of its events alone. -/
theorem records_output (occs : List (Occurrence α)) :
    ∀ s : PollingState, (Transducer.output p.step s occs).filterMap Line.record? =
      outputOf p.probeName p.enrichEvent s.plugins (occs.filterMap Occurrence.event?) := by
  induction occs with
  | nil => exact fun _ => rfl
  | cons o rest ih =>
      intro s
      have hrest := ih (p.step s o).1
      rw [Transducer.output, List.filterMap_append, hrest]
      cases hevent : o.event? with
      | none =>
          rcases step_of_no_event (p := p) hevent s with ⟨hplugins, hrecord⟩
          rw [hplugins, hrecord, List.filterMap_cons_none hevent, List.nil_append]
      | some input =>
          rw [List.filterMap_cons_some hevent]
          cases o with
          | event raw r =>
              cases hevent
              simp only [outputOf, PollingProbe.step, PollingProbe.processEvents]
              rcases hprocessed : (Plugins.processEvents r p.probeName s.plugins (p.enrichEvent r raw)).2
                with _ | (_ | _) <;> simp [Line.record?]
          | lost count => cases hevent
          | polled r => cases hevent

/-- The records are those of the events, with telemetry or without.  With a positive period, and then only, a
telemetry line is put out by every poll whose number is a multiple of it, behind what was put out before the
poll, and has the number of all events lost until then. -/
theorem telemetry_exact (p : PollingProbe α) (plugins : List Plugin) (occs : List (Occurrence α)) :
    (p.output plugins occs).filterMap Line.record? =
        outputOf p.probeName p.enrichEvent plugins (occs.filterMap Occurrence.event?) ∧
      ∀ before event, (∃ after, p.output plugins occs = before ++ .telemetry event :: after) ↔
        p.lostEventTelemetry > 0 ∧ ∃ done r rest, occs = done ++ .polled r :: rest ∧
          p.output plugins done = before ∧ p.lostEventTelemetry ∣ pollsIn done + 1 ∧
          event = lostEventTelemetryEvent r p.probeName (lostIn done) := by
  refine ⟨records_output occs (p.init plugins), ?_⟩
  intro before event
  have hcounted : ∀ done, p.lostEventTelemetry > 0 →
      Counted p done (Transducer.stateAfter p.step (p.init plugins) done) :=
    fun done ht => Counted.stateAfter ht plugins done
  rw [PollingProbe.output, Transducer.output_at_iff]
  constructor
  · rintro ⟨done, o, rest, rfl, hout, hline⟩
    rcases (step_telemetry_iff (hcounted done)).1 hline with ⟨ht, r, rfl, hdvd, hevent⟩
    exact ⟨ht, done, r, rest, rfl, hout, hdvd, hevent⟩
  · rintro ⟨ht, done, r, rest, rfl, hout, hdvd, hevent⟩
    exact ⟨done, .polled r, rest, rfl, hout,
      (step_telemetry_iff (hcounted done)).2 ⟨ht, r, rfl, hdvd, hevent⟩⟩

end Lines

end Probes

end PidtreeBcc
