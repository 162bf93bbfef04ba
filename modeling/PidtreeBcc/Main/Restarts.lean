import PidtreeBcc.Main.Watchdogs

/-!
# Restarts — restarts and exits that are not taken for failures

A handler terminates the workers of a run before its watchdog is told: a restart raises the flag only when the
exception has reached `main()`, and an exit never does.  The watchdogs of the earlier runs are still there, and so
is the exit code.  When no check falls behind the end of the workers, no watchdog ever sounds the alarm because of
a signal, and the process ends with 0.
-/

namespace PidtreeBcc

open Support

namespace Main

/-- A handler that has not raised yet has terminated the workers. -/
def State.terminated (s : State) : Bool := s.handling.any (·.terminated)

/-- Where a restart leaves no watchdog behind with its flag down: before there is one, in the loop, or when the
flag is up.  Outside of the `try` around `main()` there is no restart at all. -/
def Phase.Restartable : Phase → Bool
  | watching => false
  | stopping => false
  | caught => false
  | unwinding _ => false
  | _ => true

/-- Nothing fails by itself, and the signals and the watchdogs stay out of each other's way.  No handler goes
over the workers while the watchdog is between its test and its check, or while the list of the workers is being
extended; no watchdog wakes up, with its flag down, once they are terminated; and no restart is raised between the
start of the watchdog and the loop, before the flag of an earlier restart is up, or outside of the `try`. -/
def undisturbed (s : State) : Action → Bool
  | .die _ => false
  | .error _ => false
  | .fail => false
  | .launchFails => false
  | .check _ badFds => !badFds
  | .wake r => s.doStop r || (s.phase.Guarded && !s.terminated)
  | .handlerTerminates => s.watchdog s.run ≠ .checking && !decide s.Unrecorded
  | .handlerRaises _ => !s.restarting || s.phase.Restartable
  | _ => true

/-- No watchdog has sounded the alarm. -/
def Unalarmed (s : State) : Prop := s.exitCode = 0 ∧ ∀ r, s.watchdog r ≠ .failing

/-- The phases of a run up to the end of its loop. -/
def Phase.Tended (p : Phase) : Bool := p.Fresh || p.Guarded

/-- The code that the process ends with, where it is on its way to its end. -/
def Phase.exitStatus : Phase → Nat
  | unwinding code => code
  | exiting code => code
  | exited code => code
  | _ => 0

/-- The workers of a run are running as long as the run goes on and no handler has been over them.  A watchdog
checks only then, and a flag that is down is that of the current run, which still needs it, unless the process is
about to end. -/
structure Calm (s : State) : Prop extends Attended s where
  unalarmed : Unalarmed s
  exitStatus : s.phase.exitStatus = 0
  runs : ∀ w ∈ s.workers, w.run ≤ s.run
  running : s.phase.Tended = true → s.terminated = false →
    ∀ w ∈ s.workers, w.run = s.run → w.status = .running
  checks : ∀ r, s.watchdog r = .checking → r = s.run ∧ s.phase.Guarded = true ∧ s.terminated = false
  flags : ∀ r, s.watchdog r ≠ .absent → s.doStop r = false →
    s.phase.Leaving = true ∨ (r = s.run ∧ (s.phase.Guarded = true ∨ s.phase = .stopping))

theorem calm_init : Calm init where
  toAttended := attended_init
  unalarmed := ⟨rfl, fun _ => by simp [init]⟩
  exitStatus := rfl
  runs w hw := by cases hw
  running _ _ w hw := by cases hw
  checks r h := by cases h
  flags r h := absurd rfl h

section Step

variable {args : Args} {s s' : State} {a : Action}

theorem run_terminateAll {r : Nat} {workers : List Worker} {w : Worker}
    (h : w ∈ terminateAll r workers) : ∃ w₀ ∈ workers, w.run = w₀.run := by
  rcases mem_terminateAll h with ⟨w₀, hw₀, hrun, _⟩
  exact ⟨w₀, hw₀, hrun⟩

theorem terminated_of_free (h : s.handling = []) : s.terminated = false := by
  simp [State.terminated, h]

theorem leaving_not_tended {p : Phase} (h : p.Leaving = true) : p.Tended = false := by
  cases p <;> simp_all [Phase.Leaving, Phase.Guarded, Phase.Fresh, Phase.Tended]

theorem guarded_not_leaving {p : Phase} (h : p.Guarded = true) : p.Leaving = false := by
  cases p <;> simp_all [Phase.Leaving, Phase.Guarded]

theorem fresh_not_guarded {p : Phase} (h : p.Fresh = true) : p.Guarded = false := by
  cases p <;> simp_all [Phase.Fresh, Phase.Guarded]

theorem exitStatus_of_tended {p : Phase} (h : p.Tended = true) : p.exitStatus = 0 := by
  cases p <;> first | rfl | cases h

theorem stopping_ne_of_tended {p : Phase} (h : p.Tended = true) : p ≠ .stopping := by
  rintro rfl
  cases h

theorem guarded_ne_launching {p : Phase} (h : p.Guarded = true) : p ≠ .launching := by
  rintro rfl
  cases h

/-- Under the condition no worker is left behind. -/
theorem Attended.leavesNone (h : Attended s) (hcalm : undisturbed s a = true) : LeavesNone s a := by
  cases a with
  | launchFails => cases hcalm
  | handlerTerminates =>
      intro w hw hrunning
      by_contra hmissed
      have hlast := h.forked w hw hrunning (by simpa using hmissed)
      have hunrecorded : s.Unrecorded := ⟨by simp [hlast], (h.last (by simp [hlast])).1⟩
      simp [undisturbed, hunrecorded] at hcalm
  | _ => trivial

/-- In a phase without a check, none is going on. -/
theorem Calm.no_checks (h : Calm s) (hguarded : s.phase.Guarded = false) : ∀ r, s.watchdog r ≠ .checking := by
  intro r hr
  have hphase := (h.checks r hr).2.1
  simp [hguarded] at hphase

theorem Calm.no_flags (h : Calm s) (hleaving : s.phase.Leaving = false) (hguarded : s.phase.Guarded = false)
    (hstopping : s.phase ≠ .stopping) {r : Nat} (hpresent : s.watchdog r ≠ .absent) :
    s.doStop r ≠ false := by
  intro hflag
  rcases h.flags r hpresent hflag with hphase | ⟨_, hphase | hphase⟩
  · simp [hleaving] at hphase
  · simp [hguarded] at hphase
  · exact hstopping hphase

/-- The check of a watchdog finds its workers running. -/
theorem Calm.allAlive (h : Calm s) {r : Nat} (hchecking : s.watchdog r = .checking) :
    allAlive r s = true := by
  rcases h.checks r hchecking with ⟨rfl, hguarded, hterminated⟩
  have htended : s.phase.Tended = true := by simp [Phase.Tended, hguarded]
  have hlast : s.last = .recorded :=
    h.recorded (guarded_ne_launching hguarded) (guarded_not_leaving hguarded)
  simp only [Main.allAlive, Bool.and_eq_true, List.all_eq_true]
  refine ⟨?_, by simp [hlast]⟩
  intro w hw
  by_cases hrun : w.run = s.run
  · have hrunning := h.running htended hterminated w hw hrun
    have hrecorded : w.recorded = true := by
      by_contra hmissed
      -- A worker that runs unrecorded was just forked, and the launch is over.
      have hforked := h.forked w hw hrunning (by simpa using hmissed)
      simp [hlast] at hforked
    simp [hrunning, hrecorded, Status.isAlive]
  · simp [hrun]

/-- A step of the main thread between two phases before the watchdog, or between two that it guards, with the workers
and the watchdogs as they are. -/
theorem Calm.move (h : Calm s) (hattended : Attended s') (hrun : s'.run = s.run)
    (hcode : s'.exitCode = s.exitCode) (hwatchdog : s'.watchdog = s.watchdog)
    (hdoStop : s'.doStop = s.doStop) (hworkers : s'.workers = s.workers)
    (hterminated : s'.terminated = s.terminated)
    (hphases : (s.phase.Fresh = true ∧ s'.phase.Fresh = true) ∨
      (s.phase.Guarded = true ∧ s'.phase.Guarded = true)) : Calm s' := by
  have htended : s.phase.Tended = true ∧ s'.phase.Tended = true := by
    rcases hphases with ⟨hfresh, hfresh'⟩ | ⟨hguarded, hguarded'⟩
    · simp [Phase.Tended, hfresh, hfresh']
    · simp [Phase.Tended, hguarded, hguarded']
  have hguarded : s.phase.Guarded = true → s'.phase.Guarded = true := by
    rcases hphases with ⟨hfresh, _⟩ | ⟨_, hguarded'⟩
    · simp [fresh_not_guarded hfresh]
    · exact fun _ => hguarded'
  exact
    { toAttended := hattended
      unalarmed := by
        rw [Unalarmed, hcode, hwatchdog]
        exact h.unalarmed
      exitStatus := exitStatus_of_tended htended.2
      runs := by
        rw [hrun, hworkers]
        exact h.runs
      running := by
        rw [hrun, hworkers, hterminated]
        exact fun _ => h.running htended.1
      checks := by
        rw [hwatchdog, hrun, hterminated]
        exact fun r hr => (h.checks r hr).imp id (And.imp hguarded id)
      flags := by
        rw [hwatchdog, hdoStop, hrun]
        intro r hr hflag
        rcases h.flags r hr hflag with hleaving | ⟨hcurrent, hphase | hstopping⟩
        · simp [leaving_not_tended hleaving] at htended
        · exact Or.inr ⟨hcurrent, Or.inl (hguarded hphase)⟩
        · exact absurd hstopping (stopping_ne_of_tended htended.1) }

/-- Out of the loop, or of the process, with the watchdogs as they are and none of them in a check. -/
theorem Calm.leave (h : Calm s) (hattended : Attended s') (hrun : s'.run = s.run)
    (hcode : s'.exitCode = s.exitCode) (hwatchdog : s'.watchdog = s.watchdog)
    (hstatus : s'.phase.exitStatus = 0) (htended : s'.phase.Tended = false)
    (hruns : ∀ w ∈ s'.workers, w.run ≤ s.run) (hchecks : ∀ r, s.watchdog r ≠ .checking)
    (hflags : ∀ r, s.watchdog r ≠ .absent → s'.doStop r = false →
      s'.phase.Leaving = true ∨ (r = s.run ∧ s'.phase = .stopping)) : Calm s' where
  toAttended := hattended
  unalarmed := by
    rw [Unalarmed, hcode, hwatchdog]
    exact h.unalarmed
  exitStatus := hstatus
  runs := by
    rw [hrun]
    exact hruns
  running hphase := by simp [htended] at hphase
  checks r hr := by
    rw [hwatchdog] at hr
    exact absurd hr (hchecks r)
  flags r hr hflag := by
    rw [hwatchdog] at hr
    rw [hrun]
    exact (hflags r hr hflag).imp_right (And.imp_right Or.inr)

/-- A step into the end of the process. -/
theorem Calm.exit (h : Calm s) (hattended : Attended s') (hrun : s'.run = s.run)
    (hcode : s'.exitCode = s.exitCode) (hwatchdog : s'.watchdog = s.watchdog)
    (hstatus : s'.phase.exitStatus = 0) (hleaving : s'.phase.Leaving = true)
    (hruns : ∀ w ∈ s'.workers, w.run ≤ s.run) (hchecks : ∀ r, s.watchdog r ≠ .checking) : Calm s' :=
  h.leave hattended hrun hcode hwatchdog hstatus (leaving_not_tended hleaving) hruns hchecks
    fun _ _ _ => Or.inl hleaving

/-- The watchdog of a run moves, without an alarm. -/
theorem Calm.watchdogStep (h : Calm s) {r : Nat} {watchdog : Watchdog} {pending : Signal → Bool}
    (hpresent : s.watchdog r ≠ .absent) (hfailing : watchdog ≠ .failing)
    (hchecking : watchdog = .checking → r = s.run ∧ s.phase.Guarded = true ∧ s.terminated = false) :
    Calm { s with pending := pending, watchdog := Function.update s.watchdog r watchdog } where
  handlers := h.handlers
  last := h.last
  forked := h.forked
  handled := h.handled
  orphans := h.orphans
  unalarmed := by
    refine ⟨h.unalarmed.1, ?_⟩
    intro r'
    by_cases hr : r' = r
    · subst hr
      simpa using hfailing
    · simpa [Function.update_of_ne hr] using h.unalarmed.2 r'
  exitStatus := h.exitStatus
  runs := h.runs
  running := h.running
  checks r' hr' := by
    by_cases hr : r' = r
    · subst hr
      exact hchecking (by simpa using hr')
    · exact h.checks r' (by simpa [Function.update_of_ne hr] using hr')
  flags r' hr' hflag := by
    by_cases hr : r' = r
    · subst hr
      exact h.flags r' hpresent hflag
    · exact h.flags r' (by simpa [Function.update_of_ne hr] using hr') hflag

/-- A step that only the workers of earlier runs, the signals or the output notice. -/
theorem Calm.same (h : Calm s) (hattended : Attended s') (hphase : s'.phase = s.phase)
    (hrun : s'.run = s.run) (hcode : s'.exitCode = s.exitCode) (hwatchdog : s'.watchdog = s.watchdog)
    (hdoStop : s'.doStop = s.doStop) (hterminated : s'.terminated = s.terminated)
    (hruns : ∀ w ∈ s'.workers, w.run ≤ s.run)
    (hrunning : s.phase.Tended = true → s.terminated = false →
      ∀ w ∈ s'.workers, w.run = s.run → w.status = .running) : Calm s' where
  toAttended := hattended
  unalarmed := by
    rw [Unalarmed, hcode, hwatchdog]
    exact h.unalarmed
  exitStatus := by
    rw [hphase]
    exact h.exitStatus
  runs := by
    rw [hrun]
    exact hruns
  running := by
    rw [hphase, hterminated, hrun]
    exact hrunning
  checks := by
    rw [hwatchdog, hrun, hphase, hterminated]
    exact h.checks
  flags := by
    rw [hwatchdog, hdoStop, hphase, hrun]
    exact h.flags

/-- A statement of the main thread that does not fail. -/
theorem Calm.main (h : Calm s) (hcalm : undisturbed s a = true) (hfree : s.handling = [])
    (hattended : Attended s') (hmain : MainTransition args s a s') : Calm s' := by
  have hterminated : s.terminated = false := terminated_of_free hfree
  cases hmain with
  | install hphase =>
      exact h.move hattended rfl rfl rfl rfl rfl rfl (Or.inl ⟨by simp [hphase, Phase.Fresh], rfl⟩)
  | openOutput hphase =>
      exact h.move hattended rfl rfl rfl rfl rfl rfl (Or.inl ⟨by simp [hphase, Phase.Fresh], rfl⟩)
  | loaded hphase =>
      exact h.move hattended rfl rfl rfl rfl rfl rfl (Or.inl ⟨by simp [hphase, Phase.Fresh], rfl⟩)
  | quit hphase =>
      exact h.exit hattended rfl rfl rfl rfl rfl h.runs (h.no_checks (by simp [hphase, Phase.Guarded]))
  | append hphase hlast =>
      exact h.same hattended rfl rfl rfl rfl rfl rfl h.runs h.running
  | fork hphase hlast =>
      refine h.same hattended rfl rfl rfl rfl rfl rfl ?_ ?_
      · intro w hw
        rcases List.mem_append.1 hw with hold | hnew
        · exact h.runs w hold
        · exact Nat.le_of_eq (congrArg Worker.run (List.mem_singleton.1 hnew))
      · intro htended hnone w hw hrun
        rcases List.mem_append.1 hw with hold | hnew
        · exact h.running htended hnone w hold hrun
        · exact congrArg Worker.status (List.mem_singleton.1 hnew)
  | record hphase hlast =>
      refine h.same hattended rfl rfl rfl rfl rfl rfl ?_ ?_
      · intro w hw
        rcases mem_recordAll hw with ⟨w₀, hw₀, hrun, _⟩
        exact hrun ▸ h.runs w₀ hw₀
      · intro htended hnone w hw hrun
        rcases mem_recordAll hw with ⟨w₀, hw₀, hrun₀, hstatus, _⟩
        rw [hstatus]
        exact h.running htended hnone w₀ hw₀ (hrun₀.symm.trans hrun)
  | startWatchdog hphase hlast =>
      have htended : s.phase.Tended = true := by simp [hphase, Phase.Tended, Phase.Fresh]
      have hguarded : s.phase.Guarded = false := by simp [hphase, Phase.Guarded]
      refine ⟨hattended, ⟨h.unalarmed.1, ?_⟩, rfl, h.runs, fun _ => h.running htended, ?_, ?_⟩
      · intro r
        by_cases hr : r = s.run
        · simp [hr]
        · simpa [Function.update_of_ne hr] using h.unalarmed.2 r
      · intro r hchecking
        by_cases hr : r = s.run
        -- The new watchdog is asleep.
        · simp [hr] at hchecking
        · simp only [Function.update_of_ne hr] at hchecking
          exact absurd hchecking (h.no_checks hguarded r)
      · intro r hpresent hflag
        by_cases hr : r = s.run
        · exact Or.inr ⟨hr, Or.inl rfl⟩
        · simp only [Function.update_of_ne hr] at hpresent
          have hleaving : s.phase.Leaving = false := by simp [hphase, Phase.Leaving]
          exact absurd hflag (h.no_flags hleaving hguarded (by simp [hphase]) hpresent)
  | enterLoop hphase =>
      exact h.move hattended rfl rfl rfl rfl rfl rfl (Or.inr ⟨by simp [hphase, Phase.Guarded], rfl⟩)
  | get hphase hqueue =>
      exact h.move hattended rfl rfl rfl rfl rfl rfl (Or.inr ⟨by simp [hphase, Phase.Guarded], rfl⟩)
  | print hphase =>
      exact h.move hattended rfl rfl rfl rfl rfl rfl (Or.inr ⟨by simp [hphase, Phase.Guarded], rfl⟩)
  | flushed hphase hbuffer =>
      exact h.move hattended rfl rfl rfl rfl rfl rfl (Or.inr ⟨by simp [hphase, Phase.Guarded], rfl⟩)
  | error hphase => cases hcalm
  | terminate hphase =>
      have hguarded : s.phase.Guarded = false := by simp [hphase, Phase.Guarded]
      have hleaving : s.phase.Leaving = false := by simp [hphase, Phase.Leaving]
      refine h.leave hattended rfl rfl rfl rfl rfl ?_ (h.no_checks hguarded) ?_
      · intro w hw
        rcases run_terminateAll hw with ⟨w₀, hw₀, hEq⟩
        exact hEq ▸ h.runs w₀ hw₀
      · intro r hpresent hflag
        exact absurd hflag (h.no_flags hleaving hguarded (by simp [hphase]) hpresent)
  | sysExit hphase =>
      exact h.exit hattended rfl rfl rfl h.unalarmed.1 rfl h.runs
        (h.no_checks (by simp [hphase, Phase.Guarded]))
  | stop hphase =>
      have hguarded : s.phase.Guarded = false := by simp [hphase, Phase.Guarded]
      refine h.leave hattended rfl rfl rfl rfl rfl h.runs (h.no_checks hguarded) ?_
      intro r hpresent hflag
      -- The flag that was missing is the one that goes up.
      have hr : r ≠ s.run := by
        rintro rfl
        simp at hflag
      simp only [Function.update_of_ne hr] at hflag
      rcases h.flags r hpresent hflag with hleaving | ⟨hrun, _⟩
      · simp [hphase, Phase.Leaving] at hleaving
      · exact absurd hrun hr
  | cleanup hphase =>
      have hguarded : s.phase.Guarded = false := by simp [hphase, Phase.Guarded]
      have hleaving : s.phase.Leaving = false := by simp [hphase, Phase.Leaving]
      refine h.leave hattended rfl rfl rfl rfl rfl h.runs (h.no_checks hguarded) ?_
      intro r hpresent hflag
      exact absurd hflag (h.no_flags hleaving hguarded (by simp [hphase]) hpresent)
  | again hphase hless =>
      have hguarded : s.phase.Guarded = false := by simp [hphase, Phase.Guarded]
      have hleaving : s.phase.Leaving = false := by simp [hphase, Phase.Leaving]
      refine ⟨hattended, h.unalarmed, rfl, fun w hw => Nat.le_succ_of_le (h.runs w hw), ?_, ?_, ?_⟩
      · intro _ _ w hw hrun
        have hle := h.runs w hw
        -- The next run has no workers yet.
        exact absurd (hrun ▸ hle) (Nat.not_succ_le_self _)
      · exact fun r hchecking => absurd hchecking (h.no_checks hguarded r)
      · exact fun r hpresent hflag =>
          absurd hflag (h.no_flags hleaving hguarded (by simp [hphase]) hpresent)
  | lastAttempt hphase hmax =>
      exact h.exit hattended rfl rfl rfl rfl rfl h.runs (h.no_checks (by simp [hphase, Phase.Guarded]))
  | unwind hphase =>
      have hstatus := h.exitStatus
      rw [hphase] at hstatus
      exact h.exit hattended rfl rfl rfl hstatus rfl h.runs (h.no_checks (by simp [hphase, Phase.Guarded]))
  | finish hphase =>
      have hstatus := h.exitStatus
      rw [hphase] at hstatus
      exact h.exit hattended rfl rfl rfl hstatus rfl h.runs (h.no_checks (by simp [hphase, Phase.Guarded]))
  | fail hphase => cases hcalm
  | launchFails hphase hlast => cases hcalm

/-- A handler that has terminated the workers leaves no watchdog in a check. -/
theorem Calm.no_checks_of_terminated (h : Calm s) (hterminated : s.terminated = true) :
    ∀ r, s.watchdog r ≠ .checking := by
  intro r hr
  have hnone := (h.checks r hr).2.2
  simp [hterminated] at hnone

/-- A restart that is raised where it leaves no flag down. -/
theorem Calm.restart (h : Calm s) (hterminated : s.terminated = true)
    (hrestartable : s.phase.Restartable = true) (hattended : Attended s') (hphase : s'.phase = s.phase.onRestart)
    (hrun : s'.run = s.run) (hcode : s'.exitCode = s.exitCode) (hwatchdog : s'.watchdog = s.watchdog)
    (hdoStop : s'.doStop = s.doStop) (hworkers : s'.workers = s.workers) : Calm s' := by
  have hchecks := h.no_checks_of_terminated hterminated
  have hstatus : s'.phase.exitStatus = 0 := by
    have hold := h.exitStatus
    rw [hphase]
    cases hp : s.phase <;> simp_all [Phase.onRestart, Phase.exitStatus, Phase.Restartable]
  refine h.leave hattended hrun hcode hwatchdog hstatus ?_ (hworkers ▸ h.runs) hchecks ?_
  · rw [hphase, Phase.Tended, onRestart_fresh, onRestart_guarded]
    rfl
  · intro r hpresent hflag
    rw [hdoStop] at hflag
    rw [hphase]
    -- From the loop the exception goes where the flag is raised; an exit that goes on stays one.
    rcases h.flags r hpresent hflag with hleaving | ⟨hr, hguarded | hstopping⟩
    · refine Or.inl ?_
      cases hp : s.phase <;> simp_all [Phase.Leaving, Phase.onRestart, Phase.Restartable]
    · refine Or.inr ⟨hr, ?_⟩
      cases hp : s.phase <;> simp_all [Phase.Guarded, Phase.onRestart, Phase.Restartable]
    · simp [hstopping, Phase.Restartable] at hrestartable

theorem exitStatus_onExit {p : Phase} (h : p.exitStatus = 0) : (p.onExit 0).exitStatus = 0 := by
  cases p <;> first | rfl | exact h

theorem Calm.step (h : Calm s) (hcalm : undisturbed s a = true) (hstep : Main.step args s a = some s') :
    Calm s' := by
  have hattended : Attended s' := h.toAttended.step (h.leavesNone hcalm) hstep
  cases transition_of_step hstep with
  | main hfree hmain => exact h.main hcalm hfree hattended hmain
  | signal hlive => exact h.same hattended rfl rfl rfl rfl rfl rfl h.runs h.running
  | handle hlive hpending =>
      exact h.same hattended rfl rfl rfl rfl rfl (by simp [State.terminated]) h.runs h.running
  | @terminates signum outer hhandling hrecorded =>
      -- The watchdog is not in a check, so nobody looks at the workers before the flag is up.
      have hchecks : ∀ r, s.watchdog r ≠ .checking := by
        rintro r hr
        rcases h.checks r hr with ⟨rfl, _⟩
        simp [undisturbed, hr] at hcalm
      refine ⟨hattended, h.unalarmed, h.exitStatus, ?_, ?_, fun r hr => absurd hr (hchecks r), h.flags⟩
      · intro w hw
        rcases run_terminateAll hw with ⟨w₀, hw₀, hEq⟩
        exact hEq ▸ h.runs w₀ hw₀
      · intro _ hnone
        simp [State.terminated] at hnone
  | attributeError hhandling hunrecorded => simp [undisturbed, hunrecorded] at hcalm
  | restart hhandling =>
      have hrestartable : s.phase.Restartable = true := by
        simpa [undisturbed, State.restarting, hhandling] using hcalm
      exact h.restart (by simp [State.terminated, hhandling]) hrestartable hattended rfl rfl rfl rfl rfl rfl
  | exit hsignum hhandling =>
      have hchecks := h.no_checks_of_terminated (by simp [State.terminated, hhandling])
      refine h.exit hattended rfl rfl rfl ?_ (leaving_onExit _ _) h.runs hchecks
      show (s.phase.onExit s.exitCode).exitStatus = 0
      rw [h.unalarmed.1]
      exact exitStatus_onExit h.exitStatus
  | @wake r hlive hasleep =>
      refine h.watchdogStep (by simp [hasleep]) (by split <;> simp) ?_
      intro hchecking
      have hflag : s.doStop r = false := by
        by_contra hup
        simp [hup] at hchecking
      have hawake : s.phase.Guarded = true ∧ s.terminated = false := by
        simpa [undisturbed, hflag] using hcalm
      rcases h.flags r (by simp [hasleep]) hflag with hleaving | ⟨hrun, _⟩
      · simp [guarded_not_leaving hawake.1] at hleaving
      · exact ⟨hrun, hawake⟩
  | alarm hlive hchecking hbad =>
      rcases hbad with hdead | hfds
      · simp [h.allAlive hchecking] at hdead
      · simp [undisturbed, hfds] at hcalm
  | healthy hlive hchecking halive =>
      refine h.watchdogStep (by simp [hchecking]) (by split <;> simp) ?_
      intro hagain
      split at hagain <;> cases hagain
  | @kill r hlive hfailing => exact absurd hfailing (h.unalarmed.2 r)
  | reload hlive hreloading =>
      exact h.watchdogStep (by simp [hreloading]) (by simp) (fun hagain => (by cases hagain))
  | put hworker halive => exact h.same hattended rfl rfl rfl rfl rfl rfl h.runs h.running
  | die hworker hrunning => cases hcalm
  | @reap i w hworker hterminated =>
      have hmem : w ∈ s.workers := List.mem_of_getElem? hworker
      refine h.same hattended rfl rfl rfl rfl rfl rfl ?_ ?_
      · intro w' hw'
        rcases mem_setStatus hw' with hold | ⟨w₀, hw₀, rfl⟩
        · exact h.runs w' hold
        · exact h.runs w₀ (List.mem_of_getElem? hw₀)
      · intro hphase hnone w' hw' hrun
        rcases mem_setStatus hw' with hold | ⟨w₀, hw₀, rfl⟩
        · exact h.running hphase hnone w' hold hrun
        · -- The workers of a run that goes on were not terminated.
          have hEq : w₀ = w := Option.some.inj (hw₀.symm.trans hworker)
          subst hEq
          have hrunning := h.running hphase hnone w₀ hmem hrun
          simp [hterminated] at hrunning
  | write hlive => exact h.same hattended rfl rfl rfl rfl rfl rfl h.runs h.running

end Step

/-- In every run of the process in which nothing fails by itself and the signals and the watchdogs stay out
of each other's way: however often it restarts and whatever ends it, no watchdog sounds an alarm, the exit code
stays 0, and 0 is what the process ends with. -/
theorem calm_restarts (args : Args) {actions : List Action}
    (hcalm : Run.StepsMeet (step args) (fun s a => undisturbed s a = true) init actions) :
    ∀ s ∈ Run.visited (step args) init actions,
      s.exitCode = 0 ∧ (∀ r, s.watchdog r ≠ .failing) ∧ ∀ code, s.phase = .exited code → code = 0 := by
  intro s hs
  have hinv := Run.visited_of_stepsMeet (I := Calm) (fun _ _ _ h hundisturbed hstep =>
    h.step hundisturbed hstep) calm_init hcalm s hs
  refine ⟨hinv.unalarmed.1, hinv.unalarmed.2, ?_⟩
  intro code hphase
  have hstatus := hinv.exitStatus
  rw [hphase] at hstatus
  exact hstatus

namespace Example

/-- One probe, up to the loop. -/
def launch : List Action := [.openOutput, .loaded, .append, .fork, .record, .startWatchdog, .enterLoop]

/-- A SIGHUP, up to the next run. -/
def hangup : List Action :=
  [.signal .SIGHUP, .handle .SIGHUP, .handlerTerminates, .reap 0, .handlerRaises 0, .stop, .cleanup, .again,
    .install]

/-- A restart by a signal; the old watchdog wakes up in the new run, which ends by a SIGTERM. -/
def restart : List Action :=
  launch ++ hangup ++ launch ++ [.wake 0, .wake 1, .check 1 false, .signal .SIGTERM, .handle .SIGTERM,
    .handlerTerminates, .reap 1, .handlerRaises 0, .unwind, .finish]

/-- A single SIGTERM; the watchdog wakes up before the process is gone. -/
def raced : List Action :=
  launch ++ [.signal .SIGTERM, .handle .SIGTERM, .handlerTerminates, .reap 0, .wake 0, .check 0 false,
    .handlerRaises 0, .unwind, .finish]

end Example

theorem restart_unalarmed : ∃ s ∈ Run.visited (step Example.args) init Example.restart,
    s.run = 1 ∧ s.phase = .exited 0 ∧ s.exitCode = 0 ∧ ∀ r, s.watchdog r ≠ .failing := by
  have hcalm : Run.StepsMeet (step Example.args) (fun s a => undisturbed s a = true) init Example.restart := by
    decide +kernel
  refine ⟨(Run.visited (step Example.args) init Example.restart).getLast (by decide +kernel),
    List.getLast_mem _, by decide +kernel, by decide +kernel, ?_⟩
  rcases calm_restarts Example.args hcalm _ (List.getLast_mem _) with ⟨hcode, halarm, _⟩
  exact ⟨hcode, halarm⟩

/-- Without the condition the watchdog takes the end for a failure. -/
example : (Example.raced.foldlM (step Example.args) init).map (·.phase) = some (.exited 1) := by
  decide +kernel

end Main

end PidtreeBcc
