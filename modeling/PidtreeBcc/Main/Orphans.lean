import PidtreeBcc.Main.Supervisor

/-!
# Orphans — probe workers that nobody looks after

A worker runs on purpose while `main()` is in the run that started it and has not been told to end or to
start over.  The signal handler and the exception handler of the loop see to that.  A worker is left behind by a
launch that fails half-way, and by a signal that comes between the fork of a worker and the assignment that makes
it known to the handler.
-/

namespace PidtreeBcc

open Support

namespace Main

/-- Every running worker is one of the current run, which is still after its workers' work. -/
def NoOrphans (s : State) : Prop :=
  ∀ w ∈ s.workers, w.status = .running → w.run = s.run ∧ s.phase.Supervised = true

/-- A launch fails only before any worker is running, and a handler goes over the workers only when those that
run are recorded. -/
def LeavesNone (s : State) : Action → Prop
  | .launchFails => ∀ w ∈ s.workers, w.status ≠ .running
  | .handlerTerminates => ∀ w ∈ s.workers, w.status = .running → w.recorded = true
  | _ => True

/-! ## Lists of workers -/

theorem mem_terminateAll {r : Nat} {workers : List Worker} {w : Worker} (h : w ∈ terminateAll r workers) :
    ∃ w₀ ∈ workers, w.run = w₀.run ∧ w.recorded = w₀.recorded ∧
      (w.status = .running → w₀.status = .running ∧ ¬ (w₀.run = r ∧ w₀.recorded = true)) := by
  rcases List.mem_map.1 h with ⟨w₀, hmem, rfl⟩
  refine ⟨w₀, hmem, ?_⟩
  by_cases hreached : w₀.run = r ∧ w₀.recorded = true
  · rw [if_pos hreached]
    refine ⟨rfl, rfl, ?_⟩
    cases w₀.status <;> simp [Status.terminate]
  · rw [if_neg hreached]
    exact ⟨rfl, rfl, fun hrunning => ⟨hrunning, hreached⟩⟩

theorem mem_recordAll {r : Nat} {workers : List Worker} {w : Worker} (h : w ∈ recordAll r workers) :
    ∃ w₀ ∈ workers, w.run = w₀.run ∧ w.status = w₀.status ∧
      (w.recorded = true ↔ w₀.run = r ∨ w₀.recorded = true) := by
  rcases List.mem_map.1 h with ⟨w₀, hmem, rfl⟩
  refine ⟨w₀, hmem, ?_⟩
  by_cases hrun : w₀.run = r
  · simp [hrun]
  · simp [hrun]

/-- One worker is given a status, the others are as before. -/
theorem mem_setStatus {i : Nat} {status : Status} {workers : List Worker} {w : Worker}
    (h : w ∈ setStatus i status workers) :
    w ∈ workers ∨ ∃ w₀, workers[i]? = some w₀ ∧ w = { w₀ with status := status } := by
  rcases List.mem_iff_getElem?.1 h with ⟨j, hj⟩
  rw [setStatus, List.getElem?_modify] at hj
  rcases Option.map_eq_some_iff.1 hj with ⟨w₀, hw₀, rfl⟩
  by_cases hij : i = j
  · subst hij
    exact Or.inr ⟨w₀, hw₀, by simp⟩
  · exact Or.inl (by simpa [hij] using List.mem_of_getElem? hw₀)

/-! ## The invariant -/

/-- The phases of a run from the installation of its handlers to the end of its loop. -/
def Phase.Handled : Phase → Bool
  | configuring => true
  | loading => true
  | p => p.Supervised

/-- The handlers are those of the current run once they are installed.  What is not recorded is in the launch, or
the launch was the last of `main()`; a worker that runs unrecorded was just forked.  Behind a handler that has
been over the workers none of them runs, and there are no orphans. -/
structure Attended (s : State) : Prop where
  handlers : s.phase.Handled = true → s.handlers = s.run
  last : s.last ≠ .recorded → s.handlers = s.run ∧ (s.phase = .launching ∨ s.phase.Leaving = true)
  forked : ∀ w ∈ s.workers, w.status = .running → w.recorded = false → s.last = .forked
  handled : ∀ h ∈ s.handling, h.terminated = true →
    s.last = .recorded ∧ ∀ w ∈ s.workers, w.status ≠ .running
  orphans : NoOrphans s

theorem attended_init : Attended init where
  handlers _ := rfl
  last h := absurd rfl h
  forked w hw := by cases hw
  handled h hh := by cases hh
  orphans w hw := by cases hw

section Step

variable {args : Args} {s s' : State} {a : Action}

/-- No worker runs in a phase that is not one of supervision. -/
theorem Attended.not_running (h : Attended s) (hphase : s.phase.Supervised = false) :
    ∀ w ∈ s.workers, w.status ≠ .running := by
  intro w hw hrunning
  have hsupervised := (h.orphans w hw hrunning).2
  rw [hphase] at hsupervised
  cases hsupervised

theorem noOrphans_of_not_running (h : ∀ w ∈ s.workers, w.status ≠ .running) : NoOrphans s :=
  fun w hw hrunning => absurd hrunning (h w hw)

theorem handled_of_supervised {p : Phase} (h : p.Supervised = true) : p.Handled = true := by
  cases p <;> simp_all [Phase.Supervised, Phase.Handled]

theorem onRestart_not_handled (p : Phase) : p.onRestart.Handled = false := by
  cases p <;> rfl

theorem onExit_not_handled (code : Nat) (p : Phase) : (p.onExit code).Handled = false := by
  cases p <;> rfl

theorem leaving_onExit (code : Nat) (p : Phase) : (p.onExit code).Leaving = true := by
  cases p <;> rfl

/-- Outside of the launch, and when it is not left for good, everything is recorded. -/
theorem Attended.recorded (h : Attended s) (hlaunching : s.phase ≠ .launching)
    (hleaving : s.phase.Leaving = false) : s.last = .recorded := by
  by_contra hlast
  rcases (h.last hlast).2 with hphase | hphase
  · exact hlaunching hphase
  · simp [hleaving] at hphase

/-- The loop over the workers of the current run leaves only those running that are not recorded. -/
theorem Attended.running_terminateAll (h : Attended s) {r : Nat} (hr : s.phase.Supervised = true → r = s.run)
    {w : Worker} (hw : w ∈ terminateAll r s.workers) (hrunning : w.status = .running) :
    ∃ w₀ ∈ s.workers, w₀.status = .running ∧ w₀.recorded = false := by
  rcases mem_terminateAll hw with ⟨w₀, hw₀, _, _, hkept⟩
  rcases hkept hrunning with ⟨hrunning₀, hmissed⟩
  rcases h.orphans w₀ hw₀ hrunning₀ with ⟨hrun, hsupervised⟩
  refine ⟨w₀, hw₀, hrunning₀, ?_⟩
  by_contra hrecorded
  exact hmissed ⟨hrun.trans (hr hsupervised).symm, by simpa using hrecorded⟩

/-- With every running worker recorded, the loop of the handler leaves none running. -/
theorem Attended.not_running_handler (h : Attended s)
    (hrecorded : ∀ w ∈ s.workers, w.status = .running → w.recorded = true) :
    ∀ w ∈ terminateAll s.handlers s.workers, w.status ≠ .running := by
  intro w hw hrunning
  have hr : s.phase.Supervised = true → s.handlers = s.run :=
    fun hsupervised => h.handlers (handled_of_supervised hsupervised)
  rcases h.running_terminateAll hr hw hrunning with ⟨w₀, hw₀, hrunning₀, hmissed⟩
  simp [hrecorded w₀ hw₀ hrunning₀] at hmissed

/-- A step of the main thread between two phases, with the workers as they are. -/
theorem Attended.move (h : Attended s) {p : Phase} (hlast : s.last = .recorded)
    (hhandled : p.Handled = true → s.phase.Handled = true)
    (hsupervised : s.phase.Supervised = true → p.Supervised = true) {exitCode : Nat} {io : Io}
    {watchdog : Nat → Watchdog} {doStop : Nat → Bool} :
    Attended { s with
      phase := p
      exitCode := exitCode
      watchdog := watchdog
      doStop := doStop
      io := io } where
  handlers hp := h.handlers (hhandled hp)
  last hunrecorded := absurd hlast hunrecorded
  forked := h.forked
  handled := h.handled
  orphans w hw hrunning :=
    ⟨(h.orphans w hw hrunning).1, hsupervised (h.orphans w hw hrunning).2⟩

/-- The main thread leaves `main()` with nobody running. -/
theorem attended_of_leaving (hfree : s.handling = [])
    (hnone : ∀ w ∈ s.workers, w.status ≠ .running) {p : Phase} (hp : p.Leaving = true)
    (hlast : s.last ≠ .recorded → s.handlers = s.run) {restartAttempts : Nat} :
    Attended { s with phase := p, restartAttempts := restartAttempts } where
  handlers hhandled := by
    cases p <;> simp_all [Phase.Leaving, Phase.Handled, Phase.Supervised]
  last hunrecorded := ⟨hlast hunrecorded, Or.inr hp⟩
  forked w hw hrunning := absurd hrunning (hnone w hw)
  handled handler hhandler := by
    rw [hfree] at hhandler
    cases hhandler
  orphans := noOrphans_of_not_running hnone

/-- A statement of the main thread, other than a launch that fails behind a running worker. -/
theorem Attended.main (h : Attended s) (hleaves : LeavesNone s a) (hfree : s.handling = [])
    (hmain : MainTransition args s a s') : Attended s' := by
  have hrecorded : ∀ {p : Phase}, s.phase = p → p ≠ .launching → p.Leaving = false →
      s.last = .recorded := by
    rintro p rfl
    exact h.recorded
  have hnone : ∀ {p : Phase}, s.phase = p → p.Supervised = false →
      ∀ w ∈ s.workers, w.status ≠ .running := by
    rintro p rfl
    exact h.not_running
  have hnobody : ∀ handler ∈ s.handling, handler.terminated = true → False := by
    rw [hfree]
    intro handler hhandler
    cases hhandler
  cases hmain with
  | install hphase =>
      exact
        { handlers := fun _ => rfl
          last := fun hlast => absurd (hrecorded hphase (by simp) rfl) hlast
          forked := fun w hw hrunning => absurd hrunning (hnone hphase rfl w hw)
          handled := fun handler hhandler hterminated => (hnobody handler hhandler hterminated).elim
          orphans := noOrphans_of_not_running (hnone hphase rfl) }
  | openOutput hphase =>
      exact h.move (hrecorded hphase (by simp) rfl) (by simp [hphase, Phase.Handled])
        (by simp [hphase, Phase.Supervised])
  | loaded hphase =>
      exact h.move (hrecorded hphase (by simp) rfl) (by simp [hphase, Phase.Handled])
        (by simp [hphase, Phase.Supervised])
  | quit hphase =>
      exact attended_of_leaving hfree (hnone hphase rfl) rfl
        fun hlast => absurd (hrecorded hphase (by simp) rfl) hlast
  | append hphase hlast =>
      have hrun : s.handlers = s.run := h.handlers (by simp [hphase, Phase.Handled, Phase.Supervised])
      refine ⟨h.handlers, fun _ => ⟨hrun, Or.inl hphase⟩, ?_, ?_, h.orphans⟩
      · intro w hw hrunning hunrecorded
        simp [h.forked w hw hrunning hunrecorded] at hlast
      · exact fun handler hhandler hterminated => (hnobody handler hhandler hterminated).elim
  | fork hphase hlast =>
      refine ⟨h.handlers, fun _ => h.last (by simp [hlast]), fun _ _ _ _ => rfl, ?_, ?_⟩
      · exact fun handler hhandler hterminated => (hnobody handler hhandler hterminated).elim
      · intro w hw hrunning
        rcases List.mem_append.1 hw with hold | hnew
        · exact h.orphans w hold hrunning
        · rw [List.mem_singleton] at hnew
          subst hnew
          -- The new worker is one of the run that forks it.
          exact ⟨rfl, by simp [hphase, Phase.Supervised]⟩
  | record hphase hlast =>
      refine ⟨h.handlers, fun hunrecorded => absurd rfl hunrecorded, ?_, ?_, ?_⟩
      · intro w hw hrunning hunrecorded
        rcases mem_recordAll hw with ⟨w₀, hw₀, hrun, hstatus, hiff⟩
        have hrun₀ := (h.orphans w₀ hw₀ (hstatus ▸ hrunning)).1
        -- The workers that run are of this run, so all of them are recorded now.
        simp [hiff.2 (Or.inl hrun₀)] at hunrecorded
      · exact fun handler hhandler hterminated => (hnobody handler hhandler hterminated).elim
      · intro w hw hrunning
        rcases mem_recordAll hw with ⟨w₀, hw₀, hrun, hstatus, _⟩
        exact hrun ▸ h.orphans w₀ hw₀ (hstatus ▸ hrunning)
  | startWatchdog hphase hlast =>
      exact h.move hlast (by simp [hphase, Phase.Handled, Phase.Supervised])
        (by simp [hphase, Phase.Supervised])
  | enterLoop hphase =>
      exact h.move (hrecorded hphase (by simp) rfl)
        (by simp [hphase, Phase.Handled, Phase.Supervised]) (by simp [hphase, Phase.Supervised])
  | get hphase hqueue =>
      exact h.move (hrecorded hphase (by simp) rfl)
        (by simp [hphase, Phase.Handled, Phase.Supervised]) (by simp [hphase, Phase.Supervised])
  | print hphase =>
      exact h.move (hrecorded hphase (by simp) rfl)
        (by simp [hphase, Phase.Handled, Phase.Supervised]) (by simp [hphase, Phase.Supervised])
  | flushed hphase hbuffer =>
      exact h.move (hrecorded hphase (by simp) rfl)
        (by simp [hphase, Phase.Handled, Phase.Supervised]) (by simp [hphase, Phase.Supervised])
  | error hphase =>
      have hloop : s.phase ≠ .launching ∧ s.phase.Leaving = false ∧ s.phase.Handled = true := by
        cases hp : s.phase <;> simp_all [Phase.InLoop, Phase.Leaving, Phase.Handled, Phase.Supervised]
      exact h.move (h.recorded hloop.1 hloop.2.1) (fun _ => hloop.2.2) (fun _ => rfl)
  | terminate hphase =>
      have hlast := hrecorded hphase (by simp) rfl
      refine ⟨fun hp => (by cases hp), fun hunrecorded => absurd hlast hunrecorded, ?_, ?_, ?_⟩
      · intro w hw hrunning _
        rcases h.running_terminateAll (fun _ => rfl) hw hrunning with ⟨w₀, hw₀, hrunning₀, hmissed⟩
        exact h.forked w₀ hw₀ hrunning₀ hmissed
      · exact fun handler hhandler hterminated => (hnobody handler hhandler hterminated).elim
      · intro w hw hrunning
        rcases h.running_terminateAll (fun _ => rfl) hw hrunning with ⟨w₀, hw₀, hrunning₀, hmissed⟩
        -- Here everything is recorded, so the loop misses nobody.
        simp [h.forked w₀ hw₀ hrunning₀ hmissed] at hlast
  | sysExit hphase =>
      exact attended_of_leaving hfree (hnone hphase rfl) rfl
        fun hlast => absurd (hrecorded hphase (by simp) rfl) hlast
  | stop hphase =>
      exact h.move (hrecorded hphase (by simp) rfl) (by simp [Phase.Handled, Phase.Supervised])
        (by simp [hphase, Phase.Supervised])
  | cleanup hphase =>
      exact h.move (hrecorded hphase (by simp) rfl) (by simp [Phase.Handled, Phase.Supervised])
        (by simp [hphase, Phase.Supervised])
  | again hphase hless =>
      exact
        { handlers := fun hhandled => by cases hhandled
          last := fun hlast => absurd (hrecorded hphase (by simp) rfl) hlast
          forked := fun w hw hrunning => absurd hrunning (hnone hphase rfl w hw)
          handled := fun handler hhandler hterminated => (hnobody handler hhandler hterminated).elim
          orphans := noOrphans_of_not_running (hnone hphase rfl) }
  | lastAttempt hphase hmax =>
      exact attended_of_leaving hfree (hnone hphase rfl) rfl
        fun hlast => absurd (hrecorded hphase (by simp) rfl) hlast
  | unwind hphase => exact attended_of_leaving hfree (hnone hphase rfl) rfl fun hlast => (h.last hlast).1
  | finish hphase => exact attended_of_leaving hfree (hnone hphase rfl) rfl fun hlast => (h.last hlast).1
  | fail hphase =>
      rcases hphase with hphase | hphase
      · exact attended_of_leaving hfree (hnone hphase rfl) rfl fun hlast => (h.last hlast).1
      · exact attended_of_leaving hfree (hnone hphase rfl) rfl fun hlast => (h.last hlast).1
  | launchFails hphase hlast => exact attended_of_leaving hfree hleaves rfl fun hlast => (h.last hlast).1

/-- The workers of a process that loses one. -/
theorem Attended.dead (h : Attended s) (i : Nat) :
    Attended { s with workers := setStatus i .dead s.workers } := by
  have hrunning : ∀ w ∈ setStatus i .dead s.workers, w.status = .running → w ∈ s.workers := by
    intro w hw hstatus
    rcases mem_setStatus hw with hold | ⟨w₀, _, rfl⟩
    · exact hold
    · cases hstatus
  refine ⟨h.handlers, h.last, ?_, ?_, ?_⟩
  · exact fun w hw hstatus => h.forked w (hrunning w hw hstatus) hstatus
  · intro handler hhandler hterminated
    rcases h.handled handler hhandler hterminated with ⟨hlast, hnone⟩
    exact ⟨hlast, fun w hw hstatus => hnone w (hrunning w hw hstatus) hstatus⟩
  · exact fun w hw hstatus => h.orphans w (hrunning w hw hstatus) hstatus

/-- Nobody runs any more, and the handlers have been left. -/
theorem Attended.left (h : Attended s) {p : Phase} (hhandled : p.Handled = false)
    (hlast : s.last ≠ .recorded → p.Leaving = true) {workers : List Worker}
    (hnone : ∀ w ∈ workers, w.status ≠ .running) {io : Io} :
    Attended { s with workers := workers, handling := [], phase := p, io := io } where
  handlers hp := by simp [hhandled] at hp
  last hunrecorded := ⟨(h.last hunrecorded).1, Or.inr (hlast hunrecorded)⟩
  forked w hw hrunning := absurd hrunning (hnone w hw)
  handled handler hhandler := by cases hhandler
  orphans := noOrphans_of_not_running hnone

/-- Every step but one that leaves workers behind leaves no orphans. -/
theorem Attended.step (h : Attended s) (hleaves : LeavesNone s a) (hstep : Main.step args s a = some s') :
    Attended s' := by
  cases transition_of_step hstep with
  | main hfree hmain => exact h.main hleaves hfree hmain
  | signal hlive => exact ⟨h.handlers, h.last, h.forked, h.handled, h.orphans⟩
  | handle hlive hpending =>
      refine ⟨h.handlers, h.last, h.forked, ?_, h.orphans⟩
      intro handler hhandler hterminated
      rcases List.mem_cons.1 hhandler with rfl | hold
      · cases hterminated
      · exact h.handled handler hold hterminated
  | terminates hhandling hrecorded =>
      have hnone := h.not_running_handler hleaves
      -- Everything is recorded, or the handler would have failed.
      have hlast : s.last = .recorded := by
        by_contra hlast
        exact hrecorded ⟨hlast, (h.last hlast).1⟩
      exact
        { handlers := h.handlers
          last := h.last
          forked := fun w hw hrunning => absurd hrunning (hnone w hw)
          handled := fun _ _ _ => ⟨hlast, hnone⟩
          orphans := noOrphans_of_not_running hnone }
  | attributeError hhandling hunrecorded =>
      exact h.left (onExit_not_handled _ _) (fun _ => leaving_onExit _ _) (h.not_running_handler hleaves)
  | restart hhandling =>
      rcases h.handled _ (hhandling ▸ List.mem_cons_self) rfl with ⟨hlast, hnone⟩
      exact h.left (onRestart_not_handled _) (fun hunrecorded => absurd hlast hunrecorded) hnone
  | exit hsignum hhandling =>
      rcases h.handled _ (hhandling ▸ List.mem_cons_self) rfl with ⟨hlast, hnone⟩
      exact h.left (onExit_not_handled _ _) (fun hunrecorded => absurd hlast hunrecorded) hnone
  | wake hlive hasleep => exact ⟨h.handlers, h.last, h.forked, h.handled, h.orphans⟩
  | alarm hlive hchecking hbad => exact ⟨h.handlers, h.last, h.forked, h.handled, h.orphans⟩
  | healthy hlive hchecking halive => exact ⟨h.handlers, h.last, h.forked, h.handled, h.orphans⟩
  | kill hlive hfailing => exact ⟨h.handlers, h.last, h.forked, h.handled, h.orphans⟩
  | reload hlive hreloading => exact ⟨h.handlers, h.last, h.forked, h.handled, h.orphans⟩
  | put hworker halive => exact ⟨h.handlers, h.last, h.forked, h.handled, h.orphans⟩
  | die hworker hrunning => exact h.dead _
  | reap hworker hterminated => exact h.dead _
  | write hlive => exact ⟨h.handlers, h.last, h.forked, h.handled, h.orphans⟩

/-- A launch that fails behind a running worker leaves it behind, and so does a handler that finds it without
a `_popen`. -/
theorem Attended.orphans_of_step (h : Attended s) (hleaves : ¬ LeavesNone s a)
    (hstep : Main.step args s a = some s') : ¬ NoOrphans s' := by
  cases transition_of_step hstep with
  | main hfree hmain =>
      cases hmain with
      | launchFails hphase hlast =>
          unfold LeavesNone at hleaves
          push Not at hleaves
          rcases hleaves with ⟨w, hw, hrunning⟩
          intro horphans
          have hsupervised := (horphans w hw hrunning).2
          cases hsupervised
      | _ => exact absurd trivial hleaves
  | terminates hhandling hrecorded =>
      -- The worker that runs unrecorded was just forked.
      unfold LeavesNone at hleaves
      push Not at hleaves
      rcases hleaves with ⟨w, hw, hrunning, hmissed⟩
      have hlast := h.forked w hw hrunning (by simpa using hmissed)
      exact absurd ⟨by simp [hlast], (h.last (by simp [hlast])).1⟩ hrecorded
  | @attributeError signum outer hhandling hunrecorded =>
      unfold LeavesNone at hleaves
      push Not at hleaves
      rcases hleaves with ⟨w, hw, hrunning, hmissed⟩
      intro horphans
      -- The worker without a `_popen` is not sent the signal, and the process is on its way out.
      have hkept : w ∈ terminateAll s.handlers s.workers := by
        refine List.mem_map.2 ⟨w, hw, if_neg ?_⟩
        exact fun hreached => hmissed hreached.2
      have hsupervised := handled_of_supervised (horphans w hkept hrunning).2
      simp [onExit_not_handled] at hsupervised
  | _ => exact absurd trivial hleaves

end Step

/-- In every run of the process, whatever the order of signals, deaths and steps of the threads: no worker
is ever left running outside the run of `main()` that looks after it, and none once `main()` is ended by an
exception, just when no launch fails behind a worker that is already running, and no handler goes over the
workers between the fork of one that is running and its record. -/
theorem no_orphans_iff (args : Args) (actions : List Action) :
    (∀ s ∈ Run.visited (step args) init actions, NoOrphans s) ↔
      Run.StepsMeet (step args) LeavesNone init actions :=
  Run.visited_iff_stepsMeet (fun _ h => h.orphans) (fun _ _ _ h hleaves hstep => h.step hleaves hstep)
    (fun _ _ _ h hleaves hstep => h.orphans_of_step hleaves hstep) attended_init

/-- The second of two workers cannot be started: `main()` ends, and the first one goes on. -/
example : ((([.openOutput, .loaded, .append, .fork, .record, .append, .launchFails] : List Action).foldlM
    (step ⟨false, "-", false⟩) init).map fun s => (s.phase, s.workers)) =
      some (.unwinding 1, [⟨0, .running, true⟩]) := by decide

/-- A signal comes between the fork of a worker and its record: the handler fails, and the worker goes on. -/
example : ((([.openOutput, .loaded, .append, .fork, .signal .SIGTERM, .handle .SIGTERM, .handlerTerminates] :
    List Action).foldlM (step ⟨false, "-", false⟩) init).map fun s => (s.phase, s.workers)) =
      some (.unwinding 1, [⟨0, .running, false⟩]) := by decide

end Main

end PidtreeBcc
