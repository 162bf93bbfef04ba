import PidtreeBcc.Main.Orphans

/-!
# Watchdogs — what the health check notices

While `main()` prints events its watchdog is there, and a worker that died is noticed by the next check.  A
watchdog that has noticed something has set the exit code before it sends the signal that ends the process.
-/

namespace PidtreeBcc

open Support

namespace Main

/-- The phases from the start of the watchdog to the end of the loop. -/
def Phase.Guarded : Phase → Bool
  | watching => true
  | polling => true
  | holding _ => true
  | printing _ => true
  | _ => false

/-- The phases of a run before it has a watchdog. -/
def Phase.Fresh : Phase → Bool
  | starting => true
  | configuring => true
  | loading => true
  | launching => true
  | _ => false

/-- A signal is on its way, or its handler was called. -/
def State.Signalled (s : State) (signum : Signal) : Prop :=
  s.pending signum = true ∨ ∃ h ∈ s.handling, h.signum = signum

/-! ## The loop is watched -/

/-- The watchdog of a run is going about its checks, or it has noticed something, and the process with it:
the exit code is set, and the signal that ends the process is about to be sent, on its way, or in the hands of
the handler. -/
def OnWatch (r : Nat) (s : State) : Prop :=
  s.watchdog r = .asleep ∨ s.watchdog r = .checking ∨ s.watchdog r = .reloading ∨
    (s.exitCode = 1 ∧
      (s.watchdog r = .failing ∨ (s.watchdog r = .ended ∧ s.Signalled .SIGTERM)))

/-- Before a run has a watchdog there is nothing of one, and while it prints events it is watched. -/
structure Guard (s : State) : Prop where
  future : ∀ r, s.run < r → s.watchdog r = .absent ∧ s.doStop r = false
  fresh : s.phase.Fresh = true → s.watchdog s.run = .absent ∧ s.doStop s.run = false
  guarded : s.phase.Guarded = true → s.doStop s.run = false ∧ OnWatch s.run s

theorem guard_init : Guard init where
  future _ _ := ⟨rfl, rfl⟩
  fresh _ := ⟨rfl, rfl⟩
  guarded h := by cases h

section Step

variable {args : Args} {s s' : State} {a : Action} {r : Nat}

/-- A watch goes on while its watchdog does nothing, and neither the exit code nor a SIGTERM is lost. -/
theorem OnWatch.of_unchanged (h : OnWatch r s) (hwatchdog : s'.watchdog r = s.watchdog r)
    (hcode : s.exitCode = 1 → s'.exitCode = 1) (hterm : s.Signalled .SIGTERM → s'.Signalled .SIGTERM) :
    OnWatch r s' := by
  unfold OnWatch at h ⊢
  rw [hwatchdog]
  rcases h with hasleep | hchecking | hreloading | ⟨hone, hfailing | ⟨hended, hsent⟩⟩
  · exact Or.inl hasleep
  · exact Or.inr (Or.inl hchecking)
  · exact Or.inr (Or.inr (Or.inl hreloading))
  · exact Or.inr (Or.inr (Or.inr ⟨hcode hone, Or.inl hfailing⟩))
  · exact Or.inr (Or.inr (Or.inr ⟨hcode hone, Or.inr ⟨hended, hterm hsent⟩⟩))

/-- A step that leaves the watchdogs and their flags alone, into a phase that is as guarded as the one before. -/
theorem Guard.move (h : Guard s) (hfresh : s'.phase.Fresh = true → s.phase.Fresh = true)
    (hguarded : s'.phase.Guarded = true → s.phase.Guarded = true) (hrun : s'.run = s.run)
    (hwatchdog : s'.watchdog = s.watchdog) (hdoStop : s'.doStop = s.doStop)
    (hcode : s.exitCode = 1 → s'.exitCode = 1) (hterm : s.Signalled .SIGTERM → s'.Signalled .SIGTERM) :
    Guard s' where
  future := by
    rw [hrun, hwatchdog, hdoStop]
    exact h.future
  fresh hp := by
    rw [hrun, hwatchdog, hdoStop]
    exact h.fresh (hfresh hp)
  guarded hp := by
    rcases h.guarded (hguarded hp) with ⟨hflag, hwatch⟩
    rw [hrun, hdoStop]
    exact ⟨hflag, hwatch.of_unchanged (congrFun hwatchdog _) hcode hterm⟩

/-- A step out of the loop, or of the process. -/
theorem Guard.leave (h : Guard s) (hfresh : s'.phase.Fresh = false) (hguarded : s'.phase.Guarded = false)
    (hrun : s'.run = s.run) (hwatchdog : s'.watchdog = s.watchdog) (hdoStop : s'.doStop = s.doStop) :
    Guard s' where
  future := by
    rw [hrun, hwatchdog, hdoStop]
    exact h.future
  fresh hp := by simp [hfresh] at hp
  guarded hp := by simp [hguarded] at hp

/-- A step of the watchdog of a run. -/
theorem Guard.watchdogStep (h : Guard s) {watchdog : Watchdog} {code : Nat} {pending : Signal → Bool}
    (hpresent : s.watchdog r ≠ .absent) (hcode : s.exitCode = 1 → code = 1)
    (hpending : s.pending .SIGTERM = true → pending .SIGTERM = true)
    (hwatch : s.run = r → s.phase.Guarded = true →
      OnWatch s.run { s with
        exitCode := code
        pending := pending
        watchdog := Function.update s.watchdog r watchdog }) :
    Guard { s with
      exitCode := code
      pending := pending
      watchdog := Function.update s.watchdog r watchdog } where
  future r' hr' := by
    have hne : r' ≠ r := by
      rintro rfl
      exact hpresent (h.future r' hr').1
    simpa [Function.update_of_ne hne] using h.future r' hr'
  fresh hp := by
    have hne : s.run ≠ r := by
      rintro rfl
      exact hpresent (h.fresh hp).1
    simpa [Function.update_of_ne hne] using h.fresh hp
  guarded hp := by
    refine ⟨(h.guarded hp).1, ?_⟩
    by_cases hrun : s.run = r
    · exact hwatch hrun hp
    · exact (h.guarded hp).2.of_unchanged (Function.update_of_ne hrun _ _) hcode (Or.imp_left hpending)

theorem onRestart_fresh (p : Phase) : p.onRestart.Fresh = false := by
  cases p <;> rfl

theorem onRestart_guarded (p : Phase) : p.onRestart.Guarded = false := by
  cases p <;> rfl

theorem onExit_fresh (code : Nat) (p : Phase) : (p.onExit code).Fresh = false := by
  cases p <;> rfl

theorem onExit_guarded (code : Nat) (p : Phase) : (p.onExit code).Guarded = false := by
  cases p <;> rfl

theorem Guard.main (h : Guard s) (hmain : MainTransition args s a s') : Guard s' := by
  cases hmain with
  | install hphase =>
      exact h.move (fun _ => by simp [hphase, Phase.Fresh]) (by simp [Phase.Guarded]) rfl rfl rfl id id
  | openOutput hphase =>
      exact h.move (fun _ => by simp [hphase, Phase.Fresh]) (by simp [Phase.Guarded]) rfl rfl rfl id id
  | loaded hphase =>
      exact h.move (fun _ => by simp [hphase, Phase.Fresh]) (by simp [Phase.Guarded]) rfl rfl rfl id id
  | append hphase hlast => exact ⟨h.future, h.fresh, h.guarded⟩
  | fork hphase hlast => exact ⟨h.future, h.fresh, h.guarded⟩
  | record hphase hlast => exact ⟨h.future, h.fresh, h.guarded⟩
  | startWatchdog hphase hlast =>
      have hflag := (h.fresh (by simp [hphase, Phase.Fresh])).2
      refine ⟨?_, fun hp => (by cases hp), fun _ => ⟨hflag, Or.inl (Function.update_self _ _ _)⟩⟩
      intro r hr
      simpa [Function.update_of_ne (Nat.ne_of_gt hr)] using h.future r hr
  | enterLoop hphase =>
      exact h.move (by simp [Phase.Fresh]) (fun _ => by simp [hphase, Phase.Guarded]) rfl rfl rfl id id
  | get hphase hqueue =>
      exact h.move (by simp [Phase.Fresh]) (fun _ => by simp [hphase, Phase.Guarded]) rfl rfl rfl id id
  | print hphase =>
      exact h.move (by simp [Phase.Fresh]) (fun _ => by simp [hphase, Phase.Guarded]) rfl rfl rfl id id
  | flushed hphase hbuffer =>
      exact h.move (by simp [Phase.Fresh]) (fun _ => by simp [hphase, Phase.Guarded]) rfl rfl rfl id id
  | stop hphase =>
      refine ⟨?_, fun hp => (by cases hp), fun hp => (by cases hp)⟩
      intro r hr
      simpa [Function.update_of_ne (Nat.ne_of_gt hr)] using h.future r hr
  | again hphase hless =>
      refine ⟨?_, fun _ => h.future _ (Nat.lt_succ_self _), fun hp => (by cases hp)⟩
      exact fun r hr => h.future r (Nat.lt_of_succ_lt hr)
  | _ => exact h.leave rfl rfl rfl rfl rfl

theorem Guard.step (h : Guard s) (hstep : Main.step args s a = some s') : Guard s' := by
  cases transition_of_step hstep with
  | main hfree hmain => exact h.main hmain
  | @signal signum hlive =>
      refine h.move id id rfl rfl rfl id (Or.imp_left fun hpending => ?_)
      by_cases hsignum : signum = .SIGTERM
      · simp [hsignum]
      · simpa [Function.update_of_ne (Ne.symm hsignum)] using hpending
  | @handle signum hlive hpending =>
      refine h.move id id rfl rfl rfl id ?_
      -- The signal is handed over, and the calls of before are still there.
      rintro (hsent | ⟨handler, hhandler, hterm⟩)
      · by_cases hsignum : signum = .SIGTERM
        · exact Or.inr ⟨⟨signum, false⟩, List.mem_cons_self, hsignum⟩
        · exact Or.inl (by simpa [Function.update_of_ne (Ne.symm hsignum)] using hsent)
      · exact Or.inr ⟨handler, List.mem_cons_of_mem _ hhandler, hterm⟩
  | @terminates signum outer hhandling hrecorded =>
      refine h.move id id rfl rfl rfl id (Or.imp_right ?_)
      rw [hhandling]
      rintro ⟨handler, hhandler, hterm⟩
      rcases List.mem_cons.1 hhandler with rfl | hold
      · exact ⟨⟨signum, true⟩, List.mem_cons_self, hterm⟩
      · exact ⟨handler, List.mem_cons_of_mem _ hold, hterm⟩
  | attributeError hhandling hunrecorded =>
      exact h.leave (onExit_fresh _ _) (onExit_guarded _ _) rfl rfl rfl
  | restart hhandling => exact h.leave (onRestart_fresh _) (onRestart_guarded _) rfl rfl rfl
  | exit hsignum hhandling => exact h.leave (onExit_fresh _ _) (onExit_guarded _ _) rfl rfl rfl
  | @wake r hlive hasleep =>
      refine h.watchdogStep (by simp [hasleep]) id id ?_
      rintro rfl hguarded
      -- The flag is down, so the watchdog goes on to its check.
      have hflag := (h.guarded hguarded).1
      exact Or.inr (Or.inl (by simp [hflag]))
  | alarm hlive hchecking hbad =>
      refine h.watchdogStep (by simp [hchecking]) (fun _ => rfl) id ?_
      rintro rfl _
      exact Or.inr (Or.inr (Or.inr ⟨rfl, Or.inl (Function.update_self _ _ _)⟩))
  | healthy hlive hchecking halive =>
      refine h.watchdogStep (by simp [hchecking]) id id ?_
      rintro rfl _
      cases hwatch : args.watchConfig with
      | true => exact Or.inr (Or.inr (Or.inl (by simp)))
      | false => exact Or.inl (by simp)
  | kill hlive hfailing =>
      refine h.watchdogStep (by simp [hfailing]) id (fun _ => by simp) ?_
      rintro rfl hguarded
      -- It fails because it noticed something, and then the exit code was set.
      have hcode : s.exitCode = 1 := by
        rcases (h.guarded hguarded).2 with hasleep | hchecking | hreloading | ⟨hcode, _⟩
        · simp [hasleep] at hfailing
        · simp [hchecking] at hfailing
        · simp [hreloading] at hfailing
        · exact hcode
      exact Or.inr (Or.inr (Or.inr ⟨hcode, Or.inr ⟨Function.update_self _ _ _, Or.inl (by simp)⟩⟩))
  | @reload r restart hlive hreloading =>
      refine h.watchdogStep (by simp [hreloading]) id ?_ ?_
      · intro hterm
        cases restart with
        | true => simpa [Function.update_of_ne] using hterm
        | false => exact hterm
      · rintro rfl _
        exact Or.inl (Function.update_self _ _ _)
  | put hworker halive => exact ⟨h.future, h.fresh, h.guarded⟩
  | die hworker hrunning => exact ⟨h.future, h.fresh, h.guarded⟩
  | reap hworker hterminated => exact ⟨h.future, h.fresh, h.guarded⟩
  | write hlive => exact ⟨h.future, h.fresh, h.guarded⟩

end Step

/-! ## A dead worker -/

/-- A worker of the run is gone. -/
def DeadIn (r : Nat) (s : State) : Prop := ∃ w ∈ s.workers, w.run = r ∧ w.status = .dead

/-- The watchdog of the run has sounded the alarm. -/
def Noticed (r : Nat) (s : State) : Prop :=
  s.exitCode = 1 ∧ (s.watchdog r = .failing ∨ s.watchdog r = .ended)

/-- How often a watchdog can still wake up when a worker of its run is dead. -/
def Watchdog.wakesLeft : Watchdog → Nat
  | absent => 1
  | asleep => 1
  | reloading => 1
  | _ => 0

section Dead

variable {args : Args} {s s' : State} {a : Action} {r : Nat}

theorem not_allAlive_of_dead (h : DeadIn r s) : allAlive r s = false := by
  rcases h with ⟨w, hw, hrun, hdead⟩
  unfold allAlive
  rw [Bool.and_eq_false_iff]
  refine Or.inl (List.all_eq_false.2 ⟨w, hw, ?_⟩)
  simp [hrun, hdead, Status.isAlive]

theorem DeadIn.terminateAll (h : DeadIn r s) (r' : Nat) :
    ∃ w ∈ terminateAll r' s.workers, w.run = r ∧ w.status = .dead := by
  rcases h with ⟨w, hw, hrun, hdead⟩
  refine ⟨_, List.mem_map.2 ⟨w, hw, rfl⟩, ?_⟩
  by_cases hreached : w.run = r' ∧ w.recorded = true
  · rw [if_pos hreached]
    exact ⟨hrun, by simp [hdead, Status.terminate]⟩
  · rw [if_neg hreached]
    exact ⟨hrun, hdead⟩

theorem DeadIn.recordAll (h : DeadIn r s) (r' : Nat) :
    ∃ w ∈ recordAll r' s.workers, w.run = r ∧ w.status = .dead := by
  rcases h with ⟨w, hw, hrun, hdead⟩
  refine ⟨_, List.mem_map.2 ⟨w, hw, rfl⟩, ?_⟩
  by_cases hr : w.run = r'
  · rw [if_pos hr]
    exact ⟨hrun, hdead⟩
  · rw [if_neg hr]
    exact ⟨hrun, hdead⟩

theorem DeadIn.setStatus (h : DeadIn r s) (i : Nat) :
    ∃ w ∈ setStatus i .dead s.workers, w.run = r ∧ w.status = .dead := by
  rcases h with ⟨w, hw, hrun, hdead⟩
  rcases List.mem_iff_getElem?.1 hw with ⟨j, hj⟩
  refine ⟨{ w with status := .dead }, ?_, hrun, rfl⟩
  refine List.mem_iff_getElem?.2 ⟨j, ?_⟩
  rw [Main.setStatus, List.getElem?_modify, hj]
  by_cases hij : i = j
  · simp [hij]
  · simp [hij, ← hdead]

/-- The dead stay dead. -/
theorem DeadIn.step (h : DeadIn r s) (hstep : Main.step args s a = some s') : DeadIn r s' := by
  cases transition_of_step hstep with
  | main hfree hmain =>
      cases hmain with
      | fork hphase hlast =>
          rcases h with ⟨w, hw, hdead⟩
          exact ⟨w, List.mem_append_left _ hw, hdead⟩
      | record hphase hlast => exact h.recordAll s.run
      | terminate hphase => exact h.terminateAll s.run
      | _ => exact h
  | terminates hhandling hrecorded => exact h.terminateAll s.handlers
  | attributeError hhandling hunrecorded => exact h.terminateAll s.handlers
  | @die i w hworker hrunning => exact h.setStatus i
  | @reap i w hworker hterminated => exact h.setStatus i
  | _ => exact h

/-- Once a watchdog was started it is not started again. -/
theorem Guard.started_ne (h : Guard s) (hphase : s.phase = .launching) (hpresent : s.watchdog r ≠ .absent) :
    r ≠ s.run := by
  rintro rfl
  exact hpresent (h.fresh (by simp [hphase, Phase.Fresh])).1

/-- With a dead worker in its run, a watchdog that wakes up once does not do so again. -/
theorem wakesLeft_step (hdead : DeadIn r s) (hguard : Guard s) (hstep : step args s a = some s') :
    (s'.watchdog r).wakesLeft + (if a = .wake r then 1 else 0) ≤ (s.watchdog r).wakesLeft := by
  have hother : ∀ {r' : Nat} {watchdog : Watchdog}, r ≠ r' →
      (Function.update s.watchdog r' watchdog r).wakesLeft = (s.watchdog r).wakesLeft := by
    intro r' watchdog hne
    rw [Function.update_of_ne hne]
  cases transition_of_step hstep with
  | main hfree hmain =>
      cases hmain with
      | startWatchdog hphase hlast =>
          by_cases hr : r = s.run
          · subst hr
            simp [(hguard.fresh (by simp [hphase, Phase.Fresh])).1, Watchdog.wakesLeft]
          · simp [hother hr]
      | _ => simp
  | @wake r' hlive hasleep =>
      by_cases hr : r = r'
      · subst hr
        cases hflag : s.doStop r <;> simp [hasleep, Watchdog.wakesLeft]
      · simp [hother hr, Ne.symm hr]
  | @alarm r' badFds hlive hchecking hbad =>
      by_cases hr : r = r'
      · subst hr
        simp [Watchdog.wakesLeft]
      · simp [hother hr]
  | @healthy r' hlive hchecking halive =>
      -- A check with a dead worker does not end well, so it is that of another run.
      have hr : r ≠ r' := by
        rintro rfl
        simp [not_allAlive_of_dead hdead] at halive
      simp [hother hr]
  | @kill r' hlive hfailing =>
      by_cases hr : r = r'
      · subst hr
        simp [Watchdog.wakesLeft]
      · simp [hother hr]
  | @reload r' restart hlive hreloading =>
      by_cases hr : r = r'
      · subst hr
        simp [hreloading, Watchdog.wakesLeft]
      · simp [hother hr]
  | _ => simp

/-- An alarm is not taken back. -/
theorem Noticed.step (h : Noticed r s) (hguard : Guard s) (hstep : step args s a = some s') :
    Noticed r s' := by
  have hpresent : s.watchdog r ≠ .absent := by
    rcases h.2 with hfailing | hended <;> simp [*]
  cases transition_of_step hstep with
  | main hfree hmain =>
      cases hmain with
      | startWatchdog hphase hlast =>
          refine ⟨h.1, ?_⟩
          simpa [Function.update_of_ne (hguard.started_ne hphase hpresent)] using h.2
      | error hphase => exact ⟨rfl, h.2⟩
      | _ => exact h
  | @wake r' hlive hasleep =>
      have hr : r ≠ r' := by
        rintro rfl
        simp [Noticed, hasleep] at h
      exact ⟨h.1, by simpa [Function.update_of_ne hr] using h.2⟩
  | @alarm r' badFds hlive hchecking hbad =>
      by_cases hr : r = r'
      · subst hr
        exact ⟨rfl, Or.inl (Function.update_self _ _ _)⟩
      · exact ⟨rfl, by simpa [Function.update_of_ne hr] using h.2⟩
  | @healthy r' hlive hchecking halive =>
      have hr : r ≠ r' := by
        rintro rfl
        simp [Noticed, hchecking] at h
      exact ⟨h.1, by simpa [Function.update_of_ne hr] using h.2⟩
  | @kill r' hlive hfailing =>
      by_cases hr : r = r'
      · subst hr
        exact ⟨h.1, Or.inr (Function.update_self _ _ _)⟩
      · exact ⟨h.1, by simpa [Function.update_of_ne hr] using h.2⟩
  | @reload r' restart hlive hreloading =>
      have hr : r ≠ r' := by
        rintro rfl
        simp [Noticed, hreloading] at h
      exact ⟨h.1, by simpa [Function.update_of_ne hr] using h.2⟩
  | _ => exact h

/-- A check of the watchdog with a dead worker in its run sounds the alarm. -/
theorem noticed_of_check {badFds : Bool} (hdead : DeadIn r s)
    (hstep : step args s (.check r badFds) = some s') : Noticed r s' := by
  cases transition_of_step hstep with
  | main hfree hmain => cases hmain
  | alarm hlive hchecking hbad => exact ⟨rfl, Or.inl (Function.update_self _ _ _)⟩
  | healthy hlive hchecking halive => simp [not_allAlive_of_dead hdead] at halive

theorem noticed_run : ∀ {actions : List Action} {s s' : State}, Guard s → Noticed r s →
    actions.foldlM (step args) s = some s' → Noticed r s'
  | [], s, s', _, h, hrun => by
      cases hrun
      exact h
  | a :: rest, s, s', hguard, h, hrun => by
      rw [List.foldlM_cons] at hrun
      rcases Option.bind_eq_some_iff.1 hrun with ⟨s₁, hstep, hrest⟩
      exact noticed_run (hguard.step hstep) (h.step hguard hstep) hrest

theorem noticed_of_check_mem : ∀ {actions : List Action} {s s' : State}, Guard s → DeadIn r s →
    actions.foldlM (step args) s = some s' → (∃ badFds, .check r badFds ∈ actions) → Noticed r s'
  | [], s, s', _, _, _, hmem => by simp at hmem
  | a :: rest, s, s', hguard, hdead, hrun, hmem => by
      rw [List.foldlM_cons] at hrun
      rcases Option.bind_eq_some_iff.1 hrun with ⟨s₁, hstep, hrest⟩
      rcases hmem with ⟨badFds, hmem⟩
      rcases List.mem_cons.1 hmem with rfl | hmem
      · exact noticed_run (hguard.step hstep) (noticed_of_check hdead hstep) hrest
      · exact noticed_of_check_mem (hguard.step hstep) (hdead.step hstep) hrest ⟨badFds, hmem⟩

theorem wakes_run : ∀ {actions : List Action} {s s' : State}, Guard s → DeadIn r s →
    actions.foldlM (step args) s = some s' →
      actions.count (.wake r) + (s'.watchdog r).wakesLeft ≤ (s.watchdog r).wakesLeft
  | [], s, s', _, _, hrun => by
      cases hrun
      simp
  | a :: rest, s, s', hguard, hdead, hrun => by
      rw [List.foldlM_cons] at hrun
      rcases Option.bind_eq_some_iff.1 hrun with ⟨s₁, hstep, hrest⟩
      have hfirst := wakesLeft_step hdead hguard hstep
      have hlater := wakes_run (hguard.step hstep) (hdead.step hstep) hrest
      rw [List.count_cons]
      simp only [beq_iff_eq]
      omega

end Dead

/-- From every state of the process that can be reached and has a dead worker, whatever happens next.  While
`main()` prints events, the flag of its watchdog is down and the watchdog is on watch.  The watchdog of the
worker's run wakes up at most once more; when it has checked, the exit code is 1, and while that run goes on, the
signal that ends it is about to be sent, on its way, or in the hands of the handler. -/
theorem dead_worker_noticed (args : Args) {before after : List Action} {s s' : State} {r : Nat}
    (hreach : before.foldlM (step args) init = some s) (hdead : DeadIn r s)
    (hrun : after.foldlM (step args) s = some s') :
    (s'.phase.InLoop = true → s'.doStop s'.run = false ∧ OnWatch s'.run s') ∧
      after.count (.wake r) ≤ 1 ∧
      ((∃ badFds, .check r badFds ∈ after) → s'.exitCode = 1 ∧
        (s'.phase.InLoop = true → s'.run = r →
          s'.watchdog r = .failing ∨ s'.Signalled .SIGTERM)) := by
  have hguard : Guard s := Run.foldlM_inv (fun _ _ _ h hstep => Guard.step h hstep) guard_init hreach
  have hguard' : Guard s' := Run.foldlM_inv (fun _ _ _ h hstep => Guard.step h hstep) hguard hrun
  have hloop : s'.phase.InLoop = true → s'.phase.Guarded = true := by
    cases s'.phase <;> simp [Phase.InLoop, Phase.Guarded]
  refine ⟨fun hphase => hguard'.guarded (hloop hphase), ?_, ?_⟩
  · have hwakes := wakes_run hguard hdead hrun
    have hleft : (s.watchdog r).wakesLeft ≤ 1 := by
      cases s.watchdog r <;> simp [Watchdog.wakesLeft]
    omega
  · intro hcheck
    rcases noticed_of_check_mem hguard hdead hrun hcheck with ⟨hcode, hwatchdog⟩
    refine ⟨hcode, ?_⟩
    rintro hphase rfl
    rcases (hguard'.guarded (hloop hphase)).2 with hasleep | hchecking | hreloading | ⟨_, hfailing | hended⟩
    · simp [hasleep] at hwatchdog
    · simp [hchecking] at hwatchdog
    · simp [hreloading] at hwatchdog
    · exact Or.inl hfailing
    · exact Or.inr hended.2

namespace Example

def args : Args := ⟨false, "-", false⟩

/-- One probe, up to the loop; then its process dies. -/
def death : List Action :=
  [.openOutput, .loaded, .append, .fork, .record, .startWatchdog, .enterLoop, .die 0]

/-- The next round of the watchdog. -/
def round : List Action := [.wake 0, .check 0 false]

end Example

theorem death_noticed : ∃ s s', Example.death.foldlM (step Example.args) init = some s ∧
    Example.round.foldlM (step Example.args) s = some s' ∧ s'.exitCode = 1 ∧
      (s'.watchdog 0 = .failing ∨ s'.Signalled .SIGTERM) := by
  have hworkers : (Example.death.foldlM (step Example.args) init).map (·.workers) =
      some [⟨0, .dead, true⟩] := by decide +kernel
  have hboth : ((Example.death ++ Example.round).foldlM (step Example.args) init).map
      (fun s => (s.phase, s.run)) = some (.polling, 0) := by decide +kernel
  rcases Option.map_eq_some_iff.1 hworkers with ⟨s, hs, hdead⟩
  rw [List.foldlM_append, hs] at hboth
  rcases Option.map_eq_some_iff.1 hboth with ⟨s', hs', hEq⟩
  have hphase : s'.phase = .polling := congrArg Prod.fst hEq
  have hrun : s'.run = 0 := congrArg Prod.snd hEq
  have hdead' : DeadIn 0 s := ⟨⟨0, .dead, true⟩, by simp [hdead], rfl, rfl⟩
  rcases dead_worker_noticed Example.args hs hdead' hs' with ⟨_, _, hchecked⟩
  rcases hchecked ⟨false, by simp [Example.round]⟩ with ⟨hcode, halarm⟩
  exact ⟨s, s', hs, hs', hcode, halarm (by simp [hphase, Phase.InLoop]) hrun⟩

end Main

end PidtreeBcc
