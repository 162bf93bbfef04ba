import PidtreeBcc.Main.Orphans

/-!
# Output — what becomes of the events that the workers put on the queue

Every run of `main()` has a queue of its own.  What the loop takes from it is printed at once, so the lines
of a run come out in the order in which its workers put them, and none comes out twice.  A restart drops what
is left in the queue, and one line that may have been taken out of it; and where the output is a file, it
starts over.

Between `print` and `flush` a line is partly in the file and partly in the buffer of a handle.  A restart that is
raised there leaves the buffer to a handle that stands where the file used to end.
-/

namespace PidtreeBcc

open Support

namespace Main

/-- The line that the loop has taken from the queue and not printed and flushed yet. -/
def inHand : Phase → List String
  | .holding line => [line]
  | .printing line => [line]
  | _ => []

/-- The phases of a run before its first worker. -/
def Phase.Workless : Phase → Bool
  | starting => true
  | configuring => true
  | loading => true
  | _ => false

/-- The phases of a run from its first worker to the end of its loop. -/
def Phase.Works : Phase → Bool
  | launching => true
  | watching => true
  | p => p.InLoop

/-- The phases up to the end of the loop in which the output of the run is open. -/
def Phase.Writes : Phase → Bool
  | loading => true
  | p => p.Works

/-! ## Lines -/

/-- What the lines that were put on the queue of a run have become. -/
def LinesOf (r : Nat) (io : Io) (hand : List String) : Prop :=
  io.puts r = io.printed r ++ hand ++ io.outputQueue r

/-- The lines of each run: printed, in hand or lost with a restart, and left in the queue.  Nothing is there
of a run to come. -/
structure Accounted (s : State) : Prop where
  runs : ∀ w ∈ s.workers, w.run ≤ s.run
  lines : ∀ r, ∃ hand, hand.length ≤ 1 ∧ LinesOf r s.io hand
  current : s.phase.Works = true → LinesOf s.run s.io (inHand s.phase)
  unused : ∀ r, s.run < r → s.io.puts r = [] ∧ s.io.printed r = [] ∧ s.io.outputQueue r = []
  workless : s.phase.Workless = true → s.io.puts s.run = [] ∧ ∀ w ∈ s.workers, w.run ≠ s.run
  opened : s.phase.Writes = true → s.io.opened = s.run

theorem accounted_init : Accounted init where
  runs w hw := by cases hw
  lines r := ⟨[], by simp, rfl⟩
  current h := by cases h
  unused _ _ := ⟨rfl, rfl, rfl⟩
  workless _ := ⟨rfl, fun w hw => by cases hw⟩
  opened h := by cases h

section Step

variable {args : Args} {s s' : State} {a : Action}

/-- A run that has put nothing has printed nothing, and its queue is empty. -/
theorem LinesOf.of_nothing_put {r : Nat} {io : Io} {hand : List String} (h : LinesOf r io hand)
    (hputs : io.puts r = []) : io.printed r = [] ∧ hand = [] ∧ io.outputQueue r = [] := by
  rw [LinesOf, hputs, eq_comm, List.append_eq_nil_iff, List.append_eq_nil_iff] at h
  exact ⟨h.1.1, h.1.2, h.2⟩

/-- A line that is put is the last one of the queue. -/
theorem LinesOf.put {r r' : Nat} {io : Io} {hand : List String} (h : LinesOf r io hand) (line : String) :
    LinesOf r (io.put r' line) hand := by
  unfold LinesOf at h ⊢
  by_cases hr : r = r'
  · subst hr
    simp [Io.put, h]
  · simpa [Io.put, Function.update_of_ne hr] using h

/-- A step that leaves the lines alone. -/
theorem Accounted.keep (h : Accounted s) (hruns : ∀ w ∈ s'.workers, w.run ≤ s.run)
    (hrun : s'.run = s.run) (hputs : s'.io.puts = s.io.puts) (hprinted : s'.io.printed = s.io.printed)
    (hqueue : s'.io.outputQueue = s.io.outputQueue)
    (hcurrent : s'.phase.Works = true → LinesOf s.run s.io (inHand s'.phase))
    (hworkless : s'.phase.Workless = true → s.io.puts s.run = [] ∧ ∀ w ∈ s'.workers, w.run ≠ s.run)
    (hwrites : s'.phase.Writes = true → s'.io.opened = s.run) : Accounted s' where
  runs := by
    rw [hrun]
    exact hruns
  lines := by
    unfold LinesOf
    rw [hputs, hprinted, hqueue]
    exact h.lines
  current hphase := by
    unfold LinesOf
    rw [hrun, hputs, hprinted, hqueue]
    exact hcurrent hphase
  unused := by
    rw [hrun, hputs, hprinted, hqueue]
    exact h.unused
  workless hphase := by
    rw [hrun, hputs]
    exact hworkless hphase
  opened hphase := by
    rw [hrun]
    exact hwrites hphase

/-- The lines of a run that puts nothing at first. -/
theorem Accounted.nothing (h : Accounted s) (hputs : s.io.puts s.run = []) :
    s.io.printed s.run = [] ∧ s.io.outputQueue s.run = [] := by
  rcases h.lines s.run with ⟨hand, _, hlines⟩
  have hnothing := hlines.of_nothing_put hputs
  exact ⟨hnothing.1, hnothing.2.2⟩

/-- The phases out of the loop, or of the process. -/
def Phase.Outside (p : Phase) : Prop := p.Works = false ∧ p.Workless = false ∧ p.Writes = false

/-- A step out of the loop, or of the process. -/
theorem Accounted.leave (h : Accounted s) (hruns : ∀ w ∈ s'.workers, w.run ≤ s.run)
    (hrun : s'.run = s.run) (hputs : s'.io.puts = s.io.puts) (hprinted : s'.io.printed = s.io.printed)
    (hqueue : s'.io.outputQueue = s.io.outputQueue) (houtside : s'.phase.Outside) : Accounted s' :=
  h.keep hruns hrun hputs hprinted hqueue (by simp [houtside.1]) (by simp [houtside.2.1])
    (by simp [houtside.2.2])

theorem outside_onRestart (p : Phase) : p.onRestart.Outside := by
  cases p <;> exact ⟨rfl, rfl, rfl⟩

theorem outside_onExit (code : Nat) (p : Phase) : (p.onExit code).Outside := by
  cases p <;> exact ⟨rfl, rfl, rfl⟩

theorem Accounted.runs_terminateAll (h : Accounted s) (r : Nat) :
    ∀ w ∈ terminateAll r s.workers, w.run ≤ s.run := by
  intro w hw
  rcases mem_terminateAll hw with ⟨w₀, hw₀, hEq, _⟩
  exact hEq ▸ h.runs w₀ hw₀

/-- The workers change, each staying in its run. -/
theorem Accounted.workers (h : Accounted s) {workers : List Worker}
    (hsame : ∀ w ∈ workers, ∃ w₀ ∈ s.workers, w.run = w₀.run) {handling : List Handler} {last : Last} :
    Accounted { s with workers := workers, handling := handling, last := last } := by
  refine h.keep ?_ rfl rfl rfl rfl h.current ?_ h.opened
  · intro w hw
    rcases hsame w hw with ⟨w₀, hw₀, hEq⟩
    exact hEq ▸ h.runs w₀ hw₀
  · intro hphase
    rcases h.workless hphase with ⟨hputs, hnone⟩
    refine ⟨hputs, ?_⟩
    intro w hw
    rcases hsame w hw with ⟨w₀, hw₀, hEq⟩
    exact hEq ▸ hnone w₀ hw₀

theorem run_setStatus {i : Nat} {status : Status} {workers : List Worker} {w : Worker}
    (h : w ∈ setStatus i status workers) : ∃ w₀ ∈ workers, w.run = w₀.run := by
  rcases mem_setStatus h with hold | ⟨w₀, hw₀, rfl⟩
  · exact ⟨w, hold, rfl⟩
  · exact ⟨w₀, List.mem_of_getElem? hw₀, rfl⟩

/-- A worker puts a line on the queue of its run. -/
theorem Accounted.put (h : Accounted s) {w : Worker} (hw : w ∈ s.workers) (line : String) :
    Accounted { s with io := s.io.put w.run line } where
  runs := h.runs
  lines r := by
    rcases h.lines r with ⟨hand, hlen, hlines⟩
    exact ⟨hand, hlen, hlines.put line⟩
  current hphase := (h.current hphase).put line
  unused r hr := by
    have hne : r ≠ w.run := Nat.ne_of_gt (Nat.lt_of_le_of_lt (h.runs w hw) hr)
    simpa [Io.put, Function.update_of_ne hne] using h.unused r hr
  workless hphase := by
    rcases h.workless hphase with ⟨hputs, hnone⟩
    refine ⟨?_, hnone⟩
    simpa [Io.put, Function.update_of_ne (Ne.symm (hnone w hw))] using hputs
  opened := h.opened

/-- The loop takes a line from the queue. -/
theorem Accounted.get (h : Accounted s) {line : String} {rest : List String}
    (hphase : s.phase = .polling) (hqueue : s.io.outputQueue s.run = line :: rest) :
    Accounted { s with phase := .holding line, io := s.io.get s.run rest } := by
  have hlines : s.io.puts s.run = s.io.printed s.run ++ [line] ++ rest := by
    have hcurrent := h.current (by simp [hphase, Phase.Works, Phase.InLoop])
    simpa [LinesOf, hphase, inHand, hqueue] using hcurrent
  exact
    { runs := h.runs
      lines := by
        intro r
        by_cases hr : r = s.run
        · subst hr
          exact ⟨[line], by simp, by simpa [LinesOf, Io.get] using hlines⟩
        · rcases h.lines r with ⟨hand, hlen, hold⟩
          exact ⟨hand, hlen, by simpa [LinesOf, Io.get, Function.update_of_ne hr] using hold⟩
      current := fun _ => by simpa [LinesOf, Io.get, inHand] using hlines
      unused := by
        intro r hr
        simpa [Io.get, Function.update_of_ne (Nat.ne_of_gt hr)] using h.unused r hr
      workless := fun hp => by cases hp
      opened := fun _ => h.opened (by simp [hphase, Phase.Writes, Phase.Works, Phase.InLoop]) }

/-- The line that the loop took is printed and flushed. -/
theorem Accounted.flushed (h : Accounted s) {line : String} (hphase : s.phase = .printing line) :
    Accounted { s with phase := .polling, io := s.io.flushed s.run line } := by
  have hlines : s.io.puts s.run = s.io.printed s.run ++ [line] ++ s.io.outputQueue s.run := by
    have hcurrent := h.current (by simp [hphase, Phase.Works, Phase.InLoop])
    simpa [LinesOf, hphase, inHand] using hcurrent
  exact
    { runs := h.runs
      lines := by
        intro r
        by_cases hr : r = s.run
        · subst hr
          exact ⟨[], by simp, by simpa [LinesOf, Io.flushed] using hlines⟩
        · rcases h.lines r with ⟨hand, hlen, hold⟩
          exact ⟨hand, hlen, by simpa [LinesOf, Io.flushed, Function.update_of_ne hr] using hold⟩
      current := fun _ => by simpa [LinesOf, Io.flushed, inHand] using hlines
      unused := by
        intro r hr
        simpa [Io.flushed, Function.update_of_ne (Nat.ne_of_gt hr)] using h.unused r hr
      workless := fun hp => by cases hp
      opened := fun _ => h.opened (by simp [hphase, Phase.Writes, Phase.Works, Phase.InLoop]) }

theorem Accounted.main (h : Accounted s) (hmain : MainTransition args s a s') : Accounted s' := by
  have hwrites : ∀ {p : Phase}, s.phase = p → p.Writes = true → s.io.opened = s.run := by
    rintro p rfl
    exact h.opened
  have hidle : ∀ {p p' : Phase}, s.phase = p → p.Works = true → inHand p = inHand p' →
      LinesOf s.run s.io (inHand p') := by
    rintro p p' rfl hworks hhand
    exact hhand ▸ h.current hworks
  cases hmain with
  | install hphase =>
      exact h.keep h.runs rfl rfl rfl rfl (fun hp => (by cases hp))
        (fun _ => h.workless (by simp [hphase, Phase.Workless])) (fun hp => (by cases hp))
  | openOutput hphase =>
      have hworkless := h.workless (by simp [hphase, Phase.Workless])
      unfold Io.smartOpen
      split
      · exact h.keep h.runs rfl rfl rfl rfl (fun hp => (by cases hp)) (fun _ => hworkless) (fun _ => rfl)
      · exact h.keep h.runs rfl rfl rfl rfl (fun hp => (by cases hp)) (fun _ => hworkless) (fun _ => rfl)
  | loaded hphase =>
      have hworkless := h.workless (by simp [hphase, Phase.Workless])
      have hnothing := h.nothing hworkless.1
      exact h.keep h.runs rfl rfl rfl rfl
        (fun _ => by simp [LinesOf, inHand, hworkless.1, hnothing.1, hnothing.2])
        (fun hp => (by cases hp)) (fun _ => hwrites hphase rfl)
  | append hphase hlast => exact ⟨h.runs, h.lines, h.current, h.unused, h.workless, h.opened⟩
  | fork hphase hlast =>
      refine h.keep ?_ rfl rfl rfl rfl h.current ?_ h.opened
      · intro w hw
        rcases List.mem_append.1 hw with hold | hnew
        · exact h.runs w hold
        · exact Nat.le_of_eq (congrArg Worker.run (List.mem_singleton.1 hnew))
      · intro hp
        simp [hphase, Phase.Workless] at hp
  | record hphase hlast =>
      refine h.workers ?_
      intro w hw
      rcases mem_recordAll hw with ⟨w₀, hw₀, hrun, _⟩
      exact ⟨w₀, hw₀, hrun⟩
  | startWatchdog hphase hlast =>
      exact h.keep h.runs rfl rfl rfl rfl (fun _ => hidle hphase rfl rfl) (fun hp => (by cases hp))
        (fun _ => hwrites hphase rfl)
  | enterLoop hphase =>
      exact h.keep h.runs rfl rfl rfl rfl (fun _ => hidle hphase rfl rfl) (fun hp => (by cases hp))
        (fun _ => hwrites hphase rfl)
  | get hphase hqueue => exact h.get hphase hqueue
  | print hphase =>
      exact h.keep h.runs rfl rfl rfl rfl (fun _ => hidle hphase rfl rfl) (fun hp => (by cases hp))
        (fun _ => hwrites hphase rfl)
  | flushed hphase hbuffer => exact h.flushed hphase
  | terminate hphase => exact h.leave (h.runs_terminateAll s.run) rfl rfl rfl rfl ⟨rfl, rfl, rfl⟩
  | again hphase hless =>
      have hnext := h.unused (s.run + 1) (Nat.lt_succ_self _)
      refine ⟨fun w hw => Nat.le_succ_of_le (h.runs w hw), h.lines, fun hp => (by cases hp), ?_, ?_,
        fun hp => (by cases hp)⟩
      · exact fun r hr => h.unused r (Nat.lt_of_succ_lt hr)
      · refine fun _ => ⟨hnext.1, ?_⟩
        intro w hw hEq
        have hle := h.runs w hw
        -- The next run has no workers yet.
        exact absurd (hEq ▸ hle) (Nat.not_succ_le_self _)
  | _ => exact h.leave h.runs rfl rfl rfl rfl ⟨rfl, rfl, rfl⟩

theorem Accounted.step (h : Accounted s) (hstep : Main.step args s a = some s') : Accounted s' := by
  cases transition_of_step hstep with
  | main hfree hmain => exact h.main hmain
  | terminates hhandling hrecorded =>
      refine h.workers ?_
      intro w hw
      rcases mem_terminateAll hw with ⟨w₀, hw₀, hrun, _⟩
      exact ⟨w₀, hw₀, hrun⟩
  | attributeError hhandling hunrecorded =>
      exact h.leave (h.runs_terminateAll s.handlers) rfl rfl rfl rfl (outside_onExit _ _)
  | restart hhandling => exact h.leave h.runs rfl rfl rfl rfl (outside_onRestart _)
  | exit hsignum hhandling => exact h.leave h.runs rfl rfl rfl rfl (outside_onExit _ _)
  | put hworker halive => exact h.put (List.mem_of_getElem? hworker) _
  | die hworker hrunning => exact h.workers fun w hw => run_setStatus hw
  | reap hworker hterminated => exact h.workers fun w hw => run_setStatus hw
  | _ => exact ⟨h.runs, h.lines, h.current, h.unused, h.workless, h.opened⟩

end Step

/-! ## Text -/

/-- `print(line, file=out)` for each line. -/
def outText (lines : List String) : List Char := lines.flatMap fun line => line.toList ++ ['\n']

/-- The lines that the output is to have: all that were printed on the standard output, and in a file those of
the run that opened it last. -/
def State.shown (args : Args) (s : State) : List String :=
  if args.opensFile then s.io.printed s.io.opened else (List.range (s.run + 1)).flatMap s.io.printed

/-- The handle of the run. -/
def State.handle (args : Args) (s : State) : Handle Char := s.io.handles (args.handleOf s.run)

/-- The phases in which no line is on its way through `print` and `flush`, nor may have been left there by an
exception that ended `main()`. -/
def Phase.Whole : Phase → Bool
  | printing _ => false
  | erring => false
  | erred => false
  | p => !p.Leaving

/-- No restart is raised while a line is on its way. -/
def unbroken (s : State) : Action → Bool
  | .handlerRaises _ => !s.restarting || s.phase.Whole
  | _ => true

/-- How much of the line in hand the handle was given: nothing where no line is on its way, all of it in `print`,
and a part that has not been dropped behind an exception. -/
structure Given (p : Phase) (hand : List String) (text : List Char) : Prop where
  isPrefix : text <+: outText hand
  whole : p.Whole = true → text = []
  printing : ∀ line, p = .printing line → hand = [line] ∧ text = outText [line]

/-- The output has the lines that were printed, and then some of the line in hand; what the handle was given of
that line is there or in its buffer. -/
structure Tail (args : Args) (s : State) (hand : List String) (part : List Char) : Prop where
  length : hand.length ≤ 1
  lines : LinesOf s.run s.io hand
  out : s.io.out = outText (s.shown args) ++ part
  given : Given s.phase hand (part ++ (s.handle args).buffer)
  opened : part ++ (s.handle args).buffer ≠ [] → s.io.opened = s.run

/-- The handle of the run stands at the end of the output once it is open and may be written to, and no other one
has anything to write. -/
structure Written (args : Args) (s : State) : Prop extends Accounted s where
  others : ∀ k, k ≠ args.handleOf s.run → (s.io.handles k).buffer = []
  atEnd : s.phase.Writes = true ∨ (s.handle args).buffer ≠ [] ∨ args.opensFile = false →
    (s.handle args).AtEnd s.io.out
  tail : ∃ hand part, Tail args s hand part

theorem outText_append (lines lines' : List String) : outText (lines ++ lines') = outText lines ++ outText lines' :=
  List.flatMap_append

theorem written_init (args : Args) : Written args init where
  toAccounted := accounted_init
  others _ _ := rfl
  atEnd _ := rfl
  tail := by
    refine ⟨[], [], ⟨by simp, rfl, ?_, ⟨List.prefix_rfl, fun _ => rfl, fun line h => by cases h⟩, ?_⟩⟩
    · cases hfile : args.opensFile <;> simp [init, State.shown, hfile, outText]
    · exact fun h => absurd rfl h

section Step

variable {args : Args} {s s' : State} {a : Action}

theorem given_nil {p : Phase} (hand : List String) (hprinting : ∀ line, p ≠ .printing line) : Given p hand [] :=
  ⟨List.nil_prefix, fun _ => rfl, fun line h => absurd h (hprinting line)⟩

/-- Behind an exception, or with an empty buffer, the phase can change. -/
theorem Given.move {p p' : Phase} {hand : List String} {text : List Char} (h : Given p hand text)
    (hwhole : p'.Whole = true → p.Whole = true) (hprinting : ∀ line, p' ≠ .printing line) :
    Given p' hand text :=
  ⟨h.isPrefix, fun hp => h.whole (hwhole hp), fun line hp => absurd hp (hprinting line)⟩

/-- An exception in the loop drops the rest of the text. -/
theorem Given.cut {p p' : Phase} {hand : List String} {part buffer : List Char}
    (h : Given p hand (part ++ buffer)) (hwhole : p'.Whole = false) (hprinting : ∀ line, p' ≠ .printing line)
    (kept : Nat) : Given p' hand (part ++ buffer.take kept) := by
  refine ⟨List.IsPrefix.trans ?_ h.isPrefix, fun hp => by simp [hwhole] at hp,
    fun line hp => absurd hp (hprinting line)⟩
  -- What is kept of the buffer stands where it stood.
  rw [List.prefix_append_right_inj]
  exact List.take_prefix kept buffer

/-- A step that leaves the output alone. -/
theorem Written.keep (h : Written args s) (haccounted : Accounted s') (hrun : s'.run = s.run)
    (hio : s'.io = s.io) (hgiven : ∀ hand text, Given s.phase hand text → Given s'.phase hand text)
    (hwrites : s'.phase.Writes = true → s.phase.Writes = true) : Written args s' where
  toAccounted := haccounted
  others := by
    rw [hrun, hio]
    exact h.others
  atEnd hopen := by
    rw [State.handle, hrun, hio] at hopen ⊢
    exact h.atEnd (hopen.imp_left hwrites)
  tail := by
    rcases h.tail with ⟨hand, part, htail⟩
    refine ⟨hand, part, ⟨htail.length, ?_, ?_, ?_, ?_⟩⟩
    · rw [hrun, hio]
      exact htail.lines
    · rw [State.shown, hrun, hio]
      exact htail.out
    · rw [State.handle, hrun, hio]
      exact hgiven _ _ htail.given
    · rw [State.handle, hrun, hio]
      exact htail.opened

/-- Where no line is on its way, nothing is in any buffer. -/
theorem Written.empty (h : Written args s) (hwhole : s.phase.Whole = true) :
    (s.handle args).buffer = [] ∧ s.io.out = outText (s.shown args) := by
  rcases h.tail with ⟨hand, part, htail⟩
  have hnone := htail.given.whole hwhole
  rw [List.append_eq_nil_iff] at hnone
  refine ⟨hnone.2, ?_⟩
  rw [htail.out, hnone.1, List.append_nil]

/-- The run opens its output. -/
theorem Written.smartOpen (h : Written args s) (hphase : s.phase = .configuring)
    (haccounted : Accounted { s with phase := .loading, io := s.io.smartOpen args s.run }) :
    Written args { s with phase := .loading, io := s.io.smartOpen args s.run } := by
  have hworkless := h.workless (by simp [hphase, Phase.Workless])
  have hnothing := h.nothing hworkless.1
  rcases h.empty (by simp [hphase, Phase.Whole, Phase.Leaving]) with ⟨hbuffer, hout⟩
  cases hfile : args.opensFile with
  | true =>
      refine ⟨haccounted, ?_, ?_, [], [], ⟨by simp, ?_, ?_, ?_, ?_⟩⟩
      · intro k hk
        have hold := h.others k hk
        have hne : k ≠ s.run := by simpa [Args.handleOf, hfile] using hk
        simpa [Io.smartOpen, hfile, Function.update_of_ne hne] using hold
      · intro _
        simp [State.handle, Io.smartOpen, Args.handleOf, hfile, Handle.atEnd_opened]
      · simp [LinesOf, Io.smartOpen, hfile, hworkless.1, hnothing.1, hnothing.2]
      · simp [State.shown, Io.smartOpen, hfile, hnothing.1, outText]
      · simpa [State.handle, Io.smartOpen, Args.handleOf, hfile, Handle.opened] using
          given_nil [] fun line => (by simp)
      · simp [Io.smartOpen, hfile]
  | false =>
      refine ⟨haccounted, ?_, ?_, [], [], ⟨by simp, ?_, ?_, ?_, ?_⟩⟩
      · simpa [Io.smartOpen, hfile] using h.others
      · intro _
        simpa [State.handle, Io.smartOpen, hfile] using h.atEnd (Or.inr (Or.inr hfile))
      · simp [LinesOf, Io.smartOpen, hfile, hworkless.1, hnothing.1, hnothing.2]
      · simpa [State.shown, Io.smartOpen, hfile] using hout
      · have hnone : (s.io.handles (args.handleOf s.run)).buffer = [] := hbuffer
        simpa [State.handle, Io.smartOpen, hfile, hnone] using given_nil [] fun line => (by simp)
      · simp [Io.smartOpen, hfile]

/-- The loop gives the line that it holds to the handle. -/
theorem Written.print (h : Written args s) {line : String} (hphase : s.phase = .holding line)
    (haccounted : Accounted
      { s with phase := .printing line, io := s.io.print (args.handleOf s.run) line }) :
    Written args { s with phase := .printing line, io := s.io.print (args.handleOf s.run) line } := by
  rcases h.empty (by simp [hphase, Phase.Whole, Phase.Leaving]) with ⟨hbuffer, hout⟩
  have hwrites : s.phase.Writes = true := by simp [hphase, Phase.Writes, Phase.Works, Phase.InLoop]
  have hend : (s.io.handles (args.handleOf s.run)).AtEnd s.io.out := h.atEnd (Or.inl hwrites)
  have hlines := h.current (by simp [hphase, Phase.Works, Phase.InLoop])
  have hnone : (s.io.handles (args.handleOf s.run)).buffer = [] := hbuffer
  refine ⟨haccounted, ?_, ?_, [line], [], ⟨by simp, ?_, ?_, ?_, ?_⟩⟩
  · intro k hk
    simpa [Io.print, Function.update_of_ne hk] using h.others k hk
  · intro _
    simpa [State.handle, Io.print, Handle.put, Handle.AtEnd] using hend
  · simpa [hphase, inHand, LinesOf, Io.print] using hlines
  · simpa [State.shown, Io.print] using hout
  · have hall : Given (.printing line) [line] (outText [line]) := by
      refine ⟨List.prefix_rfl, fun hp => (by cases hp), ?_⟩
      intro line' hEq
      cases hEq
      exact ⟨rfl, rfl⟩
    simpa [State.handle, Io.print, Handle.put, hnone, outText] using hall
  · exact fun _ => h.opened hwrites

/-- The line has gone out. -/
theorem Written.flushed (h : Written args s) {line : String} (hphase : s.phase = .printing line)
    (hbuffer : (s.io.handles (args.handleOf s.run)).buffer = [])
    (haccounted : Accounted { s with phase := .polling, io := s.io.flushed s.run line }) :
    Written args { s with phase := .polling, io := s.io.flushed s.run line } := by
  have hwrites : s.phase.Writes = true := by simp [hphase, Phase.Writes, Phase.Works, Phase.InLoop]
  have hopened : s.io.opened = s.run := h.opened hwrites
  rcases h.tail with ⟨hand, part, htail⟩
  rcases htail.given.printing line hphase with ⟨_, htext⟩
  have hpart : part = outText [line] := by
    rw [← htext, State.handle, hbuffer, List.append_nil]
  have hcurrent := haccounted.current rfl
  refine ⟨haccounted, h.others, fun _ => h.atEnd (Or.inl hwrites), [], [], ⟨by simp, hcurrent, ?_, ?_, ?_⟩⟩
  · have hshown : State.shown args { s with phase := .polling, io := s.io.flushed s.run line } =
        s.shown args ++ [line] := by
      cases hfile : args.opensFile with
      | true => simp [State.shown, Io.flushed, hfile, hopened]
      | false =>
          -- Only the last run of the list printed something more.
          have hbefore : (List.range s.run).flatMap
              (Function.update s.io.printed s.run (s.io.printed s.run ++ [line])) =
                (List.range s.run).flatMap s.io.printed := by
            refine List.flatMap_congr ?_
            intro r hr
            exact Function.update_of_ne (Nat.ne_of_lt (List.mem_range.1 hr)) _ _
          simp [State.shown, Io.flushed, hfile, List.range_succ, hbefore]
    rw [hshown, outText_append, List.append_nil, ← hpart]
    exact htail.out
  · simpa [State.handle, Io.flushed, hbuffer] using given_nil [] fun line => (by simp)
  · exact fun _ => hopened

/-- An exception out of the loop, or out of a handler, which ends `main()`. -/
theorem Written.cut (h : Written args s) {p : Phase} {kept exitCode : Nat} {handling : List Handler}
    (hwhole : p.Whole = false) (hprinting : ∀ line, p ≠ .printing line) (hwrites : p.Writes = false)
    (haccounted : Accounted { s with
      phase := p
      exitCode := exitCode
      handling := handling
      io := s.io.cut (args.handleOf s.run) kept }) :
    Written args { s with
      phase := p
      exitCode := exitCode
      handling := handling
      io := s.io.cut (args.handleOf s.run) kept } := by
  have hbuffer : ((s.io.cut (args.handleOf s.run) kept).handles (args.handleOf s.run)).buffer =
      (s.handle args).buffer.take kept := by simp [Io.cut, Handle.cut, State.handle]
  have hsome : (s.handle args).buffer.take kept ≠ [] → (s.handle args).buffer ≠ [] := by
    intro htake hnil
    simp [hnil] at htake
  refine ⟨haccounted, ?_, ?_, ?_⟩
  · intro k hk
    simpa [Io.cut, Function.update_of_ne hk] using h.others k hk
  · intro hopen
    -- If there is anything left to write, the handle stood at the end before.
    have hend : (s.handle args).AtEnd s.io.out := by
      rcases hopen with hopen | hopen | hfile
      · simp [hwrites] at hopen
      · rw [State.handle, hbuffer] at hopen
        exact h.atEnd (Or.inr (Or.inl (hsome hopen)))
      · exact h.atEnd (Or.inr (Or.inr hfile))
    simpa [State.handle, Io.cut, Handle.cut, Handle.AtEnd] using hend
  · rcases h.tail with ⟨hand, part, htail⟩
    refine ⟨hand, part, ⟨htail.length, htail.lines, htail.out, ?_, ?_⟩⟩
    · rw [State.handle, hbuffer]
      exact htail.given.cut hwhole hprinting kept
    · rw [State.handle, hbuffer]
      intro hnot
      refine htail.opened ?_
      intro hnil
      rw [List.append_eq_nil_iff] at hnil
      simp [hnil.1, hnil.2] at hnot

/-- Some of the text of a handle reaches the file. -/
theorem Written.write (h : Written args s) (k n : Nat) (haccounted : Accounted { s with io := s.io.write k n }) :
    Written args { s with io := s.io.write k n } := by
  by_cases hnil : (s.io.handles k).buffer = []
  · have hsame : s.io.write k n = s.io := by
      simp [Io.write, Handle.drain_of_buffer_nil hnil, Handle.drainTo_of_buffer_nil hnil]
    exact h.keep haccounted rfl hsame (fun _ _ => id) id
  · -- Only the handle of the run has anything to write, and it stands at the end.
    have hk : k = args.handleOf s.run := by
      by_contra hne
      exact hnil (h.others k hne)
    subst hk
    have hend : (s.io.handles (args.handleOf s.run)).AtEnd s.io.out := h.atEnd (Or.inr (Or.inl hnil))
    rcases h.tail with ⟨hand, part, htail⟩
    have hbuffer : part ++ (s.io.handles (args.handleOf s.run)).buffer.take n ++
        (s.io.handles (args.handleOf s.run)).buffer.drop n = part ++ (s.handle args).buffer := by
      rw [List.append_assoc, List.take_append_drop]
      rfl
    refine ⟨haccounted, ?_, ?_, hand,
      part ++ (s.io.handles (args.handleOf s.run)).buffer.take n, ⟨htail.length, htail.lines, ?_, ?_, ?_⟩⟩
    · intro k hk
      simpa [Io.write, Function.update_of_ne hk] using h.others k hk
    · intro _
      simpa [State.handle, Io.write] using hend.drain (Char.ofNat 0) n
    · show Handle.drainTo _ _ _ _ = _
      rw [hend.drainTo_eq, htail.out, List.append_assoc]
      rfl
    · have hgiven := htail.given
      rw [← hbuffer] at hgiven
      simpa [State.handle, Io.write, Handle.drain] using hgiven
    · have hopened := htail.opened
      rw [← hbuffer] at hopened
      simpa [State.handle, Io.write, Handle.drain] using hopened

/-- The next run: the handle of the one before has nothing left to write. -/
theorem Written.again (h : Written args s) (hphase : s.phase = .caught) {restartAttempts : Nat}
    (haccounted : Accounted { s with
      phase := .starting
      run := s.run + 1
      restartAttempts := restartAttempts }) :
    Written args { s with
      phase := .starting
      run := s.run + 1
      restartAttempts := restartAttempts } := by
  rcases h.empty (by simp [hphase, Phase.Whole, Phase.Leaving]) with ⟨hbuffer, hout⟩
  have hnext := h.unused (s.run + 1) (Nat.lt_succ_self _)
  have hall : ∀ k, (s.io.handles k).buffer = [] := by
    intro k
    by_cases hk : k = args.handleOf s.run
    · subst hk
      exact hbuffer
    · exact h.others k hk
  refine ⟨haccounted, fun k _ => hall k, ?_, [], [], ⟨by simp, ?_, ?_, ?_, ?_⟩⟩
  · rintro (hopen | hopen | hfile)
    · cases hopen
    · exact absurd (hall _) hopen
    · have hend := h.atEnd (Or.inr (Or.inr hfile))
      simpa [State.handle, Args.handleOf, hfile] using hend
  · simp [LinesOf, hnext.1, hnext.2.1, hnext.2.2]
  · rw [List.append_nil, hout]
    cases hfile : args.opensFile with
    | true => simp [State.shown, hfile]
    | false => simp [State.shown, hfile, List.range_succ (n := s.run + 1), hnext.2.1]
  · simpa [State.handle, hall] using given_nil [] fun line => (by simp)
  · intro hnot
    simp [State.handle, hall] at hnot

theorem Written.main (h : Written args s) (haccounted : Accounted s') (hmain : MainTransition args s a s') :
    Written args s' := by
  -- A statement that moves from one phase to another.
  have hmove : ∀ {p p' : Phase}, s.phase = p → (p'.Whole = true → p.Whole = true) →
      (∀ line, p' ≠ .printing line) → ∀ hand text, Given s.phase hand text → Given p' hand text := by
    rintro p p' rfl hwhole hprinting hand text hgiven
    exact hgiven.move hwhole hprinting
  have hwrites : ∀ {p p' : Phase}, s.phase = p → (p'.Writes = true → p.Writes = true) →
      p'.Writes = true → s.phase.Writes = true := by
    rintro p p' rfl
    exact id
  cases hmain with
  | install hphase =>
      exact h.keep haccounted rfl rfl (hmove hphase id (by simp)) (fun hp => (by cases hp))
  | openOutput hphase => exact h.smartOpen hphase haccounted
  | loaded hphase =>
      exact h.keep haccounted rfl rfl (hmove hphase id (by simp)) (hwrites hphase id)
  | append hphase hlast => exact h.keep haccounted rfl rfl (fun _ _ => id) id
  | fork hphase hlast => exact h.keep haccounted rfl rfl (fun _ _ => id) id
  | record hphase hlast => exact h.keep haccounted rfl rfl (fun _ _ => id) id
  | startWatchdog hphase hlast =>
      exact h.keep haccounted rfl rfl (hmove hphase id (by simp)) (hwrites hphase id)
  | enterLoop hphase =>
      exact h.keep haccounted rfl rfl (hmove hphase id (by simp)) (hwrites hphase id)
  | @get line rest hphase hqueue =>
      rcases h.empty (by simp [hphase, Phase.Whole, Phase.Leaving]) with ⟨hbuffer, hout⟩
      have hnone : (s.io.handles (args.handleOf s.run)).buffer = [] := hbuffer
      have hopen : s.phase.Writes = true := by simp [hphase, Phase.Writes, Phase.Works, Phase.InLoop]
      refine ⟨haccounted, h.others, fun _ => h.atEnd (Or.inl hopen), [line], [],
        ⟨by simp, haccounted.current rfl, ?_, ?_, fun _ => h.opened hopen⟩⟩
      · simpa [State.shown, Io.get] using hout
      · simpa [State.handle, Io.get, hnone] using given_nil [line] fun line => (by simp)
  | print hphase => exact h.print hphase haccounted
  | flushed hphase hbuffer => exact h.flushed hphase hbuffer haccounted
  | error hphase => exact h.cut rfl (by simp) rfl haccounted
  | terminate hphase => exact h.keep haccounted rfl rfl (hmove hphase id (by simp)) (hwrites hphase id)
  | sysExit hphase => exact h.keep haccounted rfl rfl (hmove hphase id (by simp)) (hwrites hphase id)
  | stop hphase => exact h.keep haccounted rfl rfl (hmove hphase id (by simp)) (hwrites hphase id)
  | cleanup hphase => exact h.keep haccounted rfl rfl (hmove hphase id (by simp)) (hwrites hphase id)
  | again hphase hless => exact h.again hphase haccounted
  | unwind hphase => exact h.keep haccounted rfl rfl (hmove hphase id (by simp)) (hwrites hphase id)
  | finish hphase => exact h.keep haccounted rfl rfl (hmove hphase id (by simp)) (hwrites hphase id)
  | quit hphase =>
      exact h.keep haccounted rfl rfl (hmove hphase (fun _ => rfl) (by simp)) (fun hp => (by cases hp))
  | lastAttempt hphase hmax =>
      exact h.keep haccounted rfl rfl (hmove hphase (fun _ => rfl) (by simp)) (fun hp => (by cases hp))
  | fail hphase =>
      exact h.keep haccounted rfl rfl (hmove rfl (fun hp => (by cases hp)) (by simp)) (fun hp => (by cases hp))
  | launchFails hphase hlast =>
      exact h.keep haccounted rfl rfl (hmove hphase (fun _ => rfl) (by simp)) (fun hp => (by cases hp))

theorem whole_onExit (code : Nat) (p : Phase) : (p.onExit code).Whole = false := by
  cases p <;> rfl

theorem printing_ne_onExit (code : Nat) (p : Phase) (line : String) : p.onExit code ≠ .printing line := by
  cases p <;> simp [Phase.onExit]

theorem printing_ne_onRestart (p : Phase) (line : String) : p.onRestart ≠ .printing line := by
  cases p <;> simp [Phase.onRestart]

/-- Each step but a restart that is raised while a line is on its way. -/
theorem Written.step (h : Written args s) (hunbroken : unbroken s a = true)
    (hstep : Main.step args s a = some s') : Written args s' := by
  have haccounted : Accounted s' := h.toAccounted.step hstep
  cases transition_of_step hstep with
  | main hfree hmain => exact h.main haccounted hmain
  | attributeError hhandling hunrecorded =>
      refine h.keep haccounted rfl rfl ?_ ?_
      · exact fun hand text hgiven => hgiven.move (by simp [whole_onExit]) (printing_ne_onExit _ _)
      · simp [(outside_onExit _ _).2.2]
  | @restart outer kept hhandling =>
      have hwhole : s.phase.Whole = true := by
        simpa [unbroken, State.restarting, hhandling] using hunbroken
      rcases h.empty hwhole with ⟨hbuffer, _⟩
      -- There is nothing to drop.
      have hsame : s.io.cut (args.handleOf s.run) kept = s.io := by
        have hnone : (s.io.handles (args.handleOf s.run)).buffer = [] := hbuffer
        simp [Io.cut, Handle.cut_of_buffer_nil hnone]
      refine h.keep haccounted rfl hsame ?_ ?_
      · exact fun hand text hgiven => hgiven.move (fun _ => hwhole) (printing_ne_onRestart _)
      · simp [(outside_onRestart _).2.2]
  | exit hsignum hhandling =>
      exact h.cut (whole_onExit _ _) (printing_ne_onExit _ _) (outside_onExit _ _).2.2 haccounted
  | @put i line w hworker halive =>
      rcases h.tail with ⟨hand, part, htail⟩
      exact ⟨haccounted, h.others, h.atEnd, hand, part,
        ⟨htail.length, htail.lines.put line, htail.out, htail.given, htail.opened⟩⟩
  | write hlive => exact h.write _ _ haccounted
  | _ => exact h.keep haccounted rfl rfl (fun _ _ => id) id

end Step

/-- In every state that the process can be in: what the workers of a run have put on the queue is what the run
has printed and flushed, one line at most that was taken, and what is left.  In the loop that line is the one
being printed.  If no restart was raised while a line was on its way, the output holds what was printed since it
was opened, everything on the standard output, and in a file the lines of the run that opened it last; behind that
only a part of the one line, and only while it is on its way or when an exception has ended the loop. -/
theorem output_accounted (args : Args) {actions : List Action} {s : State}
    (hrun : actions.foldlM (step args) init = some s) :
    (∀ r, ∃ hand, hand.length ≤ 1 ∧ s.io.puts r = s.io.printed r ++ hand ++ s.io.outputQueue r) ∧
      (s.phase.InLoop = true → s.io.opened = s.run ∧
        s.io.puts s.run = s.io.printed s.run ++ inHand s.phase ++ s.io.outputQueue s.run) ∧
      (Run.StepsMeet (step args) (fun s a => unbroken s a = true) init actions →
        ∃ hand part, s.io.puts s.run = s.io.printed s.run ++ hand ++ s.io.outputQueue s.run ∧
          hand.length ≤ 1 ∧ part <+: outText hand ∧ (s.phase.Whole = true → part = []) ∧
          s.io.out = outText (s.shown args) ++ part) := by
  have haccounted : Accounted s :=
    Run.foldlM_inv (fun _ _ _ h hstep => Accounted.step h hstep) accounted_init hrun
  refine ⟨haccounted.lines, ?_, ?_⟩
  · intro hloop
    have hworks : s.phase.Works = true := by
      cases hphase : s.phase <;> simp_all [Phase.Works, Phase.InLoop]
    have hwrites : s.phase.Writes = true := by
      cases hphase : s.phase <;> simp_all [Phase.Writes, Phase.Works, Phase.InLoop]
    exact ⟨haccounted.opened hwrites, haccounted.current hworks⟩
  · intro hunbroken
    have hwritten : Written args s := Run.foldlM_of_stepsMeet
      (fun _ _ _ h hunbroken hstep => h.step hunbroken hstep) (written_init args) hunbroken hrun
    rcases hwritten.tail with ⟨hand, part, htail⟩
    refine ⟨hand, part, htail.lines, htail.length, ?_, ?_, htail.out⟩
    · exact (List.prefix_append part _).trans htail.given.isPrefix
    · exact fun hwhole => (List.append_eq_nil_iff.1 (htail.given.whole hwhole)).1

namespace Example

def toFile : Args := ⟨false, "connections.log", false⟩

/-- One probe, up to the loop, and two lines of which one is printed. -/
def twoLines : List Action :=
  [.openOutput, .loaded, .append, .fork, .record, .startWatchdog, .enterLoop, .put 0 "a", .put 0 "b", .get,
    .print, .write 0 2, .flushed, .get]

/-- A SIGHUP, up to the loop of the next run, and one line more. -/
def nextRun : List Action :=
  [.signal .SIGHUP, .handle .SIGHUP, .handlerTerminates, .handlerRaises 2, .stop, .cleanup, .again, .install,
    .openOutput, .loaded, .append, .fork, .record, .startWatchdog, .enterLoop, .put 1 "c", .get, .print, .write 1 2,
    .flushed]

end Example

/-- The second line was taken from the queue when the signal came, and the file has neither of the two. -/
theorem line_lost_in_restart : ∃ s,
    (Example.twoLines ++ Example.nextRun).foldlM (step Example.toFile) init = some s ∧
      s.io.puts 0 = ["a", "b"] ∧ s.io.out = outText ["c"] := by
  have hstate : ((Example.twoLines ++ Example.nextRun).foldlM (step Example.toFile) init).map
      (fun s => (s.io.puts 0, s.phase, s.shown Example.toFile)) =
        some (["a", "b"], .polling, ["c"]) := by decide +kernel
  have hunbroken : Run.StepsMeet (step Example.toFile) (fun s a => unbroken s a = true) init
      (Example.twoLines ++ Example.nextRun) := by decide +kernel
  rcases Option.map_eq_some_iff.1 hstate with ⟨s, hs, hEq⟩
  have hputs : s.io.puts 0 = ["a", "b"] := congrArg Prod.fst hEq
  have hphase : s.phase = .polling := congrArg (fun x => x.2.1) hEq
  have hshown : s.shown Example.toFile = ["c"] := congrArg (fun x => x.2.2) hEq
  rcases output_accounted Example.toFile hs with ⟨_, _, hout⟩
  rcases hout hunbroken with ⟨hand, part, _, _, _, hwhole, hfile⟩
  refine ⟨s, hs, hputs, ?_⟩
  rw [hfile, hshown, hwhole (by simp [hphase, Phase.Whole, Phase.Leaving]), List.append_nil]

/-- When the signal comes between `print` and `flush`, the handle of the first run writes what it was given to the
file of the second one, behind what was there before. -/
example : ((Example.twoLines ++ [Action.print] ++ Example.nextRun ++ [Action.write 0 2]).foldlM
    (step Example.toFile) init).map (fun s => String.ofList s.io.out) = some "c\nb\n" := by decide +kernel

end Main

end PidtreeBcc
