import PidtreeBcc.YamlLoader.Loader

/-!
# RestartedFetcher — remote includes after a restart

A `RestartSignal` makes `main` set the stop flag of its run and clean up the fetcher: notify the fence,
remove the output directory, clear the workload.  Nobody waits for the fetcher thread to end, and the
next run takes it over if it is still alive.

The fetcher that an include counts on is in order just when no thread that was stopped, or that lost its
directory, is alive at the moment the restarted `main` asks.
-/

namespace PidtreeBcc

open Support

namespace YamlLoader

def MAX_RESTARTS : Nat := 100

/-- Where the main thread stands: in `setup_config`, at work, or so far in the handling of
`RestartSignal`. -/
inductive MainPhase
  | loading
  | working
  | stopped
  | notified
  | removed
  | cleared
  deriving DecidableEq, Repr

/-- The process.  A run of `main` has one `StopFlagWrapper`; `stopped` are the runs whose flag is set,
`removed` the output directories that `cleanup` has removed. -/
structure Process where
  main : MainPhase
  run : Nat
  stopped : List Nat
  removed : List Nat
  loader : Loader

inductive ProcessAction
  | loads (a : LoaderAction)
  | finishLoading
  | stop
  | notifyFence
  | removeOutdir
  | clearWorkload
  | restart
  deriving DecidableEq, Repr

/-- The directory that a fetch in progress is to write to. -/
def FetcherPhase.target : FetcherPhase → Option Nat
  | fetching _ pathReady _ => some pathReady.outdir
  | _ => none

/-- The include in progress has asked for the fetcher and not notified its fence yet. -/
def IncludePhase.countsOnFetcher : IncludePhase → Bool
  | called _ => true
  | registered _ _ => true
  | _ => false

namespace Process

def init : Process := ⟨.loading, 0, [], [], Loader.init⟩

/-- `stop_flag and stop_flag.do_stop` -/
def doStop (st : Process) (stopFlag : Option Nat) : Bool := stopFlag.any fun run => run ∈ st.stopped

/-- The loader of the configuration file has the flag of the run, those of the files it includes have
none; a fetch cannot end in a directory that is gone. -/
def allows (st : Process) : LoaderAction → Bool
  | .call _ stopFlag => stopFlag = none || stopFlag = some st.run
  | .fetcher (.fetch true) =>
      !(st.loader.remoteFetcher.bind fun fetcher => fetcher.phase.target).any fun outdir =>
        outdir ∈ st.removed
  | _ => true

/-- The next step of one of the threads.  While `main` is loading it is `main` that takes the steps of
the loader, later the watchdog that reloads. -/
def step (st : Process) : ProcessAction → Option Process
  | .loads a =>
      if st.allows a then
        (st.loader.step st.doStop a).map fun loader => { st with loader := loader }
      else none
  | .finishLoading =>
      if st.main = .loading ∧ st.loader.phase = .idle then some { st with main := .working } else none
  | .stop =>
      if st.main = .working then
        some { st with main := .stopped, stopped := st.run :: st.stopped }
      else none
  | .notifyFence =>
      if st.main = .stopped then
        some { st with main := .notified, loader := st.loader.notifyFence }
      else none
  | .removeOutdir =>
      if st.main = .notified then
        some { st with
          main := .removed
          removed := (st.loader.remoteFetcher.map Fetcher.outdir).toList ++ st.removed }
      else none
  | .clearWorkload =>
      if st.main = .removed then
        some { st with main := .cleared, loader := { st.loader with workload := Dict.empty } }
      else none
  -- A signal that comes during the set-up, or a second one, ends the run without the rest of this.
  | .restart =>
      if st.main = .working ∨ MAX_RESTARTS ≤ st.run + 1 then none
      else some { st with
        main := .loading
        run := st.run + 1
        loader := { st.loader with phase := .idle } }

/-- The fetcher thread has a stop flag that is not set, and its output directory exists. -/
def FetcherServes (st : Process) : Prop :=
  ∃ fetcher, st.loader.remoteFetcher = some fetcher ∧ st.doStop fetcher.stopFlag = false ∧
    fetcher.outdir ∉ st.removed

/-- An include of the run that is being set up counts on a fetcher that serves it. -/
def CountsOnServing (st : Process) : Prop :=
  st.main = .loading → st.loader.phase.countsOnFetcher = true → st.FetcherServes

/-- When an include of the run that is being set up asks whether the fetcher is alive, no thread answers
that was stopped or that lost its directory. -/
def StoppedIsGone (st : Process) (a : ProcessAction) : Prop :=
  ∀ url stopFlag fetcher, a = .loads (.call url stopFlag) → st.main = .loading →
    st.loader.remoteFetcher = some fetcher → fetcher.phase.isAlive = true →
    st.doStop fetcher.stopFlag = false ∧ fetcher.outdir ∉ st.removed

variable {st st' : Process} {a : ProcessAction}

theorem fetcherServes_iff :
    st.FetcherServes ↔ ∃ stopFlag outdir, st.loader.fetcherArgs = some (stopFlag, outdir) ∧
      st.doStop stopFlag = false ∧ outdir ∉ st.removed := by
  simp only [FetcherServes, Loader.fetcherArgs, Option.map_eq_some_iff]
  constructor
  · rintro ⟨fetcher, hfetcher, hflag, hdir⟩
    exact ⟨fetcher.stopFlag, fetcher.outdir, ⟨fetcher, hfetcher, rfl⟩, hflag, hdir⟩
  · rintro ⟨stopFlag, outdir, ⟨fetcher, hfetcher, hargs⟩, hflag, hdir⟩
    cases hargs
    exact ⟨fetcher, hfetcher, hflag, hdir⟩

theorem step_loads {b : LoaderAction} (h : st.step (.loads b) = some st') :
    st.allows b = true ∧ ∃ loader, st.loader.step st.doStop b = some loader ∧
      st' = { st with loader := loader } := by
  by_cases hallows : st.allows b = true
  · simp only [step, hallows, if_true, Option.map_eq_some_iff] at h
    obtain ⟨loader, hloader, rfl⟩ := h
    exact ⟨hallows, loader, hloader, rfl⟩
  · simp [step, hallows] at h

/-- What a step can do. -/
theorem step_cases (h : st.step a = some st') :
    (∃ b loader, a = .loads b ∧ st.allows b = true ∧ st.loader.step st.doStop b = some loader ∧
      st' = { st with loader := loader }) ∨
    (a = .finishLoading ∧ (st.main = .loading ∧ st.loader.phase = .idle) ∧
      st' = { st with main := .working }) ∨
    (a = .stop ∧ st.main = .working ∧
      st' = { st with main := .stopped, stopped := st.run :: st.stopped }) ∨
    (a = .notifyFence ∧ st.main = .stopped ∧
      st' = { st with main := .notified, loader := st.loader.notifyFence }) ∨
    (a = .removeOutdir ∧ st.main = .notified ∧
      st' = { st with
        main := .removed
        removed := (st.loader.remoteFetcher.map Fetcher.outdir).toList ++ st.removed }) ∨
    (a = .clearWorkload ∧ st.main = .removed ∧
      st' = { st with main := .cleared, loader := { st.loader with workload := Dict.empty } }) ∨
    (a = .restart ∧ ¬ (st.main = .working ∨ MAX_RESTARTS ≤ st.run + 1) ∧
      st' = { st with
        main := .loading
        run := st.run + 1
        loader := { st.loader with phase := .idle } }) := by
  cases a with
  | loads b =>
      obtain ⟨hallows, loader, hloader, hEq⟩ := step_loads h
      exact .inl ⟨b, loader, rfl, hallows, hloader, hEq⟩
  | restart =>
      simp only [step, Option.ite_none_left_eq_some, Option.some.injEq] at h
      simp [h.1, h.2.symm]
  | _ =>
      simp only [step, Option.ite_none_right_eq_some, Option.some.injEq] at h
      simp [h.1, h.2.symm]

/-! ## What every run keeps -/

structure Inv (st : Process) : Prop where
  flags : ∀ run ∈ st.stopped, run ≤ st.run
  unset : st.main = .loading ∨ st.main = .working → st.run ∉ st.stopped
  made : ∀ outdir ∈ st.removed, outdir < st.loader.outdirs
  fetcherMade : ∀ stopFlag outdir, st.loader.fetcherArgs = some (stopFlag, outdir) →
    outdir < st.loader.outdirs
  counts : st.CountsOnServing

theorem inv_init : Inv init where
  flags := by simp [init]
  unset := by simp [init]
  made := by simp [init]
  fetcherMade := by simp [init, Loader.init, Loader.fetcherArgs]
  counts := by simp [CountsOnServing, init, Loader.init, IncludePhase.countsOnFetcher]

/-- A step of the loader that is not a call counts on the fetcher only if the step before it did. -/
theorem countsOnFetcher_of_step {doStop : Option Nat → Bool} {loader loader' : Loader}
    {b : LoaderAction} (h : loader.step doStop b = some loader')
    (hcall : ∀ url stopFlag, b ≠ .call url stopFlag)
    (hcounts : loader'.phase.countsOnFetcher = true) : loader.phase.countsOnFetcher = true := by
  rcases Loader.step_cases h with ⟨url, stopFlag, -, rfl, -⟩ | ⟨url, hphase, -, rfl⟩ |
    ⟨url, ready, hphase, -, rfl⟩ | ⟨url, ready, -, -, -, rfl⟩ | ⟨url, ready, -, -, rfl⟩ |
    ⟨url, ready, -, -, -, rfl⟩ | ⟨url, ready, -, -, rfl⟩ | ⟨c, -, hstep⟩
  · exact absurd rfl (hcall url stopFlag)
  · simp [hphase, IncludePhase.countsOnFetcher]
  · simp [IncludePhase.countsOnFetcher] at hcounts
  · simp [IncludePhase.countsOnFetcher] at hcounts
  · simp [IncludePhase.countsOnFetcher] at hcounts
  · simp [IncludePhase.countsOnFetcher] at hcounts
  · simp [IncludePhase.countsOnFetcher] at hcounts
  · obtain ⟨fetcher, phase, -, -, rfl⟩ := Loader.fetcherStep_eq_some.1 hstep
    cases hphase : loader.phase with
    | called url => rfl
    | registered url ready => rfl
    | _ => simp [hphase, IncludePhase.readyNotified, IncludePhase.countsOnFetcher] at hcounts

/-- A call either takes the living thread over or starts one with the next directory. -/
theorem fetcherArgs_call (loader : Loader) (url : String) (stopFlag : Option Nat) :
    (loader.fetcherAlive = true ∧ (loader.call url stopFlag).fetcherArgs = loader.fetcherArgs ∧
      (loader.call url stopFlag).outdirs = loader.outdirs) ∨
    (loader.fetcherAlive = false ∧
      (loader.call url stopFlag).fetcherArgs = some (stopFlag, loader.outdirs) ∧
      (loader.call url stopFlag).outdirs = loader.outdirs + 1) := by
  by_cases halive : loader.fetcherAlive = true
  · exact .inl ⟨halive, by simp [Loader.call, halive, Loader.fetcherArgs], by simp [Loader.call, halive]⟩
  · refine .inr ⟨by simpa using halive, ?_, ?_⟩
    · simp [Loader.call, halive, Loader.setUpFetcher, Loader.fetcherArgs]
    · simp [Loader.call, halive, Loader.setUpFetcher]

theorem Inv.call {url : String} {stopFlag : Option Nat} (hinv : Inv st)
    (hcond : st.StoppedIsGone (.loads (.call url stopFlag)))
    (hallows : st.allows (.call url stopFlag) = true) :
    Inv { st with loader := st.loader.call url stopFlag } := by
  rcases fetcherArgs_call st.loader url stopFlag with ⟨halive, hargs, hdirs⟩ | ⟨-, hargs, hdirs⟩
  · refine ⟨hinv.flags, hinv.unset, ?_, ?_, ?_⟩
    · simpa [hdirs] using hinv.made
    · simpa [hargs, hdirs] using hinv.fetcherMade
    · -- The condition speaks about the thread that is taken over.
      intro hmain _
      obtain ⟨fetcher, hfetcher, hlive⟩ := (Option.any_eq_true _ _).1 halive
      obtain ⟨hflag, hdir⟩ := hcond url stopFlag fetcher rfl hmain hfetcher hlive
      have hbefore : st.loader.fetcherArgs = some (fetcher.stopFlag, fetcher.outdir) := by
        simp [Loader.fetcherArgs, hfetcher]
      exact fetcherServes_iff.2 ⟨fetcher.stopFlag, fetcher.outdir, hargs.trans hbefore, hflag, hdir⟩
  · refine ⟨hinv.flags, hinv.unset, ?_, ?_, ?_⟩
    · intro outdir hmem
      have hlt : outdir < st.loader.outdirs := hinv.made outdir hmem
      have hsucc : (st.loader.call url stopFlag).outdirs = st.loader.outdirs + 1 := hdirs
      exact hsucc ▸ Nat.lt_succ_of_lt hlt
    · intro flag outdir hsome
      rw [hargs] at hsome
      cases hsome
      exact hdirs ▸ Nat.lt_succ_self _
    · -- The flag is that of the run, or there is none; the directory is new.
      intro hmain _
      refine fetcherServes_iff.2 ⟨stopFlag, st.loader.outdirs, hargs, ?_, ?_⟩
      · have hunset : st.run ∉ st.stopped := hinv.unset (.inl hmain)
        have hflag : stopFlag = none ∨ stopFlag = some st.run := by simpa [allows] using hallows
        rcases hflag with rfl | rfl
        · rfl
        · simpa [doStop] using hunset
      · intro hmem
        exact Nat.lt_irrefl _ (hinv.made _ hmem)

theorem Inv.loads {b : LoaderAction} {loader : Loader} (hinv : Inv st)
    (hcall : ∀ url stopFlag, b ≠ .call url stopFlag)
    (h : st.loader.step st.doStop b = some loader) : Inv { st with loader := loader } := by
  obtain ⟨hargs, hdirs⟩ := Loader.frame_of_step h hcall
  refine ⟨hinv.flags, hinv.unset, ?_, ?_, ?_⟩
  · simpa [hdirs] using hinv.made
  · simpa [hargs, hdirs] using hinv.fetcherMade
  · intro hmain hcounts
    have hserves : st.FetcherServes := hinv.counts hmain (countsOnFetcher_of_step h hcall hcounts)
    obtain ⟨flag, outdir, hbefore, hflag, hdir⟩ := fetcherServes_iff.1 hserves
    exact fetcherServes_iff.2 ⟨flag, outdir, by simpa [hargs] using hbefore, hflag, hdir⟩

theorem Inv.step (hinv : Inv st) (hcond : st.StoppedIsGone a) (h : st.step a = some st') :
    Inv st' := by
  rcases step_cases h with ⟨b, loader, rfl, hallows, hloader, rfl⟩ | ⟨-, ⟨hmain, -⟩, rfl⟩ |
    ⟨-, -, rfl⟩ | ⟨-, -, rfl⟩ | ⟨-, -, rfl⟩ | ⟨-, -, rfl⟩ | ⟨-, -, rfl⟩
  · cases b with
    | call url stopFlag =>
        obtain ⟨-, rfl⟩ := Loader.step_call.1 hloader
        exact hinv.call hcond hallows
    | _ => exact hinv.loads (by simp) hloader
  · -- From here on the includes are those of the watchdog.
    exact ⟨hinv.flags, fun _ => hinv.unset (.inl hmain), hinv.made, hinv.fetcherMade,
      by simp [CountsOnServing]⟩
  · -- The flag that is set is that of the run.
    refine ⟨?_, by simp, hinv.made, hinv.fetcherMade, by simp [CountsOnServing]⟩
    simpa using hinv.flags
  · refine ⟨hinv.flags, by simp, hinv.made, ?_, by simp [CountsOnServing]⟩
    intro flag outdir hsome
    exact hinv.fetcherMade flag outdir ((Loader.fetcherArgs_notifyFence st.loader).symm.trans hsome)
  · refine ⟨hinv.flags, by simp, ?_, hinv.fetcherMade, by simp [CountsOnServing]⟩
    intro outdir hmem
    rcases List.mem_append.1 hmem with hmem | hmem
    · -- The directory is that of the thread.
      obtain ⟨fetcher, hfetcher, rfl⟩ := Option.map_eq_some_iff.1 (Option.mem_toList.1 hmem)
      exact hinv.fetcherMade fetcher.stopFlag fetcher.outdir (by simp [Loader.fetcherArgs, hfetcher])
    · exact hinv.made outdir hmem
  · exact ⟨hinv.flags, by simp, hinv.made, hinv.fetcherMade, by simp [CountsOnServing]⟩
  · -- The new run has a flag of its own, which no earlier run has set.
    have hflags : ∀ run ∈ st.stopped, run ≤ st.run + 1 :=
      fun run hmem => Nat.le_succ_of_le (hinv.flags run hmem)
    refine ⟨hflags, fun _ hmem => ?_, hinv.made, hinv.fetcherMade, ?_⟩
    · exact Nat.not_succ_le_self _ (hinv.flags _ hmem)
    · simp [CountsOnServing, IncludePhase.countsOnFetcher]

theorem Inv.not_counts (hcond : ¬ st.StoppedIsGone a) (h : st.step a = some st') :
    ¬ st'.CountsOnServing := by
  simp only [StoppedIsGone, not_forall] at hcond
  obtain ⟨url, stopFlag, fetcher, rfl, hmain, hfetcher, halive, hnot⟩ := hcond
  obtain ⟨-, loader, hloader, rfl⟩ := step_loads h
  obtain ⟨-, rfl⟩ := Loader.step_call.1 hloader
  -- The living thread is taken over as it is.
  have htaken : (st.loader.call url stopFlag).remoteFetcher = some fetcher := by
    simp [Loader.call, Loader.fetcherAlive, hfetcher, halive]
  intro hcounts
  obtain ⟨fetcher', hfetcher', hflag, hdir⟩ := hcounts hmain rfl
  have hEq : fetcher' = fetcher := by
    have hboth : some fetcher' = some fetcher := hfetcher'.symm.trans htaken
    simpa using hboth
  rw [hEq] at hflag hdir
  exact hnot ⟨hflag, hdir⟩

/-- The includes of every run count on a fetcher that serves them just when no thread that was stopped or
lost its directory is alive when they ask for one. -/
theorem includes_count_on_serving_iff (acts : List ProcessAction) :
    (∀ st ∈ Run.visited step init acts, st.CountsOnServing) ↔
      Run.StepsMeet step StoppedIsGone init acts :=
  Run.visited_iff_stepsMeet (I := Inv) (fun _ hinv => hinv.counts)
    (fun _ _ _ hinv hcond h => hinv.step hcond h)
    (fun _ _ _ _ hcond h => Inv.not_counts hcond h) inv_init

/-- One remote include and a second pass of the fetcher, in the middle of which the process restarts. -/
def restartDuringFetch : List ProcessAction :=
  [.loads (.call "https://host/a.yaml" (some 0)), .loads .register, .loads .notifyFence,
    .loads .acquireReady, .loads .waitReady, .loads (.fetcher .testStopFlag),
    .loads (.fetcher .listWorkload), .loads (.fetcher .acquireReady), .loads (.fetcher (.fetch true)),
    .loads (.fetcher .notifyReady), .loads (.fetcher .releaseReady), .loads .wake, .finishLoading,
    .loads (.fetcher .waitFence), .loads (.fetcher .timeout), .loads (.fetcher .testStopFlag),
    .loads (.fetcher .listWorkload), .loads (.fetcher .acquireReady),
    .stop, .notifyFence, .removeOutdir, .clearWorkload, .restart,
    .loads (.call "https://host/a.yaml" (some 1)), .loads .register]

theorem restarted_include_counts_on_stopped :
    ∃ st, restartDuringFetch.foldlM step init = some st ∧ ¬ st.CountsOnServing := by
  refine ⟨_, rfl, ?_⟩
  intro hcounts
  obtain ⟨fetcher, hfetcher, hflag, -⟩ := hcounts rfl rfl
  cases hfetcher
  exact absurd hflag (by decide)

/-! ## A fetcher without a stop flag -/

/-- A living thread that was started for an include of an included file, so that it has no stop flag, and
that has lost its directory. -/
def Orphaned (fetcher : Fetcher) (st : Process) : Prop :=
  fetcher.stopFlag = none ∧ fetcher.outdir ∈ st.removed ∧
    ∃ phase, st.loader.remoteFetcher = some { fetcher with phase := phase } ∧ phase ≠ .exited

theorem Orphaned.step {fetcher : Fetcher} (horphan : Orphaned fetcher st) (h : st.step a = some st') :
    Orphaned fetcher st' := by
  obtain ⟨hflag, hdir, phase, hfetcher, halive⟩ := horphan
  rcases step_cases h with ⟨b, loader, -, -, hloader, rfl⟩ | ⟨-, -, rfl⟩ | ⟨-, -, rfl⟩ | ⟨-, -, rfl⟩ |
    ⟨-, -, rfl⟩ | ⟨-, -, rfl⟩ | ⟨-, -, rfl⟩
  · have hunset : st.doStop fetcher.stopFlag = false := by simp [hflag, doStop]
    obtain ⟨phase', hfetcher', halive'⟩ := Loader.alive_of_step hloader hfetcher halive hunset
    exact ⟨hflag, hdir, phase', hfetcher', halive'⟩
  · exact ⟨hflag, hdir, phase, hfetcher, halive⟩
  · exact ⟨hflag, hdir, phase, hfetcher, halive⟩
  · -- A wake-up, but no flag that it could find set.
    exact ⟨hflag, hdir, phase.fenceNotified, by simp [Loader.notifyFence, hfetcher],
      FetcherPhase.fenceNotified_ne_exited halive⟩
  · exact ⟨hflag, List.mem_append_right _ hdir, phase, hfetcher, halive⟩
  · exact ⟨hflag, hdir, phase, hfetcher, halive⟩
  · exact ⟨hflag, hdir, phase, hfetcher, halive⟩

/-- Once a `cleanup` has removed the directory of such a thread, no later run gets a directory to load
remote files to. -/
theorem orphaned_never_serves {fetcher : Fetcher} (horphan : Orphaned fetcher st)
    (acts : List ProcessAction) : ∀ t ∈ Run.visited step st acts, ¬ t.FetcherServes := by
  intro t ht
  obtain ⟨-, hdir, phase, hfetcher, -⟩ :=
    Run.visited_of_inv (fun _ _ _ hs h => Orphaned.step hs h) horphan t ht
  rintro ⟨fetcher', hfetcher', -, hnot⟩
  rw [hfetcher] at hfetcher'
  cases hfetcher'
  exact hnot hdir

end Process

end YamlLoader

end PidtreeBcc
