import PidtreeBcc.YamlLoader.Loader

/-!
# RemoteInclude — does `include_remote` see the end of its fetch?

Here every fetch succeeds at once and nothing is stopped, so that `include_remote` times out only where
no other step is possible: while both threads wait and nobody is about to notify either.

`ready` is notified once for each pass over the workload, whether or not anybody waits on it.  The file
is seen just when the fetcher still owes the notification at the moment `include_remote` starts to wait.
-/

namespace PidtreeBcc

open Support

namespace YamlLoader

def IncludePhase.asleep : IncludePhase → Bool
  | waiting _ _ woken => !woken
  | _ => false

def FetcherPhase.asleep : FetcherPhase → Bool
  | waiting woken => !woken
  | _ => false

/-- The condition `ready` of the include in progress, once it is in the workload. -/
def IncludePhase.ready? : IncludePhase → Option Nat
  | registered _ ready => some ready
  | fenceNotified _ ready => some ready
  | holding _ ready => some ready
  | waiting _ ready _ => some ready
  | _ => none

@[simp] theorem IncludePhase.ready?_readyNotified (notified : Option Nat) (phase : IncludePhase) :
    (phase.readyNotified notified).ready? = phase.ready? := by
  cases phase <;> simp [readyNotified, ready?]

/-- A thread that still waits after a notification waited before, and for another condition. -/
theorem IncludePhase.readyNotified_eq_asleep {notified : Option Nat} {phase : IncludePhase}
    {url : String} {ready : Nat} (h : phase.readyNotified notified = .waiting url ready false) :
    phase = .waiting url ready false ∧ notified ≠ some ready := by
  cases phase with
  | waiting url' ready' woken =>
      simp only [readyNotified, waiting.injEq, Bool.or_eq_false_iff, beq_eq_false_iff_ne] at h
      rcases h with ⟨rfl, rfl, rfl, hne⟩
      exact ⟨rfl, hne⟩
  | _ => simp [readyNotified] at h

namespace Loader

/-- Both threads wait, and neither has been notified. -/
def Stuck (st : Loader) : Bool :=
  st.phase.asleep && st.remoteFetcher.any fun fetcher => fetcher.phase.asleep

/-- The steps when fetches succeed promptly and nothing is stopped. -/
def promptStep (st : Loader) : LoaderAction → Option Loader
  | .fetcher (.fetch false) => none
  | .timeout => if st.Stuck then st.step (fun _ => false) .timeout else none
  | a => st.step (fun _ => false) a

/-- The fetcher goes on alone. -/
def fetcherAlone (st : Loader) (a : FetcherAction) : Option Loader := st.promptStep (.fetcher a)

/-- Whatever the fetcher does next, `include_remote` is not left waiting, and it has not given up. -/
def Seen (st : Loader) : Prop :=
  ∀ own : List FetcherAction, ∀ t ∈ st :: Run.visited fetcherAlone st own,
    t.Stuck = false ∧ ∀ url, t.phase ≠ .raised url

/-- `include_remote` does not start to wait on a condition that the fetcher will not notify. -/
def WaitsInTime (st : Loader) (a : LoaderAction) : Prop :=
  ∀ url ready fetcher, a = .waitReady → st.phase = .holding url ready →
    st.remoteFetcher = some fetcher → fetcher.phase.Owes ready

variable {st st' : Loader} {a : LoaderAction}

theorem step_of_promptStep (h : st.promptStep a = some st') :
    st.step (fun _ => false) a = some st' := by
  unfold promptStep at h
  split at h
  · cases h
  · by_cases hstuck : st.Stuck = true
    · simpa [hstuck] using h
    · simp [hstuck] at h
  · exact h

theorem stuck_of_timeout (h : st.promptStep .timeout = some st') : st.Stuck = true := by
  by_contra hstuck
  simp [promptStep, hstuck] at h

/-! ## What every run keeps -/

structure Inv (st : Loader) : Prop where
  running : ∀ fetcher, st.remoteFetcher = some fetcher → fetcher.phase ≠ .exited
  started : st.phase ≠ .idle → st.remoteFetcher.isSome = true
  registered : ∀ ready, st.phase.ready? = some ready →
    ready ∈ st.workload.values.map PathReady.ready
  owed : ∀ url ready fetcher, st.phase = .waiting url ready false →
    st.remoteFetcher = some fetcher → fetcher.phase.Owes ready
  notRaised : ∀ url, st.phase ≠ .raised url

theorem inv_init : Inv init where
  running := by simp [init]
  started := by simp [init]
  registered := by simp [init, IncludePhase.ready?]
  owed := by simp [init]
  notRaised := by simp [init]

theorem Inv.not_stuck (h : Inv st) : st.Stuck = false := by
  by_contra hstuck
  simp only [Stuck, Bool.not_eq_false, Bool.and_eq_true, Option.any_eq_true] at hstuck
  obtain ⟨hasleep, fetcher, hfetcher, hfasleep⟩ := hstuck
  cases hphase : st.phase with
  | waiting url ready woken =>
      -- A waiting `include_remote` is owed its notification, which a waiting fetcher does not owe.
      have hwoken : woken = false := by simpa [hphase, IncludePhase.asleep] using hasleep
      rw [hwoken] at hphase
      have howes : fetcher.phase.Owes ready := h.owed url ready fetcher hphase hfetcher
      cases hfphase : fetcher.phase with
      | waiting fwoken =>
          simp_all [FetcherPhase.asleep, FetcherPhase.Owes]
      | _ => simp [hfphase, FetcherPhase.asleep] at hfasleep
  | _ => simp [hphase, IncludePhase.asleep] at hasleep

/-- A step of the fetcher keeps what it owes. -/
theorem Inv.fetcherStep {b : FetcherAction} (hinv : Inv st)
    (h : st.fetcherStep (fun _ => false) b = some st') : Inv st' := by
  obtain ⟨fetcher, phase, hfetcher, hstep, rfl⟩ := fetcherStep_eq_some.1 h
  refine ⟨?_, ?_, ?_, ?_, ?_⟩
  · rintro fetcher' hfetcher'
    cases hfetcher'
    exact FetcherPhase.step_ne_exited hstep
  · exact fun _ => rfl
  · simpa using hinv.registered
  · -- Still waiting after the step: the step has not notified the condition.
    intro url ready fetcher' hphase hfetcher'
    cases hfetcher'
    obtain ⟨hwait, hkeep⟩ := IncludePhase.readyNotified_eq_asleep hphase
    have hmem : ready ∈ st.workload.values.map PathReady.ready :=
      hinv.registered ready (by simp [hwait, IncludePhase.ready?])
    have howes : fetcher.phase.Owes ready := hinv.owed url ready fetcher hwait hfetcher
    exact FetcherPhase.owes_of_step hstep hmem rfl howes hkeep
  · intro url hphase
    cases hbefore : st.phase with
    | raised url' => exact hinv.notRaised url' hbefore
    | _ => simp [hbefore, IncludePhase.readyNotified] at hphase

theorem Inv.call (hinv : Inv st) (url : String) (stopFlag : Option Nat) :
    Inv (st.call url stopFlag) := by
  by_cases halive : st.fetcherAlive = true
  · -- The thread is taken over.
    have hsome : st.remoteFetcher.isSome = true := by
      obtain ⟨fetcher, hfetcher, -⟩ := (Option.any_eq_true _ _).1 halive
      simp [hfetcher]
    refine ⟨?_, ?_, ?_, ?_, ?_⟩
    · simpa [Loader.call, halive] using hinv.running
    · simpa [Loader.call, halive] using hsome
    · simp [Loader.call, halive, IncludePhase.ready?]
    · simp [Loader.call]
    · simp [Loader.call]
  · -- A new thread begins at the top of its loop.
    refine ⟨?_, ?_, ?_, ?_, ?_⟩
    · simp [Loader.call, halive, setUpFetcher]
    · simp [Loader.call, halive, setUpFetcher]
    · simp [Loader.call, IncludePhase.ready?]
    · simp [Loader.call]
    · simp [Loader.call]

theorem Inv.step (hinv : Inv st) (hcond : st.WaitsInTime a) (h : st.promptStep a = some st') :
    Inv st' := by
  rcases step_cases (step_of_promptStep h) with ⟨url, stopFlag, -, -, rfl⟩ | ⟨url, hphase, -, rfl⟩ |
    ⟨url, ready, hphase, -, rfl⟩ | ⟨url, ready, hphase, -, -, rfl⟩ | ⟨url, ready, hphase, rfl, rfl⟩ |
    ⟨url, ready, hphase, -, -, rfl⟩ | ⟨url, ready, hphase, rfl, -⟩ | ⟨b, -, hstep⟩
  · exact hinv.call url stopFlag
  · -- The condition enters the workload.
    refine ⟨hinv.running, fun _ => hinv.started (by simp [hphase]), ?_, by simp [register], by simp [register]⟩
    intro ready hready
    have hEq : st.readies = ready := by simpa [register, IncludePhase.ready?] using hready
    have hmem : (⟨st.remoteFetcherOutdir, st.readies⟩ : PathReady) ∈ (st.register url).workload.values :=
      Dict.mem_values_iff.2 ⟨url, Dict.get?_set_self _ _ _⟩
    exact List.mem_map.2 ⟨_, hmem, hEq⟩
  · -- Nobody waits on `ready` yet, so it does not matter whether the fence was heard.
    refine ⟨?_, ?_, ?_, by simp, by simp⟩
    · intro fetcher' hfetcher'
      obtain ⟨fetcher, hfetcher, rfl⟩ := Option.map_eq_some_iff.1 hfetcher'
      exact FetcherPhase.fenceNotified_ne_exited (hinv.running fetcher hfetcher)
    · have hstarted := hinv.started (by simp [hphase])
      simpa [notifyFence] using hstarted
    · simpa [notifyFence, hphase, IncludePhase.ready?] using hinv.registered
  · refine ⟨hinv.running, fun _ => hinv.started (by simp [hphase]), ?_, by simp, by simp⟩
    simpa [hphase, IncludePhase.ready?] using hinv.registered
  · -- The wait begins: this is what the condition is about.
    refine ⟨hinv.running, fun _ => hinv.started (by simp [hphase]), ?_, ?_, by simp⟩
    · simpa [hphase, IncludePhase.ready?] using hinv.registered
    · intro url' ready' fetcher hwait hfetcher
      cases hwait
      exact hcond url ready fetcher rfl hphase hfetcher
  · exact ⟨hinv.running, by simp, by simp [IncludePhase.ready?], by simp, by simp⟩
  · -- Only a stuck state lets the wait time out.
    have hstuck : st.Stuck = true := stuck_of_timeout h
    simp [hinv.not_stuck] at hstuck
  · exact hinv.fetcherStep hstep

theorem Inv.seen (hinv : Inv st) : st.Seen := by
  have hstep : ∀ s b s', Inv s → s.fetcherAlone b = some s' → Inv s' := by
    intro s b s' hs h
    exact hs.step (fun _ _ _ hb => by cases hb) h
  intro own t ht
  have ht' : Inv t := by
    rcases List.mem_cons.1 ht with rfl | ht
    · exact hinv
    · exact Run.visited_of_inv hstep hinv t ht
  exact ⟨ht'.not_stuck, ht'.notRaised⟩

/-! ## A wait that began too late -/

/-- The fetcher alone reaches its wait on the fence while `include_remote` still waits. -/
def LeftWaiting (st : Loader) : Prop :=
  ∃ own : List FetcherAction, ∃ t ∈ st :: Run.visited fetcherAlone st own, t.Stuck = true

theorem leftWaiting_of_step {b : FetcherAction} (h : st.fetcherAlone b = some st')
    (hleft : st'.LeftWaiting) : st.LeftWaiting := by
  obtain ⟨own, t, ht, hstuck⟩ := hleft
  refine ⟨b :: own, t, ?_, hstuck⟩
  rw [Run.visited_cons h]
  exact List.mem_cons_of_mem st ht

/-- The fetcher takes a step that does not concern the waiting thread. -/
theorem leftWaiting_of_phase {url : String} {ready : Nat} {fetcher : Fetcher} (b : FetcherAction)
    (phase : FetcherPhase) (hwait : st.phase = .waiting url ready false)
    (hfetcher : st.remoteFetcher = some fetcher)
    (hstep : fetcher.phase.step false st.workload none b = some phase) (hb : b ≠ .fetch false)
    (hkeep : fetcher.phase.notifies b ≠ some ready)
    (hleft : LeftWaiting { st with remoteFetcher := some { fetcher with phase := phase } }) :
    st.LeftWaiting := by
  refine leftWaiting_of_step (b := b) ?_ hleft
  -- The lock is free, since the waiting thread has let go of it.
  have hprompt : st.fetcherAlone b = st.fetcherStep (fun _ => false) b := by
    unfold fetcherAlone promptStep
    split
    · simp_all
    · simp_all
    · simp [step, hwait]
  have hphase : st.phase.readyNotified (fetcher.phase.notifies b) = st.phase := by
    simp [hwait, IncludePhase.readyNotified, hkeep]
  rw [hprompt]
  exact fetcherStep_eq_some.2
    ⟨fetcher, phase, hfetcher, by simpa [hwait, IncludePhase.held] using hstep, by rw [hphase]⟩

section Pass

variable {url jobUrl : String} {ready : Nat} {pathReady : PathReady} {todo : List (String × PathReady)}
  {fetcher : Fetcher}

/-- The state when the fetcher has come to the rest of its workload. -/
def atRest (st : Loader) (fetcher : Fetcher) (todo : List (String × PathReady)) : Loader :=
  { st with remoteFetcher := some { fetcher with phase := .serving todo } }

theorem leftWaiting_notified (hwait : st.phase = .waiting url ready false)
    (hfetcher : st.remoteFetcher = some fetcher)
    (hphase : fetcher.phase = .notified jobUrl pathReady todo)
    (hleft : (st.atRest fetcher todo).LeftWaiting) : st.LeftWaiting :=
  leftWaiting_of_phase .releaseReady (.serving todo) hwait hfetcher (by simp [hphase, FetcherPhase.step])
    (by simp) (by simp [hphase, FetcherPhase.notifies]) hleft

theorem leftWaiting_fetched (hwait : st.phase = .waiting url ready false)
    (hfetcher : st.remoteFetcher = some fetcher)
    (hphase : fetcher.phase = .fetched jobUrl pathReady todo) (hne : ready ≠ pathReady.ready)
    (hleft : (st.atRest fetcher todo).LeftWaiting) : st.LeftWaiting := by
  refine leftWaiting_of_phase .notifyReady (.notified jobUrl pathReady todo) hwait
    hfetcher (by simp [hphase, FetcherPhase.step]) (by simp) ?_ ?_
  · simpa [hphase, FetcherPhase.notifies] using Ne.symm hne
  · exact leftWaiting_notified hwait rfl rfl hleft

theorem leftWaiting_fetching (hwait : st.phase = .waiting url ready false)
    (hfetcher : st.remoteFetcher = some fetcher)
    (hphase : fetcher.phase = .fetching jobUrl pathReady todo) (hne : ready ≠ pathReady.ready)
    (hleft : (st.atRest fetcher todo).LeftWaiting) : st.LeftWaiting := by
  refine leftWaiting_of_phase (.fetch true) (.fetched jobUrl pathReady todo) hwait
    hfetcher (by simp [hphase, FetcherPhase.step]) (by simp)
    (by simp [hphase, FetcherPhase.notifies]) ?_
  exact leftWaiting_fetched hwait rfl rfl hne hleft

end Pass

theorem leftWaiting_serving {url : String} {ready : Nat} :
    ∀ {todo : List (String × PathReady)} {st : Loader} {fetcher : Fetcher},
      st.phase = .waiting url ready false → st.remoteFetcher = some fetcher →
      fetcher.phase = .serving todo → ready ∉ todo.map (fun job => job.2.ready) → st.LeftWaiting
  | [], st, fetcher, hwait, hfetcher, hphase, _ => by
      refine leftWaiting_of_phase .waitFence (.waiting false) hwait hfetcher
        (by simp [hphase, FetcherPhase.step]) (by simp) (by simp [hphase, FetcherPhase.notifies]) ?_
      exact ⟨[], _, List.mem_cons_self, by simp [Stuck, hwait, IncludePhase.asleep, FetcherPhase.asleep]⟩
  | (jobUrl, pathReady) :: todo, st, fetcher, hwait, hfetcher, hphase, hnot => by
      have hne : ready ≠ pathReady.ready ∧ ready ∉ todo.map fun job => job.2.ready := by
        simpa using hnot
      -- The thread serves the first url, of another condition, and then the rest.
      refine leftWaiting_of_phase .acquireReady (.fetching jobUrl pathReady todo) hwait
        hfetcher (by simp [hphase, FetcherPhase.step]) (by simp)
        (by simp [hphase, FetcherPhase.notifies]) ?_
      have hleft : (st.atRest fetcher todo).LeftWaiting := leftWaiting_serving hwait rfl rfl hne.2
      exact leftWaiting_fetching hwait rfl rfl hne.1 hleft

/-- From anywhere in its loop a fetcher that owes nothing goes to the fence without a notification. -/
theorem leftWaiting_of_not_owes {url : String} {ready : Nat} {fetcher : Fetcher}
    (hwait : st.phase = .waiting url ready false) (hfetcher : st.remoteFetcher = some fetcher)
    (hrunning : fetcher.phase ≠ .exited) (hnot : ¬ fetcher.phase.Owes ready) : st.LeftWaiting := by
  have hserving : ∀ todo : List (String × PathReady), ready ∉ todo.map (fun job => job.2.ready) →
      (st.atRest fetcher todo).LeftWaiting :=
    fun todo htodo => leftWaiting_serving hwait rfl rfl htodo
  cases hphase : fetcher.phase with
  | testing => simp [hphase, FetcherPhase.Owes] at hnot
  | listing => simp [hphase, FetcherPhase.Owes] at hnot
  | exited => exact absurd hphase hrunning
  | serving todo =>
      -- The rest of this pass does not contain the condition.
      rw [hphase] at hnot
      exact leftWaiting_serving hwait hfetcher hphase hnot
  | fetching jobUrl pathReady todo =>
      simp only [hphase, FetcherPhase.Owes, not_or] at hnot
      exact leftWaiting_fetching hwait hfetcher hphase hnot.1 (hserving todo hnot.2)
  | fetched jobUrl pathReady todo =>
      simp only [hphase, FetcherPhase.Owes, not_or] at hnot
      exact leftWaiting_fetched hwait hfetcher hphase hnot.1 (hserving todo hnot.2)
  | notified jobUrl pathReady todo =>
      rw [hphase] at hnot
      exact leftWaiting_notified hwait hfetcher hphase (hserving todo hnot)
  | waiting woken =>
      -- It waits already.
      have hwoken : woken = false := by simpa [hphase, FetcherPhase.Owes] using hnot
      refine ⟨[], st, List.mem_cons_self, ?_⟩
      simp [Stuck, hwait, hfetcher, hphase, hwoken, IncludePhase.asleep, FetcherPhase.asleep]

theorem Inv.not_seen (hinv : Inv st) (hcond : ¬ st.WaitsInTime a) (h : st.promptStep a = some st') :
    ¬ st'.Seen := by
  simp only [WaitsInTime, not_forall] at hcond
  obtain ⟨url, ready, fetcher, rfl, hphase, hfetcher, hnot⟩ := hcond
  have hst' : st' = { st with phase := .waiting url ready false } := by
    have hstep := step_of_promptStep h
    simpa [Loader.step, hphase] using hstep.symm
  have hleft : st'.LeftWaiting := by
    rw [hst']
    exact leftWaiting_of_not_owes rfl hfetcher (hinv.running fetcher hfetcher) hnot
  obtain ⟨own, t, ht, hstuck⟩ := hleft
  intro hseen
  have hfree := (hseen own t ht).1
  simp [hstuck] at hfree

/-- `include_remote` is never left waiting and never gives up just when it always starts to wait while
the fetcher still owes the notification. -/
theorem includes_seen_iff (acts : List LoaderAction) :
    (∀ st ∈ Run.visited promptStep init acts, st.Seen) ↔
      Run.StepsMeet promptStep WaitsInTime init acts :=
  Run.visited_iff_stepsMeet (I := Inv) (fun _ hinv => hinv.seen)
    (fun _ _ _ hinv hcond h => hinv.step hcond h) (fun _ _ _ hinv hcond h => hinv.not_seen hcond h)
    inv_init

/-- The fetcher finishes the fetch before `include_remote` has notified the fence. -/
def earlyFetch : List LoaderAction :=
  [.call "https://host/a.yaml" none, .register, .fetcher .testStopFlag, .fetcher .listWorkload,
    .fetcher .acquireReady, .fetcher (.fetch true), .fetcher .notifyReady, .fetcher .releaseReady,
    .notifyFence, .fetcher .waitFence, .acquireReady, .waitReady, .timeout]

theorem fetched_include_raises :
    ∃ st, earlyFetch.foldlM promptStep init = some st ∧ st.phase = .raised "https://host/a.yaml" ∧
      ∃ t ∈ Run.visited promptStep init earlyFetch, t.Stuck = true := by
  refine ⟨_, rfl, rfl, ?_⟩
  have hany : (Run.visited promptStep init earlyFetch).any Stuck = true := by decide
  exact List.any_eq_true.1 hany

end Loader

end YamlLoader

end PidtreeBcc
