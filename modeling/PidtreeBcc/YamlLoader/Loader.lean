import PidtreeBcc.Support.Dict
import PidtreeBcc.Support.Run

/-!
# Loader — remote includes and the thread that fetches them

`FileIncludeLoader.include_remote` leaves a url in the workload of a background thread, wakes the thread
through the condition `fence` and waits for the file on a condition `ready` of its own.  The thread runs
`fetch_remote_configurations`.

Both are modelled step by step.  A `Condition` is the lock of whoever holds it and the thread that waits
on it: `notify` reaches a thread that waits already and is lost otherwise.
-/

namespace PidtreeBcc

open Support

namespace YamlLoader

/-- What the workload holds for a url: `output_path`, of which the directory is kept (the file in it is
named by the digest of the url), and the condition `ready`. -/
structure PathReady where
  outdir : Nat
  ready : Nat
  deriving DecidableEq, Repr

abbrev Workload := Dict String PathReady

/-! ## The fetcher thread -/

/-- Where `fetch_remote_configurations` stands; `todo` is what is left of the workload it has read. -/
inductive FetcherPhase
  | testing
  | listing
  | serving (todo : List (String × PathReady))
  | fetching (url : String) (pathReady : PathReady) (todo : List (String × PathReady))
  | fetched (url : String) (pathReady : PathReady) (todo : List (String × PathReady))
  | notified (url : String) (pathReady : PathReady) (todo : List (String × PathReady))
  | waiting (woken : Bool)
  | exited
  deriving DecidableEq, Repr

inductive FetcherAction
  | testStopFlag
  | listWorkload
  | acquireReady
  | fetch (succeeds : Bool)
  | notifyReady
  | releaseReady
  | waitFence
  | wake
  | timeout
  deriving DecidableEq, Repr

namespace FetcherPhase

/-- The condition `ready` that the thread holds. -/
def held : FetcherPhase → Option Nat
  | fetching _ pathReady _ => some pathReady.ready
  | fetched _ pathReady _ => some pathReady.ready
  | notified _ pathReady _ => some pathReady.ready
  | _ => none

def isAlive (phase : FetcherPhase) : Bool := phase ≠ exited

/-- `fence.notify()`, seen by the thread. -/
def fenceNotified : FetcherPhase → FetcherPhase
  | waiting _ => waiting true
  | phase => phase

/-- The next step of the thread; `blocked` is the condition `ready` that another thread holds. -/
def step (doStop : Bool) (workload : Workload) (blocked : Option Nat) :
    FetcherPhase → FetcherAction → Option FetcherPhase
  | testing, .testStopFlag => some (if doStop then exited else listing)
  | listing, .listWorkload => some (serving workload.entries)
  -- The thread that loads may hold the condition of the url.
  | serving ((url, pathReady) :: todo), .acquireReady =>
      if blocked = some pathReady.ready then none else some (fetching url pathReady todo)
  | fetching url pathReady todo, .fetch true => some (fetched url pathReady todo)
  -- An exception releases `ready`, and `never_crash` calls the function again.
  | fetching _ _ _, .fetch false => some testing
  | fetched url pathReady todo, .notifyReady => some (notified url pathReady todo)
  | notified _ _ todo, .releaseReady => some (serving todo)
  -- All urls were fetched.
  | serving [], .waitFence => some (waiting false)
  | waiting true, .wake => some testing
  | waiting false, .timeout => some testing
  | _, _ => none

/-- The condition that a step notifies. -/
def notifies : FetcherPhase → FetcherAction → Option Nat
  | fetched _ pathReady _, .notifyReady => some pathReady.ready
  | _, _ => none

/-- The thread, in the middle of its loop, is still to notify a condition that is in the workload. -/
def Owes (ready : Nat) : FetcherPhase → Prop
  | testing => True
  | listing => True
  | serving todo => ready ∈ todo.map fun job => job.2.ready
  | fetching _ pathReady todo => ready = pathReady.ready ∨ ready ∈ todo.map fun job => job.2.ready
  | fetched _ pathReady todo => ready = pathReady.ready ∨ ready ∈ todo.map fun job => job.2.ready
  | notified _ _ todo => ready ∈ todo.map fun job => job.2.ready
  | waiting woken => woken = true
  | exited => False

instance (ready : Nat) : (phase : FetcherPhase) → Decidable (phase.Owes ready)
  | testing => isTrue trivial
  | listing => isTrue trivial
  | serving _ => inferInstanceAs (Decidable (_ ∈ _))
  | fetching _ _ _ => inferInstanceAs (Decidable (_ ∨ _))
  | fetched _ _ _ => inferInstanceAs (Decidable (_ ∨ _))
  | notified _ _ _ => inferInstanceAs (Decidable (_ ∈ _))
  | waiting _ => inferInstanceAs (Decidable (_ = _))
  | exited => isFalse id

variable {doStop : Bool} {workload : Workload} {blocked : Option Nat} {phase phase' : FetcherPhase}
  {a : FetcherAction} {ready : Nat}

/-- What a step can do. -/
theorem step_cases (h : phase.step doStop workload blocked a = some phase') :
    (phase = testing ∧ a = .testStopFlag ∧ phase' = if doStop then exited else listing) ∨
    (phase = listing ∧ a = .listWorkload ∧ phase' = serving workload.entries) ∨
    (∃ url pathReady todo, phase = serving ((url, pathReady) :: todo) ∧ a = .acquireReady ∧
      blocked ≠ some pathReady.ready ∧ phase' = fetching url pathReady todo) ∨
    (∃ url pathReady todo, phase = fetching url pathReady todo ∧ a = .fetch true ∧
      phase' = fetched url pathReady todo) ∨
    (∃ url pathReady todo, phase = fetching url pathReady todo ∧ a = .fetch false ∧
      phase' = testing) ∨
    (∃ url pathReady todo, phase = fetched url pathReady todo ∧ a = .notifyReady ∧
      phase' = notified url pathReady todo) ∨
    (∃ url pathReady todo, phase = notified url pathReady todo ∧ a = .releaseReady ∧
      phase' = serving todo) ∨
    (phase = serving [] ∧ a = .waitFence ∧ phase' = waiting false) ∨
    (phase = waiting true ∧ a = .wake ∧ phase' = testing) ∨
    (phase = waiting false ∧ a = .timeout ∧ phase' = testing) := by
  fun_cases step doStop workload blocked phase a
  all_goals simp_all [step]

/-- A debt lasts until the condition is notified. -/
theorem owes_of_step (h : phase.step doStop workload blocked a = some phase')
    (hmem : ready ∈ workload.values.map PathReady.ready) (hflag : doStop = false)
    (howes : phase.Owes ready) (hkeep : phase.notifies a ≠ some ready) : phase'.Owes ready := by
  rcases step_cases h with ⟨rfl, rfl, rfl⟩ | ⟨rfl, rfl, rfl⟩ | ⟨url, pathReady, todo, rfl, rfl, -, rfl⟩ |
    ⟨url, pathReady, todo, rfl, rfl, rfl⟩ | ⟨url, pathReady, todo, rfl, rfl, rfl⟩ |
    ⟨url, pathReady, todo, rfl, rfl, rfl⟩ | ⟨url, pathReady, todo, rfl, rfl, rfl⟩ | ⟨rfl, rfl, rfl⟩ |
    ⟨rfl, rfl, rfl⟩ | ⟨rfl, rfl, rfl⟩
  · simp [hflag, Owes]
  · -- The workload is read as a whole, the condition with it.
    simpa [Owes, Dict.values] using hmem
  · simpa [Owes] using howes
  · exact howes
  · -- A fetch that fails: the next pass will come to the condition again.
    trivial
  · -- Another condition is notified.
    have hne : ready ≠ pathReady.ready := by
      intro hEq
      exact hkeep (by simp [notifies, hEq])
    simpa [Owes, hne] using howes
  · exact howes
  · -- A thread that goes to wait has served its workload.
    simp [Owes] at howes
  · trivial
  · trivial

theorem step_ne_exited (h : phase.step false workload blocked a = some phase') : phase' ≠ exited := by
  rcases step_cases h with ⟨-, -, rfl⟩ | ⟨-, -, rfl⟩ | ⟨url, pathReady, todo, -, -, -, rfl⟩ |
    ⟨url, pathReady, todo, -, -, rfl⟩ | ⟨url, pathReady, todo, -, -, rfl⟩ |
    ⟨url, pathReady, todo, -, -, rfl⟩ | ⟨url, pathReady, todo, -, -, rfl⟩ | ⟨-, -, rfl⟩ |
    ⟨-, -, rfl⟩ | ⟨-, -, rfl⟩ <;> simp

theorem fenceNotified_ne_exited (h : phase ≠ exited) : phase.fenceNotified ≠ exited := by
  cases phase <;> simp_all [fenceNotified]

end FetcherPhase

/-! ## The loading thread -/

/-- Where `include_remote` stands; `raised` once it has given up. -/
inductive IncludePhase
  | idle
  | called (url : String)
  | registered (url : String) (ready : Nat)
  | fenceNotified (url : String) (ready : Nat)
  | holding (url : String) (ready : Nat)
  | waiting (url : String) (ready : Nat) (woken : Bool)
  | raised (url : String)
  deriving DecidableEq, Repr

namespace IncludePhase

/-- The condition `ready` that the thread holds; it lets go of it while it waits. -/
def held : IncludePhase → Option Nat
  | holding _ ready => some ready
  | _ => none

/-- `ready.notify()` for the condition, if any, seen by the thread. -/
def readyNotified (notified : Option Nat) : IncludePhase → IncludePhase
  | waiting url ready woken => waiting url ready (woken || notified == some ready)
  | phase => phase

@[simp] theorem readyNotified_none (phase : IncludePhase) : phase.readyNotified none = phase := by
  cases phase <;> simp [readyNotified]

end IncludePhase

/-- The fetcher thread with the arguments it was started with. -/
structure Fetcher where
  stopFlag : Option Nat
  outdir : Nat
  phase : FetcherPhase
  deriving DecidableEq, Repr

/-- The class attributes of `FileIncludeLoader`, and where the thread that loads stands. -/
structure Loader where
  remoteFetcher : Option Fetcher
  workload : Workload
  /-- How many output directories and conditions `ready` have been made. -/
  outdirs : Nat
  readies : Nat
  phase : IncludePhase

/-- A call of `include_remote` starts with the stop flag of its loader, if that has one. -/
inductive LoaderAction
  | call (url : String) (stopFlag : Option Nat)
  | register
  | notifyFence
  | acquireReady
  | waitReady
  | wake
  | timeout
  | fetcher (a : FetcherAction)
  deriving DecidableEq, Repr

namespace Loader

/-- No thread, nothing in the workload. -/
def init : Loader := ⟨none, Dict.empty, 0, 0, .idle⟩

def fetcherAlive (st : Loader) : Bool := st.remoteFetcher.any fun fetcher => fetcher.phase.isAlive

/-- The condition `ready` that the fetcher holds. -/
def fetcherHeld (st : Loader) : Option Nat := st.remoteFetcher.bind fun fetcher => fetcher.phase.held

/-- A new fetcher thread with an output directory of its own. -/
def setUpFetcher (st : Loader) (stopFlag : Option Nat) : Loader :=
  { st with
    remoteFetcher := some ⟨stopFlag, st.outdirs, .testing⟩
    outdirs := st.outdirs + 1 }

/-- `include_remote` up to the running fetcher. -/
def call (st : Loader) (url : String) (stopFlag : Option Nat) : Loader :=
  { (if st.fetcherAlive then st else st.setUpFetcher stopFlag) with phase := .called url }

/-- `remote_fetcher_outdir`, which is set together with `remote_fetcher`. -/
def remoteFetcherOutdir (st : Loader) : Nat := (st.remoteFetcher.map Fetcher.outdir).getD 0

def register (st : Loader) (url : String) : Loader :=
  { st with
    workload := st.workload.set url ⟨st.remoteFetcherOutdir, st.readies⟩
    readies := st.readies + 1
    phase := .registered url st.readies }

/-- `remote_fetcher_fence.notify()`. -/
def notifyFence (st : Loader) : Loader :=
  { st with remoteFetcher := st.remoteFetcher.map fun fetcher =>
      { fetcher with phase := fetcher.phase.fenceNotified } }

variable (doStop : Option Nat → Bool)

def fetcherStep (st : Loader) (a : FetcherAction) : Option Loader :=
  st.remoteFetcher.bind fun fetcher =>
    (fetcher.phase.step (doStop fetcher.stopFlag) st.workload st.phase.held a).map fun phase =>
      { st with
        remoteFetcher := some { fetcher with phase := phase }
        phase := st.phase.readyNotified (fetcher.phase.notifies a) }

/-- The next step of either thread. -/
def step (st : Loader) (a : LoaderAction) : Option Loader :=
  match st.phase, a with
  | .idle, .call url stopFlag => some (st.call url stopFlag)
  | .called url, .register => some (st.register url)
  | .registered url ready, .notifyFence => some { st.notifyFence with phase := .fenceNotified url ready }
  | .fenceNotified url ready, .acquireReady =>
      if st.fetcherHeld = some ready then none else some { st with phase := .holding url ready }
  | .holding url ready, .waitReady => some { st with phase := .waiting url ready false }
  -- A thread that was woken takes the lock again before it goes on.
  | .waiting _ ready true, .wake =>
      if st.fetcherHeld = some ready then none else some { st with phase := .idle }
  -- The url stays in the workload.
  | .waiting url _ false, .timeout => some { st with phase := .raised url }
  | _, .fetcher a => st.fetcherStep doStop a
  | _, _ => none

variable {doStop} {st st' : Loader}

theorem fetcherStep_eq_some {a : FetcherAction} :
    st.fetcherStep doStop a = some st' ↔
      ∃ fetcher phase, st.remoteFetcher = some fetcher ∧
        fetcher.phase.step (doStop fetcher.stopFlag) st.workload st.phase.held a = some phase ∧
        st' = { st with
          remoteFetcher := some { fetcher with phase := phase }
          phase := st.phase.readyNotified (fetcher.phase.notifies a) } := by
  simp only [fetcherStep, Option.bind_eq_some_iff, Option.map_eq_some_iff]
  constructor
  · rintro ⟨fetcher, hfetcher, phase, hstep, rfl⟩
    exact ⟨fetcher, phase, hfetcher, hstep, rfl⟩
  · rintro ⟨fetcher, phase, hfetcher, hstep, rfl⟩
    exact ⟨fetcher, hfetcher, phase, hstep, rfl⟩

/-- What a step can do. -/
theorem step_cases {a : LoaderAction} (h : st.step doStop a = some st') :
    (∃ url stopFlag, st.phase = .idle ∧ a = .call url stopFlag ∧ st' = st.call url stopFlag) ∨
    (∃ url, st.phase = .called url ∧ a = .register ∧ st' = st.register url) ∨
    (∃ url ready, st.phase = .registered url ready ∧ a = .notifyFence ∧
      st' = { st.notifyFence with phase := .fenceNotified url ready }) ∨
    (∃ url ready, st.phase = .fenceNotified url ready ∧ a = .acquireReady ∧
      st.fetcherHeld ≠ some ready ∧ st' = { st with phase := .holding url ready }) ∨
    (∃ url ready, st.phase = .holding url ready ∧ a = .waitReady ∧
      st' = { st with phase := .waiting url ready false }) ∨
    (∃ url ready, st.phase = .waiting url ready true ∧ a = .wake ∧
      st.fetcherHeld ≠ some ready ∧ st' = { st with phase := .idle }) ∨
    (∃ url ready, st.phase = .waiting url ready false ∧ a = .timeout ∧
      st' = { st with phase := .raised url }) ∨
    (∃ b, a = .fetcher b ∧ st.fetcherStep doStop b = some st') := by
  unfold step at h
  split at h <;> simp_all [eq_comm]

theorem step_call {url : String} {stopFlag : Option Nat} :
    st.step doStop (.call url stopFlag) = some st' ↔ st.phase = .idle ∧ st' = st.call url stopFlag := by
  cases hphase : st.phase <;> simp [step, hphase, eq_comm]

/-- What the fetcher thread was started with. -/
def fetcherArgs (st : Loader) : Option (Option Nat × Nat) :=
  st.remoteFetcher.map fun fetcher => (fetcher.stopFlag, fetcher.outdir)

theorem fetcherArgs_notifyFence (st : Loader) : st.notifyFence.fetcherArgs = st.fetcherArgs := by
  cases hfetcher : st.remoteFetcher <;> simp [fetcherArgs, notifyFence, hfetcher]

/-- Only a call can start a thread. -/
theorem frame_of_step {a : LoaderAction} (h : st.step doStop a = some st')
    (hcall : ∀ url stopFlag, a ≠ .call url stopFlag) :
    st'.fetcherArgs = st.fetcherArgs ∧ st'.outdirs = st.outdirs := by
  rcases step_cases h with ⟨url, stopFlag, -, rfl, -⟩ | ⟨url, -, -, rfl⟩ | ⟨url, ready, -, -, rfl⟩ |
    ⟨url, ready, -, -, -, rfl⟩ | ⟨url, ready, -, -, rfl⟩ | ⟨url, ready, -, -, -, rfl⟩ |
    ⟨url, ready, -, -, rfl⟩ | ⟨b, -, hstep⟩
  · exact absurd rfl (hcall url stopFlag)
  · exact ⟨rfl, rfl⟩
  · -- The fence only wakes the thread.
    exact ⟨fetcherArgs_notifyFence st, rfl⟩
  · exact ⟨rfl, rfl⟩
  · exact ⟨rfl, rfl⟩
  · exact ⟨rfl, rfl⟩
  · exact ⟨rfl, rfl⟩
  · obtain ⟨fetcher, phase, hfetcher, -, rfl⟩ := fetcherStep_eq_some.1 hstep
    simp [fetcherArgs, hfetcher]

/-- A living thread whose flag is not set lives on, and no call replaces it. -/
theorem alive_of_step {a : LoaderAction} {fetcher : Fetcher} (h : st.step doStop a = some st')
    (hfetcher : st.remoteFetcher = some fetcher) (halive : fetcher.phase ≠ .exited)
    (hflag : doStop fetcher.stopFlag = false) :
    ∃ phase, st'.remoteFetcher = some { fetcher with phase := phase } ∧ phase ≠ .exited := by
  rcases step_cases h with ⟨url, stopFlag, -, -, rfl⟩ | ⟨url, -, -, rfl⟩ | ⟨url, ready, -, -, rfl⟩ |
    ⟨url, ready, -, -, -, rfl⟩ | ⟨url, ready, -, -, rfl⟩ | ⟨url, ready, -, -, -, rfl⟩ |
    ⟨url, ready, -, -, rfl⟩ | ⟨b, -, hstep⟩
  · -- `is_alive` answers yes, so the call takes the thread over.
    have hlive : st.fetcherAlive = true := by
      simp [fetcherAlive, hfetcher, FetcherPhase.isAlive, halive]
    exact ⟨fetcher.phase, by simp [call, hlive, hfetcher], halive⟩
  · exact ⟨fetcher.phase, hfetcher, halive⟩
  · exact ⟨fetcher.phase.fenceNotified, by simp [notifyFence, hfetcher],
      FetcherPhase.fenceNotified_ne_exited halive⟩
  · exact ⟨fetcher.phase, hfetcher, halive⟩
  · exact ⟨fetcher.phase, hfetcher, halive⟩
  · exact ⟨fetcher.phase, hfetcher, halive⟩
  · exact ⟨fetcher.phase, hfetcher, halive⟩
  · obtain ⟨fetcher', phase, hfetcher', hphase, rfl⟩ := fetcherStep_eq_some.1 hstep
    have hsame : fetcher' = fetcher := by simpa [hfetcher] using hfetcher'.symm
    rw [hsame, hflag] at hphase
    exact ⟨phase, by rw [hsame], FetcherPhase.step_ne_exited hphase⟩

end Loader

end YamlLoader

end PidtreeBcc
