import Mathlib.Logic.Function.Basic
import PidtreeBcc.Config.Process
import PidtreeBcc.Support.Handle
import PidtreeBcc.Support.Run

/-!
# Supervisor — the main process, its probe workers and its watchdogs

`main()` starts one process for each probe and a watchdog thread, and then prints what the probes put on
the output queue.  A signal handler terminates the workers and raises an exception that either ends the process
or starts `main()` over, up to a number of restarts.

Signals come at any time, and their handlers run between any two statements of the main thread, also of another
handler.  Workers die at any time.  The watchdogs run beside all that, those of earlier runs as well, until the
process is gone.
-/

namespace PidtreeBcc

open Support

namespace Main

/-! ## Data -/

/-- The command line, as far as it concerns what follows. -/
structure Args where
  printAndQuit : Bool
  outputFile : String
  watchConfig : Bool
  deriving DecidableEq, Repr

/-- `HANDLED_SIGNALS`. -/
inductive Signal
  | SIGINT
  | SIGTERM
  | SIGHUP
  deriving DecidableEq, Repr

/-- A worker process: running, sent a SIGTERM, or gone. -/
inductive Status
  | running
  | terminated
  | dead
  deriving DecidableEq, Repr

/-- A probe worker that was forked, with the run of `main()` whose `probe_workers` it is in.  It is recorded
when its process object has a `_popen`. -/
structure Worker where
  run : Nat
  status : Status
  recorded : Bool
  deriving DecidableEq, Repr

/-- How far the start of the last element of `probe_workers` is.  `recorded` also stands for an empty list. -/
inductive Last
  | appended
  | forked
  | recorded
  deriving DecidableEq, Repr

/-- A call of `termination_handler` that has not raised yet, and whether it has terminated the workers. -/
structure Handler where
  signum : Signal
  terminated : Bool
  deriving DecidableEq, Repr

/-- Where a watchdog is: asleep, between the test of its flag and the health check, with a failed check and
no signal sent yet, about to look at the configuration, or at its end. -/
inductive Watchdog
  | absent
  | asleep
  | checking
  | failing
  | reloading
  | ended
  deriving DecidableEq, Repr

/-- Where the main thread is.  `starting` still has the handlers of the run before; `watching` is after the
start of the watchdog and before the `try`.  In the loop a line is held that `print` has not been given, or is
on its way through `print` and `flush`.  `stopping` and `cleaning` are where a restart is caught in `main()`,
`erring` and `erred` where another exception is, before and after the workers are terminated; `caught` is where
a restart is caught outside.  An exception that ends `main()` is `unwinding` until it has left the outer `try`;
then the interpreter is `exiting`, with its other threads still there. -/
inductive Phase
  | starting
  | configuring
  | loading
  | launching
  | watching
  | polling
  | holding (line : String)
  | printing (line : String)
  | stopping
  | cleaning
  | erring
  | erred
  | caught
  | unwinding (code : Nat)
  | exiting (code : Nat)
  | exited (code : Nat)
  deriving DecidableEq, Repr

/-- The queues of the runs and the output.  A handle belongs to a run that has opened a file, or to the standard
output; its text is ASCII, so a character is a byte.  `opened`, `puts` and `printed` are history that the code
does not keep: the run that opened the output last, what the workers of each run put on their queue, and what
each run has printed and flushed. -/
structure Io where
  outputQueue : Nat → List String
  handles : Nat → Handle Char
  out : List Char
  opened : Nat
  puts : Nat → List String
  printed : Nat → List String

/-- The process and its children. -/
structure State where
  phase : Phase
  /-- The handlers that run on top of the main thread, the last one called first. -/
  handling : List Handler
  run : Nat
  /-- The run whose workers the handlers that are installed terminate. -/
  handlers : Nat
  restartAttempts : Nat
  exitCode : Nat
  workers : List Worker
  last : Last
  watchdog : Nat → Watchdog
  doStop : Nat → Bool
  pending : Signal → Bool
  io : Io

/-- What happens next: a statement of the main thread or of a handler on top of it, a signal, a step of the
watchdog of a run, something that a worker does, or a write of a handle. -/
inductive Action
  | install
  | openOutput
  | loaded
  | quit
  | append
  | fork
  | record
  | startWatchdog
  | enterLoop
  | get
  | print
  | flushed
  | error (kept : Nat)
  | stop
  | cleanup
  | terminate
  | sysExit
  | again
  | unwind
  | finish
  | fail
  | launchFails
  | signal (signum : Signal)
  | handle (signum : Signal)
  | handlerTerminates
  | handlerRaises (kept : Nat)
  | wake (r : Nat)
  | check (r : Nat) (badFds : Bool)
  | kill (r : Nat)
  | reload (r : Nat) (restart : Bool)
  | put (i : Nat) (line : String)
  | die (i : Nat)
  | reap (i : Nat)
  | write (k n : Nat)
  deriving DecidableEq, Repr

/-- `smart_open` opens a file, and clears it, unless the name is empty or a dash. -/
def Args.opensFile (args : Args) : Bool := args.outputFile ≠ "" && args.outputFile ≠ "-"

/-- The handle that a run prints to; the standard output is one for all runs. -/
def Args.handleOf (args : Args) (r : Nat) : Nat := if args.opensFile then r else 0

def Status.isAlive : Status → Bool
  | running => true
  | terminated => true
  | dead => false

/-- `terminate()`, of which a process that was sent the signal before, or is gone, takes no notice. -/
def Status.terminate : Status → Status
  | running => terminated
  | status => status

namespace Phase

/-- The phases in which the workers are there on purpose. -/
def Supervised : Phase → Bool
  | launching => true
  | watching => true
  | polling => true
  | holding _ => true
  | printing _ => true
  | erring => true
  | _ => false

/-- The loop that prints the events. -/
def InLoop : Phase → Bool
  | polling => true
  | holding _ => true
  | printing _ => true
  | _ => false

def isExited : Phase → Bool
  | exited _ => true
  | _ => false

/-- An exception has ended `main()`. -/
def Leaving : Phase → Bool
  | unwinding _ => true
  | exiting _ => true
  | exited _ => true
  | _ => false

/-- Where a `RestartSignal` goes: to the handler in `main()` from inside its `try`, and otherwise to the one
outside, where a second one is not caught any more.  An exception at the exit is reported and ignored. -/
def onRestart : Phase → Phase
  | polling => stopping
  | holding _ => stopping
  | printing _ => stopping
  | caught => exiting 1
  | exiting code => exiting code
  | exited code => exited code
  | _ => caught

/-- Where `sys.exit` goes. -/
def onExit (code : Nat) : Phase → Phase
  | caught => exiting code
  | exiting code' => exiting code'
  | exited code' => exited code'
  | _ => unwinding code

end Phase

/-! ## Steps -/

/-- `worker.terminate()` for each worker of a run that can be terminated. -/
def terminateAll (r : Nat) (workers : List Worker) : List Worker :=
  workers.map fun w => if w.run = r ∧ w.recorded = true then { w with status := w.status.terminate } else w

/-- `self._popen` is assigned. -/
def recordAll (r : Nat) (workers : List Worker) : List Worker :=
  workers.map fun w => if w.run = r then { w with recorded := true } else w

/-- `all(worker.is_alive() for worker in probe_workers)`, for the workers of a run. -/
def allAlive (r : Nat) (s : State) : Bool :=
  (s.workers.all fun w => w.run ≠ r || (w.recorded && w.status.isAlive)) &&
    !(s.last = .appended && s.run = r)

/-- A worker changes its status. -/
def setStatus (i : Nat) (status : Status) (workers : List Worker) : List Worker :=
  workers.modify i fun w => { w with status := status }

/-- The element of `probe_workers` that is not recorded has nothing to terminate. -/
def State.Unrecorded (s : State) : Prop := s.last ≠ .recorded ∧ s.handlers = s.run

instance (s : State) : Decidable s.Unrecorded := inferInstanceAs (Decidable (_ ∧ _))

/-- The exception of the handler that is on top would start `main()` over. -/
def State.restarting (s : State) : Bool := s.handling.head?.map (·.signum) = some .SIGHUP

namespace Io

/-- `smart_open`, for a run. -/
def smartOpen (args : Args) (r : Nat) (io : Io) : Io :=
  if args.opensFile then
    { io with
      handles := Function.update io.handles r Handle.opened
      out := []
      opened := r }
  else { io with opened := r }

/-- `print(line, file=out)`: the text goes to the handle. -/
def print (k : Nat) (line : String) (io : Io) : Io :=
  { io with handles := Function.update io.handles k ((io.handles k).put (line.toList ++ ['\n'])) }

/-- Some of the text of a handle reaches the file. -/
def write (k n : Nat) (io : Io) : Io :=
  { io with
    handles := Function.update io.handles k ((io.handles k).drain n)
    out := (io.handles k).drainTo (Char.ofNat 0) n io.out }

/-- An exception comes out of `print` or `flush`, which may drop some of the text that has not been written. -/
def cut (k kept : Nat) (io : Io) : Io :=
  { io with handles := Function.update io.handles k ((io.handles k).cut kept) }

/-- The line is printed and flushed. -/
def flushed (r : Nat) (line : String) (io : Io) : Io :=
  { io with printed := Function.update io.printed r (io.printed r ++ [line]) }

/-- `output_queue.get()`. -/
def get (r : Nat) (rest : List String) (io : Io) : Io :=
  { io with outputQueue := Function.update io.outputQueue r rest }

/-- A worker of the run puts a line on its queue. -/
def put (r : Nat) (line : String) (io : Io) : Io :=
  { io with
    outputQueue := Function.update io.outputQueue r (io.outputQueue r ++ [line])
    puts := Function.update io.puts r (io.puts r ++ [line]) }

end Io

/-- The loop of the handler over the workers.  The element that is not recorded comes last there: an
`AttributeError`, which nobody catches, as it is outside of the `try` that the workers are started. -/
def handlerTerminates (s : State) : Option State :=
  match s.handling with
  | ⟨signum, false⟩ :: outer =>
      let workers := terminateAll s.handlers s.workers
      if s.Unrecorded then
        some { s with workers := workers, handling := [], phase := s.phase.onExit 1 }
      else some { s with workers := workers, handling := ⟨signum, true⟩ :: outer }
  | _ => none

/-- The end of the handler, which the other handlers and the main thread leave with its exception. -/
def handlerRaises (args : Args) (kept : Nat) (s : State) : Option State :=
  match s.handling with
  | ⟨signum, true⟩ :: _ =>
      some { s with
        handling := []
        phase := if signum = .SIGHUP then s.phase.onRestart else s.phase.onExit s.exitCode
        io := s.io.cut (args.handleOf s.run) kept }
  | _ => none

def init : State where
  phase := .configuring
  handling := []
  run := 0
  handlers := 0
  restartAttempts := 0
  exitCode := 0
  workers := []
  last := .recorded
  watchdog _ := .absent
  doStop _ := false
  pending _ := false
  io := ⟨fun _ => [], fun _ => .opened, [], 0, fun _ => [], fun _ => []⟩

/-- A statement of the main thread; none is executed while a handler runs. -/
def mainStep (args : Args) (s : State) : Action → Option State
  | .install =>
      if s.phase = .starting then some { s with handlers := s.run, phase := .configuring } else none
  | .openOutput =>
      if s.phase = .configuring then some { s with phase := .loading, io := s.io.smartOpen args s.run } else none
  | .loaded =>
      if s.phase = .loading ∧ args.printAndQuit = false then some { s with phase := .launching } else none
  -- `sys.exit(0)` after the programs were printed.
  | .quit =>
      if s.phase = .loading ∧ args.printAndQuit = true then some { s with phase := .unwinding 0 } else none
  | .append =>
      -- The process object is on the list before it has been started.
      if s.phase = .launching ∧ s.last = .recorded then some { s with last := .appended } else none
  | .fork =>
      -- `os.fork()`; `_popen` is still `None`.
      if s.phase = .launching ∧ s.last = .appended then
        some { s with last := .forked, workers := s.workers ++ [⟨s.run, .running, false⟩] }
      else none
  | .record =>
      if s.phase = .launching ∧ s.last = .forked then
        some { s with last := .recorded, workers := recordAll s.run s.workers }
      else none
  | .startWatchdog =>
      if s.phase = .launching ∧ s.last = .recorded then
        some { s with phase := .watching, watchdog := Function.update s.watchdog s.run .asleep }
      else none
  | .enterLoop => if s.phase = .watching then some { s with phase := .polling } else none
  | .get =>
      if s.phase = .polling then
        match s.io.outputQueue s.run with
        | [] => none
        | line :: rest => some { s with phase := .holding line, io := s.io.get s.run rest }
      else none
  | .print =>
      match s.phase with
      | .holding line => some { s with phase := .printing line, io := s.io.print (args.handleOf s.run) line }
      | _ => none
  | .flushed =>
      match s.phase with
      | .printing line =>
          -- `flush` has returned.
          if (s.io.handles (args.handleOf s.run)).buffer = [] then
            some { s with phase := .polling, io := s.io.flushed s.run line }
          else none
      | _ => none
  -- An exception of a statement in the loop.
  | .error kept =>
      if s.phase.InLoop then
        some { s with phase := .erring, exitCode := 1, io := s.io.cut (args.handleOf s.run) kept }
      else none
  | .terminate =>
      if s.phase = .erring then some { s with phase := .erred, workers := terminateAll s.run s.workers }
      else none
  | .sysExit => if s.phase = .erred then some { s with phase := .unwinding s.exitCode } else none
  | .stop =>
      if s.phase = .stopping then
        some { s with phase := .cleaning, doStop := Function.update s.doStop s.run true }
      else none
  | .cleanup => if s.phase = .cleaning then some { s with phase := .caught } else none
  | .again =>
      if s.phase = .caught then
        if s.restartAttempts + 1 < Config.MAX_RESTARTS then
          some { s with
            phase := .starting
            run := s.run + 1
            restartAttempts := s.restartAttempts + 1 }
        else some { s with phase := .exiting 0, restartAttempts := s.restartAttempts + 1 }
      else none
  | .unwind =>
      match s.phase with
      | .unwinding code => some { s with phase := .exiting code }
      | _ => none
  -- The wait for the workers at the exit may be cut short by the exception of a handler.
  | .finish =>
      match s.phase with
      | .exiting code => some { s with phase := .exited code }
      | _ => none
  -- An exception of `setup_config`, of `smart_open` or of `load_probes`.
  | .fail =>
      if s.phase = .configuring ∨ s.phase = .loading then some { s with phase := .unwinding 1 } else none
  -- A process or the watchdog thread cannot be started.
  | .launchFails =>
      if s.phase = .launching ∧ s.last ≠ .forked then some { s with phase := .unwinding 1 } else none
  | _ => none

/-- One step; `none` if it cannot be taken. -/
def step (args : Args) (s : State) : Action → Option State
  | .signal signum =>
      if s.phase.isExited then none
      else some { s with pending := Function.update s.pending signum true }
  | .handle signum =>
      if s.phase.isExited = false ∧ s.pending signum = true then
        some { s with
          pending := Function.update s.pending signum false
          handling := ⟨signum, false⟩ :: s.handling }
      else none
  | .handlerTerminates => handlerTerminates s
  | .handlerRaises kept => handlerRaises args kept s
  | .wake r =>
      if s.phase.isExited = false ∧ s.watchdog r = .asleep then
        some { s with
          watchdog := Function.update s.watchdog r (if s.doStop r then .ended else .checking) }
      else none
  | .check r badFds =>
      if s.phase.isExited = false ∧ s.watchdog r = .checking then
        if allAlive r s = false ∨ badFds = true then
          -- `EXIT_CODE` is set before the signal is sent.
          some { s with exitCode := 1, watchdog := Function.update s.watchdog r .failing }
        else
          some { s with
            watchdog := Function.update s.watchdog r
              (if args.watchConfig then .reloading else .asleep) }
      else none
  | .kill r =>
      if s.phase.isExited = false ∧ s.watchdog r = .failing then
        some { s with
          pending := Function.update s.pending .SIGTERM true
          watchdog := Function.update s.watchdog r .ended }
      else none
  | .reload r restart =>
      if s.phase.isExited = false ∧ s.watchdog r = .reloading then
        some { s with
          watchdog := Function.update s.watchdog r .asleep
          -- A parse restarts the process by itself, or because it raised.
          pending := if restart then Function.update s.pending .SIGHUP true else s.pending }
      else none
  | .put i line =>
      match s.workers[i]? with
      | none => none
      | some w => if w.status.isAlive then some { s with io := s.io.put w.run line } else none
  | .die i =>
      if (s.workers[i]?.map (·.status)) = some .running then
        some { s with workers := setStatus i .dead s.workers }
      else none
  | .reap i =>
      if (s.workers[i]?.map (·.status)) = some .terminated then
        some { s with workers := setStatus i .dead s.workers }
      else none
  -- By `print` or `flush`, when a handle that nobody has any more is closed, or at the exit.
  | .write k n => if s.phase.isExited then none else some { s with io := s.io.write k n }
  | a => if s.handling = [] then mainStep args s a else none

/-! ## What a step can do -/

/-- The statements of the main thread, each with what lets it be executed. -/
inductive MainTransition (args : Args) (s : State) : Action → State → Prop
  | install (hphase : s.phase = .starting) :
      MainTransition args s .install { s with handlers := s.run, phase := .configuring }
  | openOutput (hphase : s.phase = .configuring) :
      MainTransition args s .openOutput { s with phase := .loading, io := s.io.smartOpen args s.run }
  | loaded (hphase : s.phase = .loading) : MainTransition args s .loaded { s with phase := .launching }
  | quit (hphase : s.phase = .loading) : MainTransition args s .quit { s with phase := .unwinding 0 }
  | append (hphase : s.phase = .launching) (hlast : s.last = .recorded) :
      MainTransition args s .append { s with last := .appended }
  | fork (hphase : s.phase = .launching) (hlast : s.last = .appended) :
      MainTransition args s .fork
        { s with last := .forked, workers := s.workers ++ [⟨s.run, .running, false⟩] }
  | record (hphase : s.phase = .launching) (hlast : s.last = .forked) :
      MainTransition args s .record { s with last := .recorded, workers := recordAll s.run s.workers }
  | startWatchdog (hphase : s.phase = .launching) (hlast : s.last = .recorded) :
      MainTransition args s .startWatchdog
        { s with phase := .watching, watchdog := Function.update s.watchdog s.run .asleep }
  | enterLoop (hphase : s.phase = .watching) : MainTransition args s .enterLoop { s with phase := .polling }
  | get {line : String} {rest : List String} (hphase : s.phase = .polling)
      (hqueue : s.io.outputQueue s.run = line :: rest) :
      MainTransition args s .get { s with phase := .holding line, io := s.io.get s.run rest }
  | print {line : String} (hphase : s.phase = .holding line) :
      MainTransition args s .print
        { s with phase := .printing line, io := s.io.print (args.handleOf s.run) line }
  | flushed {line : String} (hphase : s.phase = .printing line)
      (hbuffer : (s.io.handles (args.handleOf s.run)).buffer = []) :
      MainTransition args s .flushed { s with phase := .polling, io := s.io.flushed s.run line }
  | error {kept : Nat} (hphase : s.phase.InLoop = true) :
      MainTransition args s (.error kept)
        { s with phase := .erring, exitCode := 1, io := s.io.cut (args.handleOf s.run) kept }
  | terminate (hphase : s.phase = .erring) :
      MainTransition args s .terminate { s with phase := .erred, workers := terminateAll s.run s.workers }
  | sysExit (hphase : s.phase = .erred) :
      MainTransition args s .sysExit { s with phase := .unwinding s.exitCode }
  | stop (hphase : s.phase = .stopping) :
      MainTransition args s .stop
        { s with phase := .cleaning, doStop := Function.update s.doStop s.run true }
  | cleanup (hphase : s.phase = .cleaning) : MainTransition args s .cleanup { s with phase := .caught }
  | again (hphase : s.phase = .caught) (hless : s.restartAttempts + 1 < Config.MAX_RESTARTS) :
      MainTransition args s .again
        { s with phase := .starting, run := s.run + 1, restartAttempts := s.restartAttempts + 1 }
  | lastAttempt (hphase : s.phase = .caught) (hmax : Config.MAX_RESTARTS ≤ s.restartAttempts + 1) :
      MainTransition args s .again
        { s with phase := .exiting 0, restartAttempts := s.restartAttempts + 1 }
  | unwind {code : Nat} (hphase : s.phase = .unwinding code) :
      MainTransition args s .unwind { s with phase := .exiting code }
  | finish {code : Nat} (hphase : s.phase = .exiting code) :
      MainTransition args s .finish { s with phase := .exited code }
  | fail (hphase : s.phase = .configuring ∨ s.phase = .loading) :
      MainTransition args s .fail { s with phase := .unwinding 1 }
  | launchFails (hphase : s.phase = .launching) (hlast : s.last ≠ .forked) :
      MainTransition args s .launchFails { s with phase := .unwinding 1 }

/-- The steps, each with what lets it be taken. -/
inductive Transition (args : Args) (s : State) : Action → State → Prop
  | main {a : Action} {s' : State} (hfree : s.handling = []) (hmain : MainTransition args s a s') :
      Transition args s a s'
  | signal {signum : Signal} (hlive : s.phase.isExited = false) :
      Transition args s (.signal signum) { s with pending := Function.update s.pending signum true }
  | handle {signum : Signal} (hlive : s.phase.isExited = false) (hpending : s.pending signum = true) :
      Transition args s (.handle signum)
        { s with
          pending := Function.update s.pending signum false
          handling := ⟨signum, false⟩ :: s.handling }
  | terminates {signum : Signal} {outer : List Handler} (hhandling : s.handling = ⟨signum, false⟩ :: outer)
      (hrecorded : ¬ s.Unrecorded) :
      Transition args s .handlerTerminates
        { s with
          workers := terminateAll s.handlers s.workers
          handling := ⟨signum, true⟩ :: outer }
  | attributeError {signum : Signal} {outer : List Handler} (hhandling : s.handling = ⟨signum, false⟩ :: outer)
      (hunrecorded : s.Unrecorded) :
      Transition args s .handlerTerminates
        { s with
          workers := terminateAll s.handlers s.workers
          handling := []
          phase := s.phase.onExit 1 }
  | restart {outer : List Handler} {kept : Nat} (hhandling : s.handling = ⟨.SIGHUP, true⟩ :: outer) :
      Transition args s (.handlerRaises kept)
        { s with
          handling := []
          phase := s.phase.onRestart
          io := s.io.cut (args.handleOf s.run) kept }
  | exit {signum : Signal} {outer : List Handler} {kept : Nat} (hsignum : signum ≠ .SIGHUP)
      (hhandling : s.handling = ⟨signum, true⟩ :: outer) :
      Transition args s (.handlerRaises kept)
        { s with
          handling := []
          phase := s.phase.onExit s.exitCode
          io := s.io.cut (args.handleOf s.run) kept }
  | wake {r : Nat} (hlive : s.phase.isExited = false) (hasleep : s.watchdog r = .asleep) :
      Transition args s (.wake r)
        { s with watchdog := Function.update s.watchdog r (if s.doStop r then .ended else .checking) }
  | alarm {r : Nat} {badFds : Bool} (hlive : s.phase.isExited = false)
      (hchecking : s.watchdog r = .checking) (hbad : allAlive r s = false ∨ badFds = true) :
      Transition args s (.check r badFds)
        { s with exitCode := 1, watchdog := Function.update s.watchdog r .failing }
  | healthy {r : Nat} (hlive : s.phase.isExited = false) (hchecking : s.watchdog r = .checking)
      (halive : allAlive r s = true) :
      Transition args s (.check r false)
        { s with
          watchdog := Function.update s.watchdog r (if args.watchConfig then .reloading else .asleep) }
  | kill {r : Nat} (hlive : s.phase.isExited = false) (hfailing : s.watchdog r = .failing) :
      Transition args s (.kill r)
        { s with
          pending := Function.update s.pending .SIGTERM true
          watchdog := Function.update s.watchdog r .ended }
  | reload {r : Nat} {restart : Bool} (hlive : s.phase.isExited = false)
      (hreloading : s.watchdog r = .reloading) :
      Transition args s (.reload r restart)
        { s with
          watchdog := Function.update s.watchdog r .asleep
          pending := if restart then Function.update s.pending .SIGHUP true else s.pending }
  | put {i : Nat} {line : String} {w : Worker} (hworker : s.workers[i]? = some w)
      (halive : w.status.isAlive = true) :
      Transition args s (.put i line) { s with io := s.io.put w.run line }
  | die {i : Nat} {w : Worker} (hworker : s.workers[i]? = some w) (hrunning : w.status = .running) :
      Transition args s (.die i) { s with workers := setStatus i .dead s.workers }
  | reap {i : Nat} {w : Worker} (hworker : s.workers[i]? = some w) (hterminated : w.status = .terminated) :
      Transition args s (.reap i) { s with workers := setStatus i .dead s.workers }
  | write {k n : Nat} (hlive : s.phase.isExited = false) :
      Transition args s (.write k n) { s with io := s.io.write k n }

theorem mainTransition_of_mainStep {args : Args} {s s' : State} {a : Action} (h : mainStep args s a = some s') :
    MainTransition args s a s' := by
  cases a with
  | install =>
      simp only [mainStep, Option.ite_none_right_eq_some, Option.some.injEq] at h
      rcases h with ⟨hphase, rfl⟩
      exact .install hphase
  | openOutput =>
      simp only [mainStep, Option.ite_none_right_eq_some, Option.some.injEq] at h
      rcases h with ⟨hphase, rfl⟩
      exact .openOutput hphase
  | loaded =>
      simp only [mainStep, Option.ite_none_right_eq_some, Option.some.injEq] at h
      rcases h with ⟨⟨hphase, _⟩, rfl⟩
      exact .loaded hphase
  | quit =>
      simp only [mainStep, Option.ite_none_right_eq_some, Option.some.injEq] at h
      rcases h with ⟨⟨hphase, _⟩, rfl⟩
      exact .quit hphase
  | append =>
      simp only [mainStep, Option.ite_none_right_eq_some, Option.some.injEq] at h
      rcases h with ⟨⟨hphase, hlast⟩, rfl⟩
      exact .append hphase hlast
  | fork =>
      simp only [mainStep, Option.ite_none_right_eq_some, Option.some.injEq] at h
      rcases h with ⟨⟨hphase, hlast⟩, rfl⟩
      exact .fork hphase hlast
  | record =>
      simp only [mainStep, Option.ite_none_right_eq_some, Option.some.injEq] at h
      rcases h with ⟨⟨hphase, hlast⟩, rfl⟩
      exact .record hphase hlast
  | startWatchdog =>
      simp only [mainStep, Option.ite_none_right_eq_some, Option.some.injEq] at h
      rcases h with ⟨⟨hphase, hlast⟩, rfl⟩
      exact .startWatchdog hphase hlast
  | enterLoop =>
      simp only [mainStep, Option.ite_none_right_eq_some, Option.some.injEq] at h
      rcases h with ⟨hphase, rfl⟩
      exact .enterLoop hphase
  | get =>
      simp only [mainStep, Option.ite_none_right_eq_some] at h
      rcases h with ⟨hphase, h⟩
      cases hqueue : s.io.outputQueue s.run with
      | nil => simp [hqueue] at h
      | cons line rest =>
          simp only [hqueue, Option.some.injEq] at h
          subst h
          exact .get hphase hqueue
  | print =>
      cases hphase : s.phase with
      | holding line =>
          simp only [mainStep, hphase, Option.some.injEq] at h
          subst h
          exact .print hphase
      | _ => simp [mainStep, hphase] at h
  | flushed =>
      cases hphase : s.phase with
      | printing line =>
          simp only [mainStep, hphase, Option.ite_none_right_eq_some, Option.some.injEq] at h
          rcases h with ⟨hbuffer, rfl⟩
          exact .flushed hphase hbuffer
      | _ => simp [mainStep, hphase] at h
  | error kept =>
      simp only [mainStep, Option.ite_none_right_eq_some, Option.some.injEq] at h
      rcases h with ⟨hphase, rfl⟩
      exact .error hphase
  | terminate =>
      simp only [mainStep, Option.ite_none_right_eq_some, Option.some.injEq] at h
      rcases h with ⟨hphase, rfl⟩
      exact .terminate hphase
  | sysExit =>
      simp only [mainStep, Option.ite_none_right_eq_some, Option.some.injEq] at h
      rcases h with ⟨hphase, rfl⟩
      exact .sysExit hphase
  | stop =>
      simp only [mainStep, Option.ite_none_right_eq_some, Option.some.injEq] at h
      rcases h with ⟨hphase, rfl⟩
      exact .stop hphase
  | cleanup =>
      simp only [mainStep, Option.ite_none_right_eq_some, Option.some.injEq] at h
      rcases h with ⟨hphase, rfl⟩
      exact .cleanup hphase
  | again =>
      simp only [mainStep, Option.ite_none_right_eq_some] at h
      rcases h with ⟨hphase, h⟩
      split at h
      · cases h
        exact .again hphase ‹_›
      · cases h
        exact .lastAttempt hphase (Nat.le_of_not_lt ‹_›)
  | unwind =>
      cases hphase : s.phase with
      | unwinding code =>
          simp only [mainStep, hphase, Option.some.injEq] at h
          subst h
          exact .unwind hphase
      | _ => simp [mainStep, hphase] at h
  | finish =>
      cases hphase : s.phase with
      | exiting code =>
          simp only [mainStep, hphase, Option.some.injEq] at h
          subst h
          exact .finish hphase
      | _ => simp [mainStep, hphase] at h
  | fail =>
      simp only [mainStep, Option.ite_none_right_eq_some, Option.some.injEq] at h
      rcases h with ⟨hphase, rfl⟩
      exact .fail hphase
  | launchFails =>
      simp only [mainStep, Option.ite_none_right_eq_some, Option.some.injEq] at h
      rcases h with ⟨⟨hphase, hlast⟩, rfl⟩
      exact .launchFails hphase hlast
  | _ => simp [mainStep] at h

/-- The handler is in its loop over the workers. -/
theorem transition_of_handlerTerminates {args : Args} {s s' : State} (h : handlerTerminates s = some s') :
    Transition args s .handlerTerminates s' := by
  unfold handlerTerminates at h
  split at h
  · rename_i signum outer hhandling
    by_cases hunrecorded : s.Unrecorded
    · simp only [if_pos hunrecorded, Option.some.injEq] at h
      subst h
      exact .attributeError hhandling hunrecorded
    · simp only [if_neg hunrecorded, Option.some.injEq] at h
      subst h
      exact .terminates hhandling hunrecorded
  · cases h

/-- The handler is at its end. -/
theorem transition_of_handlerRaises {args : Args} {s s' : State} {kept : Nat}
    (h : handlerRaises args kept s = some s') : Transition args s (.handlerRaises kept) s' := by
  unfold handlerRaises at h
  split at h
  · rename_i signum outer hhandling
    by_cases hsignum : signum = .SIGHUP
    · subst hsignum
      simp only [if_true, Option.some.injEq] at h
      subst h
      exact .restart hhandling
    · simp only [if_neg hsignum, Option.some.injEq] at h
      subst h
      exact .exit hsignum hhandling
  · cases h

theorem transition_of_step {args : Args} {s s' : State} {a : Action} (h : step args s a = some s') :
    Transition args s a s' := by
  have hmain : (if s.handling = [] then mainStep args s a else none) = some s' → Transition args s a s' := by
    intro h
    simp only [Option.ite_none_right_eq_some] at h
    exact .main h.1 (mainTransition_of_mainStep h.2)
  cases a with
  | signal signum =>
      cases hexited : s.phase.isExited with
      | true => simp [step, hexited] at h
      | false =>
          simp only [step, hexited, Bool.false_eq_true, if_false, Option.some.injEq] at h
          subst h
          exact .signal hexited
  | handle signum =>
      simp only [step, Option.ite_none_right_eq_some, Option.some.injEq] at h
      rcases h with ⟨⟨hlive, hpending⟩, rfl⟩
      exact .handle hlive hpending
  | handlerTerminates => exact transition_of_handlerTerminates h
  | handlerRaises kept => exact transition_of_handlerRaises h
  | wake r =>
      simp only [step, Option.ite_none_right_eq_some, Option.some.injEq] at h
      rcases h with ⟨⟨hlive, hasleep⟩, rfl⟩
      exact .wake hlive hasleep
  | check r badFds =>
      simp only [step, Option.ite_none_right_eq_some] at h
      rcases h with ⟨⟨hlive, hchecking⟩, h⟩
      by_cases hbad : allAlive r s = false ∨ badFds = true
      · rw [if_pos hbad] at h
        cases h
        exact .alarm hlive hchecking hbad
      · rw [if_neg hbad] at h
        cases h
        rw [not_or, Bool.not_eq_false, Bool.not_eq_true] at hbad
        rcases hbad with ⟨halive, rfl⟩
        exact .healthy hlive hchecking halive
  | kill r =>
      simp only [step, Option.ite_none_right_eq_some, Option.some.injEq] at h
      rcases h with ⟨⟨hlive, hfailing⟩, rfl⟩
      exact .kill hlive hfailing
  | reload r restart =>
      simp only [step, Option.ite_none_right_eq_some, Option.some.injEq] at h
      rcases h with ⟨⟨hlive, hreloading⟩, rfl⟩
      exact .reload hlive hreloading
  | put i line =>
      cases hworker : s.workers[i]? with
      | none => simp [step, hworker] at h
      | some w =>
          simp only [step, hworker, Option.ite_none_right_eq_some, Option.some.injEq] at h
          rcases h with ⟨halive, rfl⟩
          exact .put hworker halive
  | die i =>
      simp only [step, Option.ite_none_right_eq_some, Option.some.injEq] at h
      rcases h with ⟨hstatus, rfl⟩
      rcases Option.map_eq_some_iff.1 hstatus with ⟨w, hworker, hrunning⟩
      exact .die hworker hrunning
  | reap i =>
      simp only [step, Option.ite_none_right_eq_some, Option.some.injEq] at h
      rcases h with ⟨hstatus, rfl⟩
      rcases Option.map_eq_some_iff.1 hstatus with ⟨w, hworker, hterminated⟩
      exact .reap hworker hterminated
  | write k n =>
      cases hexited : s.phase.isExited with
      | true => simp [step, hexited] at h
      | false =>
          simp only [step, hexited, Bool.false_eq_true, if_false, Option.some.injEq] at h
          subst h
          exact .write hexited
  | _ => exact hmain h

end Main

end PidtreeBcc
