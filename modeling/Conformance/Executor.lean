import Conformance.Outcome
import Conformance.Platform
/-!
# Running a single test

The executor starts the target on one test and a reader for each of its pipes. It waits until the
child has ended and both its pipes are read, or until the time limit, and cleans up: the process group
is killed and the child reaped, whatever the wait came to. Whatever goes wrong with the test becomes
its outcome.

There are two things that it does not get over, a deadline past the end of the clock and a reader that
cannot be started. Both are crashes. One that comes before the wait leaves the child as it is.

The child is polled every ten milliseconds. A loop of polls is bounded by the time that is left, and
so it ends if the clock moves as it should; if the clock fails to, the wait is given up as stalled.
-/

namespace Conformance

/-- How the wait for a child ended. -/
inductive Completion where
  | exited (run : Finished)
  | timedOut
  deriving DecidableEq, Repr

/-- Why a wait for a child gave no answer. -/
inductive WaitError where
  | io (error : IoError)
  /-- The clock did not move while the executor paused. -/
  | stalled
  deriving DecidableEq, Repr

/-- How tests are run. -/
structure Executor where
  /-- The program under test. -/
  target : Path
  /-- The limit for one test. -/
  timeout : Duration
  /-- Printed by a target that read the test but did not run it. -/
  notExecutedMarker : String
  deriving DecidableEq, Repr

namespace Executor

variable {σ : Type}

/-- The time between two polls in nanoseconds. -/
def pollInterval : Nat := 10 * nanosPerMilli

/-- How long a reader may take to see its pipe close after the group was killed. -/
def readerGrace : Duration := .ofMillis 500

/-- How many polls fit into a span of time, one at each end included. -/
def pollsWithin (nanos : Nat) : Nat := (nanos + (pollInterval - 1)) / pollInterval + 1

/-! ## Starting the readers -/

def startReaders (p : Platform σ) (child : Child) : StateM σ (Except Crash Unit) := do
  if ← p.startReader child .stdout then
    if ← p.startReader child .stderr then return .ok ()
    else return .error .readerRefused
  else return .error .readerRefused

/-! ## Waiting -/

/-- Polls a child until it has ended or the deadline is reached. -/
def awaitExit (p : Platform σ) (child : Child) (deadline : Instant) :
    Nat → StateM σ (Except WaitError (Option UInt32))
  | 0 => return .error .stalled
  | polls + 1 => do
    match ← p.poll child with
    | .error e => return .error (.io e)
    | .ok (some status) => return .ok (some status)
    | .ok none =>
      if deadline.nanos ≤ (← p.now).nanos then return .ok none
      p.pause pollInterval
      awaitExit p child deadline polls

/-- Waits for the text of a pipe until the deadline. -/
def awaitText (p : Platform σ) (child : Child) (pipe : OutputPipe) (deadline : Instant) :
    StateM σ (Except WaitError (Option String)) := do
  match ← p.receive child pipe ((← p.now).remaining deadline) with
  | .text s => return .ok (some s)
  | .failed e => return .error (.io e)
  | .vanished => return .error (.io (.other "output reader exited without a result"))
  | .nothing => return .ok none

/-- Waits for a child and for both its pipes. A descendant may hold a pipe open after the child has
ended; then the limit applies all the same. -/
def await (p : Platform σ) (child : Child) (deadline : Instant) (polls : Nat) :
    StateM σ (Except WaitError Completion) := do
  match ← awaitExit p child deadline polls with
  | .error e => return .error e
  | .ok none => return .ok .timedOut
  | .ok (some status) =>
    match ← awaitText p child .stdout deadline with
    | .error e => return .error e
    | .ok none => return .ok .timedOut
    | .ok (some stdout) =>
      match ← awaitText p child .stderr deadline with
      | .error e => return .error e
      | .ok none => return .ok .timedOut
      | .ok (some stderr) => return .ok (.exited ⟨.ofRaw status, stdout, stderr⟩)

/-! ## Cleaning up -/

/-- Waits until a reader has ended or the deadline is reached. -/
def joinUntil (p : Platform σ) (child : Child) (pipe : OutputPipe) (deadline : Instant) :
    Nat → StateM σ Unit
  | 0 => return
  | checks + 1 => do
    if ← p.isDrained child pipe then return
    if deadline.nanos ≤ (← p.now).nanos then return
    p.pause pollInterval
    joinUntil p child pipe deadline checks

/-- Ends a child and all that is left of its group. -/
def terminate (p : Platform σ) (child : Child) : StateM σ Unit := do
  p.killGroup child
  p.killChild child
  p.reap child

/-- Gives a reader some time to end. Only a process that has left the group can still hold its pipe
open then. -/
def join (p : Platform σ) (child : Child) (pipe : OutputPipe) : StateM σ (Except Crash Unit) := do
  let start ← p.now
  match start.add? readerGrace with
  | none => return .error .deadlineOverflow
  | some deadline =>
    joinUntil p child pipe deadline (pollsWithin readerGrace.toNanos)
    return .ok ()

def joinReaders (p : Platform σ) (child : Child) : StateM σ (Except Crash Unit) := do
  match ← join p child .stdout with
  | .error e => return .error e
  | .ok () => join p child .stderr

/-! ## Running -/

/-- What became of a test, from how the wait for it ended. -/
def outcomeOf (x : Executor) (test : String) : Except WaitError Completion → Except Crash Outcome
  | .ok (.exited run) => .ok (run.outcome test x.notExecutedMarker)
  | .ok .timedOut => .ok (.timeout test x.timeout)
  | .error (.io e) => .ok (.fail test e.message)
  | .error .stalled => .error .clockStalled

def run (x : Executor) (p : Platform σ) (case : TestCase) : StateM σ (Except Crash Outcome) := do
  match ← p.spawn x.target [case.path.text] with
  | .error e => return .ok (.fail case.id e.message)
  | .ok child =>
    let start ← p.now
    match start.add? x.timeout with
    | none => return .error .deadlineOverflow
    | some deadline =>
      match ← startReaders p child with
      | .error e => return .error e
      | .ok () =>
        let completion ← await p child deadline (pollsWithin x.timeout.toNanos)
        terminate p child
        match ← joinReaders p child with
        | .error e => return .error e
        | .ok () => return x.outcomeOf case.id completion

end Executor

end Conformance
