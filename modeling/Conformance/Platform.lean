import Conformance.Discovery
import Conformance.ExitState
import Conformance.IoError
import Conformance.Time
/-!
# What a run asks of its platform

A run looks at files, starts programs and watches them. All that it asks of the system it runs on is
gathered here as a list of operations on a state that it knows nothing about, so a run is the same
function whatever carries it out: a machine that is simulated, a script of prepared answers, or
another platform with a record kept of every call.

## Children

A child is a program that was started in a process group of its own, with nothing on its standard
input and with two pipes for its output. A *reader* drains each pipe on a thread of its own, and has
its text once every process that can still write to the pipe has closed it. The system may have no
thread left for a reader. The child, the group and the readers are watched and ended by separate
operations.
-/

namespace Conformance

/-- A child that was started. -/
structure Child where
  /-- Its process number, which is also that of its process group. -/
  pid : Nat
  deriving DecidableEq, Repr

/-- The two output pipes of a child. -/
inductive OutputPipe where
  | stdout
  | stderr
  deriving DecidableEq, Repr

/-- What waiting for a reader gives. -/
inductive Received where
  /-- The whole text of the pipe. -/
  | text (s : String)
  /-- Reading the pipe failed. -/
  | failed (error : IoError)
  /-- The reader ended without a word. -/
  | vanished
  /-- The time was over before anything came. -/
  | nothing
  deriving DecidableEq, Repr

/-- What a program that ran to its end left behind. -/
structure Completed where
  /-- The raw wait status. -/
  status : UInt32
  stdout : String
  stderr : String
  deriving DecidableEq, Repr

/-- The operations that a run asks for, on a state of type `σ`. -/
structure Platform (σ : Type) where
  /-- Reads the monotonic clock. -/
  now : StateM σ Instant
  /-- Lets a number of nanoseconds pass. -/
  pause : Nat → StateM σ Unit
  /-- Starts a program with its arguments as a child. -/
  spawn : Path → List String → StateM σ (Except IoError Child)
  /-- Starts the reader of a pipe, if the system has a thread for it. -/
  startReader : Child → OutputPipe → StateM σ Bool
  /-- Asks, without waiting, for the raw wait status of a child. -/
  poll : Child → StateM σ (Except IoError (Option UInt32))
  /-- Waits for a reader, at most a number of nanoseconds. -/
  receive : Child → OutputPipe → Nat → StateM σ Received
  /-- Whether a reader has ended. -/
  isDrained : Child → OutputPipe → StateM σ Bool
  /-- Kills all processes of the group of a child. -/
  killGroup : Child → StateM σ Unit
  /-- Kills a child, unless its end was already seen. -/
  killChild : Child → StateM σ Unit
  /-- Waits until a child has ended, and lets the system forget it. -/
  reap : Child → StateM σ Unit
  /-- Runs a program to its end, with nothing on its standard input. -/
  runToEnd : Path → List String → StateM σ (Except IoError Completed)
  /-- Whether a path leads to a regular file. -/
  isFile : Path → StateM σ Bool
  /-- Whether a path leads anywhere. -/
  isPresent : Path → StateM σ Bool
  /-- What a directory lists, with all that is below it. -/
  listing : Path → StateM σ (Option (List (String × Entry)))
  /-- Reads a text file. -/
  readText : Path → StateM σ (Except IoError String)
  /-- Writes a text file. -/
  writeText : Path → String → StateM σ (Except IoError Unit)
  /-- Prints to the standard output. -/
  print : String → StateM σ Unit

namespace Platform

variable {σ τ : Type}

/-- An operation on the first half of a state, which leaves the second half as it is. -/
def onFirst {α : Type} (x : StateM σ α) : StateM (σ × τ) α := fun (s, t) ↦
  let (a, s) := x s
  (a, s, t)

/-- A platform with something else kept beside its state. -/
def withExtra (p : Platform σ) : Platform (σ × τ) where
  now := onFirst p.now
  pause nanos := onFirst (p.pause nanos)
  spawn program arguments := onFirst (p.spawn program arguments)
  startReader child pipe := onFirst (p.startReader child pipe)
  poll child := onFirst (p.poll child)
  receive child pipe nanos := onFirst (p.receive child pipe nanos)
  isDrained child pipe := onFirst (p.isDrained child pipe)
  killGroup child := onFirst (p.killGroup child)
  killChild child := onFirst (p.killChild child)
  reap child := onFirst (p.reap child)
  runToEnd program arguments := onFirst (p.runToEnd program arguments)
  isFile path := onFirst (p.isFile path)
  isPresent path := onFirst (p.isPresent path)
  listing path := onFirst (p.listing path)
  readText path := onFirst (p.readText path)
  writeText path text := onFirst (p.writeText path text)
  print s := onFirst (p.print s)

end Platform

end Conformance
