/-!
# Crashes

The arithmetic that a run relies on is bounded: counters have 64 bits, and so do the seconds of
durations and of the clock. Where a result would not fit the program stops at once, whatever it was
doing. So it does where the system has no thread left for a reader. Waiting is bounded by the clock,
so the program stops too if the clock fails to move. A `Crash` says which bound was met.
-/

namespace Conformance

/-- Why the program stopped without an answer. -/
inductive Crash where
  /-- A counter went past its greatest value. -/
  | counterOverflow
  /-- The seconds of a duration do not fit. -/
  | durationOverflow
  /-- A deadline lies past the end of the clock. -/
  | deadlineOverflow
  /-- The system has no thread for a reader. -/
  | readerRefused
  /-- The clock stood still while time should have passed. -/
  | clockStalled
  deriving DecidableEq, Repr

def Crash.message : Crash → String
  | .counterOverflow => "attempt to add with overflow"
  | .durationOverflow => "overflow in Duration::new"
  | .deadlineOverflow => "overflow when adding duration to instant"
  | .readerRefused =>
    "failed to spawn thread: Os \x7b code: 11, kind: WouldBlock, " ++
      "message: \"Resource temporarily unavailable\" \x7d"
  | .clockStalled => "clock stalled"

def Crash.exitCode : Int := 101

end Conformance
